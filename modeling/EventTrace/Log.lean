/-! Log entries. They are values: what a step of the work has to say is part of its result. -/
namespace EventTrace.Log

inductive Level
  | error
  | warn
  | info
  | debug
  | trace
  deriving DecidableEq, Repr

def Level.name : Level → String
  | .error => "ERROR"
  | .warn => "WARN"
  | .info => "INFO"
  | .debug => "DEBUG"
  | .trace => "TRACE"

def Level.rank : Level → Nat
  | .error => 1
  | .warn => 2
  | .info => 3
  | .debug => 4
  | .trace => 5

inductive Topic
  | records
  | sources
  | typedefs
  | events
  | timeBase
  | intervals
  | run
  | command
  | settings
  deriving DecidableEq, Repr

def Topic.target : Topic → String
  | .records => "evr_log_decoder::formats::record"
  | .sources => "evr_log_decoder::formats"
  | .typedefs => "evr_log_decoder::schema::typedef"
  | .events => "evr_log_decoder::schema::events"
  | .timeBase => "evr_log_decoder::timebase"
  | .intervals => "evr_log_decoder::statistics"
  | .run => "evr_log_decoder::pipeline"
  | .command => "evr_log"
  | .settings => "evr_log::config"

structure Entry where
  level : Level
  topic : Topic
  message : String
  deriving DecidableEq, Repr

def Entry.line (e : Entry) : String := s!"[{e.level.name} {e.topic.target}] {e.message}"

end EventTrace.Log
