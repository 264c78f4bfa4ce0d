import EventTrace.CommandLine.Configuration
import EventTrace.CommandLine.Script
import EventTrace.Decimal
import EventTrace.Run.Basic
import EventTrace.Schema.Document
import EventTrace.Text.Utf8
import EventTrace.Toml.Document
/-! The command: loads the documents it was told to, runs, and hands the report over. -/
namespace EventTrace.CommandLine

def load {α : Type} (document : Document) (path : String) (read : Datum → Option α) : Script α := do
  match ← Script.bytes path with
  | .error reason => .ofExcept (.error (.unreadable document path reason))
  | .ok bytes =>
    match Text.Utf8.decode? bytes with
    | none => .ofExcept (.error (.unreadable document path "stream did not contain valid UTF-8"))
    | some cs =>
      match (Toml.document? (String.ofList cs)).bind read with
      | none => .ofExcept (.error (.malformed document path))
      | some a => pure a

def loadConfiguration (path : String) : Script Configuration :=
  load .config path (Configuration.ofDatum? Toml.dialect)

def loadStrings (path : String) : Script StringTable :=
  load .strings path (StringTable.ofDatum? Toml.dialect)

def loadSchemas (s : Schema) : List String → Script Schema
  | [] => pure s
  | path :: rest => do
    let name := Text.Quoted.quote path
    .say [⟨.info, .settings, s!"Loading schema: {name}"⟩]
    let d ← load .schema path (Snapshot.ofDatum? Toml.dialect)
    .say (⟨.debug, .settings, s!"{name}: {d.typedefs.length} typedefs, {d.events.length} events"⟩ :: s.addNotices d)
    loadSchemas (s.add d) rest

def version : String := "0.1.0"

def versionLine : String := "evr-log " ++ version

def usage : List String :=
  ["Decode event recorder trace files", "", "Usage: evr-log [OPTIONS] [LOG]", "", "Options:",
    "  -I, --include FILE   Schema snapshot, may be repeated",
    "  -a, --strings FILE   Texts by address",
    "  -o, --output FILE    Report file instead of the screen",
    "  -b, --begin          Statistics before the event list",
    "  -s, --statistic      Statistics only",
    "  -f, --format FORMAT  txt, json or xml",
    "  -l, --level LEVEL    List only events of this level",
    "  -c, --config FILE    Configuration",
    "  -v, --verbose        Log more, may be repeated",
    "  -q, --quiet          Log errors only",
    "  -h, --help           This text",
    "  -V, --version        Version"]

def hint : List String :=
  ["Event Recorder log decoder - No trace file specified", "", "Quick Start:", "  evr-log -I schema.toml trace.log",
    "  evr-log -I schema.toml -s trace.log", "", "Use --help for more options"]

def Options.logLevel (o : Options) : Log.Level :=
  if o.quiet then .error
  else match o.verbosity with
    | 0 => .info
    | 1 => .debug
    | _ => .trace

def Options.logs (o : Options) (e : Log.Entry) : Bool := e.level.rank ≤ o.logLevel.rank

def settingsNumber : Decimal.Spelling where
  positional := some (-4, 15)
  wholePoint := true
  plus := false
  tie := .up
  nan := "NaN"
  infinite := fun negative => signText negative ++ "inf"

def settingsLine (s : Settings) : String :=
  let level := match s.level with
    | none => "None"
    | some level => s!"Some({Text.Quoted.quote level})"
  let format := match s.format with
    | .text => "Txt"
    | .json => "Json"
    | .xml => "Xml"
  let period := settingsNumber.write (.ofFloat s.tickPeriod)
  s!"PipelineConfig \x7b show_events: {s.showEvents}, statistics_first: {s.statisticsFirst}, level: {level}, " ++
    s!"format: {format}, tick_period: {period} \x7d"

def schemaEntries (s : Schema) : List Log.Entry :=
  let n := s.typedefs.statistics
  ⟨.info, .command, s!"Schema: {s.events.size} events, {n.typedefs} typedefs, {n.members} members"⟩ ::
    if s.events.isEmpty then [⟨.warn, .command, "No event definitions loaded, events are shown as raw values"⟩] else []

def fileSource (path : String) (content : Except String (List UInt8)) : Source where
  entries := [⟨.debug, .sources, s!"Opening event file: {Text.Quoted.quote path}"⟩]
  feed := fun _ => content.map fun bytes => { pending := bytes }

/-- Runs over a trace. The output is made before the trace is read, and takes also what a run that fails has written. -/
def runFile (v : Renderer) (settings : Settings) (path : String) (output : Option String) : Script Summary := do
  .prepare output
  let content ← .bytes path
  let outcome := (EventTrace.run v settings (fileSource path content)).outcome none ""
  .say outcome.entries
  .deliver output outcome.written fun reason => .undecodable path (.transfer reason)
  let s ← .ofExcept (outcome.result.mapError (.undecodable path))
  .say [⟨.info, .command, s!"Done: {s.records} records, {s.listed} listed, {s.intervals} intervals"⟩]
  pure s

def decode (o : Options) (c : Configuration) (path : String) : Script Summary := do
  let schema ← loadSchemas {} (c.schemas ++ o.schemas)
  .say (schemaEntries schema)
  let strings ← match o.strings <|> c.strings with
    | some path => loadStrings path
    | none => pure ∅
  let settings := o.settings c.settings
  .say [⟨.debug, .command, s!"Pipeline configuration: {settingsLine settings}"⟩]
  runFile { schema, resolver := strings.lookup } settings path (o.output <|> c.output)

def configure (o : Options) : Script Configuration :=
  match o.configuration with
  | none => pure {}
  | some path => do
    .say [⟨.info, .command, s!"Loading configuration from: {Text.Quoted.quote path}"⟩]
    loadConfiguration path

/-- The whole command. Without a trace there is nothing to do, which is no failure. -/
def command (o : Options) : Script (Option Summary) := do
  .say [⟨.info, .command, s!"Event Recorder log CLI v{version}"⟩, ⟨.info, .command, s!"Using decoder library v{version}"⟩]
  let c ← configure o
  match o.log <|> c.log with
  | none => pure none
  | some path => do pure (some (← decode o c path))

structure Ending where
  code : Nat
  lines : List String
  deriving DecidableEq, Repr

def Ending.ofResult : Except Failure (Option Summary) → Ending
  | .ok (some _) => ⟨0, []⟩
  | .ok none => ⟨0, hint⟩
  | .error e => ⟨1, e.lines⟩

end EventTrace.CommandLine
