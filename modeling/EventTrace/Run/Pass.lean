import EventTrace.Datum
import EventTrace.Interval.Aggregator
import EventTrace.Record.Reader
import EventTrace.Report.Writer
import EventTrace.Schema.Basic
import EventTrace.Template.Rendering
import EventTrace.TimeBase
/-! The settings of a run, and its two passes over a trace. The first pairs the events of intervals, the second lists
events. -/
namespace EventTrace

structure Settings where
  showEvents : Bool := true
  statisticsFirst : Bool := false
  level : Option String := none
  format : Format := .text
  /-- Seconds per tick before a frequency was announced. -/
  tickPeriod : Float := 4e-8

/-- The level filter. `none` is an event without a definition, which is always listed. -/
def Settings.lists (s : Settings) (level : Option (Option String)) : Bool :=
  match s.level, level with
  | some wanted, some level => level == some wanted
  | _, _ => true

/-- In documents the names of formats are written in small letters. -/
def Format.ofDatum? (dialect : Dialect) : Datum → Option Format :=
  Datum.nameOf? dialect fun s => Format.all.find? (·.name == s)

def Settings.ofDatum? (dialect : Dialect) (d : Datum) : Option Settings := do
  let f ← d.fields? dialect ["show_events", "statistics_first", "level", "format", "tick_period"]
  let showEvents ← f.defaulted "show_events" Datum.bool? true
  let statisticsFirst ← f.defaulted "statistics_first" Datum.bool? false
  let level ← f.optional "level" Datum.text?
  let format ← f.defaulted "format" (Format.ofDatum? dialect) .text
  let tickPeriod ← f.defaulted "tick_period" Datum.float? 4e-8
  pure { showEvents, statisticsFirst, level, format, tickPeriod }

/-- Where a trace comes from. It is opened once per pass; the openings are counted from zero. -/
structure Source where
  /-- What is logged at each opening. -/
  entries : List Log.Entry := []
  /-- What an opening gives, or why it fails. -/
  feed : Nat → Except String Feed

def Source.openAt (s : Source) (opening : Nat) : Transcript Feed := do
  .log s.entries
  .opening
  .ofExcept ((s.feed opening).mapError .transfer)

def followRecords {σ : Type} (step : σ → Record → Transcript σ) :
    List (List Log.Entry × Record) → σ → Transcript σ
  | [], s => pure s
  | (entries, r) :: rest, s => do
    .log entries
    followRecords step rest (← step s r)

def Trace.follow {σ : Type} (step : σ → Record → Transcript σ) (t : Trace) (s : σ) : Transcript σ := do
  let s ← followRecords step t.records s
  .log t.closing
  match t.fault with
  | none => pure s
  | some e => .ofExcept (.error e)

structure Renderer where
  schema : Schema := {}
  resolver : Resolver := .none

namespace Renderer

def definition? (v : Renderer) (r : Record) : Option EventDefinition := v.schema.events[r.id]?

def text (v : Renderer) (r : Record) : Transcript String :=
  .ofExcept ((r.render v.resolver v.schema.typedefs (v.definition? r)).mapError .render)

end Renderer

structure Tally (α : Type) where
  timeBase : TimeBase α
  records : Nat := 0
  aggregator : Aggregator α

namespace Tally

variable {α : Type} [Scalar α]

def start (t : TimeBase α) : Tally α := { timeBase := t.restart, aggregator := .empty }

/-- Every record is counted and may calibrate the time; events of the interval class are taken in with their text as
caption. -/
def step (v : Renderer) (s : Tally α) (r : Record) : Transcript (Tally α) := do
  let timeBase := s.timeBase.observe r
  .log (timeBase.observed r)
  if r.id.classCode = EventId.intervalClass then
    let caption ← v.text r
    let time := timeBase.seconds r.ticks
    .log (Aggregator.recorded r.id time)
    pure { timeBase, records := s.records + 1, aggregator := s.aggregator.record r.id time caption }
  else pure { s with timeBase, records := s.records + 1 }

def finished (s : Tally α) : Log.Entry where
  level := .debug
  topic := .run
  message := s!"Statistics pass: {s.records} records, {s.aggregator.intervals} completed intervals"

end Tally

def collect {α : Type} [Scalar α] (v : Renderer) (source : Source) (t : TimeBase α) : Transcript (Tally α) := do
  .log [⟨.info, .run, "Collecting start/stop statistics"⟩]
  let feed ← source.openAt 0
  let s ← feed.trace.follow (Tally.step v) (Tally.start t)
  .log [s.finished]
  pure s

structure Listing where
  timeBase : TimeBase Float
  /-- Records seen, listed or not. -/
  records : Nat := 0
  listed : Nat := 0
  report : Report

namespace Listing

def labels (r : Record) : Option EventDefinition → String × String
  | some e => (e.component, e.property)
  | none => ("0x" ++ String.ofList (Text.capitalHex 2 r.id.classCode),
    "0x" ++ String.ofList (Text.capitalHex 4 r.id.toNat))

def row {α : Type} [Scalar α] (v : Renderer) (t : TimeBase α) (index : Nat) (r : Record) (value : String) :
    EventRow α where
  index := index
  time := t.seconds r.ticks
  component := (labels r (v.definition? r)).1
  property := (labels r (v.definition? r)).2
  value := value
  quoted := r.printed?.isSome

/-- Every record may calibrate the time; those that pass the level filter become rows. -/
def step (v : Renderer) (settings : Settings) (s : Listing) (r : Record) : Transcript Listing := do
  let timeBase := s.timeBase.observe r
  .log (timeBase.observed r)
  if settings.lists ((v.definition? r).map (·.level)) then
    let value ← v.text r
    let (text, report) := s.report.event (row v timeBase s.records r value)
    .write .plain text
    pure { timeBase, records := s.records + 1, listed := s.listed + 1, report }
  else pure { s with timeBase, records := s.records + 1 }

end Listing

/-- The second pass. The heading is written before the source is opened. -/
def list (v : Renderer) (settings : Settings) (source : Source) (t : TimeBase Float) (report : Report) :
    Transcript Listing := do
  .log [⟨.info, .run, "Listing events"⟩]
  .write .plain report.heading
  let feed ← source.openAt 1
  let s ← feed.trace.follow (Listing.step v settings) { timeBase := t.restart, report }
  .log [⟨.debug, .run, s!"Listed {s.listed} events"⟩]
  pure s

end EventTrace
