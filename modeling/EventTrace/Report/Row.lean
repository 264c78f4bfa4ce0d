import EventTrace.Interval.Aggregator
import EventTrace.Report.Magnitude
/-! The rows of a report. -/
namespace EventTrace

structure EventRow (α : Type) where
  /-- Position among all records. -/
  index : Nat
  time : α
  component : String
  property : String
  value : String
  /-- A text report puts the value between quotes. -/
  quoted : Bool

inductive Cell (α : Type)
  | count (n : Nat)
  | number (x : α)
  | text (s : String)

abbrev Cells (α : Type) := List (String × Cell α)

def EventRow.cells {α : Type} (r : EventRow α) : Cells α :=
  [("index", .count r.index), ("time", .number r.time), ("component", .text r.component),
    ("eventProperty", .text r.property), ("value", .text r.value)]

structure StatisticRow (α : Type) where
  label : String
  state : IntervalState α

namespace StatisticRow

variable {α : Type} [Scalar α]

def ofSlot (s : SlotStatistics α) : StatisticRow α := ⟨s.label, s.state⟩

def pendingMark (r : StatisticRow α) : String := if r.state.running then "+1" else "  "

def seconds (x : α) : String := Magnitude.render x "s"

def durations (r : StatisticRow α) : List String :=
  [r.state.total, r.state.min, r.state.max, r.state.average, r.state.first, r.state.last].map seconds

def cells (r : StatisticRow α) : Cells α :=
  let s := r.state
  [("event", .text r.label), ("count", .count s.count), ("addCount", .text r.pendingMark)] ++
    ["total", "min", "max", "avg", "first", "last"].zip (r.durations.map .text) ++
    [("minTime", .number s.minTime), ("minStopTime", .number s.minStopTime), ("maxTime", .number s.maxTime),
      ("maxStopTime", .number s.maxStopTime), ("firstTime", .number s.firstTime), ("lastTime", .number s.lastTime),
      ("textMinB", .text s.minCaptions.1), ("textMinE", .text s.minCaptions.2),
      ("textMaxB", .text s.maxCaptions.1), ("textMaxE", .text s.maxCaptions.2)]

end StatisticRow

structure Tables (α : Type) where
  events : List (EventRow α) := []
  statistics : List (StatisticRow α) := []

end EventTrace
