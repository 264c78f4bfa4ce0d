import EventTrace.Report.Row
import EventTrace.Schema.Basic
/-! The text report: lines of fixed width. -/
namespace EventTrace

structure Columns where
  component : Nat := "Component".length
  property : Nat := "Event Property".length
  deriving DecidableEq, Repr

def Columns.ofEvents (events : EventTable) : Columns where
  component := max (events.longest (·.component)) "Component".length
  property := max (events.longest (·.property)) "Event Property".length

namespace Plain

def lines (ls : List String) : String := String.join (ls.map (· ++ "\n"))

def statisticsHeading : List String :=
  ["   Start/Stop event statistic",
    "   --------------------------",
    "",
    "Event count      total       min         max         average     first       last",
    "----- -----      -----       ---         ---         -------     -----       ----"]

variable {α : Type} [Scalar α]

def time (x : α) : String := Decimal.fixed 8 (Scalar.exact x)

def extremeLine (name : String) (start stop : α) (captions : String × String) : String :=
  s!"      {name}: Start: {time start} {captions.1} Stop: {time stop} {captions.2}"

/-- The lines of a slot. A label shorter than five bytes gets a blank. -/
def slotLines (r : StatisticRow α) : List String :=
  let s := r.state
  let blank := if r.label.utf8ByteSize < 5 then " " else ""
  [r.label ++ blank ++ " " ++ Text.alignRight 5 (toString s.count) ++ r.pendingMark ++ " " ++ " ".intercalate r.durations,
    extremeLine "Min" s.minTime s.minStopTime s.minCaptions,
    extremeLine "Max" s.maxTime s.maxStopTime s.maxCaptions,
    ""]

def statisticsBlock (rows : List (StatisticRow α)) : String :=
  lines (statisticsHeading ++ rows.flatMap slotLines)

def eventsHeading (c : Columns) : String :=
  lines ["   Detailed event list",
    "   -------------------",
    "",
    Text.alignRight 5 "Index" ++ " " ++ Text.alignLeft 10 "Time (s)" ++ " " ++
      Text.alignLeft c.component "Component" ++ " " ++ Text.alignLeft c.property "Event Property" ++ " Value",
    "----- --------   " ++ Text.alignLeft c.component "---------" ++ " " ++
      Text.alignLeft c.property "--------------" ++ " -----"]

def eventLine (c : Columns) (r : EventRow α) : String :=
  let quote := if r.quoted then "\"" else ""
  Text.alignRight 5 (toString r.index) ++ " " ++ time r.time ++ " " ++ Text.alignLeft c.component r.component ++ " " ++
    Text.alignLeft c.property r.property ++ " " ++ quote ++ r.value ++ quote

end Plain
end EventTrace
