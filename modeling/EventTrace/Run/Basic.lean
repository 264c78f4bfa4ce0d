import EventTrace.Run.Pass
/-! A whole run: both passes over a trace, and the report. -/
namespace EventTrace

structure Summary where
  records : Nat
  listed : Nat
  intervals : Nat
  deriving DecidableEq, Repr

namespace Run

def statistics (v : Renderer) (settings : Settings) (source : Source) : Transcript (Tally Float) :=
  collect v source (.start settings.tickPeriod)

/-- Writes the statistics block, which a trace without records does not have. -/
def writeStatistics (tally : Tally Float) (report : Report) : Transcript Report :=
  if 0 < tally.records then do
    let (text, report) := report.statistics tally.aggregator.completed
    .write .plain text
    pure report
  else pure report

def writeBlankLine (settings : Settings) (report : Report) : Transcript Unit :=
  if settings.showEvents then .write .plain report.blankLine else pure ()

def writeEvents (v : Renderer) (settings : Settings) (source : Source) (t : TimeBase Float) (report : Report) :
    Transcript (Nat × Report) :=
  if settings.showEvents then do
    let s ← list v settings source t report
    pure (s.listed, s.report)
  else pure (0, report)

def writeBlocks (v : Renderer) (settings : Settings) (source : Source) (tally : Tally Float) (report : Report) :
    Transcript (Nat × Report) :=
  if settings.statisticsFirst then do
    let report ← writeStatistics tally report
    writeBlankLine settings report
    writeEvents v settings source tally.timeBase report
  else do
    let (listed, report) ← writeEvents v settings source tally.timeBase report
    writeBlankLine settings report
    pure (listed, ← writeStatistics tally report)

def writeAll : List (Part × String) → Transcript Unit
  | [] => pure ()
  | (part, text) :: rest => do
    .write part text
    writeAll rest

def finished (s : Summary) : Log.Entry where
  level := .info
  topic := .run
  message := s!"Processed {s.records} records ({s.listed} listed, {s.intervals} intervals)"

end Run

/-- Gathers the statistics, writes the report and tells what was done. The second pass starts with the tick frequency
that the first has ended with. -/
def run (v : Renderer) (settings : Settings) (source : Source) : Transcript Summary := do
  let tally ← Run.statistics v settings source
  let report : Report := { format := settings.format, columns := .ofEvents v.schema.events }
  let (listed, report) ← Run.writeBlocks v settings source tally report
  Run.writeAll report.finish
  let summary : Summary := ⟨tally.records, listed, tally.aggregator.intervals⟩
  .log [Run.finished summary]
  pure summary

end EventTrace
