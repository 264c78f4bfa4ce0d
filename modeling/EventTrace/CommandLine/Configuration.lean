import EventTrace.CommandLine.Options
import EventTrace.Run.Pass
/-! The configuration of the command. Options win over it. -/
namespace EventTrace.CommandLine

structure Configuration where
  log : Option String := none
  schemas : List String := []
  strings : Option String := none
  output : Option String := none
  settings : Settings := {}

namespace Configuration

def inputOfDatum? (dialect : Dialect) (c : Configuration) (d : Datum) : Option Configuration := do
  let f ← d.fields? dialect ["log", "schema_files", "strings"]
  let log ← f.nullable "log" Datum.text?
  let schemas ← f.defaulted "schema_files" (Datum.listOf? Datum.text?) []
  let strings ← f.nullable "strings" Datum.text?
  pure { c with log, schemas, strings }

def outputOfDatum? (dialect : Dialect) (c : Configuration) (d : Datum) : Option Configuration := do
  let f ← d.fields? dialect
    ["file", "format", "level", "statistics_first", "statistics_only", "tick_period"]
  let output ← f.nullable "file" Datum.text?
  let format ← f.nullable "format" (Format.ofDatum? dialect)
  let level ← f.nullable "level" Datum.text?
  let statisticsFirst ← f.defaulted "statistics_first" Datum.bool? false
  let statisticsOnly ← f.defaulted "statistics_only" Datum.bool? false
  let tickPeriod ← f.nullable "tick_period" Datum.float?
  let settings : Settings := {
    showEvents := !statisticsOnly
    statisticsFirst, level
    format := format.getD c.settings.format
    tickPeriod := tickPeriod.getD c.settings.tickPeriod }
  pure { c with output, settings }

def ofDatum? (dialect : Dialect) (d : Datum) : Option Configuration := do
  let f ← d.fields? dialect ["input", "output"]
  let c : Configuration := {}
  let c ← f.defaulted "input" (c.inputOfDatum? dialect) c
  f.defaulted "output" (c.outputOfDatum? dialect) c

end Configuration

def Options.settings (o : Options) (s : Settings) : Settings where
  showEvents := s.showEvents && !o.statisticsOnly
  statisticsFirst := s.statisticsFirst || o.statisticsFirst
  level := o.level <|> s.level
  format := o.format.getD s.format
  tickPeriod := s.tickPeriod

end EventTrace.CommandLine
