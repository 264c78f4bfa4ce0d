import EventTrace.Report.Document
import EventTrace.Report.Plain
import EventTrace.Transcript
/-! Reports in their three formats. A text report is written as it grows, a document when the report is finished. -/
namespace EventTrace

inductive Format
  | text
  | json
  | xml
  deriving DecidableEq, Repr

namespace Format

def all : List Format := [.text, .json, .xml]

def name : Format → String
  | .text => "txt"
  | .json => "json"
  | .xml => "xml"

/-- Capital letters do not matter, those outside the ASCII range apart. -/
def ofName? (s : String) : Option Format := all.find? (·.name == s.toLower)

def unsupported (s : String) : String := s!"unsupported output format '{s.toLower}'"

end Format

/-- A report in progress: its format, and what a document will hold. -/
structure Report where
  format : Format
  columns : Columns := {}
  tables : Tables Float := {}

namespace Report

/-- Text that a text report gets at once and other reports never get. -/
def inText (r : Report) (s : String) : String := if r.format = .text then s else ""

def statistics (r : Report) (slots : List (SlotStatistics Float)) : String × Report :=
  let rows := slots.map StatisticRow.ofSlot
  (r.inText (Plain.statisticsBlock rows),
    { r with tables := { r.tables with statistics := r.tables.statistics ++ rows } })

def heading (r : Report) : String := r.inText (Plain.eventsHeading r.columns)

def event (r : Report) (row : EventRow Float) : String × Report :=
  (r.inText (Plain.eventLine r.columns row ++ "\n"),
    { r with tables := { r.tables with events := r.tables.events ++ [row] } })

def blankLine (r : Report) : String := r.inText "\n"

def finish (r : Report) : List (Part × String) :=
  match r.format with
  | .text => []
  | .json => [(.document, Json.document r.tables), (.plain, "\n")]
  | .xml => [(.plain, Xml.document r.tables ++ "\n")]

end Report
end EventTrace
