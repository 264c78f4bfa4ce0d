import EventTrace.Decimal
import EventTrace.Report.Row
/-! The report as a document: JSON, indented by two blanks, or XML on one line. -/
namespace EventTrace.Json

def shortEscape? : Char → Option Char
  | '"' => some '"'
  | '\\' => some '\\'
  | '\x08' => some 'b'
  | '\x0c' => some 'f'
  | '\n' => some 'n'
  | '\r' => some 'r'
  | '\t' => some 't'
  | _ => none

def encodeChar (c : Char) : List Char :=
  match shortEscape? c with
  | some l => ['\\', l]
  | none => if c.toNat < 0x20 then '\\' :: 'u' :: Text.hex 4 c.toNat else [c]

def quote (s : String) : String := String.ofList ('"' :: s.toList.flatMap encodeChar ++ ['"'])

/-- Doubles are positional from `0.00001` to below `1e16`; JSON has no other word for what is not finite than `null`. -/
def number : Decimal.Spelling where
  positional := some (-5, 15)
  wholePoint := true
  plus := true
  tie := .even
  nan := "null"
  infinite := fun _ => "null"

def cell : Cell Float → String
  | .count n => toString n
  | .number x => number.write (.ofFloat x)
  | .text s => quote s

def indent (depth : Nat) : String := String.ofList (List.replicate (2 * depth) ' ')

def block (opening closing : String) (depth : Nat) : List String → String
  | [] => opening ++ closing
  | entries =>
    opening ++ "\n" ++ ",\n".intercalate (entries.map (indent (depth + 1) ++ ·)) ++ "\n" ++ indent depth ++ closing

def row (depth : Nat) (cells : Cells Float) : String :=
  block "\x7b" "\x7d" depth (cells.map fun c => quote c.1 ++ ": " ++ cell c.2)

def table (depth : Nat) (rows : List (Cells Float)) : String := block "[" "]" depth (rows.map (row (depth + 1)))

def document (t : Tables Float) : String :=
  block "\x7b" "\x7d" 0
    [quote "events" ++ ": " ++ table 1 (t.events.map (·.cells)),
      quote "statistics" ++ ": " ++ table 1 (t.statistics.map (·.cells))]

end EventTrace.Json

namespace EventTrace.Xml

def encodeChar : Char → List Char
  | '<' => "&lt;".toList
  | '>' => "&gt;".toList
  | '&' => "&amp;".toList
  | c => [c]

def escape (s : String) : String := String.ofList (s.toList.flatMap encodeChar)

/-- Doubles never have an exponent. -/
def number : Decimal.Spelling where
  positional := none
  wholePoint := false
  plus := false
  tie := .up
  nan := "NaN"
  infinite := fun negative => signText negative ++ "inf"

def cell : Cell Float → String
  | .count n => toString n
  | .number x => number.write (.ofFloat x)
  | .text s => escape s

def element (name content : String) : String :=
  if content.isEmpty then s!"<{name}/>" else s!"<{name}>{content}</{name}>"

def row (name : String) (cells : Cells Float) : String :=
  element name (String.join (cells.map fun c => element c.1 (cell c.2)))

def document (t : Tables Float) : String :=
  element "EventsTable"
    (String.join (t.events.map fun r => row "events" r.cells) ++
      String.join (t.statistics.map fun r => row "statistics" r.cells))

end EventTrace.Xml
