import EventTrace.Datum
/-! Tables under construction. A table comes into being under a header, under dotted keys, or because a longer header
runs through it; which of these it was decides how it may grow. -/
namespace EventTrace.Toml

inductive Node
  /-- A value; arrays and tables between brackets are closed. -/
  | value (d : Datum)
  /-- A table. It is implicit unless it had a header of its own. -/
  | table (implicit dotted : Bool) (entries : List (String × Node))
  /-- The tables of an array, the last first. -/
  | tables (items : List (List (String × Node)))

abbrev Entries := List (String × Node)

namespace Entries

def lookup? (es : Entries) (key : String) : Option Node := (List.find? (fun e => e.1 == key) es).map (·.2)

def set (es : Entries) (key : String) (n : Node) : Entries :=
  if es.any (·.1 == key) then es.map fun e => if e.1 == key then (key, n) else e else es ++ [(key, n)]

/-- Changes the table that a path leads to; missing tables on the path come into being. A dotted path must not run
through a table with a header of its own. An array of tables stands for its last table. The change is told whether the
table was made by dotted keys. -/
def update (dotted : Bool) (change : Bool → Entries → Option Entries) :
    (path : List String) → (madeDotted : Bool) → Entries → Option Entries
  | [], madeDotted, es => change madeDotted es
  | key :: path, _, es =>
    match lookup? es key with
    | none => do
      let sub ← update dotted change path dotted []
      pure (set es key (.table true dotted sub))
    | some (.table implicit made sub) => do
      if dotted && !implicit then none
      let sub ← update dotted change path made sub
      pure (set es key (.table implicit made sub))
    | some (.tables (last :: earlier)) => do
      let last ← update dotted change path false last
      pure (set es key (.tables (last :: earlier)))
    | some (.tables []) => none
    | some (.value _) => none

/-- Adds an entry under a dotted key. The table must have been made by dotted keys exactly if the key is dotted, and
must not have the entry yet. -/
def add (es : Entries) (path : List String) (key : String) (n : Node) : Option Entries :=
  update true (fun madeDotted es =>
    if madeDotted == path.isEmpty || (lookup? es key).isSome then none else some (set es key n)) path false es

end Entries

mutual

def Node.datum : Node → Datum
  | .value d => d
  | .table _ _ entries => .table (Entries.data entries)
  | .tables items => .list (Entries.tables items).reverse

def Entries.data : List (String × Node) → List (String × Datum)
  | [] => []
  | (key, n) :: rest => (key, n.datum) :: Entries.data rest

def Entries.tables : List (List (String × Node)) → List Datum
  | [] => []
  | es :: rest => .table (Entries.data es) :: Entries.tables rest

end

end EventTrace.Toml
