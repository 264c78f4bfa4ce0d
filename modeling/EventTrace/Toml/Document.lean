import EventTrace.Toml.Value
/-! TOML documents. -/
namespace EventTrace.Toml

/-- A document up to some line: its tables so far, and the one that key lines go to, apart until it is complete. -/
structure Draft where
  root : Entries := []
  current : Entries := []
  /-- Where the current table belongs: the tables on the way, the last key, and whether it is one of an array. The
  table before the first header is the document itself. -/
  place : Option ((List String × String) × Bool) := none

namespace Draft

def close (d : Draft) : Option Entries :=
  match d.place with
  | none => some d.current
  | some ((path, key), false) =>
    d.root.update false (fun _ es => some (es.set key (.table false false d.current))) path false
  | some ((path, key), true) =>
    d.root.update false (fun _ es =>
      match es.lookup? key with
      | none => some (es.set key (.tables [d.current]))
      | some (.tables items) => some (es.set key (.tables (d.current :: items)))
      | some _ => none) path false

/-- A header in brackets. Its table must be new, or known only from longer headers; then it keeps what they made. -/
def openTable (d : Draft) (path : List String) (key : String) : Option Draft := do
  let root ← d.close
  let root ← root.update false (fun _ es =>
    match es.lookup? key with
    | none => some (es.set key (.table true false []))
    | some (.table true false _) => some es
    | some _ => none) path false
  let current ← inner root path
  pure { root, current, place := some ((path, key), false) }
where
  /-- The table that was found or made just now. -/
  inner (es : Entries) : List String → Option Entries
    | [] => match es.lookup? key with
      | some (.table _ _ sub) => some sub
      | _ => none
    | k :: ks => match es.lookup? k with
      | some (.table _ _ sub) => inner sub ks
      | some (.tables (last :: _)) => inner last ks
      | _ => none

def openArrayTable (d : Draft) (path : List String) (key : String) : Option Draft := do
  let root ← d.close
  let root ← root.update false (fun _ es =>
    match es.lookup? key with
    | none => some es
    | some (.tables _) => some es
    | some _ => none) path false
  pure { root, current := [], place := some ((path, key), true) }

def header (d : Draft) : Scan Draft
  | '[' :: cs => do
    let ((path, key), cs) ← keyPath cs
    match cs with
    | ']' :: ']' :: cs => pure (← d.openArrayTable path key, ← restOfLine? cs)
    | _ => none
  | cs => do
    let ((path, key), cs) ← keyPath cs
    match cs with
    | ']' :: cs => pure (← d.openTable path key, ← restOfLine? cs)
    | _ => none

def keyLine (d : Draft) : Scan Draft := fun cs => do
  let (((path, key), v), cs) ← pair (value (depthLimit - 1)) cs
  let rest ← restOfLine? cs
  pure ({ d with current := ← d.current.add path key (.value v) }, rest)

/-- Reads line by line; `fuel` is at least the number of lines. -/
def lines : (fuel : Nat) → Draft → List Char → Option Draft
  | 0, d, cs => if cs.isEmpty then some d else none
  | fuel + 1, d, cs =>
    match skipBlanks cs with
    | [] => some d
    | '#' :: cs => do lines fuel d (← lineEnd? (cs.dropWhile isPlain))
    | '[' :: cs => do
      let (d, cs) ← d.header cs
      lines fuel d cs
    | '\n' :: cs => lines fuel d cs
    | '\r' :: '\n' :: cs => lines fuel d cs
    | cs => do
      let (d, cs) ← d.keyLine cs
      lines fuel d cs

end Draft

def dropMark : List Char → List Char
  | '\uFEFF' :: cs => cs
  | cs => cs

def document? (s : String) : Option Datum := do
  let cs := dropMark s.toList
  let d ← Draft.lines cs.length {} cs
  pure (.table (Entries.data (← d.close)))

/-- A record in a list may have further elements, and nothing but an empty table or list stands behind a name. -/
def dialect : Dialect where
  surplus := true
  payload := fun
    | .table [] => true
    | .list [] => true
    | _ => false

end EventTrace.Toml
