/-! Untyped data of a document, and its typed reading. Reading either succeeds or refuses the data. -/
namespace EventTrace

inductive Datum
  | null
  | bool (b : Bool)
  | integer (n : Int)
  | float (x : Float)
  | text (s : String)
  /-- A date or a time of day; nothing here is read from one. -/
  | moment
  | list (items : List Datum)
  | table (entries : List (String × Datum))

/-- Where formats of documents differ. -/
structure Dialect where
  /-- A record given as a list of its fields may have further elements. -/
  surplus : Bool
  /-- What may stand behind a name that is given as the key of a table. -/
  payload : Datum → Bool

/-- The fields of a record. They are given by name or, in a list, by position. -/
structure Fields where
  positional : Bool
  entries : List (String × Datum)

namespace Datum

/-- The fields of a record whose fields are declared in the order of `names`. Others are ignored. -/
def fields? (dialect : Dialect) (names : List String) : Datum → Option Fields
  | table entries => some ⟨false, entries⟩
  | list items =>
    if names.length < items.length && !dialect.surplus then none else some ⟨true, names.zip items⟩
  | _ => none

def bool? : Datum → Option Bool
  | bool b => some b
  | _ => none

def text? : Datum → Option String
  | text s => some s
  | _ => none

def float? : Datum → Option Float
  | float x => some x
  | integer n => some (Float.ofInt n)
  | _ => none

def integer? : Datum → Option Int
  | integer n => some n
  | _ => none

def natBelow? (bound : Nat) (d : Datum) : Option Nat := do
  let n ← d.integer?
  if 0 ≤ n ∧ n < bound then some n.toNat else none

def uint16? (d : Datum) : Option UInt16 := (d.natBelow? UInt16.size).map UInt16.ofNat

def uint32? (d : Datum) : Option UInt32 := (d.natBelow? UInt32.size).map UInt32.ofNat

def uint64? (d : Datum) : Option UInt64 := (d.natBelow? UInt64.size).map UInt64.ofNat

def int64? (d : Datum) : Option Int64 := do
  let n ← d.integer?
  if Int64.minValue.toInt ≤ n ∧ n ≤ Int64.maxValue.toInt then some (Int64.ofInt n) else none

def listOf? {α : Type} (read : Datum → Option α) : Datum → Option (List α)
  | list items => items.mapM read
  | _ => none

def entriesOf? {α : Type} (read : Datum → Option α) : Datum → Option (List (String × α))
  | table entries => entries.mapM fun e => (read e.2).map (e.1, ·)
  | _ => none

/-- One of some names, given as text or as the only key of a table. -/
def nameOf? {α : Type} (dialect : Dialect) (ofName? : String → Option α) : Datum → Option α
  | text s => ofName? s
  | table [(s, payload)] => if dialect.payload payload then ofName? s else none
  | _ => none

def optional? {α : Type} (read : Datum → Option α) : Datum → Option (Option α)
  | null => some none
  | d => (read d).map some

end Datum

namespace Fields

def find? (f : Fields) (name : String) : Option Datum := (f.entries.find? (·.1 == name)).map (·.2)

def required {α : Type} (f : Fields) (name : String) (read : Datum → Option α) : Option α := do
  read (← f.find? name)

def defaulted {α : Type} (f : Fields) (name : String) (read : Datum → Option α) (default : α) : Option α :=
  match f.find? name with
  | some d => read d
  | none => some default

def optional {α : Type} (f : Fields) (name : String) (read : Datum → Option α) : Option (Option α) :=
  f.defaulted name (Datum.optional? read) none

/-- A field that may be null, or missing from a table; a list must not end before it. -/
def nullable {α : Type} (f : Fields) (name : String) (read : Datum → Option α) : Option (Option α) :=
  match f.find? name with
  | some d => Datum.optional? read d
  | none => if f.positional then none else some none

end Fields
end EventTrace
