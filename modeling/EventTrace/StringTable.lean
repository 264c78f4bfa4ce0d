import Std.Data.ExtTreeMap
import EventTrace.Datum
/-! Texts in the memory of the traced program. An address inside a text leads to the rest of it, as a pointer would. -/
namespace EventTrace

/-- The text at an address, empty if there is none. -/
abbrev Resolver := UInt64 → String

def Resolver.none : Resolver := fun _ => ""

/-- Texts by the address of their first byte. -/
abbrev StringTable := Std.ExtTreeMap UInt64 String

/-- What is left of a text after some bytes of its encoding; absent if they end inside a character or past the end. -/
def dropBytes : List Char → Nat → Option (List Char)
  | cs, 0 => some cs
  | [], _ + 1 => none
  | c :: cs, n + 1 => if c.utf8Size ≤ n + 1 then dropBytes cs (n + 1 - c.utf8Size) else none

namespace StringTable

def ofList (entries : List (UInt64 × String)) : StringTable := entries.foldl (fun t e => t.insert e.1 e.2) ∅

def floor? (t : StringTable) (address : UInt64) : Option (UInt64 × String) :=
  (t.toList.takeWhile fun e => e.1 ≤ address).getLast?

def lookup (t : StringTable) : Resolver := fun address =>
  match t.floor? address with
  | .none => ""
  | some (start, text) =>
    match dropBytes text.toList (address.toNat - start.toNat) with
    | .none => ""
    | some cs => String.ofList cs

def entryOfDatum? (dialect : Dialect) (d : Datum) : Option (UInt64 × String) := do
  let f ← d.fields? dialect ["address", "text"]
  let address ← f.required "address" Datum.uint64?
  pure (address, ← f.required "text" Datum.text?)

def ofDatum? (dialect : Dialect) (d : Datum) : Option StringTable := do
  let f ← d.fields? dialect ["strings"]
  let entries ← f.defaulted "strings" (Datum.listOf? (entryOfDatum? dialect)) []
  pure (ofList entries)

end StringTable
end EventTrace
