import Std.Data.ExtTreeMap
import EventTrace.Fault
import EventTrace.Log
import EventTrace.Schema.IntegerType
import EventTrace.Text.Basic
/-! Typedefs: named fields of a word, each with names for some of its values. A reference `Typedef:member` asks one member
for a name, a reference `Typedef` all of its members in turn. -/
namespace EventTrace

structure Member where
  name : String
  /-- The byte offset, an expression. -/
  offset : String
  type : IntegerType
  /-- Overrides the order of the typedef. -/
  bigEndian : Option Bool := none
  names : Std.ExtTreeMap Int64 String := ∅

structure Typedef where
  name : String
  size : UInt32 := 4
  bigEndian : Bool := false
  members : List Member := []

namespace Typedef

def member? (t : Typedef) (name : String) : Option Member := t.members.find? (·.name == name)

def order (t : Typedef) (m : Member) : ByteOrder :=
  if m.bigEndian.getD t.bigEndian then .big else .little

def nameOf? (t : Typedef) (value : Int64) : Option String := t.members.findSome? (·.names[value]?)

end Typedef

abbrev TypedefTable := Std.ExtTreeMap String Typedef

namespace TypedefTable

def add (table : TypedefTable) (t : Typedef) : TypedefTable := table.insert t.name t

def ofList (ts : List Typedef) : TypedefTable := ts.foldl add ∅

def addNotice (table : TypedefTable) (t : Typedef) : List Log.Entry :=
  if t.name ∈ table then
    [⟨.warn, .typedefs, s!"Typedef '{t.name}' defined more than once, keeping the last definition"⟩]
  else []

def member? (table : TypedefTable) (typedef member : String) : Option (Typedef × Member) := do
  let t ← table[typedef]?
  let m ← t.member? member
  pure (t, m)

structure Statistics where
  typedefs : Nat
  members : Nat
  names : Nat
  deriving DecidableEq, Repr

def statistics (table : TypedefTable) : Statistics where
  typedefs := table.size
  members := (table.toList.flatMap (·.2.members)).length
  names := (table.toList.flatMap fun e => e.2.members.flatMap (·.names.toList)).length

end TypedefTable

structure Reference where
  typedef : String
  member : Option String

/-- Split at the first colon; blanks around both parts do not count. -/
def Reference.ofString (s : String) : Reference :=
  let cs := s.toList
  let typedef := String.ofList (Text.trim (cs.takeWhile (· != ':')))
  match cs.dropWhile (· != ':') with
  | [] => ⟨typedef, none⟩
  | _ :: rest => ⟨typedef, some (String.ofList (Text.trim rest))⟩

namespace TypedefTable

def named (reference : String) (value : Int64) : Option String → Except NameFault String
  | some name => .ok name
  | none => .error (.noEntry (String.ofList (Text.trim reference.toList)) value)

def resolve (table : TypedefTable) (value : Int64) (reference : String) : Except NameFault String :=
  let r := Reference.ofString reference
  match table[r.typedef]? with
  | none => .error (.noTypedef r.typedef)
  | some t =>
    match r.member with
    | none => named reference value (t.nameOf? value)
    | some member =>
      match t.member? member with
      | none => .error (.noMember r.typedef member)
      | some m => named reference value m.names[value]?

end TypedefTable
end EventTrace
