import Std.Data.ExtTreeMap
import EventTrace.EventId
import EventTrace.Log
import EventTrace.Schema.Typedef
/-! Event definitions, which say how the records of an id are shown, and schemas: all definitions that a run knows. -/
namespace EventTrace

structure EventDefinition where
  id : EventId
  template : String := ""
  /-- The typedef of each operand that has one. -/
  bindings : Std.ExtTreeMap String String := ∅
  component : String := ""
  property : String := ""
  level : Option String := none

abbrev EventTable := Std.ExtTreeMap EventId EventDefinition

namespace EventTable

def add (table : EventTable) (e : EventDefinition) : EventTable := table.insert e.id e

def ofList (es : List EventDefinition) : EventTable := es.foldl add ∅

def addNotice (table : EventTable) (e : EventDefinition) : List Log.Entry :=
  if e.id ∈ table then [⟨.debug, .events, "Event definition replaced by a later schema"⟩] else []

def longest (f : EventDefinition → String) (table : EventTable) : Nat :=
  (table.toList.map fun e => (f e.2).length).foldl max 0

end EventTable

structure Schema where
  events : EventTable := ∅
  typedefs : TypedefTable := ∅

structure Snapshot where
  typedefs : List Typedef := []
  events : List EventDefinition := []

namespace Schema

/-- Adds the definitions of a document in their order, typedefs first. -/
def add (s : Schema) (d : Snapshot) : Schema where
  typedefs := d.typedefs.foldl TypedefTable.add s.typedefs
  events := d.events.foldl EventTable.add s.events

def notices {τ δ : Type} (add : τ → δ → τ) (notice : τ → δ → List Log.Entry) : τ → List δ → List Log.Entry
  | _, [] => []
  | table, d :: ds => notice table d ++ notices add notice (add table d) ds

def addNotices (s : Schema) (d : Snapshot) : List Log.Entry :=
  notices TypedefTable.add TypedefTable.addNotice s.typedefs d.typedefs ++
    notices EventTable.add EventTable.addNotice s.events d.events

end Schema
end EventTrace
