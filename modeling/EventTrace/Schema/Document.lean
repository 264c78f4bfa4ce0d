import EventTrace.Datum
import EventTrace.Schema.Basic
/-! Definitions read from documents. -/
namespace EventTrace

/-- An offset is a number, which stands for its decimal digits, or an expression. -/
def Member.offsetOfDatum? (d : Datum) : Option String :=
  match d.uint32? with
  | some n => some (toString n.toNat)
  | none => d.text?

def Member.nameOfDatum? (dialect : Dialect) (d : Datum) : Option (Int64 × String) := do
  let f ← d.fields? dialect ["value", "name"]
  let value ← f.required "value" Datum.int64?
  pure (value, ← f.required "name" Datum.text?)

def Member.namesOfList (names : List (Int64 × String)) : Std.ExtTreeMap Int64 String :=
  names.foldl (fun t e => t.insert e.1 e.2) ∅

def Member.ofDatum? (dialect : Dialect) (d : Datum) : Option Member := do
  let f ← d.fields? dialect ["name", "offset", "type", "big_endian", "enums"]
  let name ← f.required "name" Datum.text?
  let offset ← f.optional "offset" Member.offsetOfDatum?
  let type ← f.required "type" (Datum.nameOf? dialect IntegerType.ofName?)
  let bigEndian ← f.optional "big_endian" Datum.bool?
  let names ← f.defaulted "enums" (Datum.listOf? (Member.nameOfDatum? dialect)) []
  pure { name, offset := offset.getD "0", type, bigEndian, names := Member.namesOfList names }

def Typedef.ofDatum? (dialect : Dialect) (d : Datum) : Option Typedef := do
  let f ← d.fields? dialect ["name", "size", "big_endian", "members"]
  let name ← f.required "name" Datum.text?
  let size ← f.defaulted "size" Datum.uint32? 4
  let bigEndian ← f.defaulted "big_endian" Datum.bool? false
  let members ← f.defaulted "members" (Datum.listOf? (Member.ofDatum? dialect)) []
  pure { name, size, bigEndian, members }

def EventDefinition.bindingsOfList (bindings : List (String × String)) : Std.ExtTreeMap String String :=
  bindings.foldl (fun t e => t.insert e.1 e.2) ∅

def EventDefinition.ofDatum? (dialect : Dialect) (d : Datum) : Option EventDefinition := do
  let f ← d.fields? dialect ["id", "value", "bindings", "component", "property", "level"]
  let id ← f.required "id" Datum.uint16?
  let template ← f.defaulted "value" Datum.text? ""
  let bindings ← f.defaulted "bindings" (Datum.entriesOf? Datum.text?) []
  let component ← f.defaulted "component" Datum.text? ""
  let property ← f.defaulted "property" Datum.text? ""
  let level ← f.optional "level" Datum.text?
  pure { id, template, bindings := EventDefinition.bindingsOfList bindings, component, property, level }

def Snapshot.ofDatum? (dialect : Dialect) (d : Datum) : Option Snapshot := do
  let f ← d.fields? dialect ["typedefs", "events"]
  let typedefs ← f.defaulted "typedefs" (Datum.listOf? (Typedef.ofDatum? dialect)) []
  let events ← f.defaulted "events" (Datum.listOf? (EventDefinition.ofDatum? dialect)) []
  pure { typedefs, events }

end EventTrace
