import EventTrace.Proofs.Table
import EventTrace.Record.Basic
import EventTrace.Run.Basic
/-! Definitions that arrive in several documents, some of them again. Main statement: of all definitions of a name or an
id the last one counts, and nothing else about their order. Tables are searched by key; what looks at whole tables, the
widths of columns and the statistics, comes out the same in whatever order the definitions are gone through. -/
namespace EventTrace

def Typedef.statisticsOf (ts : List Typedef) : TypedefTable.Statistics where
  typedefs := ts.length
  members := (ts.flatMap (·.members)).length
  names := (ts.flatMap fun t => t.members.flatMap (·.names.toList)).length

def Columns.ofDefinitions (es : List EventDefinition) : Columns where
  component := max ((es.map (·.component.length)).foldl max 0) "Component".length
  property := max ((es.map (·.property.length)).foldl max 0) "Event Property".length

theorem TypedefTable.statistics_of_perm {table : TypedefTable} {ts : List Typedef} (h : (table.toList.map (·.2)).Perm ts) :
    table.statistics = Typedef.statisticsOf ts := by
  have hsize : table.size = ts.length := by
    rw [← Std.ExtTreeMap.length_toList, ← h.length_eq, List.length_map]
  have hcount {β : Type} (f : Typedef → List β) : (table.toList.flatMap fun e => f e.2).length = (ts.flatMap f).length := by
    rw [← (h.flatMap_right f).length_eq, List.flatMap_map]
  rw [statistics, Typedef.statisticsOf, hsize, hcount (·.members), hcount fun t => t.members.flatMap (·.names.toList)]

theorem EventTable.longest_of_perm {table : EventTable} {es : List EventDefinition} (h : (table.toList.map (·.2)).Perm es)
    (f : EventDefinition → String) : table.longest f = (es.map fun e => (f e).length).foldl max 0 := by
  -- A fold over the entries does not depend on their order, because the widths are compared in any order.
  have hmax (m n k : Nat) : max (max k m) n = max (max k n) m := by omega
  rw [longest, ← (h.map fun e => (f e).length).foldl_eq' (fun m _ n _ k => hmax m n k), List.map_map]
  rfl

theorem Columns.ofEvents_of_perm {table : EventTable} {es : List EventDefinition} (h : (table.toList.map (·.2)).Perm es) :
    Columns.ofEvents table = Columns.ofDefinitions es := by
  simp only [ofEvents, ofDefinitions, EventTable.longest_of_perm h]

namespace Snapshot

def allTypedefs (ds : List Snapshot) : List Typedef := ds.flatMap (·.typedefs)

def allEvents (ds : List Snapshot) : List EventDefinition := ds.flatMap (·.events)

def lastTypedef? (ds : List Snapshot) (name : String) : Option Typedef := lastOf? (·.name) name (allTypedefs ds)

def lastEvent? (ds : List Snapshot) (id : EventId) : Option EventDefinition := lastOf? (·.id) id (allEvents ds)

/-- The same last definition of every name and of every id. -/
structure Agree (ds ds' : List Snapshot) : Prop where
  typedefs : ∀ name, lastTypedef? ds' name = lastTypedef? ds name
  events : ∀ id, lastEvent? ds' id = lastEvent? ds id

/-- The same definitions in another order, no two of them of one name or one id. -/
structure Reordered (ds ds' : List Snapshot) : Prop where
  typedefs : (allTypedefs ds).Perm (allTypedefs ds')
  events : (allEvents ds).Perm (allEvents ds')
  names : ((allTypedefs ds).map (·.name)).Nodup
  ids : ((allEvents ds).map (·.id)).Nodup

/-- One document that has, in some order, the definitions that were not replaced. -/
structure Survives (ds : List Snapshot) (d : Snapshot) : Prop where
  typedefs : AreLasts (·.name) (allTypedefs ds) d.typedefs
  events : AreLasts (·.id) (allEvents ds) d.events

variable {ds ds' : List Snapshot} {d : Snapshot}

theorem Reordered.agree (h : Reordered ds ds') : Agree ds ds' where
  typedefs _ := lastOf?_of_perm h.typedefs h.names
  events _ := lastOf?_of_perm h.events h.ids

theorem Survives.agree (h : Survives ds d) : Agree ds [d] := by
  refine ⟨fun name => ?_, fun id => ?_⟩
  · rw [lastTypedef?, allTypedefs, List.flatMap_singleton]
    exact h.typedefs.lastOf?_eq
  · rw [lastEvent?, allEvents, List.flatMap_singleton]
    exact h.events.lastOf?_eq

end Snapshot

namespace Schema

open Snapshot

def ofSnapshots (ds : List Snapshot) : Schema := ds.foldl add {}

theorem foldl_add (ds : List Snapshot) (s : Schema) : ds.foldl add s =
    { typedefs := (allTypedefs ds).foldl TypedefTable.add s.typedefs
      events := (allEvents ds).foldl EventTable.add s.events } := by
  induction ds generalizing s with
  | nil => rfl
  | cons d ds ih =>
    rw [List.foldl_cons, ih, allTypedefs, allTypedefs, allEvents, allEvents, List.flatMap_cons, List.flatMap_cons,
      List.foldl_append, List.foldl_append]
    rfl

theorem typedefs_ofSnapshots (ds : List Snapshot) (name : String) :
    (ofSnapshots ds).typedefs[name]? = lastTypedef? ds name := by
  rw [ofSnapshots, foldl_add, lastTypedef?]
  exact TypedefTable.getElem?_ofList (allTypedefs ds) name

theorem events_ofSnapshots (ds : List Snapshot) (id : EventId) : (ofSnapshots ds).events[id]? = lastEvent? ds id := by
  rw [ofSnapshots, foldl_add, lastEvent?]
  exact EventTable.getElem?_ofList (allEvents ds) id

theorem ofSnapshots_eq {ds ds' : List Snapshot} (h : Agree ds ds') : ofSnapshots ds' = ofSnapshots ds := by
  have htypedefs : (ofSnapshots ds').typedefs = (ofSnapshots ds).typedefs :=
    Std.ExtTreeMap.ext_getElem? fun name => by rw [typedefs_ofSnapshots, typedefs_ofSnapshots, h.typedefs]
  have hevents : (ofSnapshots ds').events = (ofSnapshots ds).events :=
    Std.ExtTreeMap.ext_getElem? fun id => by rw [events_ofSnapshots, events_ofSnapshots, h.events]
  calc ofSnapshots ds'
    _ = ⟨(ofSnapshots ds').events, (ofSnapshots ds').typedefs⟩ := rfl
    _ = ⟨(ofSnapshots ds).events, (ofSnapshots ds).typedefs⟩ := by rw [hevents, htypedefs]

variable {ds : List Snapshot} {d : Snapshot}

theorem statistics_ofSnapshots (h : Survives ds d) :
    (ofSnapshots ds).typedefs.statistics = Typedef.statisticsOf d.typedefs :=
  TypedefTable.statistics_of_perm ((areLasts_entries (·.name) (typedefs_ofSnapshots ds)).perm h.typedefs)

theorem columns_ofSnapshots (h : Survives ds d) :
    Columns.ofEvents (ofSnapshots ds).events = Columns.ofDefinitions d.events :=
  Columns.ofEvents_of_perm ((areLasts_entries (·.id) (events_ofSnapshots ds)).perm h.events)

end Schema

open Snapshot

/-- A schema leads from each name and each id to its last definition. The definitions that were not replaced, in any order,
make up the same statistics, the same columns and the same schema, as do definitions of different names and ids in
another order. With the same last definitions, all that a run does is the same, and so are its statistics. -/
theorem only_last_definitions_count (ds : List Snapshot) (resolver : Resolver) (settings : Settings) (source : Source) :
    let v (ds : List Snapshot) : Renderer := ⟨.ofSnapshots ds, resolver⟩
    (∀ name, (v ds).schema.typedefs[name]? = lastTypedef? ds name) ∧
    (∀ r : Record, (v ds).definition? r = lastEvent? ds r.id) ∧
    (∀ d, Survives ds d → Agree ds [d] ∧ (v ds).schema.typedefs.statistics = Typedef.statisticsOf d.typedefs ∧
      Columns.ofEvents (v ds).schema.events = Columns.ofDefinitions d.events) ∧
    (∀ ds', Reordered ds ds' → Agree ds ds') ∧
    ∀ ds', Agree ds ds' → run (v ds') settings source = run (v ds) settings source ∧
      Run.statistics (v ds') settings source = Run.statistics (v ds) settings source ∧
      (v ds').schema.typedefs.statistics = (v ds).schema.typedefs.statistics ∧
      Columns.ofEvents (v ds').schema.events = Columns.ofEvents (v ds).schema.events := by
  intro v
  refine ⟨Schema.typedefs_ofSnapshots ds, fun r => Schema.events_ofSnapshots ds r.id, fun d hd => ?_,
    fun ds' h => h.agree, fun ds' h => ?_⟩
  · exact ⟨hd.agree, Schema.statistics_ofSnapshots hd, Schema.columns_ofSnapshots hd⟩
  · have hv : v ds' = v ds := congrArg (Renderer.mk · resolver) (Schema.ofSnapshots_eq h)
    rw [hv]
    exact ⟨rfl, rfl, rfl, rfl⟩

/-- An event that is defined again in a later document, and the two definitions that are left in the other order. -/
theorem only_last_definitions_count_of_replaced :
    let old : EventDefinition := { id := 1, template := "old", property := "A property that is very long", level := some "Error" }
    let new : EventDefinition := { id := 1, template := "%d[val1]" }
    let other : EventDefinition := { id := 2 }
    let ds : List Snapshot := [{ events := [old, other] }, { events := [new] }]
    let d : Snapshot := { events := [new, other] }
    let ds' : List Snapshot := [{ events := [other] }, { events := [new] }]
    let source : Source := { feed := fun _ => .ok { pending := Record.frame 1 (List.replicate 8 0 ++ [1, 0, 0, 0]) } }
    Survives ds d ∧ Reordered [d] ds' ∧ Agree ds [d] ∧ Agree [d] ds' ∧
      run ⟨.ofSnapshots ds', .none⟩ {} source = run ⟨.ofSnapshots ds, .none⟩ {} source ∧
      Columns.ofEvents (Schema.ofSnapshots ds).events = {} := by
  intro old new other ds d ds' source
  have hsurvives : Survives ds d := by
    refine ⟨⟨List.nodup_nil, fun t => by simp [lastOf?, allTypedefs, ds, d]⟩, ⟨by decide, fun e => ?_⟩⟩
    have hlast : lastOf? (·.id) e.id (allEvents ds) =
        if 1 = e.id then some new else if 2 = e.id then some other else none := by
      simp only [allEvents, ds, List.flatMap_cons, List.flatMap_nil, List.cons_append, List.nil_append, lastOf?_cons]
      split <;> split <;> rfl
    have hone : e = new → 1 = e.id := fun h => h ▸ rfl
    have htwo : e = other → 2 = e.id := fun h => h ▸ rfl
    rw [hlast, List.mem_cons, List.mem_singleton]
    split
    next h =>
      have hne : ¬2 = e.id := fun h' => absurd (h.trans h'.symm) (by decide)
      simp [mt htwo hne, eq_comm]
    next h =>
      split
      next h' => simp [mt hone h, eq_comm]
      next h' => simp [mt hone h, mt htwo h']
  have hreordered : Reordered [d] ds' := by
    refine ⟨.refl _, ?_, List.nodup_nil, by decide⟩
    exact .swap other new []
  obtain ⟨-, -, hleft, -, hrun⟩ := only_last_definitions_count ds .none {} source
  obtain ⟨-, -, -, horder, hrun'⟩ := only_last_definitions_count [d] .none {} source
  obtain ⟨hagree, -, hcolumns⟩ := hleft d hsurvives
  have hagree' : Agree [d] ds' := horder ds' hreordered
  exact ⟨hsurvives, hreordered, hagree, hagree', (hrun' ds' hagree').1.trans (hrun [d] hagree).1, hcolumns⟩

end EventTrace
