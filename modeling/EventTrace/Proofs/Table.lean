import EventTrace.Schema.Document
import EventTrace.StringTable
/-! Tables that are filled one entry after the other, some keys again. Main result: of all entries with a key a table has
the last, be it a table of typedefs, of events, of texts or of names. -/
namespace EventTrace

section
variable {κ δ : Type} [DecidableEq κ] (key : δ → κ)

def lastOf? (k : κ) (ds : List δ) : Option δ := (ds.filter fun d => key d = k).getLast?

/-- The last definitions of all keys, in some order. -/
structure AreLasts (ds es : List δ) : Prop where
  nodup : (es.map key).Nodup
  mem_iff : ∀ d, d ∈ es ↔ lastOf? key (key d) ds = some d

variable {key} {k : κ} {d : δ} {ds es es' : List δ}

theorem lastOf?_cons (d : δ) (ds : List δ) :
    lastOf? key k (d :: ds) = (lastOf? key k ds).or (if key d = k then some d else none) := by
  rw [lastOf?, lastOf?, List.filter_cons]
  by_cases h : key d = k
  · simp only [h, decide_true, if_true, List.getLast?_cons]
    cases (ds.filter fun d => key d = k).getLast? <;> rfl
  · simp only [h, decide_false, Bool.false_eq_true, if_false, Option.or_none]

theorem key_of_lastOf? (h : lastOf? key k ds = some d) : key d = k := by
  have hmem := List.mem_of_getLast? h
  simpa using (List.mem_filter.mp hmem).2

theorem lastOf?_eq_some_of_nodup (hnodup : (ds.map key).Nodup) : lastOf? key k ds = some d ↔ d ∈ ds ∧ key d = k := by
  induction ds generalizing d with
  | nil => simp [lastOf?]
  | cons x ds ih =>
    obtain ⟨hx, hds⟩ := List.nodup_cons.mp hnodup
    rw [lastOf?_cons, List.mem_cons]
    by_cases hk : key x = k
    · have hnone : lastOf? key k ds = none := by
        refine Option.eq_none_iff_forall_ne_some.mpr fun y hy => hx ?_
        obtain ⟨hmem, hkey⟩ := (ih hds).mp hy
        exact List.mem_map.mpr ⟨y, hmem, hkey.trans hk.symm⟩
      have hother : ¬(d ∈ ds ∧ key d = k) := fun h => hx (List.mem_map.mpr ⟨d, h.1, h.2.trans hk.symm⟩)
      rw [hnone, if_pos hk, Option.none_or, Option.some_inj]
      refine ⟨fun h => ⟨.inl h.symm, h ▸ hk⟩, fun ⟨h, hkey⟩ => ?_⟩
      exact h.elim Eq.symm fun hmem => absurd ⟨hmem, hkey⟩ hother
    · rw [if_neg hk, Option.or_none, ih hds]
      refine ⟨fun h => ⟨.inr h.1, h.2⟩, fun ⟨h, hkey⟩ => ⟨h.resolve_left fun e => hk (e ▸ hkey), hkey⟩⟩

/-- The order of definitions does not matter if no two have the same key. -/
theorem lastOf?_of_perm (h : ds.Perm es) (hnodup : (ds.map key).Nodup) : lastOf? key k es = lastOf? key k ds := by
  refine Option.ext fun d => ?_
  rw [lastOf?_eq_some_of_nodup ((h.map key).nodup_iff.mp hnodup), lastOf?_eq_some_of_nodup hnodup, h.mem_iff]

/-- Replaced definitions do not matter. -/
theorem AreLasts.lastOf?_eq (h : AreLasts key ds es) : lastOf? key k es = lastOf? key k ds := by
  refine Option.ext fun d => ?_
  rw [lastOf?_eq_some_of_nodup h.nodup, h.mem_iff]
  constructor
  · rintro ⟨hd, rfl⟩
    exact hd
  · intro hd
    obtain rfl := key_of_lastOf? hd
    exact ⟨hd, rfl⟩

theorem AreLasts.nodup_self (h : AreLasts key ds es) : es.Nodup :=
  List.Pairwise.of_map key (fun _ _ hne heq => hne (congrArg key heq)) h.nodup

theorem AreLasts.perm (h : AreLasts key ds es) (h' : AreLasts key ds es') : es.Perm es' :=
  (List.perm_ext_iff_of_nodup h.nodup_self h'.nodup_self).mpr fun d => (h.mem_iff d).trans (h'.mem_iff d).symm

end

section
variable {κ δ : Type} [DecidableEq κ] [Ord κ] [Std.TransOrd κ] [Std.LawfulEqOrd κ] (key : δ → κ)

/-- A table to which entries are added one by one has the last of each key. -/
theorem getElem?_foldl_insert {β : Type} (value : δ → β) (ds : List δ) (table : Std.ExtTreeMap κ β) (k : κ) :
    (ds.foldl (fun table d => table.insert (key d) (value d)) table)[k]? = ((lastOf? key k ds).map value).or table[k]? := by
  -- for every table that the entries are added to
  induction ds generalizing table with
  | nil => rfl
  | cons d ds ih =>
    rw [List.foldl_cons, ih, lastOf?_cons, Std.ExtTreeMap.getElem?_insert]
    simp only [Std.LawfulEqCmp.compare_eq_iff_eq]
    cases lastOf? key k ds with
    | some last => rfl
    | none => split <;> rfl

/-- A table that was filled from empty has the last of each key and nothing else. -/
theorem getElem?_foldl_insert_empty {β : Type} (value : δ → β) (ds : List δ) (k : κ) :
    (ds.foldl (fun table d => table.insert (key d) (value d)) (∅ : Std.ExtTreeMap κ β))[k]? =
      (lastOf? key k ds).map value := by
  rw [getElem?_foldl_insert, Std.ExtTreeMap.getElem?_empty, Option.or_none]

theorem areLasts_entries {ds : List δ} {table : Std.ExtTreeMap κ δ} (h : ∀ k : κ, table[k]? = lastOf? key k ds) :
    AreLasts key ds (table.toList.map (·.2)) := by
  have hkeys : (table.toList.map (·.2)).map key = table.keys := by
    rw [List.map_map, ← Std.ExtTreeMap.map_fst_toList_eq_keys]
    refine List.map_congr_left fun e he => ?_
    have hentry : table[e.1]? = some e.2 := Std.ExtTreeMap.mem_toList_iff_getElem?_eq_some.mp he
    have hlast : lastOf? key e.1 ds = some e.2 := (h e.1).symm.trans hentry
    show key e.2 = e.1
    exact key_of_lastOf? hlast
  refine ⟨hkeys ▸ Std.ExtTreeMap.nodup_keys, fun d => ?_⟩
  rw [List.mem_map]
  constructor
  · rintro ⟨⟨k, d⟩, he, rfl⟩
    have hlast := (h k).symm.trans (Std.ExtTreeMap.mem_toList_iff_getElem?_eq_some.mp he)
    rwa [key_of_lastOf? hlast]
  · intro hd
    exact ⟨(key d, d), Std.ExtTreeMap.mem_toList_iff_getElem?_eq_some.mpr ((h (key d)).trans hd), rfl⟩

end

theorem TypedefTable.getElem?_ofList (ts : List Typedef) (name : String) :
    (TypedefTable.ofList ts)[name]? = lastOf? (·.name) name ts :=
  (getElem?_foldl_insert_empty Typedef.name id ts name).trans (congrFun Option.map_id _)

theorem EventTable.getElem?_ofList (es : List EventDefinition) (id : EventId) :
    (EventTable.ofList es)[id]? = lastOf? (·.id) id es :=
  (getElem?_foldl_insert_empty EventDefinition.id (fun e => e) es id).trans (congrFun Option.map_id _)

theorem StringTable.getElem?_ofList (entries : List (UInt64 × String)) (start : UInt64) :
    (StringTable.ofList entries)[start]? = (lastOf? (·.1) start entries).map (·.2) :=
  getElem?_foldl_insert_empty Prod.fst Prod.snd entries start

theorem Member.getElem?_namesOfList (names : List (Int64 × String)) (value : Int64) :
    (Member.namesOfList names)[value]? = (lastOf? (·.1) value names).map (·.2) :=
  getElem?_foldl_insert_empty Prod.fst Prod.snd names value

end EventTrace
