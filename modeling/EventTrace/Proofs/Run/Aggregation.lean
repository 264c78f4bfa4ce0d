import EventTrace.Proofs.Interval.Retiming
import EventTrace.Proofs.Run.Level
/-! The statistics of a run as the aggregation of its events of intervals, and where their captions stand in the event
list. Intervals are told by the records that open and close them: their history is kept in records in place of times. -/
namespace EventTrace

open Transcript

def Record.Starts (r : Record) (group slot : Nat) : Prop :=
  r.id.classCode = 0xEF ∧ r.id.group = group ∧ r.id.phase = .start ∧ r.id.slot = slot

/-- The record stops the slot, alone or with its whole group. -/
def Record.Stops (r : Record) (group slot : Nat) : Prop :=
  r.id.classCode = 0xEF ∧ r.id.group = group ∧ r.id.phase = .stop ∧ (r.id.slot = slot ∨ r.id.slot = 15)

def Signal.moment {α : Type} : Signal α → Moment α
  | .start m => m
  | .stop m => m

namespace Tally

variable {v : Renderer} {τ : Type}

theorem call?_eq_some {time : τ} {r : Record} {c : Aggregator.Call τ} :
    call? v time r = some c ↔ r.isInterval = true ∧
      ∃ caption, r.render v.resolver v.schema.typedefs (v.definition? r) = .ok caption ∧
        c = .apply r.id.group (.ofId r.id) time caption := by
  by_cases h : r.isInterval = true
  · cases hr : r.render v.resolver v.schema.typedefs (v.definition? r) <;>
      simp [call?, h, hr, Except.toOption, eq_comm]
  · simp [call?, h]

theorem calls_eq_map (v : Renderer) (time : Nat → τ) (records : List Record) :
    calls v time records = (calls v id records).map (Aggregator.Call.map time) := by
  rw [calls, calls, List.map_filterMap]
  refine List.filterMap_congr fun p _ => ?_
  rw [call?, call?]
  split
  · rw [Option.map_map]
    rfl
  · rfl

/-- What a record does to a slot. -/
theorem signal?_of_call? {time : τ} {r : Record} {c : Aggregator.Call τ} {group slot : Nat} {x : Signal τ}
    (hc : call? v time r = some c) (hx : c.signal? group slot = some x) :
    ∃ caption, r.render v.resolver v.schema.typedefs (v.definition? r) = .ok caption ∧
      (x = .start ⟨time, caption⟩ ∧ r.Starts group slot ∨ x = .stop ⟨time, caption⟩ ∧ r.Stops group slot) := by
  obtain ⟨hr, caption, hrender, rfl⟩ := call?_eq_some.mp hc
  have hclass : r.id.classCode = 0xEF := beq_iff_eq.mp hr
  refine ⟨caption, hrender, ?_⟩
  rw [← Aggregator.signal?_record hclass, Aggregator.Call.signal?] at hx
  split at hx
  next hgroup =>
    cases hphase : r.id.phase with
    | start =>
      simp only [hphase, Option.ite_none_right_eq_some, Option.some.injEq] at hx
      exact .inl ⟨hx.2.symm, hclass, hgroup.2, hphase, hx.1⟩
    | stop =>
      simp only [hphase, Option.ite_none_right_eq_some, Option.some.injEq] at hx
      exact .inr ⟨hx.2.symm, hclass, hgroup.2, hphase, hx.1⟩
  · cases hx

/-- The intervals of a slot, with the records that open and close them for times. -/
def spans (v : Renderer) (records : List Record) (group slot : Nat) : List (Interval Nat) :=
  (pairing (Aggregator.history group slot (calls v id records))).1

theorem intervals_eq_spans (v : Renderer) (time : Nat → τ) (records : List Record) (group slot : Nat) :
    (pairing (Aggregator.history group slot (calls v time records))).1 =
      (spans v records group slot).map (Interval.map time) := by
  rw [calls_eq_map, Aggregator.history_map, pairing_map, spans]

/-- What the history of a slot tells at an index is told by the record there. -/
theorem of_mem_history {records : List Record} {group slot : Nat} {x : Signal Nat}
    (h : x ∈ Aggregator.history group slot (calls v id records)) :
    ∃ r, records[x.moment.time]? = some r ∧
      r.render v.resolver v.schema.typedefs (v.definition? r) = .ok x.moment.caption ∧
      (x = .start x.moment ∧ r.Starts group slot ∨ x = .stop x.moment ∧ r.Stops group slot) := by
  obtain ⟨c, hc, hx⟩ := List.mem_filterMap.mp h
  obtain ⟨⟨r, i⟩, hmem, hcall⟩ := List.mem_filterMap.mp hc
  obtain ⟨caption, hrender, ⟨rfl, hkind⟩ | ⟨rfl, hkind⟩⟩ := signal?_of_call? hcall hx
  · exact ⟨r, List.mem_zipIdx_iff_getElem?.mp hmem, hrender, .inl ⟨rfl, hkind⟩⟩
  · exact ⟨r, List.mem_zipIdx_iff_getElem?.mp hmem, hrender, .inr ⟨rfl, hkind⟩⟩

/-- The history of a slot is in the order of the records. -/
theorem pairwise_history (v : Renderer) (records : List Record) (group slot : Nat) :
    (Aggregator.history group slot (calls v id records)).Pairwise (·.moment.time < ·.moment.time) := by
  have hindices : records.zipIdx.Pairwise (·.2 < ·.2) := by
    rw [← List.pairwise_map, List.zipIdx_map_snd]
    exact List.pairwise_lt_range' 1
  have htime {p : Record × Nat} {c : Aggregator.Call Nat} {x : Signal Nat} (hc : call? v (id p.2) p.1 = some c)
      (hx : c.signal? group slot = some x) : x.moment.time = p.2 := by
    obtain ⟨caption, -, ⟨rfl, -⟩ | ⟨rfl, -⟩⟩ := signal?_of_call? hc hx
    · rfl
    · rfl
  refine List.pairwise_filterMap.mpr (List.pairwise_filterMap.mpr (hindices.imp ?_))
  intro p q hlt c hc d hd x hx y hy
  rw [htime hc hx, htime hd hy]
  exact hlt

/-- An interval is opened by a record that starts the slot and closed by a later one that stops it; their texts are
its captions. -/
theorem of_mem_spans {records : List Record} {group slot : Nat} {i : Interval Nat}
    (h : i ∈ spans v records group slot) :
    i.start.time < i.stop.time ∧
      (∃ r, records[i.start.time]? = some r ∧ r.Starts group slot ∧
        r.render v.resolver v.schema.typedefs (v.definition? r) = .ok i.start.caption) ∧
      ∃ r, records[i.stop.time]? = some r ∧ r.Stops group slot ∧
        r.render v.resolver v.schema.typedefs (v.definition? r) = .ok i.stop.caption := by
  have hsublist := sublist_of_mem_pairing h
  have hstart : Signal.start i.start ∈ Aggregator.history group slot (calls v id records) := hsublist.mem (by simp)
  have hstop : Signal.stop i.stop ∈ Aggregator.history group slot (calls v id records) := hsublist.mem (by simp)
  refine ⟨?_, ?_, ?_⟩
  · exact List.rel_of_pairwise_cons ((pairwise_history v records group slot).sublist hsublist) (List.mem_singleton_self _)
  · obtain ⟨r, hr, hrender, ⟨-, hkind⟩ | ⟨hx, -⟩⟩ := of_mem_history hstart
    · exact ⟨r, hr, hkind, hrender⟩
    · cases hx
  · obtain ⟨r, hr, hrender, ⟨hx, -⟩ | ⟨-, hkind⟩⟩ := of_mem_history hstop
    · cases hx
    · exact ⟨r, hr, hkind, hrender⟩

end Tally

namespace Aggregator

/-- A slot that is reported has taken in its own history. -/
theorem state_of_mem_completed {α : Type} [Scalar α] {calls : List (Call α)} {x : SlotStatistics α}
    (hx : x ∈ ((empty : Aggregator α).run calls).completed) :
    0 < x.state.count ∧ x.state = IntervalState.empty.play (history x.group x.slot calls) := by
  rw [run_empty, completed_ofStates] at hx
  obtain ⟨p, hp, rfl⟩ := List.mem_map.mp hx
  exact ⟨of_decide_eq_true (List.mem_filter.mp hp).2, rfl⟩

theorem summarizes_of_mem_completed {calls : List (Call Float)} {x : SlotStatistics Float}
    (hx : x ∈ (empty.run calls).completed) :
    0 < x.state.count ∧ x.state.Summarizes (pairing (history x.group x.slot calls)).1
      (pairing (history x.group x.slot calls)).2 := by
  obtain ⟨hcount, hstate⟩ := state_of_mem_completed hx
  exact ⟨hcount, hstate ▸ IntervalState.summarizes_empty.play _⟩

theorem summarizes_of_place (calls : List (Call Float)) {group slot : Nat} (hg : group < groupCount)
    (hs : slot < slotCount) :
    ∃ state, (empty.run calls).state? group slot = some state ∧
      state.Summarizes (pairing (history group slot calls)).1 (pairing (history group slot calls)).2 := by
  rw [run_empty, state?_ofStates _ hg hs]
  exact ⟨_, rfl, IntervalState.summarizes_empty.play _⟩

end Aggregator

namespace Run

end Run

end EventTrace
