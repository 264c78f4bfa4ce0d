import EventTrace.Proofs.Interval.Statistics
/-! Histories whose times are measured in another way. Pairing does not look at times, so it commutes with exchanging
them; and each interval of a history is one of its starts with a stop that comes later. -/
namespace EventTrace

variable {α β : Type}

def Moment.map (f : α → β) (m : Moment α) : Moment β := ⟨f m.time, m.caption⟩

def Signal.map (f : α → β) : Signal α → Signal β
  | .start m => .start (m.map f)
  | .stop m => .stop (m.map f)

def Interval.map (f : α → β) (i : Interval α) : Interval β := ⟨i.start.map f, i.stop.map f⟩

theorem isStart_map (f : α → β) (x : Signal α) : (x.map f).isStart = x.isStart := by cases x <;> rfl

theorem dropWhile_isStart_map (f : α → β) (signals : List (Signal α)) :
    (signals.map (Signal.map f)).dropWhile Signal.isStart = (signals.dropWhile Signal.isStart).map (Signal.map f) := by
  rw [List.dropWhile_map]
  simp only [Function.comp_def, isStart_map]

theorem pairing_map (f : α → β) (signals : List (Signal α)) :
    pairing (signals.map (Signal.map f)) =
      ((pairing signals).1.map (Interval.map f), (pairing signals).2.map (Moment.map f)) := by
  fun_induction pairing signals with
  | case1 => simp [pairing]
  | case2 m signals ih =>
    simpa [pairing, Signal.map] using ih
  | case3 m signals n rest hrest ih =>
    have hmap := dropWhile_isStart_map f signals
    rw [hrest] at hmap
    rw [List.map_cons, Signal.map, pairing_closed hmap, ih]
    rfl
  | case4 m signals hrest =>
    have hmap := dropWhile_isStart_map f signals
    rw [dropWhile_isStart_eq_nil hrest] at hmap
    rw [List.map_cons, Signal.map, pairing_open hmap]
    rfl

/-- Start and stop of an interval stand in the history in this order. -/
theorem sublist_of_mem_pairing {signals : List (Signal α)} {i : Interval α} (h : i ∈ (pairing signals).1) :
    [.start i.start, .stop i.stop].Sublist signals := by
  fun_induction pairing signals with
  | case1 => simp at h
  | case2 m signals ih => exact (ih h).cons _
  | case3 m signals n rest hrest ih =>
    have hsuffix : (.stop n :: rest).Sublist signals := hrest ▸ List.dropWhile_sublist _
    rcases List.mem_cons.mp h with rfl | h
    · exact (((List.nil_sublist rest).cons_cons _).trans hsuffix).cons_cons _
    · exact (((ih h).cons _).trans hsuffix).cons _
  | case4 m signals hrest => simp at h

namespace Aggregator

def Call.map (f : α → β) : Call α → Call β
  | .apply group op time caption => .apply group op (f time) caption
  | .record id time caption => .record id (f time) caption

theorem signal?_map_apply (f : α → β) (g : Nat) (op : IntervalOperation) (time : α) (caption : String)
    (group slot : Nat) :
    (Call.apply g op (f time) caption).signal? group slot =
      ((Call.apply g op time caption).signal? group slot).map (Signal.map f) := by
  by_cases hg : g = group
  · cases op with
    | start s => by_cases hs : s = slot <;> simp [Call.signal?, hg, hs, Signal.map, Moment.map]
    | stop s => by_cases hs : s = slot <;> simp [Call.signal?, hg, hs, Signal.map, Moment.map]
    | stopAll => simp [Call.signal?, hg, Signal.map, Moment.map]
  · simp [Call.signal?, hg]

theorem signal?_map (f : α → β) (c : Call α) (group slot : Nat) :
    (c.map f).signal? group slot = (c.signal? group slot).map (Signal.map f) := by
  cases c with
  | apply g op time caption => exact signal?_map_apply f g op time caption group slot
  | record id time caption =>
    by_cases h : id.classCode = EventId.intervalClass
    · rw [Call.map, signal?_record h, signal?_record h, signal?_map_apply]
    · have hclass : id.classCode ≠ 0xEF := h
      simp [Call.map, Call.signal?, hclass]

theorem history_map (f : α → β) (group slot : Nat) (calls : List (Call α)) :
    history group slot (calls.map (Call.map f)) = (history group slot calls).map (Signal.map f) := by
  simp only [history, List.filterMap_map, List.map_filterMap, Function.comp_def, signal?_map]

end Aggregator
end EventTrace
