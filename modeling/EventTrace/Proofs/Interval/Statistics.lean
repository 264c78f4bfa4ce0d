import EventTrace.Interval.Aggregator
import EventTrace.Proofs.Interval.Pairing
/-! The aggregator as sixty-four slots that do not touch each other. Main statement: after any calls each slot sums up
the pairing of its own history, which keeps of all calls those that concern the slot. -/
namespace EventTrace.Aggregator

inductive Call (α : Type)
  | apply (group : Nat) (op : IntervalOperation) (time : α) (caption : String)
  | record (id : EventId) (time : α) (caption : String)

/-- What a call does to a slot, if it concerns the slot. An event of the interval class concerns its own slot; the
stop of slot fifteen concerns all slots of the group. -/
def Call.signal? {α : Type} (group slot : Nat) : Call α → Option (Signal α)
  | .apply g op time caption =>
    if g = group then
      match op with
      | .start s => if s = slot then some (.start ⟨time, caption⟩) else none
      | .stop s => if s = slot then some (.stop ⟨time, caption⟩) else none
      | .stopAll => some (.stop ⟨time, caption⟩)
    else none
  | .record id time caption =>
    if id.classCode = 0xEF ∧ id.group = group then
      match id.phase with
      | .start => if id.slot = slot then some (.start ⟨time, caption⟩) else none
      | .stop => if id.slot = slot ∨ id.slot = 15 then some (.stop ⟨time, caption⟩) else none
    else none

def history {α : Type} (group slot : Nat) (calls : List (Call α)) : List (Signal α) :=
  calls.filterMap (·.signal? group slot)

def places : List (Nat × Nat) :=
  (List.range groupCount).flatMap fun group => (List.range slotCount).map fun slot => (group, slot)

theorem mem_places {p : Nat × Nat} : p ∈ places ↔ p.1 < groupCount ∧ p.2 < slotCount := by
  obtain ⟨group, slot⟩ := p
  simp [places]

theorem modify_map_range {β : Type} (n i : Nat) (f : Nat → β) (g : β → β) :
    ((List.range n).map f).modify i g = (List.range n).map fun j => if j = i then g (f j) else f j := by
  apply List.ext_getElem
  · simp
  · intro j h₁ h₂
    simp [List.getElem_modify, eq_comm]

theorem zipIdx_map_range {β : Type} (n : Nat) (f : Nat → β) :
    ((List.range n).map f).zipIdx = (List.range n).map fun i => (f i, i) := by
  apply List.ext_getElem
  · simp
  · intro i h₁ h₂
    simp

section
variable {α : Type}

def ofStates (f : Nat → Nat → IntervalState α) : Aggregator α :=
  ⟨(List.range groupCount).map fun group => (List.range slotCount).map (f group)⟩

theorem state?_ofStates (f : Nat → Nat → IntervalState α) {group slot : Nat} (hg : group < groupCount)
    (hs : slot < slotCount) : (ofStates f).state? group slot = some (f group slot) := by
  simp [state?, ofStates, hg, hs]

theorem completed_ofStates (f : Nat → Nat → IntervalState α) :
    (ofStates f).completed =
      (places.filter fun p => 0 < (f p.1 p.2).count).map fun p => ⟨p.1, p.2, f p.1 p.2⟩ := by
  have hunfold : (ofStates f).completed = ((ofStates f).groups.zipIdx.flatMap fun p =>
      p.1.zipIdx.map fun q => (⟨p.2, q.2, q.1⟩ : SlotStatistics α)).filter (0 < ·.state.count) := rfl
  have hall : ((ofStates f).groups.zipIdx.flatMap fun p =>
      p.1.zipIdx.map fun q => (⟨p.2, q.2, q.1⟩ : SlotStatistics α)) = places.map fun p => ⟨p.1, p.2, f p.1 p.2⟩ := by
    simp [ofStates, places, zipIdx_map_range, List.flatMap_map, List.map_flatMap, Function.comp_def]
  rw [hunfold, hall, List.filter_map]
  rfl

theorem intervals_ofStates (f : Nat → Nat → IntervalState α) :
    (ofStates f).intervals = places.foldr (fun p n => (f p.1 p.2).count + n) 0 := by
  have hall : (ofStates f).groups.flatten = places.map fun p => f p.1 p.2 := by
    simp [ofStates, places, List.flatMap_def, List.map_flatten, Function.comp_def]
  rw [intervals, hall, List.foldr_map]

/-- An event of the interval class does to every slot what its operation does. -/
theorem signal?_record {id : EventId} (h : id.classCode = EventId.intervalClass) (time : α) (caption : String)
    (group slot : Nat) :
    (Call.record id time caption).signal? group slot =
      (Call.apply id.group (.ofId id) time caption).signal? group slot := by
  have hclass : id.classCode = 0xEF := h
  cases hp : id.phase with
  | start => simp [Call.signal?, IntervalOperation.ofId, hp, hclass]
  | stop =>
    by_cases hs : id.slot = 15
    · simp [Call.signal?, IntervalOperation.ofId, IntervalOperation.broadcastSlot, hp, hclass, hs]
    · simp [Call.signal?, IntervalOperation.ofId, IntervalOperation.broadcastSlot, hp, hclass, hs]

end

section
variable {α : Type} [Scalar α]

def call (a : Aggregator α) : Call α → Aggregator α
  | .apply group op time caption => a.apply group op time caption
  | .record id time caption => a.record id time caption

def run (a : Aggregator α) (calls : List (Call α)) : Aggregator α := calls.foldl call a

theorem empty_eq_ofStates : (empty : Aggregator α) = ofStates fun _ _ => .empty := by
  simp [empty, ofStates, List.map_const']

/-- An operation reaches each slot through its own signal. -/
theorem apply_ofStates (f : Nat → Nat → IntervalState α) (group : Nat) (op : IntervalOperation) (time : α)
    (caption : String) :
    (ofStates f).apply group op time caption =
      ofStates fun g s => (f g s).play ((Call.apply group op time caption).signal? g s).toList := by
  simp only [ofStates, apply, modify_map_range]
  congr 1
  apply List.map_congr_left
  intro g _
  by_cases hg : g = group
  · subst hg
    cases op with
    | start slot =>
      simp only [if_true]
      apply List.map_congr_left
      intro s _
      by_cases hs : s = slot
      · simp [Call.signal?, hs, IntervalState.play, IntervalState.take]
      · simp [Call.signal?, hs, Ne.symm hs, IntervalState.play]
    | stop slot =>
      simp only [if_true]
      apply List.map_congr_left
      intro s _
      by_cases hs : s = slot
      · simp [Call.signal?, hs, IntervalState.play, IntervalState.take]
      · simp [Call.signal?, hs, Ne.symm hs, IntervalState.play]
    | stopAll => simp [Call.signal?, IntervalState.play, IntervalState.take]
  · simp [Call.signal?, hg, Ne.symm hg, IntervalState.play]

theorem call_ofStates (f : Nat → Nat → IntervalState α) (c : Call α) :
    (ofStates f).call c = ofStates fun g s => (f g s).play (c.signal? g s).toList := by
  cases c with
  | apply group op time caption => exact apply_ofStates f group op time caption
  | record id time caption =>
    by_cases h : id.classCode = EventId.intervalClass
    · rw [call, record, if_pos h, apply_ofStates]
      simp only [signal?_record h]
    · have hclass : id.classCode ≠ 0xEF := h
      simp [call, record, h, Call.signal?, hclass, IntervalState.play]

theorem run_ofStates (f : Nat → Nat → IntervalState α) (calls : List (Call α)) :
    (ofStates f).run calls = ofStates fun g s => (f g s).play (history g s calls) := by
  induction calls generalizing f with
  | nil => rfl
  | cons c calls ih =>
    have hstep : (ofStates f).run (c :: calls) = ((ofStates f).call c).run calls := rfl
    rw [hstep, call_ofStates, ih]
    congr 1
    funext g s
    cases hm : c.signal? g s with
    | none => simp [history, hm, IntervalState.play]
    | some x => simp [history, hm, IntervalState.play]

/-- The aggregator after some calls on a new one. -/
theorem run_empty (calls : List (Call α)) :
    (empty : Aggregator α).run calls = ofStates fun g s => IntervalState.empty.play (history g s calls) := by
  rw [empty_eq_ofStates, run_ofStates]

end

/-- Of a new aggregator: what the slots say after any calls is the pairing of their histories, slot by slot; the
completed slots are those that have an interval, by group and then by slot, and all intervals are counted. -/
theorem run_summarizes_pairings (calls : List (Call Float)) :
    let intervals (p : Nat × Nat) := (pairing (history p.1 p.2 calls)).1
    let a := (empty : Aggregator Float).run calls
    (∀ group slot, group < 4 → slot < 16 → ∃ s, a.state? group slot = some s ∧
      s.Summarizes (intervals (group, slot)) (pairing (history group slot calls)).2) ∧
    (a.completed.map fun x => (x.group, x.slot)) = places.filter (fun p => !(intervals p).isEmpty) ∧
    (∀ x ∈ a.completed, a.state? x.group x.slot = some x.state) ∧
    a.intervals = places.foldr (fun p n => (intervals p).length + n) 0 := by
  intro intervals a
  have ha : a = ofStates fun g s => IntervalState.empty.play (history g s calls) := run_empty calls
  have summary (g s : Nat) : (IntervalState.empty.play (history g s calls)).Summarizes (intervals (g, s))
      (pairing (history g s calls)).2 := IntervalState.summarizes_empty.play (history g s calls)
  have hcount (g s : Nat) : (IntervalState.empty.play (history g s calls)).count = (intervals (g, s)).length :=
    (summary g s).count
  rw [ha]
  refine ⟨?_, ?_, ?_, ?_⟩
  · intro group slot hg hs
    exact ⟨_, state?_ofStates _ hg hs, summary group slot⟩
  · have hkeep (p : Nat × Nat) :
        decide (0 < (IntervalState.empty.play (history p.1 p.2 calls)).count) = !(intervals p).isEmpty := by
      rw [hcount]
      cases intervals p <;> simp
    simp only [completed_ofStates, List.map_map, hkeep, Function.comp_def, Prod.mk.eta, List.map_id']
  · intro x hx
    rw [completed_ofStates] at hx
    obtain ⟨p, hp, rfl⟩ := List.mem_map.mp hx
    obtain ⟨hg, hs⟩ := mem_places.mp (List.mem_filter.mp hp).1
    exact state?_ofStates _ hg hs
  · rw [intervals_ofStates]
    simp only [hcount]

/-- A slot is started twice and stopped by the last slot of its group; a second stop comes too late. -/
theorem run_summarizes_broadcast :
    let calls : List (Call Float) :=
      [.record 0xEF43 1 "a", .apply 1 (.start 3) 2 "b", .apply 7 .stopAll 3 "x", .record 0xEF6F 4 "c",
        .apply 1 (.stop 3) 5 "d"]
    1 < 4 ∧ 3 < 16 ∧ ∃ s, ((empty : Aggregator Float).run calls).state? 1 3 = some s ∧
      s.count = 1 ∧ s.running = false ∧ s.last = (4 : Float) - 1 ∧ s.minCaptions = ("a", "c") := by
  intro calls
  have hpairing : pairing (history 1 3 calls) = ([⟨⟨1, "a"⟩, ⟨4, "c"⟩⟩], none) := by
    simp [calls, history, Call.signal?, EventId.classCode, EventId.group, EventId.phase, EventId.slot, pairing,
      List.dropWhile, Signal.isStart]
  obtain ⟨s, hstate, h⟩ := (run_summarizes_pairings calls).1 1 3 (by decide) (by decide)
  simp only [hpairing] at h
  obtain ⟨i, foremost, _, _, hcaptions⟩ := h.shortest (by simp)
  obtain ⟨before, after, hi, _⟩ := foremost
  have hsplit : before = [] ∧ i = ⟨⟨1, "a"⟩, ⟨4, "c"⟩⟩ := by
    cases before <;> simp_all
  refine ⟨by decide, by decide, s, hstate, h.count, h.running, (h.last _ rfl).1, ?_⟩
  rw [hcaptions, hsplit.2]
  rfl

end EventTrace.Aggregator
