import EventTrace.Proofs.Interval.Measure
import EventTrace.Proofs.Run.Aggregation
/-! Times over the rationals. Main result: no calibration moves the time of its own tick, so that times never run
backwards as long as ticks do not, and all durations that slots tell are in order. -/
namespace EventTrace

namespace TimeBase

variable {t : TimeBase Rat} {r : Record} {records : List Record} {ticks ticks' : UInt64}

theorem seconds_eq (t : TimeBase Rat) (ticks : UInt64) :
    t.seconds ticks = t.zero + ((ticks.toNat : Rat) - (t.mark.toNat : Rat)) * t.scale := by
  have hdistance : (((ticks.toNat : Int) - (t.mark.toNat : Int) : Int) : Rat) = ticks.toNat - t.mark.toNat := by
    push_cast
    rfl
  rw [← hdistance]
  rfl

/-- A calibration begins where the time has got to. -/
theorem seconds_recalibrate (t : TimeBase Rat) (ticks : UInt64) (frequency : UInt32) :
    (t.recalibrate ticks frequency).seconds ticks = t.seconds ticks := by
  rw [seconds_eq]
  simp [recalibrate]

theorem observe_cases (t : TimeBase Rat) (r : Record) :
    t.observe r = t ∨ ∃ frequency, t.observe r = t.recalibrate r.ticks frequency := by
  unfold observe
  split
  · exact .inr ⟨_, rfl⟩
  · exact .inl rfl

theorem seconds_observe (t : TimeBase Rat) (r : Record) : (t.observe r).seconds r.ticks = t.seconds r.ticks := by
  obtain h | ⟨frequency, h⟩ := t.observe_cases r
  · rw [h]
  · rw [h, seconds_recalibrate]

theorem scale_recalibrate_nonneg (t : TimeBase Rat) (ticks : UInt64) (frequency : UInt32) :
    0 ≤ (t.recalibrate ticks frequency).scale := by
  have hscale : (t.recalibrate ticks frequency).scale = 1 / ((frequency.toNat : Int) : Rat) := rfl
  rw [hscale]
  exact div_nonneg zero_le_one (Int.cast_nonneg (Int.natCast_nonneg _))

theorem scale_observe_nonneg (h : 0 ≤ t.scale) (r : Record) : 0 ≤ (t.observe r).scale := by
  obtain hobserve | ⟨frequency, hobserve⟩ := t.observe_cases r
  · rwa [hobserve]
  · rw [hobserve]
    exact t.scale_recalibrate_nonneg ..

theorem scale_follow_nonneg (h : 0 ≤ t.scale) (records : List Record) : 0 ≤ (t.follow records).scale := by
  induction records generalizing t with
  | nil => exact h
  | cons r rest ih => exact ih (scale_observe_nonneg h r)

/-- From some ticks on, time is not negative and does not run backwards. -/
structure Forward (t : TimeBase Rat) (ticks : UInt64) : Prop where
  scale : 0 ≤ t.scale
  zero : 0 ≤ t.zero
  mark : t.mark ≤ ticks

namespace Forward

theorem of_le (h : t.Forward ticks) (hle : ticks ≤ ticks') : t.Forward ticks' :=
  ⟨h.scale, h.zero, UInt64.le_trans h.mark hle⟩

theorem seconds_le (h : t.Forward ticks) (hle : ticks ≤ ticks') : t.seconds ticks ≤ t.seconds ticks' := by
  have hticks : (ticks.toNat : Rat) ≤ ticks'.toNat := Nat.cast_le.mpr (UInt64.le_iff_toNat_le.mp hle)
  rw [seconds_eq, seconds_eq]
  gcongr
  exact h.scale

theorem seconds_nonneg (h : t.Forward ticks) : 0 ≤ t.seconds ticks := by
  have hticks : (t.mark.toNat : Rat) ≤ ticks.toNat := Nat.cast_le.mpr (UInt64.le_iff_toNat_le.mp h.mark)
  rw [seconds_eq]
  exact add_nonneg h.zero (mul_nonneg (sub_nonneg.mpr hticks) h.scale)

theorem recalibrate (h : t.Forward ticks) (frequency : UInt32) : (t.recalibrate ticks frequency).Forward ticks :=
  ⟨t.scale_recalibrate_nonneg .., h.seconds_nonneg, UInt64.le_refl _⟩

theorem observe (h : t.Forward r.ticks) : (t.observe r).Forward r.ticks := by
  obtain hobserve | ⟨frequency, hobserve⟩ := t.observe_cases r
  · rwa [hobserve]
  · rw [hobserve]
    exact h.recalibrate frequency

end Forward

theorem upTo_succ (t : TimeBase Rat) {i : Nat} (h : i + 1 < records.length) :
    t.upTo records (i + 1) = (t.upTo records i).observe records[i + 1] := by
  rw [upTo, upTo, List.take_succ_eq_append_getElem h, follow_concat]

/-- At each record the time base has gone forward, if it does so at the first. -/
theorem forward_upTo (hticks : records.Pairwise (·.ticks ≤ ·.ticks)) (h : ∀ ticks, t.Forward ticks) {i : Nat}
    (hi : i < records.length) : (t.upTo records i).Forward records[i].ticks := by
  induction i with
  | zero =>
    have hfirst : t.upTo records 0 = t.observe records[0] := by
      rw [upTo, List.take_succ_eq_append_getElem hi]
      rfl
    rw [hfirst]
    exact (h _).observe
  | succ i ih =>
    have hle : records[i].ticks ≤ records[i + 1].ticks := List.pairwise_iff_getElem.mp hticks _ _ _ _ (Nat.lt_succ_self i)
    rw [upTo_succ t hi]
    exact ((ih (by omega)).of_le hle).observe

theorem timeOf_nonneg (hticks : records.Pairwise (·.ticks ≤ ·.ticks)) (h : ∀ ticks, t.Forward ticks) {i : Nat}
    (hi : i < records.length) : 0 ≤ t.timeOf records i := by
  rw [t.timeOf_eq (List.getElem?_eq_getElem hi)]
  exact (forward_upTo hticks h hi).seconds_nonneg

theorem timeOf_le_succ (hticks : records.Pairwise (·.ticks ≤ ·.ticks)) (h : ∀ ticks, t.Forward ticks) {i : Nat}
    (hi : i + 1 < records.length) : t.timeOf records i ≤ t.timeOf records (i + 1) := by
  have hforward := forward_upTo hticks h (Nat.lt_of_succ_lt hi)
  have hle : records[i].ticks ≤ records[i + 1].ticks := List.pairwise_iff_getElem.mp hticks _ _ _ _ (Nat.lt_succ_self i)
  calc t.timeOf records i
    _ = (t.upTo records i).seconds records[i].ticks := t.timeOf_eq (List.getElem?_eq_getElem _)
    _ ≤ (t.upTo records i).seconds records[i + 1].ticks := hforward.seconds_le hle
    _ = (t.upTo records (i + 1)).seconds records[i + 1].ticks := by rw [upTo_succ t hi, seconds_observe]
    _ = t.timeOf records (i + 1) := (t.timeOf_eq (List.getElem?_eq_getElem _)).symm

theorem timeOf_le (hticks : records.Pairwise (·.ticks ≤ ·.ticks)) (h : ∀ ticks, t.Forward ticks) {i j : Nat}
    (hij : i ≤ j) (hj : j < records.length) : t.timeOf records i ≤ t.timeOf records j := by
  induction hij with
  | refl => exact le_refl _
  | step _ ih => exact le_trans (ih (Nat.lt_of_succ_lt hj)) (timeOf_le_succ hticks h hj)

/-- A pass begins at zero, with a scale that is not negative. -/
theorem forward_of_restart (h : 0 ≤ t.scale) (ticks : UInt64) : t.restart.Forward ticks :=
  ⟨h, le_refl _, UInt64.zero_le⟩

end TimeBase

namespace Tally

variable {v : Renderer} {t : TimeBase Rat} {records : List Record}

/-- No interval of a slot ends before it begins. -/
theorem duration_nonneg (hticks : records.Pairwise (·.ticks ≤ ·.ticks)) (h : ∀ ticks, t.Forward ticks)
    {group slot : Nat} {i : Interval Rat}
    (hi : i ∈ (pairing (Aggregator.history group slot (calls v (t.timeOf records) records))).1) : 0 ≤ i.duration := by
  rw [intervals_eq_spans] at hi
  obtain ⟨span, hspan, rfl⟩ := List.mem_map.mp hi
  obtain ⟨hlt, -, ⟨r, hr, -⟩⟩ := of_mem_spans hspan
  have hstop : span.stop.time < records.length := (List.getElem?_eq_some_iff.mp hr).1
  exact sub_nonneg.mpr (TimeBase.timeOf_le hticks h hlt.le hstop)

/-- The first pass gives nothing else than what it gathers from its records. -/
theorem eq_of_collect {f : Feed} (hfault : f.fault = none) {result : Tally Rat}
    (h : (collect v (.steady f) t).result = .ok result) : result = ofRecords v t.restart f.decoded := by
  have hfine : v.firstFailure? Record.isInterval f.decoded = none := by
    have hends := collect_ends v hfault t
    cases hfailure : v.firstFailure? Record.isInterval f.decoded with
    | none => rfl
    | some fault =>
      rw [hfailure] at hends
      cases h.symm.trans hends
  exact Except.ok.inj (h.symm.trans (collect_result hfault hfine t))

end Tally

/-- Where ticks do not run backwards, times do not either, wherever the tick frequency is announced: an announcement does
not move the time of its own tick, the times of both passes are not negative and do not decrease, no interval ends before
it begins, and the durations of every slot that the first pass reports are in order. -/
theorem times_run_forward (v : Renderer) {period : Rat} (hperiod : 0 ≤ period) {records : List Record}
    (hticks : records.Pairwise (·.ticks ≤ ·.ticks)) :
    let first := TimeBase.start period
    let tally := Tally.ofRecords v first records
    let second := tally.timeBase.restart
    let intervals group slot :=
      (pairing (Aggregator.history group slot (Tally.calls v (first.timeOf records) records))).1
    (∀ (t : TimeBase Rat) ticks frequency, (t.recalibrate ticks frequency).seconds ticks = t.seconds ticks) ∧
    (∀ (t : TimeBase Rat) r, (t.observe r).seconds r.ticks = t.seconds r.ticks) ∧
    (∀ t ∈ [first, second], ∀ i j, i ≤ j → j < records.length →
      0 ≤ t.timeOf records i ∧ t.timeOf records i ≤ t.timeOf records j) ∧
    (∀ group slot, ∀ i ∈ intervals group slot, 0 ≤ i.duration) ∧
    (∀ x ∈ tally.aggregator.completed,
      (∃ pending, x.state.Measures (intervals x.group x.slot) pending) ∧ x.state.InOrder) ∧
    ∀ f : Feed, f.fault = none → f.decoded = records →
      ∀ result, (collect v (.steady f) first).result = .ok result → result = tally := by
  intro first tally second intervals
  have hfirst : ∀ ticks, first.Forward ticks := TimeBase.forward_of_restart (t := first) hperiod
  have hsecond : ∀ ticks, second.Forward ticks :=
    TimeBase.forward_of_restart (TimeBase.scale_follow_nonneg hperiod records)
  have hdurations : ∀ group slot, ∀ i ∈ intervals group slot, 0 ≤ i.duration :=
    fun group slot i hi => Tally.duration_nonneg hticks hfirst hi
  refine ⟨TimeBase.seconds_recalibrate, TimeBase.seconds_observe, ?_, hdurations, ?_, ?_⟩
  · intro t ht i j hij hj
    have hforward : ∀ ticks, t.Forward ticks := by
      obtain rfl | rfl : t = first ∨ t = second := by simpa using ht
      · exact hfirst
      · exact hsecond
    exact ⟨TimeBase.timeOf_nonneg hticks hforward (by omega), TimeBase.timeOf_le hticks hforward hij hj⟩
  · intro x hx
    obtain ⟨hcount, hstate⟩ := Aggregator.state_of_mem_completed hx
    have hmeasures : x.state.Measures (intervals x.group x.slot) _ := hstate ▸ IntervalState.measures_empty.play _
    have hsome : intervals x.group x.slot ≠ [] := List.length_pos_iff.mp (hmeasures.count ▸ hcount)
    exact ⟨⟨_, hmeasures⟩, hmeasures.inOrder hsome (hdurations x.group x.slot)⟩
  · rintro f hfault rfl result hresult
    exact Tally.eq_of_collect hfault hresult

/-- A slot runs across an announcement that doubles the tick frequency. -/
theorem times_run_forward_across_calibrations :
    let initialization : Frame :=
      ⟨2, [100, 0, 0, 0, 0, 0, 0, 0, 0, 0xFF, 0, 0, 0, 0, 0, 0, 0xE8, 3, 0, 0], by decide⟩
    let start : Frame := ⟨7, [200, 0, 0, 0, 0, 0, 0, 0, 0x41, 0xEF, 0, 0], by decide⟩
    let clock : Frame := ⟨2, [44, 1, 0, 0, 0, 0, 0, 0, 3, 0xFF, 0, 0, 0xD0, 7, 0, 0, 0, 0, 0, 0], by decide⟩
    let stop : Frame := ⟨7, [144, 1, 0, 0, 0, 0, 0, 0, 0x6F, 0xEF, 0, 0], by decide⟩
    let f : Feed := { pending := Frame.stream [initialization, start, clock, stop] ++ [7] }
    let first : TimeBase Rat := .start (1 / 1000)
    f.decoded.Pairwise (·.ticks ≤ ·.ticks) ∧ first.timeOf f.decoded 1 ≤ first.timeOf f.decoded 3 ∧
      ∃ tally, (collect {} (.steady f) first).result = .ok tally ∧
        (tally.aggregator.completed.map fun x => (x.group, x.slot)) = [(1, 1)] ∧
        ∀ x ∈ tally.aggregator.completed, x.state.InOrder := by
  intro initialization start clock stop f first
  have htail : Incomplete [7] := .inl (by decide)
  have hpending : f.pending = Frame.stream [initialization, start, clock, stop] ++ [7] := rfl
  have hdecoded : f.decoded =
      [⟨100, 0xFF00, 0, .two 0 1000⟩, ⟨200, 0xEF41, 0, .other 7⟩, ⟨300, 0xFF03, 0, .two 2000 0⟩,
        ⟨400, 0xEF6F, 0, .other 7⟩] := Feed.decoded_stream hpending htail rfl
  have hticks : f.decoded.Pairwise (·.ticks ≤ ·.ticks) := by
    rw [hdecoded]
    decide
  have hfine : Renderer.firstFailure? {} Record.isInterval f.decoded = none := by
    rw [hdecoded]
    rfl
  have hperiod : (0 : Rat) ≤ 1 / 1000 := by simp
  obtain ⟨-, -, htimes, -, hslots, -⟩ := times_run_forward {} hperiod hticks
  have hlength : 3 < f.decoded.length := by
    rw [hdecoded]
    decide
  refine ⟨hticks, (htimes first List.mem_cons_self 1 3 (by decide) hlength).2, _, collect_result rfl hfine first, ?_,
    fun x hx => (hslots x hx).2⟩
  rw [Tally.ofRecords]
  generalize first.restart.timeOf f.decoded = time
  rw [hdecoded]
  rfl

end EventTrace
