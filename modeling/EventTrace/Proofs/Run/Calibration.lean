import EventTrace.Proofs.Run.Aggregation
/-! The times of the two passes. A record that calibrates settles the scale and the mark whatever they were before, so
behind the first of them the passes differ in the time of the mark alone. -/
namespace EventTrace

open Transcript
open Float.Model (UnpackedFloat)

def Record.Calibrates (r : Record) : Prop :=
  ∃ a b, (r.payload = .two a b ∨ ∃ c d, r.payload = .four a b c d) ∧ (r.id = 0xFF00 ∧ b ≠ 0 ∨ r.id = 0xFF03 ∧ a ≠ 0)

theorem Record.frequency?_isSome_iff (r : Record) : r.frequency?.isSome = true ↔ r.Calibrates := by
  obtain ⟨ticks, id, info, payload⟩ := r
  by_cases hinit : id = 0xFF00
  · cases payload <;>
      simp [frequency?, Calibrates, hinit, EventId.initialization, Payload.words]
  · by_cases hclock : id = 0xFF03
    · cases payload <;>
        simp [frequency?, Calibrates, hclock, EventId.initialization, EventId.clock, Payload.words]
    · simp [frequency?, Calibrates, hinit, hclock, EventId.initialization, EventId.clock]

namespace Double

theorem unpacked_zero_mul (u : UnpackedFloat) (h : u.isFinite = true) :
    ∃ s, UnpackedFloat.mul .binary64 (.zero .positive) u = .zero s := by
  cases u with
  | notANumber => contradiction
  | infinity s => contradiction
  | zero s => exact ⟨_, rfl⟩
  | finite s m e hm => exact ⟨_, rfl⟩

theorem zero_mul_of_isFinite {x : Float} (h : x.isFinite = true) :
    ∃ s, (Scalar.ofInt 0 : Float) * x = .ofModel (.pack (.zero s)) := by
  have hmul : (Scalar.ofInt 0 : Float) * x =
      .ofModel (.pack (UnpackedFloat.mul .binary64 (.zero .positive) x.toModel.unpack)) := rfl
  obtain ⟨s, hs⟩ := unpacked_zero_mul x.toModel.unpack h
  exact ⟨s, by rw [hmul, hs]⟩

/-- A product of zero may be a negative zero, but the sum is not. -/
theorem zero_add_zero_mul {x : Float} (h : x.isFinite = true) :
    (Scalar.ofInt 0 : Float) + Scalar.ofInt 0 * x = Scalar.ofInt 0 := by
  obtain ⟨s, hs⟩ := zero_mul_of_isFinite h
  rw [hs]
  cases s with
  | positive => rfl
  | negative => rfl

end Double

namespace TimeBase

variable {α : Type}

/-- The same frequency came into force at the same tick. -/
structure SameScale (t u : TimeBase α) : Prop where
  scale : t.scale = u.scale
  mark : t.mark = u.mark

theorem SameScale.eq {t u : TimeBase α} (h : SameScale t u) (hzero : t.zero = u.zero) : t = u := by
  obtain ⟨scale, mark, zero⟩ := t
  obtain ⟨scale', mark', zero'⟩ := u
  obtain ⟨rfl, rfl⟩ := h
  rw [show zero = zero' from hzero]

variable [Scalar α]

theorem observe_of_not {r : Record} (h : ¬r.Calibrates) (t : TimeBase α) : t.observe r = t := by
  have hnone : r.frequency? = none := by simpa [← r.frequency?_isSome_iff] using h
  rw [observe, hnone]

/-- A calibration does not look at what was in force before. -/
theorem sameScale_of_calibrates {r : Record} (h : r.Calibrates) (t u : TimeBase α) :
    SameScale (t.observe r) (u.observe r) := by
  obtain ⟨frequency, hfrequency⟩ := Option.isSome_iff_exists.mp (r.frequency?_isSome_iff.mpr h)
  rw [observe, observe, hfrequency]
  exact ⟨rfl, rfl⟩

theorem zero_of_calibrates {r : Record} (h : r.Calibrates) (t : TimeBase α) :
    (t.observe r).zero = t.seconds r.ticks := by
  obtain ⟨frequency, hfrequency⟩ := Option.isSome_iff_exists.mp (r.frequency?_isSome_iff.mpr h)
  rw [observe, hfrequency]
  rfl

theorem SameScale.observe {t u : TimeBase α} (h : SameScale t u) (r : Record) :
    SameScale (t.observe r) (u.observe r) := by
  by_cases hr : r.Calibrates
  · exact sameScale_of_calibrates hr t u
  · rwa [observe_of_not hr, observe_of_not hr]

theorem SameScale.follow {t u : TimeBase α} (h : SameScale t u) (records : List Record) :
    SameScale (t.follow records) (u.follow records) := by
  induction records generalizing t u with
  | nil => exact h
  | cons r rest ih => exact ih (h.observe r)

theorem follow_of_none {records : List Record} (h : ∀ r ∈ records, ¬r.Calibrates) (t : TimeBase α) :
    t.follow records = t := by
  induction records generalizing t with
  | nil => rfl
  | cons r rest ih =>
    obtain ⟨hr, hrest⟩ := List.forall_mem_cons.mp h
    have hfollow : t.follow (r :: rest) = (t.observe r).follow rest := rfl
    rw [hfollow, observe_of_not hr, ih hrest]

/-- Wherever they begin, two passes over records of which one calibrates end with the same scale. -/
theorem sameScale_follow {records : List Record} (h : ∃ r ∈ records, r.Calibrates) (t u : TimeBase α) :
    SameScale (t.follow records) (u.follow records) := by
  obtain ⟨r, hr, hcalibrates⟩ := h
  obtain ⟨before, after, rfl⟩ := List.append_of_mem hr
  rw [follow_append, follow_append]
  exact (sameScale_of_calibrates hcalibrates _ _).follow after

theorem upTo_of_le (t : TimeBase α) (records : List Record) {i j : Nat} (h : j ≤ i) :
    t.upTo records i = (t.upTo records j).follow ((records.take (i + 1)).drop (j + 1)) := by
  have hsplit : records.take (j + 1) = (records.take (i + 1)).take (j + 1) := by
    rw [List.take_take]
    congr 1
    omega
  rw [upTo, upTo, hsplit, ← follow_append, List.take_append_drop]

/-- The time base at the first record that calibrates. -/
theorem upTo_first (t : TimeBase α) {before : List Record} (h : ∀ b ∈ before, ¬b.Calibrates) (r : Record)
    (after : List Record) : t.upTo (before ++ r :: after) before.length = t.observe r := by
  rw [upTo_length, follow_of_none h]

theorem sameScale_upTo {before : List Record} {r : Record} (hr : r.Calibrates) (after : List Record)
    (t u : TimeBase α) {i : Nat} (hi : before.length ≤ i) :
    SameScale (t.upTo (before ++ r :: after) i) (u.upTo (before ++ r :: after) i) := by
  rw [t.upTo_of_le _ hi, u.upTo_of_le _ hi, upTo_length, upTo_length]
  exact (sameScale_of_calibrates hr _ _).follow _

/-- From where two passes have the same time base they give the same times. -/
theorem timeOf_of_upTo_eq {t u : TimeBase α} {records : List Record} {i j : Nat}
    (h : t.upTo records j = u.upTo records j) (hi : j ≤ i) : t.timeOf records i = u.timeOf records i := by
  rw [timeOf, timeOf, t.upTo_of_le records hi, u.upTo_of_le records hi, h]

/-- Another pass over the same records ends with the scale that it began with. -/
theorem scale_follow_restart (t : TimeBase α) (records : List Record) :
    ((t.follow records).restart.follow records).scale = (t.follow records).scale := by
  by_cases h : ∃ r ∈ records, r.Calibrates
  · exact (sameScale_follow h _ _).scale
  · have hnone : ∀ r ∈ records, ¬r.Calibrates := fun r hr hcalibrates => h ⟨r, hr, hcalibrates⟩
    rw [follow_of_none hnone, follow_of_none hnone]
    rfl

theorem restart_eq_of_scale {t u : TimeBase α} (h : t.scale = u.scale) : t.restart = u.restart := by
  rw [restart, restart, h]

/-- A pass that begins with a finite scale begins at zero seconds in the tick zero. -/
theorem seconds_zero_of_isFinite {scale : Float} (h : scale.isFinite = true) :
    (⟨scale, 0, Scalar.ofInt 0⟩ : TimeBase Float).seconds 0 = Scalar.ofInt 0 := Double.zero_add_zero_mul h

end TimeBase

/-- Each start time that a slot keeps is that of an interval. -/
theorem IntervalState.Summarizes.exists_start {s : IntervalState Float} {is : List (Interval Float)}
    {pending : Option (Moment Float)} (h : s.Summarizes is pending) (hcount : 0 < s.count) :
    ∀ time ∈ [s.minTime, s.maxTime, s.firstTime, s.lastTime], ∃ i ∈ is, time = i.start.time := by
  have hsome : is ≠ [] := List.length_pos_iff.mp (h.count ▸ hcount)
  obtain ⟨shortest, ⟨before, after, hshortest, -⟩, -, hmin, -⟩ := h.shortest hsome
  obtain ⟨longest, ⟨before', after', hlongest, -⟩, -, hmax, -⟩ := h.longest hsome
  have hfirst := (h.first _ (List.head?_eq_some_head hsome)).2
  have hlast := (h.last _ (List.getLast?_eq_some_getLast hsome)).2
  intro time htime
  simp only [List.mem_cons, List.not_mem_nil, or_false] at htime
  rcases htime with rfl | rfl | rfl | rfl
  · exact ⟨shortest, by simp [hshortest], hmin⟩
  · exact ⟨longest, by simp [hlongest], hmax⟩
  · exact ⟨_, List.head_mem hsome, hfirst⟩
  · exact ⟨_, List.getLast_mem hsome, hlast⟩

/-- A slot sums up its intervals, and each start time that it keeps is the time of a record that opened one. -/
theorem Tally.start_times_of_place (v : Renderer) (time : Nat → Float) (records : List Record) {group slot : Nat}
    (hg : group < 4) (hs : slot < 16) :
    ∃ state pending, (Aggregator.empty.run (calls v time records)).state? group slot = some state ∧
      state.Summarizes ((spans v records group slot).map (Interval.map time)) pending ∧
      (0 < state.count → ∀ t ∈ [state.minTime, state.maxTime, state.firstTime, state.lastTime],
        ∃ span ∈ spans v records group slot, t = time span.start.time) := by
  obtain ⟨state, hstate, hsum⟩ := Aggregator.summarizes_of_place (calls v time records) hg hs
  rw [intervals_eq_spans] at hsum
  refine ⟨state, _, hstate, hsum, ?_⟩
  intro hcount t ht
  obtain ⟨i, hi, rfl⟩ := hsum.exists_start hcount t ht
  obtain ⟨span, hspan, rfl⟩ := List.mem_map.mp hi
  exact ⟨span, hspan, rfl⟩

/-- How the times of the two passes agree. The second begins at zero with the scale that the first has ended with, and it
ends with that scale as well, so that a further pass gives the same times as it. Where no record calibrates, both give the
same times. Behind the first record that does, both have the same scale and mark; and if they have the same time at it,
as they have with finite scales at tick zero, they give the same times from there on. Intervals that were opened from
there on then begin, for the statistics, at the time of the row of their start. -/
theorem passes_agree_behind_calibration (v : Renderer) {settings : Settings} (hshow : settings.showEvents = true)
    {f : Feed} (hfault : f.fault = none) (reason : String) :
    ∀ summary, ((run v settings (.steady f)).outcome none reason).result = .ok summary →
      ∃ tally tables, (Run.statistics v settings (.steady f)).result = .ok tally ∧
        Run.tables v settings (.steady f) = .ok tables ∧
        let first := TimeBase.start settings.tickPeriod
        let second := tally.timeBase.restart
        tally.timeBase = first.follow f.decoded ∧
        second = ⟨tally.timeBase.scale, 0, Scalar.ofInt 0⟩ ∧
        (∀ row ∈ tables.events, row.time = second.timeOf f.decoded row.index) ∧
        ((∀ r ∈ f.decoded, ¬r.Calibrates) → ∀ i, first.timeOf f.decoded i = second.timeOf f.decoded i) ∧
        (∀ before r after, f.decoded = before ++ r :: after → r.Calibrates → (∀ b ∈ before, ¬b.Calibrates) →
          let j := before.length
          (∀ i, j ≤ i → (first.upTo f.decoded i).SameScale (second.upTo f.decoded i)) ∧
          (r.ticks = 0 → settings.tickPeriod.isFinite = true → tally.timeBase.scale.isFinite = true →
            (first.upTo f.decoded j).zero = (second.upTo f.decoded j).zero) ∧
          ((first.upTo f.decoded j).zero = (second.upTo f.decoded j).zero →
            (∀ i, j ≤ i → first.timeOf f.decoded i = second.timeOf f.decoded i) ∧
            ∀ group slot, group < 4 → slot < 16 →
              let spans := Tally.spans v f.decoded group slot
              ∃ state pending, tally.aggregator.state? group slot = some state ∧
                state.Summarizes (spans.map (Interval.map (first.timeOf f.decoded))) pending ∧
                (0 < state.count → ∀ time ∈ [state.minTime, state.maxTime, state.firstTime, state.lastTime],
                  ∃ span ∈ spans, time = first.timeOf f.decoded span.start.time) ∧
                ∀ span ∈ spans, j ≤ span.start.time → ∀ row ∈ tables.events, row.index = span.start.time →
                  row.time = first.timeOf f.decoded span.start.time)) ∧
        ∀ report, ∃ listing, (list v settings (.steady f) tally.timeBase report).result = .ok listing ∧
          listing.timeBase.scale = second.scale ∧
          ∀ i, listing.timeBase.restart.timeOf f.decoded i = second.timeOf f.decoded i := by
  intro summary hok
  have h : Run.Reported v settings f reason summary := Run.reported_of_ok hfault hok
  obtain ⟨-, hsecond⟩ := Run.fine_of_ok hfault hok
  refine ⟨_, _, h.statistics, h.tables, ?_⟩
  intro first second
  have hrow : ∀ row ∈ Run.rows v settings f, row.time = second.timeOf f.decoded row.index := by
    intro row hmem
    rw [Run.rows, if_pos hshow] at hmem
    exact Listing.time_of_mem_rows hmem
  refine ⟨rfl, rfl, hrow, ?_, ?_, ?_⟩
  · intro hnone i
    have hsame : second = first := congrArg TimeBase.restart (TimeBase.follow_of_none hnone first)
    rw [hsame]
  · intro before r after hsplit hr hbefore j
    refine ⟨?_, ?_, ?_⟩
    · intro i hi
      rw [hsplit]
      exact TimeBase.sameScale_upTo hr after first second hi
    · intro hticks hfinite hfinite'
      rw [hsplit, first.upTo_first hbefore, second.upTo_first hbefore, TimeBase.zero_of_calibrates hr,
        TimeBase.zero_of_calibrates hr, hticks]
      exact (TimeBase.seconds_zero_of_isFinite hfinite).trans (TimeBase.seconds_zero_of_isFinite hfinite').symm
    · intro hzero
      have hsame : first.upTo f.decoded j = second.upTo f.decoded j := by
        refine TimeBase.SameScale.eq ?_ hzero
        rw [hsplit]
        exact TimeBase.sameScale_upTo hr after first second (Nat.le_refl _)
      refine ⟨fun i hi => TimeBase.timeOf_of_upTo_eq hsame hi, ?_⟩
      intro group slot hg hs spans
      obtain ⟨state, pending, hstate, hsum, hstarts⟩ :=
        Tally.start_times_of_place v (first.timeOf f.decoded) f.decoded hg hs
      refine ⟨state, pending, hstate, hsum, hstarts, ?_⟩
      intro span _ hopened row hmem hindex
      rw [hrow row hmem, hindex]
      exact (TimeBase.timeOf_of_upTo_eq hsame hopened).symm
  · intro report
    have hlist := list_does_of_fine hshow hfault hsecond (Run.tally v settings f).timeBase report
    have hscale : (second.follow f.decoded).scale = second.scale := first.scale_follow_restart f.decoded
    refine ⟨_, hlist.result, hscale, fun i => ?_⟩
    have hagain : (second.follow f.decoded).restart = second := TimeBase.restart_eq_of_scale hscale
    exact congrArg (·.timeOf f.decoded i) hagain

/-- The tick frequency is announced at tick zero, behind a record of an earlier recording. -/
theorem passes_agree_behind_calibration_of_zero :
    let earlier : Frame := ⟨7, [9, 0, 0, 0, 0, 0, 0, 0, 1, 0x0A, 0, 0], by decide⟩
    let announcement : Frame := ⟨2, List.replicate 8 0 ++ [0, 0xFF, 0, 0, 0, 0, 0, 0, 0xE8, 3, 0, 0], by decide⟩
    let f : Feed := { pending := Frame.stream [earlier, announcement] ++ [7] }
    let settings : Settings := {}
    settings.showEvents = true ∧ f.fault = none ∧ ∃ summary tally,
      ((run {} settings (.steady f)).outcome none "").result = .ok summary ∧
      (Run.statistics {} settings (.steady f)).result = .ok tally ∧
      settings.tickPeriod.isFinite = true ∧ tally.timeBase.scale.isFinite = true ∧
      ∀ i, 1 ≤ i → (TimeBase.start settings.tickPeriod).timeOf f.decoded i = tally.timeBase.restart.timeOf f.decoded i := by
  intro earlier announcement f settings
  have htail : Incomplete [7] := .inl (by decide)
  have hpending : f.pending = Frame.stream [earlier, announcement] ++ [7] := rfl
  have hdecoded : f.decoded = [⟨9, 0x0A01, 0, .other 7⟩, ⟨0, 0xFF00, 0, .two 0 1000⟩] :=
    Feed.decoded_stream hpending htail rfl
  have hshow : settings.showEvents = true := rfl
  obtain ⟨summary, hok⟩ := Run.ok_of_no_events (v := {}) rfl settings (f := f) rfl ""
  obtain ⟨tally, tables, htally, -, hend, -, -, -, hcalibrated, -⟩ :=
    passes_agree_behind_calibration {} hshow (f := f) rfl "" summary hok
  have hcalibrates : Record.Calibrates ⟨0, 0xFF00, 0, .two 0 1000⟩ := ⟨0, 1000, .inl rfl, .inl ⟨rfl, by decide⟩⟩
  have hearlier : ¬Record.Calibrates ⟨9, 0x0A01, 0, .other 7⟩ := by
    rw [← Record.frequency?_isSome_iff]
    decide
  have hfinite : settings.tickPeriod.isFinite = true := by decide
  have hfinite' : tally.timeBase.scale.isFinite = true := by
    rw [hend, hdecoded]
    decide
  obtain ⟨-, hzero, hagree⟩ := hcalibrated [_] _ [] hdecoded hcalibrates (by simpa using hearlier)
  exact ⟨rfl, rfl, summary, tally, hok, htally, hfinite, hfinite', (hagree (hzero rfl hfinite hfinite')).1⟩

end EventTrace
