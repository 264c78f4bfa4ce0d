import EventTrace.Proofs.Record.Iteration
/-! Iteration over a stream that is cut off, or that fails where it is cut off. Main statement: wherever the cut falls,
the records are those of the whole stream whose frames end in front of the cut; a shortage is told as a failure if
and only if the feed fails there. -/
namespace EventTrace

namespace Reader

def yields (r : Reader) : List (Record × Nat) :=
  match _h : r.next with
  | ((_, some (.ok record)), r') => (record, r'.feed.pending.length) :: r'.yields
  | _ => []
termination_by r.feed.pending.length
decreasing_by exact next_pending ‹_›

theorem yields_of_ok {r : Reader} {record : Record} (h : r.next.1.2 = some (.ok record)) :
    r.yields = (record, r.next.2.feed.pending.length) :: r.next.2.yields := by
  rcases hnext : r.next with ⟨⟨entries, answer⟩, r'⟩
  rw [hnext] at h
  obtain rfl : answer = some (.ok record) := h
  rw [yields]
  split
  next entries' record' r'' h' =>
    rw [hnext] at h'
    cases h'
    rfl
  next h' => exact absurd hnext (h' _ _ _)

theorem yields_of_end {r : Reader} (h : ∀ record, r.next.1.2 ≠ some (.ok record)) : r.yields = [] := by
  rw [yields]
  split
  next record r' h' => exact absurd (by rw [h']) (h record)
  next => rfl

end Reader

namespace Frame

/-- The records in front of the first refused frame, each with the number of bytes behind its frame; `n` bytes are
behind the last frame. -/
def yields (n : Nat) : List Frame → List (Record × Nat)
  | [] => []
  | f :: frames =>
    match f.record? with
    | some record => (record, (stream frames).length + n) :: yields n frames
    | none => []

theorem map_fst_yields (n : Nat) (frames : List Frame) : (yields n frames).map (·.1) = accepted frames := by
  induction frames with
  | nil => rfl
  | cons f frames ih =>
    rw [yields, accepted]
    cases f.record? with
    | none => rfl
    | some record => simpa using ih

theorem le_of_mem_yields {n : Nat} {f : Frame} {frames : List Frame} {y : Record × Nat}
    (hy : y ∈ yields n (f :: frames)) : y.2 ≤ (stream frames).length + n := by
  induction frames generalizing f with
  | nil =>
    cases hf : f.record? with
    | none => simp [yields, hf] at hy
    | some record =>
      obtain rfl : y = (record, n) := by simpa [yields, hf] using hy
      simp
  | cons g frames ih =>
    rw [yields] at hy
    cases hf : f.record? with
    | none => simp [hf] at hy
    | some record =>
      rw [hf] at hy
      rcases List.mem_cons.mp hy with rfl | hy
      · exact Nat.le_refl _
      · have := ih hy
        rw [stream_cons, List.length_append]
        omega

/-- Of all frames those count that end at or before byte `k`. -/
theorem filter_yields (n k : Nat) (frames : List Frame) :
    ((yields n frames).filter fun y => (stream frames).length + n - y.2 ≤ k).map (·.1) =
      accepted (within k frames) := by
  induction frames generalizing k with
  | nil => rfl
  | cons f frames ih =>
    rw [within, stream_cons, List.length_append]
    by_cases hk : f.bytes.length ≤ k
    · rw [if_pos hk, yields, accepted]
      cases hf : f.record? with
      | none => rfl
      | some record =>
        -- Seen from behind `f`, the cut is nearer by the length of `f`.
        have hcut (y : Record × Nat) : f.bytes.length + (stream frames).length + n - y.2 ≤ k ↔
            (stream frames).length + n - y.2 ≤ k - f.bytes.length := by omega
        simp only [hcut, List.filter_cons, Nat.sub_self, Nat.zero_le, decide_true, if_true, List.map_cons, ih]
    · have hnone : (yields n (f :: frames)).filter
          (fun y => f.bytes.length + (stream frames).length + n - y.2 ≤ k) = [] := by
        rw [List.filter_eq_nil_iff]
        intro y hy
        have := le_of_mem_yields hy
        simp only [decide_eq_true_eq]
        omega
      rw [if_neg hk, hnone]
      rfl

theorem prefix_accepted {frames all : List Frame} (h : frames <+: all) : accepted frames <+: accepted all := by
  induction frames generalizing all with
  | nil => exact List.nil_prefix
  | cons f frames ih =>
    cases all with
    | nil => simp at h
    | cons g all =>
      obtain ⟨rfl, hrest⟩ := List.cons_prefix_cons.mp h
      rw [accepted, accepted]
      cases f.record? with
      | none => exact List.prefix_refl _
      | some record => exact List.cons_prefix_cons.mpr ⟨rfl, ih hrest⟩

/-- Whether a frame is refused decides whether iteration gets as far as the fault. -/
theorem items_some (reason : String) (frames : List Frame) :
    items (some reason) frames =
      (accepted frames).map .ok ++
        if ∀ f ∈ frames, f.record?.isSome = true then [.error (.transfer reason)] else [] := by
  induction frames with
  | nil => rfl
  | cons f frames ih =>
    rw [items, accepted]
    cases hf : f.record? with
    | none => simp [hf]
    | some record => simp [hf, ih]

/-- Iteration over `s` ends at a refused frame within the first `k` bytes. -/
def RefusedWithin (k : Nat) (s : List UInt8) : Prop :=
  ∃ (frames : List Frame) (f : Frame) (rest : List UInt8), s = stream frames ++ f.bytes ++ rest ∧
    (∀ g ∈ frames, g.record?.isSome = true) ∧ f.record? = none ∧ (stream frames ++ f.bytes).length ≤ k

theorem stream_append (frames more : List Frame) : stream (frames ++ more) = stream frames ++ stream more :=
  List.flatMap_append

theorem refusedWithin_iff (frames : List Frame) {tail : List UInt8} (htail : Incomplete tail) (k : Nat) :
    RefusedWithin k (stream frames ++ tail) ↔ ¬∀ f ∈ within k frames, f.record?.isSome = true := by
  constructor
  · rintro ⟨before, f, rest, hs, _, hf, hlen⟩ hall
    have hone : stream before ++ f.bytes = stream (before ++ [f]) := by simp [stream_append]
    rw [hone] at hs hlen
    have hfront := (prefix_within_iff (prefix_of_stream_eq htail hs.symm) k).mpr hlen
    have := hall f (hfront.subset (by simp))
    simp [hf] at this
  · intro h
    -- The first refused frame in front of the cut is the one at which iteration ends.
    have hsome : ((within k frames).find? fun f => !f.record?.isSome).isSome = true := by
      rw [List.find?_isSome]
      simpa using h
    obtain ⟨f, hfind⟩ := Option.isSome_iff_exists.mp hsome
    obtain ⟨hf, before, after, hwithin, hbefore⟩ := List.find?_eq_some_iff_append.mp hfind
    have hin : before ++ [f] <+: within k frames := ⟨after, by simp [hwithin]⟩
    obtain ⟨more, hframes⟩ := hin.trans (prefix_within k frames)
    have hlen := (prefix_within_iff (hin.trans (prefix_within k frames)) k).mp hin
    refine ⟨before, f, stream more ++ tail, ?_, by simpa using hbefore, by simpa using hf, ?_⟩
    · simp [← hframes, stream_append]
    · simpa [stream_append] using hlen

end Frame

namespace Reader

theorem yields_stream {r : Reader} {frames : List Frame} {tail : List UInt8} (hr : r.finished = false)
    (h : r.feed.pending = Frame.stream frames ++ tail) (htail : Incomplete tail) :
    r.yields = Frame.yields tail.length frames := by
  induction frames generalizing r with
  | nil =>
    apply yields_of_end
    intro record hok
    have hitem := item_stream hr h htail 0
    rw [item, afterNexts, hok] at hitem
    cases hfault : r.feed.fault <;> simp [Frame.items, hfault] at hitem
  | cons f frames ih =>
    rw [Frame.stream_cons, List.append_assoc] at h
    rw [Frame.yields]
    cases hf : f.record? with
    | none =>
      apply yields_of_end
      intro record hok
      rw [(next_refused hr h hf).1] at hok
      cases hok
    | some record =>
      obtain ⟨hitem, hfeed, hgo⟩ := next_accepted hr h hf
      rw [yields_of_ok hitem, ih hgo (by rw [hfeed]), hfeed, List.length_append]

/-- Two feeds with the same bytes, one of which stops after `k` of them. The records of the whole stream whose frames
end at or before byte `k` are the first of its records. If the cut feed just ends, iteration over it gives those and
then nothing for ever. If it fails, the failure follows them once; only a refused frame in front of the cut has ended
iteration before. -/
theorem iteration_of_cut (s : List UInt8) (k : Nat) (whole cut : Feed) (hwhole : whole.pending = s)
    (hcut : cut.pending = s.take k) :
    let all := yields { feed := whole }
    let kept := (all.filter fun y => s.length - y.2 ≤ k).map (·.1)
    let items := item { feed := cut }
    kept <+: all.map (·.1) ∧
    (cut.fault = none → ∀ i, items i = (kept.map .ok)[i]?) ∧
    ∀ reason, cut.fault = some reason →
      (Frame.RefusedWithin k s → ∀ i, items i = (kept.map .ok)[i]?) ∧
      (¬Frame.RefusedWithin k s → ∀ i, items i = (kept.map .ok ++ [.error (.transfer reason)])[i]?) := by
  intro all kept items
  obtain ⟨frames, tail, hs, htail⟩ := Frame.exists_frames s
  obtain ⟨rest, htake, hrest⟩ := Frame.take_stream frames htail k
  have hall : all = Frame.yields tail.length frames := yields_stream rfl (hwhole.trans hs) htail
  have hkept : kept = Frame.accepted (Frame.within k frames) := by
    rw [← Frame.filter_yields tail.length k frames, ← hall, ← List.length_append, ← hs]
  have hitems (i : Nat) : items i = (Frame.items cut.fault (Frame.within k frames))[i]? :=
    item_stream rfl (hcut.trans (hs ▸ htake)) hrest i
  refine ⟨?_, ?_, ?_⟩
  · rw [hkept, hall, Frame.map_fst_yields]
    exact Frame.prefix_accepted (Frame.prefix_within k frames)
  · intro hfault i
    rw [hitems, hfault, Frame.items_none, hkept]
  · intro reason hfault
    have hrefused := Frame.refusedWithin_iff frames htail k
    rw [← hs] at hrefused
    refine ⟨?_, ?_⟩
    · intro hin i
      rw [hitems, hfault, Frame.items_some, if_neg (hrefused.mp hin), List.append_nil, hkept]
    · intro hout i
      rw [hitems, hfault, Frame.items_some, if_pos (Classical.not_not.mp (mt hrefused.mpr hout)), hkept]

/-- A feed that fails two bytes into its second frame, which would be refused if it were complete. -/
theorem iteration_of_cut_in_tag :
    let first : Frame := ⟨7, List.replicate 12 0, by decide⟩
    let second : Frame := ⟨2, List.replicate 12 0, by decide⟩
    let s := Frame.stream [first, second]
    let cut : Feed := { pending := s.take 18, fault := some "read failed" }
    ¬Frame.RefusedWithin 18 s ∧ item { feed := cut } 0 = some (.ok ⟨0, 0, 0, .other 7⟩) ∧
      item { feed := cut } 1 = some (.error (.transfer "read failed")) ∧ item { feed := cut } 2 = none := by
  intro first second s cut
  have hs : s = Frame.stream [first, second] ++ [] := (List.append_nil _).symm
  have hnil : Incomplete [] := .inl (by decide)
  have hout : ¬Frame.RefusedWithin 18 s := by
    rw [hs, Frame.refusedWithin_iff [first, second] hnil]
    decide
  have hkept : ((yields { feed := { pending := s } }).filter fun y => s.length - y.2 ≤ 18).map (·.1) =
      [⟨0, 0, 0, .other 7⟩] := by
    rw [yields_stream rfl hs hnil]
    exact Frame.filter_yields 0 18 [first, second]
  have hitems := ((iteration_of_cut s 18 { pending := s } cut rfl rfl).2.2 "read failed" rfl).2 hout
  rw [hkept] at hitems
  exact ⟨hout, hitems 0, hitems 1, hitems 2⟩

end Reader

end EventTrace
