import EventTrace.Record.Feed
/-! Frames in a stream of bytes. Every byte string is a row of complete frames and a tail that does not begin with
one, in one way only; a feed hands out exactly these frames, however its bytes arrive, and cutting the stream cuts the
row of frames. -/
namespace EventTrace

namespace Bytes

theorem ofLittle_little_of_lt {width n : Nat} (h : n < capacity width) : ofLittle (little width n) = n := by
  rw [ofLittle_little, Nat.mod_eq_of_lt h]

/-- The bytes in front are a number, and are what is written for it. -/
theorem exists_little (bytes : List UInt8) (width : Nat) (h : width ≤ bytes.length) :
    ∃ n < capacity width, bytes = little width n ++ bytes.drop width ∧ ofLittle (bytes.take width) = n := by
  have hlength : (bytes.take width).length = width := List.length_take_of_le h
  have hlt := ofLittle_lt (bytes.take width)
  have hback := little_ofLittle (bytes.take width)
  rw [hlength] at hlt hback
  exact ⟨_, hlt, by rw [hback, List.take_append_drop], rfl⟩

end Bytes

open Bytes

namespace Feed

def skip (f : Feed) (count : Nat) : Feed := { f with pending := f.pending.drop count }

@[simp] theorem pending_skip (f : Feed) (count : Nat) : (f.skip count).pending = f.pending.drop count := rfl

@[simp] theorem skip_skip (f : Feed) (m n : Nat) : (f.skip m).skip n = f.skip (m + n) := by
  simp [skip, List.drop_drop]

/-- A request is answered by the first pending bytes, or fails and loses them if they are too few. -/
theorem take_eq (f : Feed) (count : Nat) :
    f.take count =
      (if count ≤ f.pending.length then .ok (f.pending.take count) else .error f.shortage, f.skip count) := by
  fun_induction take f count with
  | case1 f => simp [skip]
  | case2 f count hcount hp =>
    have hskip : f.skip count = f := by
      cases f
      simp_all [skip]
    simp [hp, hcount, hskip]
  | case3 f count hcount hp got rest g hg ih =>
    -- The first chunk, and what the induction says of the others.
    have hgot : got = f.pending.take got.length := by simp [got]
    have hlen : got.length ≤ count ∧ got.length ≤ f.pending.length := by
      simp only [got, List.length_take]
      omega
    have hsum : got.length + (count - got.length) = count := by omega
    have hstep : (rest, g) = (if count - got.length ≤ (f.pending.drop got.length).length
        then .ok ((f.pending.drop got.length).take (count - got.length)) else .error f.shortage,
        (f.skip got.length).skip (count - got.length)) := hg.symm.trans ih
    obtain ⟨hrest, rfl⟩ := Prod.mk.inj hstep
    rw [skip_skip, hsum, hrest]
    congr 1
    by_cases hc : count ≤ f.pending.length
    · have hc' : count - got.length ≤ (f.pending.drop got.length).length := by
        rw [List.length_drop]
        omega
      rw [if_pos hc, if_pos hc']
      have hsplit : got ++ (f.pending.drop got.length).take (count - got.length) = f.pending.take count := by
        rw [← hsum, List.take_add, ← hgot]
        simp
      exact congrArg Except.ok hsplit
    · have hc' : ¬count - got.length ≤ (f.pending.drop got.length).length := by
        rw [List.length_drop]
        omega
      rw [if_neg hc, if_neg hc']
      rfl

theorem take_append {f : Feed} {bs rest : List UInt8} (h : f.pending = bs ++ rest) :
    f.take bs.length = (.ok bs, { f with pending := rest }) := by
  simp [take_eq, skip, h]

theorem take_of_lt {f : Feed} {count : Nat} (h : f.pending.length < count) :
    f.take count = (.error f.shortage, f.skip count) := by
  rw [take_eq, if_neg (by omega)]

theorem take_of_le {f : Feed} {count : Nat} (h : count ≤ f.pending.length) :
    f.take count = (.ok (f.pending.take count), f.skip count) := by
  rw [take_eq, if_pos h]

end Feed

structure Frame where
  tag : UInt16
  body : List UInt8
  fits : body.length ≤ 65535

namespace Frame

def bytes (f : Frame) : List UInt8 := Record.frame f.tag f.body

def record? (f : Frame) : Option Record := Record.decode? f.tag f.body

@[simp] theorem length_bytes (f : Frame) : f.bytes.length = 4 + f.body.length := by
  simp [bytes, Record.frame]
  omega

theorem ofLittle_length (f : Frame) : ofLittle (little 2 f.body.length) = f.body.length := by
  have := f.fits
  exact ofLittle_little_of_lt (by simp only [capacity]; omega)

theorem ofLittle_tag (f : Frame) : UInt16.ofNat (ofLittle (little 2 f.tag.toNat)) = f.tag := by
  rw [ofLittle_little_of_lt f.tag.toNat_lt, UInt16.ofNat_toNat]

end Frame

/-- No complete frame is at the front: the tag or the length is not there, or less is left than the length says. -/
def Incomplete (bytes : List UInt8) : Prop :=
  bytes.length < 4 ∨ bytes.length - 4 < ofLittle ((bytes.drop 2).take 2)

namespace Feed

/-- A complete frame is taken whole, and nothing behind it. -/
theorem takeFrame_frame {f : Feed} {frame : Frame} {rest : List UInt8} (h : f.pending = frame.bytes ++ rest) :
    f.takeFrame = (.ok (frame.tag, frame.body), { f with pending := rest }) := by
  have htag : f.take 2 = (.ok (little 2 frame.tag.toNat),
      { f with pending := little 2 frame.body.length ++ (frame.body ++ rest) }) := by
    rw [← length_little 2 frame.tag.toNat]
    exact take_append (by simp [h, Frame.bytes, Record.frame])
  have hlength : ({ f with pending := little 2 frame.body.length ++ (frame.body ++ rest) } : Feed).take 2 =
      (.ok (little 2 frame.body.length), { f with pending := frame.body ++ rest }) := by
    have := take_append (f := { f with pending := little 2 frame.body.length ++ (frame.body ++ rest) }) rfl
    rwa [length_little] at this
  have hbody : ({ f with pending := frame.body ++ rest } : Feed).take frame.body.length =
      (.ok frame.body, { f with pending := rest }) := take_append rfl
  simp only [takeFrame, htag, hlength, frame.ofLittle_length, hbody, frame.ofLittle_tag]

/-- Where no frame is complete, the shortage is told. -/
theorem takeFrame_incomplete {f : Feed} (h : Incomplete f.pending) : f.takeFrame.1 = .error f.shortage := by
  by_cases htag : f.pending.length < 2
  · simp [takeFrame, take_of_lt htag]
  have first := take_of_le (Nat.le_of_not_lt htag)
  by_cases hlength : f.pending.length < 4
  · have second : (f.skip 2).take 2 = (.error f.shortage, (f.skip 2).skip 2) :=
      take_of_lt (by simp only [pending_skip, List.length_drop]; omega)
    simp [takeFrame, first, second]
  have second : (f.skip 2).take 2 = (.ok ((f.pending.drop 2).take 2), f.skip 4) := by
    rw [take_of_le (by simp only [pending_skip, List.length_drop]; omega), skip_skip]
    rfl
  have hbody : f.pending.length - 4 < ofLittle ((f.pending.drop 2).take 2) := h.resolve_left hlength
  have third : (f.skip 4).take (ofLittle ((f.pending.drop 2).take 2)) =
      (.error f.shortage, (f.skip 4).skip (ofLittle ((f.pending.drop 2).take 2))) :=
    take_of_lt (by simpa only [pending_skip, List.length_drop] using hbody)
  simp [takeFrame, first, second, third]

end Feed

namespace Frame

def stream (frames : List Frame) : List UInt8 := frames.flatMap bytes

@[simp] theorem stream_nil : stream [] = [] := rfl

@[simp] theorem stream_cons (f : Frame) (frames : List Frame) :
    stream (f :: frames) = f.bytes ++ stream frames := rfl

/-- The frame in front can be told in one way only. -/
theorem bytes_append_inj {f g : Frame} {x y : List UInt8} (h : f.bytes ++ x = g.bytes ++ y) : f = g ∧ x = y := by
  have hf := Feed.takeFrame_frame (f := { pending := f.bytes ++ x }) rfl
  have hg := Feed.takeFrame_frame (f := { pending := f.bytes ++ x }) h
  obtain ⟨hframe, hrest⟩ := Prod.mk.inj (hf.symm.trans hg)
  obtain ⟨htag, hbody⟩ := Prod.mk.inj (Except.ok.inj hframe)
  refine ⟨?_, congrArg Feed.pending hrest⟩
  cases f
  cases g
  simp_all

theorem not_incomplete (f : Frame) (rest : List UInt8) : ¬Incomplete (f.bytes ++ rest) := by
  intro h
  have hfail := Feed.takeFrame_incomplete (f := { pending := f.bytes ++ rest }) h
  rw [Feed.takeFrame_frame rfl] at hfail
  cases hfail

theorem exists_front {s : List UInt8} (h : ¬Incomplete s) : ∃ (f : Frame) (rest : List UInt8), s = f.bytes ++ rest := by
  obtain ⟨hlength, hbody⟩ := not_or.mp h
  obtain ⟨tag, htag, hs, -⟩ := exists_little s 2 (by omega)
  obtain ⟨count, hcount, hrest, hread⟩ := exists_little (s.drop 2) 2 (by rw [List.length_drop]; omega)
  rw [List.drop_drop] at hrest
  rw [hread] at hbody
  have hcount : count < 65536 := hcount
  have htagNat : (UInt16.ofNat tag).toNat = tag := UInt16.toNat_ofNat_of_lt htag
  have hcut : ((s.drop 4).take count).length = count := by
    rw [List.length_take, List.length_drop]
    omega
  refine ⟨⟨UInt16.ofNat tag, (s.drop 4).take count, by omega⟩, (s.drop 4).drop count, ?_⟩
  calc s
    _ = little 2 tag ++ (little 2 count ++ s.drop 4) := by rw [← hrest, ← hs]
    _ = Record.frame (UInt16.ofNat tag) ((s.drop 4).take count) ++ (s.drop 4).drop count := by
      rw [Record.frame, htagNat, hcut, List.append_assoc, List.append_assoc, List.take_append_drop]

/-- Every byte string is a row of frames and a tail. -/
theorem exists_frames (s : List UInt8) : ∃ frames tail, s = stream frames ++ tail ∧ Incomplete tail := by
  induction hn : s.length using Nat.strongRecOn generalizing s with
  | ind n ih =>
    by_cases h : Incomplete s
    · exact ⟨[], s, rfl, h⟩
    · obtain ⟨f, rest, rfl⟩ := exists_front h
      have hlt : rest.length < n := by
        rw [← hn, List.length_append, length_bytes]
        omega
      obtain ⟨frames, tail, rfl, htail⟩ := ih rest.length hlt rest rfl
      exact ⟨f :: frames, tail, by simp, htail⟩

/-- Frames in front of other bytes are the first of the frames there are. -/
theorem prefix_of_stream_eq {frames all : List Frame} {rest tail : List UInt8} (htail : Incomplete tail)
    (h : stream frames ++ rest = stream all ++ tail) : frames <+: all := by
  induction frames generalizing all with
  | nil => exact List.nil_prefix
  | cons f frames ih =>
    rw [stream_cons, List.append_assoc] at h
    cases all with
    | nil => exact absurd (h.symm ▸ htail : Incomplete (f.bytes ++ (stream frames ++ rest))) (f.not_incomplete _)
    | cons g all =>
      rw [stream_cons, List.append_assoc] at h
      obtain ⟨rfl, hrest⟩ := bytes_append_inj h
      exact List.cons_prefix_cons.mpr ⟨rfl, ih hrest⟩

def within (k : Nat) : List Frame → List Frame
  | [] => []
  | f :: frames => if f.bytes.length ≤ k then f :: within (k - f.bytes.length) frames else []

theorem prefix_within (k : Nat) (frames : List Frame) : within k frames <+: frames := by
  induction frames generalizing k with
  | nil => exact List.nil_prefix
  | cons f frames ih =>
    rw [within]
    split
    · exact List.cons_prefix_cons.mpr ⟨rfl, ih _⟩
    · exact List.nil_prefix

/-- A row of frames in front is within the first `k` bytes exactly if it is not longer. -/
theorem prefix_within_iff {frames all : List Frame} (h : frames <+: all) (k : Nat) :
    frames <+: within k all ↔ (stream frames).length ≤ k := by
  induction frames generalizing all k with
  | nil => simp
  | cons f frames ih =>
    cases all with
    | nil => simp at h
    | cons g all =>
      obtain ⟨rfl, hrest⟩ := List.cons_prefix_cons.mp h
      rw [within, stream_cons, List.length_append]
      by_cases hf : f.bytes.length ≤ k
      · rw [if_pos hf, List.cons_prefix_cons, ih hrest, and_iff_right rfl]
        omega
      · rw [if_neg hf, List.prefix_nil]
        constructor
        · intro hnil
          cases hnil
        · intro hle
          omega

end Frame

/-- The length of a frame is still there when four bytes are left. -/
theorem length_bytes_take {bytes : List UInt8} {k : Nat} (h : 4 ≤ k) :
    ((bytes.take k).drop 2).take 2 = (bytes.drop 2).take 2 := by
  rw [List.drop_take, List.take_take]
  congr 1
  omega

theorem Incomplete.take {bytes : List UInt8} (h : Incomplete bytes) (k : Nat) : Incomplete (bytes.take k) := by
  by_cases hk : k < 4
  · exact .inl (by simp only [List.length_take]; omega)
  rw [Incomplete, length_bytes_take (Nat.le_of_not_lt hk), List.length_take]
  unfold Incomplete at h
  omega

namespace Frame

theorem incomplete_take (f : Frame) (rest : List UInt8) {k : Nat} (h : k < f.bytes.length) :
    Incomplete ((f.bytes ++ rest).take k) := by
  by_cases hk : k < 4
  · exact .inl (by simp only [List.length_take]; omega)
  have hlength : (((f.bytes ++ rest).take k).drop 2).take 2 = little 2 f.body.length := by
    have hbytes : f.bytes ++ rest = little 2 f.tag.toNat ++ (little 2 f.body.length ++ (f.body ++ rest)) := by
      simp [bytes, Record.frame]
    rw [length_bytes_take (Nat.le_of_not_lt hk), hbytes, List.drop_left' (length_little ..),
      List.take_left' (length_little ..)]
  refine .inr ?_
  rw [hlength, ofLittle_length, List.length_take]
  rw [length_bytes] at h
  omega

/-- Cutting a stream leaves the frames in front of the cut and a tail. -/
theorem take_stream (frames : List Frame) {tail : List UInt8} (htail : Incomplete tail) (k : Nat) :
    ∃ rest, (stream frames ++ tail).take k = stream (within k frames) ++ rest ∧ Incomplete rest := by
  induction frames generalizing k with
  | nil => exact ⟨tail.take k, rfl, htail.take k⟩
  | cons f frames ih =>
    rw [stream_cons, List.append_assoc, within]
    by_cases hf : f.bytes.length ≤ k
    · obtain ⟨rest, hrest, hincomplete⟩ := ih (k - f.bytes.length)
      refine ⟨rest, ?_, hincomplete⟩
      rw [if_pos hf, List.take_append, hrest, List.take_of_length_le hf, stream_cons, List.append_assoc]
    · rw [if_neg hf]
      exact ⟨_, rfl, f.incomplete_take _ (by omega)⟩

end Frame

end EventTrace
