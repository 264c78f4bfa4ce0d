import EventTrace.Fault
import EventTrace.Record.Basic
/-! What a source delivers. A request for bytes gets some of those that are pending; once there are none, the source
has ended, or it fails. -/
namespace EventTrace

structure Feed where
  pending : List UInt8
  /-- The most that one request gets. -/
  chunk : Nat := 8192
  /-- Why requests fail once all pending bytes were delivered; if absent, the source has ended then. -/
  fault : Option String := none
  chunk_pos : 0 < chunk := by decide

namespace Feed

def shortage (f : Feed) : Fault :=
  match f.fault with
  | none => .endOfStream
  | some reason => .transfer reason

/-- Requests bytes until there are `count`. If there are too few, those that came are lost. -/
def take (f : Feed) (count : Nat) : Except Fault (List UInt8) × Feed :=
  if count = 0 then (.ok [], f)
  else if f.pending = [] then (.error f.shortage, f)
  else
    let got := f.pending.take (min f.chunk count)
    let (rest, g) := take { f with pending := f.pending.drop got.length } (count - got.length)
    (rest.map (got ++ ·), g)
termination_by count
decreasing_by
  have := f.chunk_pos
  have := List.length_pos_iff.2 ‹¬f.pending = []›
  simp only [List.length_take]
  omega

/-- Reads the tag and the body of the next frame. A body of length zero asks for no bytes. -/
def takeFrame (f : Feed) : Except Fault (UInt16 × List UInt8) × Feed :=
  match f.take 2 with
  | (.error e, f) => (.error e, f)
  | (.ok tag, f) =>
    match f.take 2 with
    | (.error e, f) => (.error e, f)
    | (.ok length, f) =>
      match f.take (Bytes.ofLittle length) with
      | (.error e, f) => (.error e, f)
      | (.ok body, f) => (.ok (UInt16.ofNat (Bytes.ofLittle tag), body), f)

/-- What is pending after `take` is the rest of what was pending before, and a success has taken all it asked for. -/
theorem pending_take (f : Feed) (count : Nat) :
    (f.take count).2.pending.length ≤ f.pending.length ∧
      ∀ bs, (f.take count).1 = .ok bs → (f.take count).2.pending.length + count ≤ f.pending.length := by
  fun_induction take f count with
  | case1 f => simp
  | case2 f count => simp
  | case3 f count h0 hp got rest g hg ih =>
    have hgot : got.length ≤ f.pending.length ∧ got.length ≤ count := by
      simp only [got, List.length_take]
      omega
    simp only [hg, List.length_drop] at ih
    refine ⟨by simp only; omega, fun bs hbs => ?_⟩
    cases rest with
    | error e => simp [Except.map] at hbs
    | ok rest => have := ih.2 rest rfl; simp only; omega

theorem pending_takeFrame (f : Feed) {frame : UInt16 × List UInt8} {g : Feed} (h : f.takeFrame = (.ok frame, g)) :
    g.pending.length < f.pending.length := by
  have h₁ := pending_take f 2
  unfold takeFrame at h
  split at h
  · simp at h
  next tag f₁ e₁ =>
    have h₂ := pending_take f₁ 2
    rw [e₁] at h₁
    split at h
    · simp at h
    next length f₂ e₂ =>
      have h₃ := pending_take f₂ (Bytes.ofLittle length)
      rw [e₂] at h₂
      split at h
      · simp at h
      next body f₃ e₃ =>
        rw [e₃] at h₃
        have := h₁.2 _ rfl
        have := h₂.2 _ rfl
        simp only [Prod.mk.injEq] at h
        rw [← h.2]
        have h₁ := h₁.2 _ rfl
        have h₂ := h₂.2 _ rfl
        have h₃ := h₃.1
        simp only at h₁ h₂ h₃
        omega

end Feed
end EventTrace
