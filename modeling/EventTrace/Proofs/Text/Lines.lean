import EventTrace.Decimal
import EventTrace.Proofs.Text.Digits
import EventTrace.Proofs.Text.Encoding
import EventTrace.Text.Basic
/-! Texts without a line break. They stay so when they are put together or aligned, and numbers are such texts. What a
traced program printed becomes one, whatever it was. -/
namespace EventTrace.Text

def OneLine (s : String) : Prop := '\n' ∉ s.toList

instance (s : String) : Decidable (OneLine s) := inferInstanceAs (Decidable ('\n' ∉ s.toList))

def breaks (s : String) : Nat := s.toList.count '\n'

variable {s t : String} {c : Char} {cs : List Char} {ss : List String}

theorem breaks_of_oneLine (h : OneLine s) : breaks s = 0 := List.count_eq_zero_of_not_mem h

theorem breaks_append (s t : String) : breaks (s ++ t) = breaks s + breaks t := by
  rw [breaks, String.toList_append, List.count_append]
  rfl

@[simp]
theorem oneLine_ofList : OneLine (String.ofList cs) ↔ '\n' ∉ cs := by rw [OneLine, String.toList_ofList]

@[simp]
theorem oneLine_append : OneLine (s ++ t) ↔ OneLine s ∧ OneLine t := by
  rw [OneLine, String.toList_append, List.mem_append, not_or]
  rfl

@[simp]
theorem oneLine_toString : OneLine (toString s) ↔ OneLine s := Iff.rfl

theorem oneLine_join (h : ∀ s ∈ ss, OneLine s) : OneLine (String.join ss) := by
  rw [OneLine, String.toList_join, List.mem_flatMap]
  rintro ⟨s, hs, hc⟩
  exact h s hs hc

theorem oneLine_intercalate (ht : OneLine t) (h : ∀ s ∈ ss, OneLine s) : OneLine (t.intercalate ss) := by
  induction ss with
  | nil => simp [OneLine]
  | cons s ss ih =>
    obtain ⟨hs, hss⟩ := List.forall_mem_cons.mp h
    cases ss with
    | nil => rwa [String.intercalate_singleton]
    | cons u ss =>
      rw [String.intercalate_cons_cons, oneLine_append, oneLine_append]
      exact ⟨⟨hs, ht⟩, ih hss⟩

@[simp]
theorem oneLine_alignRight {width : Nat} : OneLine (alignRight width s) ↔ OneLine s := by
  simp [alignRight, List.leftpad, OneLine]

@[simp]
theorem oneLine_alignLeft {width : Nat} : OneLine (alignLeft width s) ↔ OneLine s := by
  simp [alignLeft, List.rightpad, OneLine]

theorem newline_not_mem_of_digits (h : ∀ c ∈ cs, isSmallDigit c = true) : '\n' ∉ cs := fun hc => by cases h '\n' hc

@[simp]
theorem newline_not_mem_toDigits {n : Nat} : '\n' ∉ Nat.toDigits 10 n :=
  newline_not_mem_of_digits fun _ hc => isSmallDigit_of_mem_toDigits (by decide) (by decide) hc

@[simp]
theorem newline_not_mem_hex {width n : Nat} : '\n' ∉ hex width n := newline_not_mem_of_digits fun _ hc => isSmallDigit_of_mem_hex hc

theorem toUpper_ne_newline (h : c ≠ '\n') : c.toUpper ≠ '\n' := by
  intro hupper
  delta Char.toUpper at hupper
  split at hupper
  next hletter =>
    have hbelow : 97 ≤ c.val.toNat ∧ c.val.toNat ≤ 122 := hletter
    have hshift : ('A'.val - 'a'.val).toNat = 4294967264 := by decide
    have hbreak : '\n'.val.toNat = 10 := by decide
    have hcode := congrArg Char.val hupper
    dsimp only at hcode
    rw [← UInt32.toNat_inj, UInt32.toNat_add, hshift, hbreak] at hcode
    omega
  next => exact h hupper

@[simp]
theorem newline_not_mem_capitalHex {width n : Nat} : '\n' ∉ capitalHex width n := by
  intro h
  obtain ⟨c, hc, hupper⟩ := List.mem_map.mp h
  exact toUpper_ne_newline (fun h => newline_not_mem_hex (h ▸ hc)) hupper

@[simp]
theorem oneLine_repr {n : Nat} : OneLine n.repr := by
  rw [Nat.repr_eq_ofList_toDigits, oneLine_ofList]
  exact newline_not_mem_toDigits

@[simp]
theorem oneLine_repr_int {n : Int} : OneLine n.repr := by
  rw [Int.repr_eq_if]
  split
  · exact oneLine_repr
  · exact oneLine_append.mpr ⟨by decide, oneLine_repr⟩

theorem oneLine_fixed (places : Nat) (x : Exact) : OneLine (Decimal.fixed places x) := by
  have hsign (negative : Bool) : OneLine (signText negative) := by cases negative <;> decide
  cases x with
  | nan => exact (by decide : OneLine "NaN")
  | infinite negative => exact oneLine_append.mpr ⟨hsign negative, by decide⟩
  | finite negative num den =>
    rw [Decimal.fixed, oneLine_append, oneLine_ofList, Decimal.pointed]
    refine ⟨hsign negative, ?_⟩
    split
    · exact newline_not_mem_toDigits
    · simp [List.leftpad]

/-- What is shown of a text of the traced program has no control character. -/
theorem le_of_mem_encode (h : c ∈ Escape.encode cs) : 0x20 ≤ c.toNat := by
  obtain ⟨d, -, hc⟩ := List.mem_flatMap.mp h
  rw [Escape.encodeChar] at hc
  split at hc
  next l hl =>
    have hletter : 0x20 ≤ l.toNat := by
      unfold Escape.letter? at hl
      split at hl <;> cases hl <;> decide
    obtain rfl | rfl : c = '\\' ∨ c = l := by simpa using hc
    · decide
    · exact hletter
  next =>
    split at hc
    next =>
      rcases List.mem_cons.mp hc with rfl | hc
      · decide
      · have hdigit : isSmallDigit c = true := by
          rcases List.mem_append.mp hc with hc | hc
          · rw [List.eq_of_mem_replicate hc]
            rfl
          · exact isSmallDigit_of_mem_toDigits (by decide) (by decide) hc
        exact Nat.le_trans (by decide) (le_of_isSmallDigit hdigit)
    next hlarge =>
      rw [List.mem_singleton.mp hc]
      omega

end EventTrace.Text
