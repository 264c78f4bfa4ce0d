import EventTrace.Text.Basic
/-! The digits of a number. Main results: they are digits, as many as asked for if the number is small enough, and they
denote the number. -/
namespace EventTrace.Text

variable {b n width : Nat} {c : Char} {cs : List Char}

def isSmallDigit (c : Char) : Bool := c.isDigit || ('a' ≤ c && c ≤ 'f')

/-- So many digits of base sixteen, in small letters, that denote the number. -/
def IsHexOf (width n : Nat) (cs : List Char) : Prop :=
  cs.length = width ∧ (∀ c ∈ cs, isSmallDigit c = true) ∧ digitsValue 16 cs = n

theorem le_of_isSmallDigit (h : isSmallDigit c = true) : 0x30 ≤ c.toNat := by
  simp only [isSmallDigit, Char.isDigit, Bool.or_eq_true, Bool.and_eq_true, decide_eq_true_eq] at h
  rcases h with h | h
  · exact h.1
  · exact Nat.le_trans (by decide) h.1

theorem isSmallDigit_digitChar : ∀ d < 16, isSmallDigit (Nat.digitChar d) = true := by decide

theorem hexValue_digitChar : ∀ d < 16, hexValue (Nat.digitChar d) = d := by decide

theorem hexValue_lt_of_isDigit (h : c.isDigit = true) : hexValue c < 10 := by
  have hhigh : c.toNat ≤ '9'.toNat := by
    simp only [Char.isDigit, Bool.and_eq_true, decide_eq_true_eq] at h
    exact h.2
  rw [hexValue, if_pos h]
  have hnine : '9'.toNat = '0'.toNat + 9 := rfl
  omega

theorem digitsValue_concat (b : Nat) (cs : List Char) (c : Char) :
    digitsValue b (cs ++ [c]) = b * digitsValue b cs + hexValue c := by
  simp [digitsValue]

/-- Digits in front count as often as the place of the last of them is worth. -/
theorem digitsValue_append (b : Nat) (xs ys : List Char) :
    digitsValue b (xs ++ ys) = digitsValue b xs * Nat.pow b ys.length + digitsValue b ys := by
  have hfold (n : Nat) : ys.foldl (fun n c => b * n + hexValue c) n = n * Nat.pow b ys.length + digitsValue b ys := by
    induction ys generalizing n with
    | nil => simp [digitsValue]
    | cons c cs ih =>
      rw [digitsValue, List.foldl_cons, List.foldl_cons, ih, ih (b * 0 + hexValue c), List.length_cons, Nat.pow_eq,
        Nat.pow_eq, Nat.pow_succ]
      grind
  rw [digitsValue, List.foldl_append]
  exact hfold _

/-- Digits denote less than the place in front of them is worth. -/
theorem digitsValue_lt (h : ∀ c ∈ cs, hexValue c < b) : digitsValue b cs < Nat.pow b cs.length := by
  induction cs with
  | nil => exact Nat.one_pos
  | cons c cs ih =>
    obtain ⟨hc, hcs⟩ := List.forall_mem_cons.mp h
    have hrest := ih hcs
    have hfirst : digitsValue b [c] = hexValue c := by simp [digitsValue]
    have hplace : (hexValue c + 1) * Nat.pow b cs.length ≤ b * Nat.pow b cs.length := Nat.mul_le_mul_right _ hc
    rw [← List.singleton_append, digitsValue_append, hfirst]
    calc
      hexValue c * Nat.pow b cs.length + digitsValue b cs < (hexValue c + 1) * Nat.pow b cs.length := by
        rw [Nat.add_mul, Nat.one_mul]
        omega
      _ ≤ b * Nat.pow b cs.length := hplace
      _ = Nat.pow b (cs.length + 1) := (Nat.pow_succ' ..).symm

theorem isSmallDigit_of_mem_toDigits (hb : 1 < b) (hb' : b ≤ 16) (h : c ∈ Nat.toDigits b n) : isSmallDigit c = true := by
  induction n using Nat.strongRecOn with
  | ind n ih =>
    rw [Nat.toDigits_eq_if hb] at h
    split at h
    next hn =>
      rw [List.mem_singleton.mp h]
      exact isSmallDigit_digitChar n (by omega)
    next hn =>
      rcases List.mem_append.mp h with h | h
      · exact ih (n / b) (Nat.div_lt_self (by omega) hb) h
      · have hmod : n % b < b := Nat.mod_lt _ (by omega)
        rw [List.mem_singleton.mp h]
        exact isSmallDigit_digitChar (n % b) (by omega)

theorem digitsValue_toDigits (hb : 1 < b) (hb' : b ≤ 16) (n : Nat) : digitsValue b (Nat.toDigits b n) = n := by
  induction n using Nat.strongRecOn with
  | ind n ih =>
    rw [Nat.toDigits_eq_if hb]
    split
    next hn =>
      have hvalue := hexValue_digitChar n (by omega)
      simpa [digitsValue] using hvalue
    next hn =>
      have hmod : n % b < b := Nat.mod_lt _ (by omega)
      rw [digitsValue_concat, ih (n / b) (Nat.div_lt_self (by omega) hb), hexValue_digitChar (n % b) (by omega),
        Nat.div_add_mod]

theorem digitsValue_replicate_append (b zeros : Nat) (cs : List Char) :
    digitsValue b (List.replicate zeros '0' ++ cs) = digitsValue b cs := by
  induction zeros with
  | zero => rfl
  | succ zeros ih =>
    rw [← ih, List.replicate_succ, List.cons_append, digitsValue, List.foldl_cons]
    rfl

theorem digitsValue_leftpad (b width : Nat) (cs : List Char) : digitsValue b (cs.leftpad width '0') = digitsValue b cs :=
  digitsValue_replicate_append b _ cs

theorem isSmallDigit_of_mem_hex (h : c ∈ hex width n) : isSmallDigit c = true := by
  rcases List.mem_append.mp h with h | h
  · rw [List.eq_of_mem_replicate h]
    rfl
  · exact isSmallDigit_of_mem_toDigits (by decide) (by decide) h

theorem length_hex (hwidth : 0 < width) (hn : n < Nat.pow 16 width) : (hex width n).length = width := by
  rw [hex, List.length_leftpad, Nat.max_eq_left ((Nat.length_toDigits_le_iff (by decide) hwidth).mpr hn)]

theorem digitsValue_hex (width n : Nat) : digitsValue 16 (hex width n) = n := by
  rw [hex, digitsValue_leftpad, digitsValue_toDigits (by decide) (by decide)]

theorem isHexOf_hex (hwidth : 0 < width) (hn : n < Nat.pow 16 width) : IsHexOf width n (hex width n) := by
  exact ⟨length_hex hwidth hn, fun c hc => isSmallDigit_of_mem_hex hc, digitsValue_hex width n⟩

/-- A number with more digits than were asked for is not padded. -/
theorem isHexOf_hex_of_le {k : Nat} (hk : 0 < k) (hwidth : width ≤ k + 1) (hle : Nat.pow 16 k ≤ n)
    (hn : n < Nat.pow 16 (k + 1)) : IsHexOf (k + 1) n (hex width n) := by
  have hdigits : (Nat.toDigits 16 n).length = k + 1 := by
    have hmost := (Nat.length_toDigits_le_iff (b := 16) (n := n) (k := k + 1) (by decide) (by omega)).mpr hn
    have hleast := mt (Nat.length_toDigits_le_iff (b := 16) (n := n) (k := k) (by decide) hk).mp (Nat.not_lt.mpr hle)
    omega
  refine ⟨?_, fun c hc => isSmallDigit_of_mem_hex hc, digitsValue_hex width n⟩
  rw [hex, List.length_leftpad, hdigits, Nat.max_eq_right hwidth]

end EventTrace.Text
