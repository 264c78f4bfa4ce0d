import EventTrace.Decimal
import EventTrace.Proofs.Text.Digits
import Mathlib.Algebra.Order.Field.Basic
import Mathlib.Algebra.Order.Ring.Rat
import Mathlib.Tactic.Linarith
import Mathlib.Tactic.Positivity
import Mathlib.Tactic.Ring
/-! Numbers in decimal notation. Main results: a rational is written as a figure whose digits are off by at most half of the
last one, and all of them are significant if the number that they denote is large enough. -/
namespace EventTrace

open Text

structure Figure where
  negative : Bool
  whole : List Char
  fraction : List Char

namespace Figure

def digits (x : Figure) : List Char := x.whole ++ x.fraction

def text (x : Figure) : String :=
  signText x.negative ++ String.ofList (if x.fraction = [] then x.whole else x.whole ++ '.' :: x.fraction)

/-- What one more in the last digit is worth. -/
def ulp (x : Figure) : Rat := 1 / 10 ^ x.fraction.length

def magnitude (x : Figure) : Rat := digitsValue 10 x.digits * x.ulp

def value (x : Figure) : Rat := if x.negative then -x.magnitude else x.magnitude

/-- So many digits, all of them significant: the first is no zero. Some of them are in front of the point. -/
def HasSignificant (x : Figure) (count : Nat) : Prop :=
  x.digits.length = count ∧ (∀ c ∈ x.digits, c.isDigit = true) ∧ x.digits.head? ≠ some '0' ∧ x.whole ≠ []

def ofPlaces (negative : Bool) (places n : Nat) : Figure where
  negative := negative
  whole := Nat.toDigits 10 (n / Nat.pow 10 places)
  fraction := if places = 0 then [] else (Nat.toDigits 10 (n % Nat.pow 10 places)).leftpad places '0'

variable (negative : Bool) {places n count : Nat}

theorem length_fraction_ofPlaces (places n : Nat) : (ofPlaces negative places n).fraction.length = places := by
  by_cases hplaces : places = 0
  · simp [ofPlaces, hplaces]
  · have hmod : n % Nat.pow 10 places < Nat.pow 10 places := Nat.mod_lt _ (Nat.pow_pos (by decide))
    have hlength := (Nat.length_toDigits_le_iff (b := 10) (by decide) (Nat.pos_of_ne_zero hplaces)).mpr hmod
    rw [ofPlaces, if_neg hplaces, List.length_leftpad, Nat.max_eq_left hlength]

theorem text_ofPlaces (places n : Nat) :
    (ofPlaces negative places n).text = signText negative ++ String.ofList (Decimal.pointed places n) := by
  by_cases hplaces : places = 0
  · simp [text, ofPlaces, Decimal.pointed, hplaces]
  · have hsome : (ofPlaces negative places n).fraction ≠ [] := by
      rwa [← List.length_pos_iff, length_fraction_ofPlaces, Nat.pos_iff_ne_zero]
    rw [text, if_neg hsome, ofPlaces, Decimal.pointed, if_neg hplaces, if_neg hplaces]

theorem digitsValue_ofPlaces (places n : Nat) : digitsValue 10 (ofPlaces negative places n).digits = n := by
  have hfraction : digitsValue 10 (ofPlaces negative places n).fraction = n % Nat.pow 10 places := by
    by_cases hplaces : places = 0
    · simp [ofPlaces, hplaces, digitsValue, Nat.mod_one]
    · rw [ofPlaces, if_neg hplaces, digitsValue_leftpad, digitsValue_toDigits (by decide) (by decide)]
  have hwhole : digitsValue 10 (ofPlaces negative places n).whole = n / Nat.pow 10 places :=
    digitsValue_toDigits (by decide) (by decide) _
  rw [digits, digitsValue_append, hfraction, hwhole, length_fraction_ofPlaces, Nat.div_add_mod']

theorem isDigit_of_mem_ofPlaces {c : Char} (hc : c ∈ (ofPlaces negative places n).digits) : c.isDigit = true := by
  have htoDigits {m : Nat} (hc : c ∈ Nat.toDigits 10 m) : c.isDigit = true :=
    Nat.isDigit_of_mem_toDigits (by decide) (by decide) hc
  rcases List.mem_append.mp hc with hc | hc
  · exact htoDigits hc
  · unfold ofPlaces at hc
    dsimp only at hc
    split at hc
    · cases hc
    · rcases List.mem_append.mp hc with hc | hc
      · rw [List.eq_of_mem_replicate hc]
        rfl
      · exact htoDigits hc

theorem length_digits_ofPlaces (hplaces : places ≤ count) (hlow : Nat.pow 10 count ≤ n) (hhigh : n < Nat.pow 10 (count + 1)) :
    (ofPlaces negative places n).digits.length = count + 1 := by
  have hpos : 0 < Nat.pow 10 places := Nat.pow_pos (by decide)
  have hmost : (Nat.toDigits 10 (n / Nat.pow 10 places)).length ≤ count + 1 - places := by
    rw [Nat.length_toDigits_le_iff (by decide) (by omega), Nat.div_lt_iff_lt_mul hpos]
    calc
      n < Nat.pow 10 (count + 1 - places + places) := by rwa [Nat.sub_add_cancel (by omega)]
      _ = 10 ^ (count + 1 - places) * Nat.pow 10 places := Nat.pow_add ..
  have hleast : count - places < (Nat.toDigits 10 (n / Nat.pow 10 places)).length := by
    rcases Nat.eq_or_lt_of_le hplaces with hall | hfewer
    · rw [hall, Nat.sub_self, List.length_pos_iff]
      exact Nat.toDigits_ne_nil
    · rw [← Nat.not_le, Nat.length_toDigits_le_iff (by decide) (by omega), Nat.not_lt, Nat.le_div_iff_mul_le hpos]
      calc
        10 ^ (count - places) * Nat.pow 10 places = Nat.pow 10 (count - places + places) := (Nat.pow_add ..).symm
        _ ≤ n := by rwa [Nat.sub_add_cancel hplaces]
  have hwhole : (ofPlaces negative places n).whole = Nat.toDigits 10 (n / Nat.pow 10 places) := rfl
  rw [digits, List.length_append, length_fraction_ofPlaces, hwhole]
  omega

theorem hasSignificant_ofPlaces (hplaces : places ≤ count) (hlow : Nat.pow 10 count ≤ n)
    (hhigh : n < Nat.pow 10 (count + 1)) : (ofPlaces negative places n).HasSignificant (count + 1) := by
  have hlength := length_digits_ofPlaces negative hplaces hlow hhigh
  refine ⟨hlength, fun c hc => isDigit_of_mem_ofPlaces negative hc, fun hzero => ?_, Nat.toDigits_ne_nil⟩
  -- Behind a zero there are too few digits for the number.
  obtain ⟨rest, hrest⟩ := List.head?_eq_some_iff.mp hzero
  have hdigits : ∀ c ∈ rest, hexValue c < 10 := fun c hc =>
    hexValue_lt_of_isDigit (isDigit_of_mem_ofPlaces negative (hrest ▸ List.mem_cons_of_mem _ hc))
  have hvalue : digitsValue 10 rest = n := by
    have hall := digitsValue_ofPlaces negative places n
    rwa [hrest] at hall
  have hlt := digitsValue_lt hdigits
  rw [hrest, List.length_cons] at hlength
  rw [hvalue, Nat.succ.inj hlength] at hlt
  exact absurd hlow (Nat.not_le.mpr hlt)

theorem ulp_ofPlaces (places n : Nat) : (ofPlaces negative places n).ulp = 1 / 10 ^ places := by
  rw [ulp, length_fraction_ofPlaces]

theorem magnitude_ofPlaces (places n : Nat) : (ofPlaces negative places n).magnitude = n / 10 ^ places := by
  rw [magnitude, digitsValue_ofPlaces, ulp_ofPlaces, mul_one_div]

theorem length_text_le (x : Figure) : x.text.length ≤ x.digits.length + 2 := by
  have hsign : (signText x.negative).length ≤ 1 := by cases x.negative <;> decide
  rw [text, String.length_append, String.length_ofList, digits, List.length_append]
  split
  · omega
  · rw [List.length_append, List.length_cons]
    omega

/-- A figure whose digits are off by at most half of the last one, in units of `factor`. -/
theorem error_ofPlaces {scaled factor v : Rat} (hnear : |(n : Rat) - scaled * 10 ^ places| ≤ 1 / 2) (hfactor : 0 < factor)
    (hscaled : scaled * factor = |v|) :
    |(ofPlaces (decide (v < 0)) places n).value * factor - v| ≤ (ofPlaces (decide (v < 0)) places n).ulp * factor / 2 := by
  have hpow : (0 : Rat) < 10 ^ places := by positivity
  have hworth : 0 < factor / 10 ^ places := div_pos hfactor hpow
  have hmagnitude : n / 10 ^ places * factor - scaled * factor = (n - scaled * 10 ^ places) * (factor / 10 ^ places) := by
    rw [sub_mul, mul_assoc, mul_div_cancel₀ _ hpow.ne', div_mul_eq_mul_div, mul_div_assoc]
  have hclose : |(n / 10 ^ places * factor - scaled * factor : Rat)| ≤ 1 / 10 ^ places * factor / 2 := by
    calc
      |(n / 10 ^ places * factor - scaled * factor : Rat)| =
          |(n : Rat) - scaled * 10 ^ places| * (factor / 10 ^ places) := by rw [hmagnitude, abs_mul, abs_of_pos hworth]
      _ ≤ 1 / 2 * (factor / 10 ^ places) := mul_le_mul_of_nonneg_right hnear hworth.le
      _ = 1 / 10 ^ places * factor / 2 := by ring
  rw [value, magnitude_ofPlaces, ulp_ofPlaces]
  by_cases hneg : v < 0
  · have hmirror : -(n / 10 ^ places : Rat) * factor - v = -(n / 10 ^ places * factor - -v) := by ring
    rw [abs_of_neg hneg] at hscaled
    rw [ofPlaces, if_pos (decide_eq_true hneg), hmirror, abs_neg, ← hscaled]
    exact hclose
  · rw [abs_of_nonneg (not_lt.mp hneg)] at hscaled
    rw [ofPlaces, if_neg (by simpa using hneg), ← hscaled]
    exact hclose

end Figure

/-! Rounding -/

theorem roundDiv_bounds (num : Nat) {den : Nat} (hden : 0 < den) :
    2 * num ≤ 2 * (roundDiv num den * den) + den ∧ 2 * (roundDiv num den * den) ≤ 2 * num + den := by
  have hsplit : den * (num / den) + num % den = num := Nat.div_add_mod num den
  have hrest : num % den < den := Nat.mod_lt _ hden
  have hnext : (num / den + 1) * den = den * (num / den) + den := by rw [Nat.succ_mul, Nat.mul_comm]
  have hthis : num / den * den = den * (num / den) := Nat.mul_comm ..
  unfold roundDiv
  dsimp only
  split
  · rw [hnext]
    omega
  · rw [hthis]
    omega

theorem abs_roundDiv_sub_le (num : Nat) {den : Nat} (hden : 0 < den) : |(roundDiv num den : Rat) - num / den| ≤ 1 / 2 := by
  obtain ⟨hlow, hhigh⟩ := roundDiv_bounds num hden
  have hpos : (0 : Rat) < den := Nat.cast_pos.mpr hden
  have hlow : (2 * num : Rat) ≤ 2 * (roundDiv num den * den) + den := by exact_mod_cast hlow
  have hhigh : (2 * (roundDiv num den * den) : Rat) ≤ 2 * num + den := by exact_mod_cast hhigh
  have hbelow : (num : Rat) / den ≤ roundDiv num den + 1 / 2 := by
    rw [div_le_iff₀ hpos]
    linarith
  have habove : (roundDiv num den - 1 / 2 : Rat) ≤ num / den := by
    rw [le_div_iff₀ hpos]
    linarith
  rw [abs_le]
  constructor <;> linarith

theorem le_near {n m : Nat} {x : Rat} (hnear : |(n : Rat) - x| ≤ 1 / 2) (h : (m : Rat) - 1 / 2 < x) : m ≤ n := by
  have hlt : (m : Rat) < (n + 1 : Nat) := by
    push_cast
    linarith [(abs_le.mp hnear).1]
  exact Nat.le_of_lt_succ (Nat.cast_lt.mp hlt)

theorem near_le {n m : Nat} {x : Rat} (hnear : |(n : Rat) - x| ≤ 1 / 2) (h : x < (m : Rat) + 1 / 2) : n ≤ m := by
  have hlt : (n : Rat) < (m + 1 : Nat) := by
    push_cast
    linarith [(abs_le.mp hnear).2]
  exact Nat.le_of_lt_succ (Nat.cast_lt.mp hlt)

/-- A rational is written by the nearest figure with so many places. -/
theorem Decimal.fixed_exact (places : Nat) (x : Rat) : ∃ n : Nat,
    Decimal.fixed places (Scalar.exact x) = (Figure.ofPlaces (decide (x < 0)) places n).text ∧
      |(n : Rat) - |x| * 10 ^ places| ≤ 1 / 2 := by
  refine ⟨roundDiv (x.num.natAbs * Nat.pow 10 places) x.den, (Figure.text_ofPlaces ..).symm, ?_⟩
  have hvalue : ((x.num.natAbs * Nat.pow 10 places : Nat) : Rat) / x.den = |x| * 10 ^ places := by
    have habs : |x| = (x.num.natAbs : Rat) / x.den := by
      rw [Rat.abs_def, Rat.divInt_eq_div]
      rfl
    rw [habs, Nat.pow_eq]
    push_cast
    ring
  rw [← hvalue]
  exact abs_roundDiv_sub_le _ x.den_pos

end EventTrace
