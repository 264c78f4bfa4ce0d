import EventTrace.Proofs.Decimal.Fixed
import EventTrace.Report.Magnitude
/-! Durations over the rationals. Main result: a duration is shown by five significant digits in the band that its rounded
magnitude belongs to, and takes as many columns in every band. -/
namespace EventTrace

open Text

theorem Text.length_alignRight (width : Nat) (s : String) : (alignRight width s).length = max width s.length := by
  rw [alignRight, String.length_ofList, List.length_leftpad, String.length_toList]

namespace Magnitude

variable {v x : Rat} {i d : Nat}

theorem abs_eq (x : Rat) : Scalar.abs x = |x| := by
  change (if 0 ≤ x then x else -x) = |x|
  split
  next h => rw [abs_of_nonneg h]
  next h => rw [abs_of_neg (not_le.mp h)]

/-! Digits before the point -/

theorem lt_digitsBeyond_iff {room n : Nat} (hn : n < room) {limit : Rat} (hlimit : 0 < limit) :
    n < digitsBeyond x room limit ↔ limit * 10 ^ n ≤ x := by
  induction room generalizing n limit with
  | zero => exact absurd hn (Nat.not_lt_zero n)
  | succ room ih =>
    have hstep : digitsBeyond x (room + 1) limit = if limit ≤ x then digitsBeyond x room (limit * 10) + 1 else 0 := by
      simp [digitsBeyond, Scalar.le, Scalar.ofInt]
    rw [hstep]
    split
    next hle =>
      cases n with
      | zero => simpa using hle
      | succ n =>
        rw [Nat.succ_lt_succ_iff, ih (Nat.lt_of_succ_lt_succ hn) (by positivity), pow_succ', mul_assoc]
    next hlt =>
      have hgrow : limit ≤ limit * 10 ^ n := le_mul_of_one_le_right hlimit.le (one_le_pow₀ (by norm_num))
      exact iff_of_false (Nat.not_lt_zero n) fun h => hlt (hgrow.trans h)

theorem lt_integerDigits_iff (hd : 1 ≤ d) (hd' : d < 20) : d < integerDigits x ↔ 10 ^ d ≤ x := by
  obtain ⟨n, rfl⟩ := Nat.exists_eq_add_of_le hd
  have hten : (Scalar.ofInt 10 : Rat) = 10 := rfl
  rw [integerDigits, Nat.add_lt_add_iff_left, hten, lt_digitsBeyond_iff (by omega) (by norm_num), pow_add, pow_one]

theorem one_le_integerDigits (x : Rat) : 1 ≤ integerDigits x := Nat.le_add_right 1 _

theorem le_roundAway_iff {n : Int} (hx : 0 ≤ x) : (n : Rat) ≤ roundAway x ↔ n - 1 / 2 ≤ x := by
  rw [roundAway, if_pos hx, Int.cast_le, Rat.le_floor_iff, sub_le_iff_le_add]

/-- The digits before the point grow in number if five digits are rounded to six. -/
theorem lt_integerDigits_roundTo_iff (hx : 0 ≤ x) (hd : 1 ≤ d) (hd' : d ≤ 5) :
    d < integerDigits (roundTo (5 - d) x) ↔ 10 ^ 5 - 1 / 2 ≤ x * 10 ^ (5 - d) := by
  have hpow : (10 : Rat) ^ d * 10 ^ (5 - d) = 10 ^ 5 := by rw [← pow_add, Nat.add_sub_cancel' hd']
  have hround : roundTo (5 - d) x = roundAway (x * 10 ^ (5 - d)) / 10 ^ (5 - d) := by
    have hfactor : (Scalar.ofInt (Nat.pow 10 (5 - d)) : Rat) = 10 ^ (5 - d) := by
      simp [Scalar.ofInt]
    rw [roundTo, hfactor]
    rfl
  have hcast : (10 : Rat) ^ 5 = ((10 ^ 5 : Int) : Rat) := by norm_num
  rw [lt_integerDigits_iff hd (by omega), hround, le_div_iff₀ (by positivity), hpow, hcast,
    le_roundAway_iff (by positivity)]

theorem carriedDigits_eq (x : Rat) : carriedDigits x =
    if integerDigits x < integerDigits (roundTo (5 - integerDigits x) x) then integerDigits x + 1 else integerDigits x := rfl

/-- There are more than `d` digits before the point if the others of five digits are not enough. -/
theorem lt_carriedDigits_iff (hx : 0 ≤ x) (hd : 1 ≤ d) (hd' : d ≤ 5) :
    d < carriedDigits x ↔ 10 ^ 5 - 1 / 2 ≤ x * 10 ^ (5 - d) := by
  have hpow (k : Nat) (hk : k ≤ 5) : (10 : Rat) ^ k * 10 ^ (5 - k) = 10 ^ 5 := by rw [← pow_add, Nat.add_sub_cancel' hk]
  rw [carriedDigits_eq]
  rcases Nat.lt_trichotomy d (integerDigits x) with hmore | heq | hless
  · have hle : 10 ^ d ≤ x := (lt_integerDigits_iff hd (by omega)).mp hmore
    have hreached : 10 ^ d * 10 ^ (5 - d) ≤ x * 10 ^ (5 - d) := mul_le_mul_of_nonneg_right hle (by positivity)
    rw [hpow d hd'] at hreached
    refine iff_of_true ?_ (by linarith)
    split <;> omega
  · subst heq
    rw [← lt_integerDigits_roundTo_iff hx hd hd']
    split <;> simp [*]
  · have hlt : x < 10 ^ integerDigits x :=
      not_le.mp (mt (lt_integerDigits_iff (one_le_integerDigits x) (by omega)).mpr (lt_irrefl _))
    have hbelow : x * 10 ^ (5 - integerDigits x) < 10 ^ 5 := by
      rw [← hpow _ (by omega : integerDigits x ≤ 5)]
      exact mul_lt_mul_of_pos_right hlt (by positivity)
    have hplace : x * 10 ^ (5 - d + 1) ≤ x * 10 ^ (5 - integerDigits x) :=
      mul_le_mul_of_nonneg_left (pow_le_pow_right₀ (by norm_num) (by omega)) hx
    rw [pow_succ, ← mul_assoc] at hplace
    refine iff_of_false ?_ (by linarith)
    split <;> omega

/-- Five digits are shown: rounded at the last of them, the magnitude has neither four nor six. -/
theorem carriedDigits_spec (hlow : 999995 / 10 ^ 6 ≤ x) (hhigh : x < 10 ^ 5 - 1 / 2) :
    1 ≤ carriedDigits x ∧ carriedDigits x ≤ 5 ∧ 999995 / 10 ^ 2 ≤ x * 10 ^ (5 - carriedDigits x) ∧
      x * 10 ^ (5 - carriedDigits x) < 10 ^ 5 - 1 / 2 := by
  have hx : 0 ≤ x := le_trans (by norm_num) hlow
  have hone : 1 ≤ carriedDigits x := by
    have hdigits := one_le_integerDigits x
    rw [carriedDigits_eq]
    split <;> omega
  have hfive : carriedDigits x ≤ 5 := by
    refine Nat.not_lt.mp (mt (lt_carriedDigits_iff hx (by decide) (by decide)).mp ?_)
    rwa [Nat.sub_self, pow_zero, mul_one, not_le]
  refine ⟨hone, hfive, ?_, not_le.mp (mt (lt_carriedDigits_iff hx hone hfive).mpr (lt_irrefl _))⟩
  rcases Nat.eq_or_lt_of_le hone with hsingle | hseveral
  · rw [← hsingle]
    norm_num
    linarith
  · have hbefore := (lt_carriedDigits_iff (d := carriedDigits x - 1) hx (by omega) (by omega)).mp (by omega)
    have hplaces : 5 - (carriedDigits x - 1) = 5 - carriedDigits x + 1 := by omega
    rw [hplaces, pow_succ _ (5 - carriedDigits x), ← mul_assoc] at hbefore
    linarith

/-! Bands -/

def factor (i : Nat) : Rat := 1000 ^ 3 / 1000 ^ i

def inBand (v : Rat) (i : Nat) : Rat := |v| / factor i

theorem factor_pos (i : Nat) : 0 < factor i := by
  rw [factor]
  positivity

theorem inBand_nonneg (v : Rat) (i : Nat) : 0 ≤ inBand v i := div_nonneg (abs_nonneg v) (factor_pos i).le

theorem inBand_succ (v : Rat) (i : Nat) : inBand v (i + 1) = 1000 * inBand v i := by
  rw [inBand, inBand, factor, factor, pow_succ]
  ring

theorem inBand_mono (v : Rat) : Monotone (inBand v) := by
  refine monotone_nat_of_le_succ fun i => ?_
  have hnonneg := inBand_nonneg v i
  rw [inBand_succ]
  linarith

theorem band_multiplier : ∀ i < 7, (band i : Band Rat).multiplier = 1 / factor i := by decide +kernel

theorem band_threshold : ∀ i < 6, (band i : Band Rat).threshold = factor i := by decide +kernel

theorem abs_scaled (v : Rat) (hi : i < 7) : |v * (band i).multiplier| = inBand v i := by
  rw [band_multiplier i hi, mul_one_div, abs_div, abs_of_pos (factor_pos i), inBand]

theorem threshold_le_iff (v : Rat) (hi : i < 6) : (band i).threshold ≤ |v| ↔ 1 ≤ inBand v i := by
  rw [band_threshold i hi, inBand, one_le_div (factor_pos i)]

theorem bandOf_spec (hleast : 1 / 10 ^ 9 ≤ |v|) :
    bandOf |v| < 7 ∧ 1 ≤ inBand v (bandOf |v|) ∧ (bandOf |v| ≠ 0 → inBand v (bandOf |v|) < 1000) := by
  have hpos : 0 < |v| := lt_of_lt_of_le (by norm_num) hleast
  have hlast : Scalar.le (band 6 : Band Rat).threshold |v| = true := decide_eq_true hpos.le
  have hsome : ((List.range 7).find? fun i => Scalar.le (band i : Band Rat).threshold |v|).isSome := by
    rw [List.find?_isSome]
    exact ⟨6, by decide, hlast⟩
  obtain ⟨i, hi⟩ := Option.isSome_iff_exists.mp hsome
  have hband : bandOf |v| = i := by
    have hnonzero : ¬Scalar.le |v| (Scalar.ofInt 0) = true := by
      simpa [Scalar.le, Scalar.ofInt] using hpos.ne'
    rw [bandOf, if_neg hnonzero, hi]
    rfl
  obtain ⟨hreached, hmem, hbefore⟩ := List.find?_range_eq_some.mp hi
  have hi : i < 7 := List.mem_range.mp hmem
  rw [hband]
  refine ⟨hi, ?_, fun hne => ?_⟩
  · rcases Nat.eq_or_lt_of_le (Nat.le_of_lt_succ hi) with rfl | hi
    · have hfactor : factor 6 = 1 / 10 ^ 9 := by decide +kernel
      rwa [inBand, hfactor, one_le_div (by norm_num)]
    · exact (threshold_le_iff v hi).mp (of_decide_eq_true hreached)
  · obtain ⟨j, rfl⟩ := Nat.exists_eq_succ_of_ne_zero hne
    have hmissed : ¬(band j).threshold ≤ |v| := by
      simpa [Scalar.le] using hbefore j (Nat.lt_succ_self j)
    rw [threshold_le_iff v (by omega), not_le] at hmissed
    rw [Nat.succ_eq_add_one, inBand_succ]
    linarith

theorem fit_succ (v : Rat) (hi : i + 1 < 7) :
    fit v (i + 1) = if 999995 / 10 ^ 3 ≤ inBand v (i + 1) then fit v i else i + 1 := by
  have hscaled : Scalar.abs (v * (band (i + 1)).multiplier) = inBand v (i + 1) := by
    rw [abs_eq]
    exact abs_scaled v hi
  have hfour : 3 < carriedDigits (inBand v (i + 1)) ↔ 999995 / 10 ^ 3 ≤ inBand v (i + 1) := by
    rw [lt_carriedDigits_iff (inBand_nonneg v _) (by decide) (by decide)]
    constructor <;> intro h <;> linarith
  rw [fit, hscaled]
  exact if_congr hfour rfl rfl

/-- The band that is suggested is tried and, if the magnitude is rounded to a thousand there, the next larger one. -/
theorem fit_cases (hi : i < 7) (hbelow : i ≠ 0 → inBand v i < 1000) :
    fit v i = i ∧ (i ≠ 0 → inBand v i < 999995 / 10 ^ 3) ∨ fit v i + 1 = i ∧ 999995 / 10 ^ 3 ≤ inBand v i := by
  cases i with
  | zero => exact .inl ⟨rfl, fun h => absurd rfl h⟩
  | succ i =>
    rw [fit_succ v hi]
    split
    next hcarry =>
      refine .inr ⟨?_, hcarry⟩
      cases i with
      | zero => rfl
      | succ i =>
        have hless := hbelow (Nat.succ_ne_zero _)
        rw [inBand_succ] at hless
        rw [fit_succ v (by omega), if_neg (by linarith)]
    next hfits => exact .inl ⟨rfl, fun _ => not_le.mp hfits⟩

/-- A magnitude that is rounded up to a thousand in its band is shown in the next larger one. -/
theorem fit_of_thousand (hleast : 1 / 10 ^ 9 ≤ |v|) (hlow : 999995 / 10 ^ 3 ≤ inBand v (i + 1))
    (hhigh : inBand v (i + 1) < 1000) : fit v (bandOf |v|) = i := by
  obtain ⟨hband, hreached, hbelow⟩ := bandOf_spec hleast
  rcases Nat.lt_trichotomy (bandOf |v|) (i + 1) with hlarger | hsame | hsmaller
  · have hle := inBand_mono v (Nat.le_of_lt_succ hlarger)
    rw [inBand_succ] at hhigh
    linarith
  · rw [← hsame] at hlow
    rcases fit_cases hband hbelow with ⟨-, hless⟩ | ⟨hfit, -⟩
    · linarith [hless (by omega)]
    · omega
  · have hle := inBand_mono v (Nat.succ_le_of_lt hsmaller)
    rw [Nat.succ_eq_add_one, inBand_succ] at hle
    linarith [hbelow (by omega)]

/-- How many bands are tried, each larger than the one before, until one fits. -/
def rounds (v : Rat) : Nat := bandOf |v| - fit v (bandOf |v|) + 1

theorem fit_spec (hleast : 1 / 10 ^ 9 ≤ |v|) (hmost : |v| < 999995 * 10 ^ 8) :
    fit v (bandOf |v|) < 7 ∧ rounds v ≤ 2 ∧
      999995 / 10 ^ 6 ≤ inBand v (fit v (bandOf |v|)) ∧ inBand v (fit v (bandOf |v|)) < 10 ^ 5 - 1 / 2 ∧
      (|v| < 999995 * 10 ^ 6 → inBand v (fit v (bandOf |v|)) < 999995 / 10 ^ 3) := by
  obtain ⟨hband, hreached, hbelow⟩ := bandOf_spec hleast
  have hlargest : inBand v 0 = |v| / 10 ^ 9 := by
    have hfactor : factor 0 = 10 ^ 9 := by decide +kernel
    rw [inBand, hfactor]
  rw [rounds]
  generalize bandOf |v| = i at *
  rcases fit_cases hband hbelow with ⟨hfit, hless⟩ | ⟨hfit, hcarry⟩
  · rw [hfit]
    refine ⟨hband, by omega, le_trans (by norm_num) hreached, ?_, fun hsmall => ?_⟩
    · rcases Nat.eq_zero_or_pos i with rfl | hi
      · linarith
      · linarith [hless hi.ne']
    · rcases Nat.eq_zero_or_pos i with rfl | hi
      · linarith
      · exact hless hi.ne'
  · have hthousand := hbelow (by omega)
    rw [← hfit, inBand_succ] at hthousand hcarry
    refine ⟨by omega, by omega, ?_, ?_, fun _ => ?_⟩ <;> linarith

/-! What is shown -/

structure FiveDigits (v : Rat) (i places n : Nat) : Prop where
  few : places ≤ 4
  low : Nat.pow 10 4 ≤ n
  high : n < Nat.pow 10 5
  near : |(n : Rat) - inBand v i * 10 ^ places| ≤ 1 / 2
  several : inBand v i < 999995 / 10 ^ 3 → 2 ≤ places
  carried : inBand v i < 1 → places = 4 ∧ n = 10000

theorem fiveDigits_of_near {n : Nat} (hlow : 999995 / 10 ^ 6 ≤ inBand v i) (hhigh : inBand v i < 10 ^ 5 - 1 / 2)
    (hnear : |(n : Rat) - inBand v i * 10 ^ (5 - carriedDigits (inBand v i))| ≤ 1 / 2) :
    FiveDigits v i (5 - carriedDigits (inBand v i)) n := by
  obtain ⟨hone, hfive, hleast, hmost⟩ := carriedDigits_spec hlow hhigh
  have hfew (d : Nat) (hd : 1 ≤ d) (hd' : d ≤ 5) (h : inBand v i * 10 ^ (5 - d) < 10 ^ 5 - 1 / 2) :
      carriedDigits (inBand v i) ≤ d := Nat.not_lt.mp (mt (lt_carriedDigits_iff (inBand_nonneg v i) hd hd').mp (not_le.mpr h))
  have hleastDigits : 10000 ≤ n := le_near hnear (by norm_num; linarith)
  have hmostDigits : n ≤ 99999 := near_le hnear (by norm_num; linarith)
  refine ⟨by omega, hleastDigits, Nat.lt_succ_of_le hmostDigits, hnear, fun hthree => ?_, fun hunit => ?_⟩
  · have hdigits := hfew 3 (by decide) (by decide) (by linarith)
    omega
  · have hdigits := hfew 1 (by decide) (by decide) (by linarith)
    have hplaces : 5 - carriedDigits (inBand v i) = 4 := by omega
    rw [hplaces] at hnear
    exact ⟨hplaces, Nat.le_antisymm (near_le hnear (by norm_num; linarith)) hleastDigits⟩

theorem FiveDigits.normal {places n : Nat} {negative : Bool} (h : FiveDigits v i places n)
    (hthree : inBand v i < 999995 / 10 ^ 3) :
    1 ≤ (Figure.ofPlaces negative places n).magnitude ∧ (Figure.ofPlaces negative places n).magnitude < 1000 := by
  have hplaces : (10 : Rat) ^ 2 ≤ 10 ^ places := pow_le_pow_right₀ (by norm_num) (h.several hthree)
  have hplaces' : (10 : Rat) ^ places ≤ 10 ^ 4 := pow_le_pow_right₀ (by norm_num) h.few
  have hlow : (10 : Rat) ^ 4 ≤ n := by exact_mod_cast h.low
  have hhigh : (n : Rat) < 10 ^ 5 := by exact_mod_cast h.high
  have hpos : (0 : Rat) < 10 ^ places := by positivity
  rw [Figure.magnitude_ofPlaces, le_div_iff₀ hpos, div_lt_iff₀ hpos]
  constructor <;> linarith

theorem exists_fiveDigits (hi : i < 7) (hlow : 999995 / 10 ^ 6 ≤ inBand v i) (hhigh : inBand v i < 10 ^ 5 - 1 / 2) :
    ∃ places n, FiveDigits v i places n ∧ ∀ unit, renderIn (band i) v unit =
      alignRight 9 (Figure.ofPlaces (decide (v < 0)) places n).text ++
        (if (band i : Band Rat).symbol = "" then unit ++ " " else (band i : Band Rat).symbol ++ unit) := by
  have hsign : decide (v * (band i).multiplier < 0) = decide (v < 0) := by
    rw [band_multiplier i hi, mul_one_div, decide_eq_decide, div_lt_iff₀ (factor_pos i), zero_mul]
  obtain ⟨n, htext, hnear⟩ := Decimal.fixed_exact (5 - carriedDigits (inBand v i)) (v * (band i).multiplier)
  rw [abs_scaled v hi] at hnear
  refine ⟨_, n, fiveDigits_of_near hlow hhigh hnear, fun unit => ?_⟩
  rw [← hsign, ← htext, renderIn, abs_eq, ← abs_scaled v hi]
  simp [String.isEmpty_iff, significantDigits]

def symbols : List (String × Rat) :=
  [("G", 10 ^ 9), ("M", 10 ^ 6), ("k", 10 ^ 3), ("", 1), ("m", 1 / 10 ^ 3), ("µ", 1 / 10 ^ 6), ("n", 1 / 10 ^ 9)]

theorem symbol_mem : ∀ i < 7, ((band i : Band Rat).symbol, factor i) ∈ symbols := by decide +kernel

theorem length_symbol : ∀ s ∈ symbols, s.1 ≠ "" → s.1.length = 1 := by decide +kernel

/-- The figure, in units of what the symbol in front of them is worth, shows the value. -/
structure Shows (x : Figure) (symbol : String) (worth v : Rat) : Prop where
  symbol : (symbol, worth) ∈ symbols
  sign : x.negative = decide (v < 0)
  significant : x.HasSignificant 5
  error : |x.value * worth - v| ≤ x.ulp * worth / 2
  normal : |v| < 999995 * 10 ^ 6 → 1 ≤ x.magnitude ∧ x.magnitude < 1000

/-- Five significant digits of a value are shown. Where they are rounded up to a thousand, a one is shown with the next larger
symbol. The figure is aligned in nine columns, and a symbol in front of the unit takes as much room as the blank behind a unit
without one. -/
theorem render_shows (v : Rat) (unit : String) (hleast : 1 / 10 ^ 9 ≤ |v|) (hmost : |v| < 999995 * 10 ^ 8) :
    rounds v ≤ 2 ∧ ∃ (x : Figure) (symbol : String) (worth : Rat), Shows x symbol worth v ∧
      (∀ i < 6, 999995 / 10 ^ 3 ≤ |v| / factor (i + 1) → |v| / factor (i + 1) < 1000 →
        x.text = signText x.negative ++ "1.0000" ∧ symbol = (band i : Band Rat).symbol) ∧
      render v unit = alignRight 9 x.text ++ (if symbol = "" then unit ++ " " else symbol ++ unit) ∧
      (alignRight 9 x.text).length = 9 ∧ (symbol ≠ "" → symbol.length = 1) ∧ (render v unit).length = 10 + unit.length := by
  obtain ⟨hfit, hrounds, hlow, hhigh, hnormal⟩ := fit_spec hleast hmost
  have hthousand (i : Nat) (hlow : 999995 / 10 ^ 3 ≤ inBand v (i + 1)) (hhigh : inBand v (i + 1) < 1000) :
      fit v (bandOf |v|) = i ∧ inBand v i < 1 := by
    refine ⟨fit_of_thousand hleast hlow hhigh, ?_⟩
    rw [inBand_succ] at hhigh
    linarith
  have hrender : render v unit = renderIn (band (fit v (bandOf |v|))) v unit := by rw [render, abs_eq]
  generalize fit v (bandOf |v|) = i at *
  obtain ⟨places, n, hdigits, hshown⟩ := exists_fiveDigits hfit hlow hhigh
  have hsignificant := Figure.hasSignificant_ofPlaces (decide (v < 0)) hdigits.few hdigits.low hdigits.high
  have hmem := symbol_mem i hfit
  have hone := length_symbol _ hmem
  have haligned : (alignRight 9 (Figure.ofPlaces (decide (v < 0)) places n).text).length = 9 := by
    have hlength := (Figure.ofPlaces (decide (v < 0)) places n).length_text_le
    rw [hsignificant.1] at hlength
    rw [length_alignRight]
    omega
  rw [hrender, hshown]
  refine ⟨hrounds, .ofPlaces (decide (v < 0)) places n, _, factor i, ?_, fun j _ hlow hhigh => ?_, rfl, haligned, hone, ?_⟩
  · exact
      { symbol := hmem
        sign := rfl
        significant := hsignificant
        error := Figure.error_ofPlaces hdigits.near (factor_pos i) (div_mul_cancel₀ _ (factor_pos i).ne')
        normal := fun hsmall => hdigits.normal (hnormal hsmall) }
  · obtain ⟨rfl, hone⟩ := hthousand j hlow hhigh
    obtain ⟨rfl, rfl⟩ := hdigits.carried hone
    exact ⟨Figure.text_ofPlaces .., rfl⟩
  · rw [String.length_append, haligned]
    split
    · have hblank : " ".length = 1 := rfl
      rw [String.length_append]
      omega
    next hne =>
      rw [String.length_append, hone hne]
      omega

/-- A value that is rounded up to a thousand units. -/
theorem render_shows_of_thousand :
    1 / 10 ^ 9 ≤ |(-9999996 / 10 ^ 4 : Rat)| ∧ |(-9999996 / 10 ^ 4 : Rat)| < 999995 * 10 ^ 8 ∧
      render (-9999996 / 10 ^ 4 : Rat) "s" = "  -1.0000ks" ∧
      ∃ x worth, Shows x "k" worth (-9999996 / 10 ^ 4) ∧ x.text = signText x.negative ++ "1.0000" := by
  have hleast : 1 / 10 ^ 9 ≤ |(-9999996 / 10 ^ 4 : Rat)| := by decide +kernel
  have hmost : |(-9999996 / 10 ^ 4 : Rat)| < 999995 * 10 ^ 8 := by decide +kernel
  obtain ⟨-, x, symbol, worth, hshows, hthousand, -⟩ := render_shows _ "s" hleast hmost
  obtain ⟨htext, rfl⟩ := hthousand 2 (by decide) (by decide +kernel) (by decide +kernel)
  exact ⟨hleast, hmost, by decide +kernel, x, worth, hshows, htext⟩

example : render (999996 / 10 ^ 5 : Rat) "s" = "   10.000s " := by decide +kernel

end Magnitude
end EventTrace
