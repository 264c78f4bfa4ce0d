import EventTrace.Expression.Token
import EventTrace.Proofs.Text.Digits
import EventTrace.Proofs.Text.Runs
/-! The spellings of numbers. Main results: a spelling that nothing continues is read whole and gives its value, and
what is read is such a spelling. -/
namespace EventTrace

open Text Token

inductive Point : List Char → Option (List Char) → Prop
  | absent : Point [] none
  | present {digits : List Char} (hdigits : ∀ c ∈ digits, c.isDigit = true) : Point ('.' :: digits) (some digits)

inductive Exponent : List Char → Option Int → Prop
  | absent : Exponent [] none
  | bare {letter : Char} {digits : List Char} (hletter : letter = 'e' ∨ letter = 'E') (hne : digits ≠ [])
      (hdigits : ∀ c ∈ digits, c.isDigit = true) : Exponent (letter :: digits) (some (digitsValue 10 digits))
  | plus {letter : Char} {digits : List Char} (hletter : letter = 'e' ∨ letter = 'E') (hne : digits ≠ [])
      (hdigits : ∀ c ∈ digits, c.isDigit = true) : Exponent (letter :: '+' :: digits) (some (digitsValue 10 digits))
  | minus {letter : Char} {digits : List Char} (hletter : letter = 'e' ∨ letter = 'E') (hne : digits ≠ [])
      (hdigits : ∀ c ∈ digits, c.isDigit = true) : Exponent (letter :: '-' :: digits) (some (-digitsValue 10 digits))

/-- The spellings of numbers without a sign. An integer of base sixteen has 64 bits and may be negative, one of base ten
is not; a number with a point or an exponent is the double nearest to it. -/
inductive Numeral : List Char → Value → Prop
  | hex {mark : Char} {digits : List Char} (hmark : mark = 'x' ∨ mark = 'X') (hne : digits ≠ [])
      (hdigits : ∀ c ∈ digits, isHexDigit c = true) (hlt : digitsValue 16 digits < Nat.pow 2 64) :
      Numeral ('0' :: mark :: digits) (.integer (Int64.ofNat (digitsValue 16 digits)))
  | decimal {digits : List Char} (hne : digits ≠ []) (hdigits : ∀ c ∈ digits, c.isDigit = true)
      (hlt : digitsValue 10 digits < Nat.pow 2 63) : Numeral digits (.integer (Int64.ofNat (digitsValue 10 digits)))
  | float {whole point exponent : List Char} {fraction : Option (List Char)} {power : Option Int} (hne : whole ≠ [])
      (hwhole : ∀ c ∈ whole, c.isDigit = true) (hpoint : Point point fraction) (hexponent : Exponent exponent power)
      (hfloat : fraction.isSome = true ∨ power.isSome = true) :
      Numeral (whole ++ (point ++ exponent)) (.float (nearestDouble (digitsValue 10 (whole ++ fraction.getD []))
        (power.getD 0 - (fraction.getD []).length)))

/-! Kinds of characters, by their numbers -/

section
variable {c : Char}

theorem isDigit_iff : c.isDigit = true ↔ 48 ≤ c.toNat ∧ c.toNat ≤ 57 := Char.isDigit_iff_toNat

theorem isAlpha_iff : c.isAlpha = true ↔ (65 ≤ c.toNat ∧ c.toNat ≤ 90) ∨ (97 ≤ c.toNat ∧ c.toNat ≤ 122) := by
  change (decide (65 ≤ c.val ∧ c.val ≤ 90) || (decide (97 ≤ c.val) && decide (c.val ≤ 122))) = true ↔ _
  rw [Bool.or_eq_true, Bool.and_eq_true, decide_eq_true_eq, decide_eq_true_eq, decide_eq_true_eq]
  simp only [UInt32.le_iff_toNat_le]
  rfl

theorem isNameStart_iff : isNameStart c = true ↔
    (65 ≤ c.toNat ∧ c.toNat ≤ 90) ∨ (97 ≤ c.toNat ∧ c.toNat ≤ 122) ∨ c.toNat = 95 := by
  rw [isNameStart, Bool.or_eq_true, isAlpha_iff, beq_iff_eq, ← Char.toNat_inj, or_assoc]
  rfl

theorem isNamePart_iff : isNamePart c = true ↔ isNameStart c = true ∨ c.isDigit = true := by
  change (c.isAlpha || c.isDigit || c == '_') = true ↔ (c.isAlpha || c == '_') = true ∨ c.isDigit = true
  rw [Bool.or_eq_true, Bool.or_eq_true, Bool.or_eq_true, or_right_comm]

theorem isHexDigit_iff : isHexDigit c = true ↔
    c.isDigit = true ∨ (97 ≤ c.toNat ∧ c.toNat ≤ 102) ∨ (65 ≤ c.toNat ∧ c.toNat ≤ 70) := by
  simp only [isHexDigit, Bool.or_eq_true, Bool.and_eq_true, decide_eq_true_eq, Char.le_def, UInt32.le_iff_toNat_le,
    or_assoc]
  rfl

end

theorem isNameStart_of_isDigit {c : Char} (h : c.isDigit = true) : isNameStart c = false := by
  rw [isDigit_iff] at h
  rw [← Bool.not_eq_true, isNameStart_iff]
  omega

/-! What a number may run into -/

theorem isSuffix_of_isNamePart {c : Char} (h : isNamePart c = true) : isSuffix c = true := by
  simp [isSuffix, h]

theorem isSuffix_of_isDigit {c : Char} (h : c.isDigit = true) : isSuffix c = true :=
  isSuffix_of_isNamePart (isNamePart_iff.mpr (.inr h))

theorem isSuffix_of_isHexDigit {c : Char} (h : isHexDigit c = true) : isSuffix c = true := by
  apply isSuffix_of_isNamePart
  rw [isNamePart_iff, isNameStart_iff]
  rcases isHexDigit_iff.mp h with h | h | h
  · exact .inr h
  · omega
  · omega

theorem isSuffix_of_isExponentLetter {c : Char} (h : c = 'e' ∨ c = 'E') : isSuffix c = true := by
  rcases h with rfl | rfl <;> rfl

/-! Reading a number ends where no letter, digit, underscore or point follows -/

section
variable {spelling rest rest' : List Char} {value : Option Value} {v : Value}

theorem delimited_of_runsOut (h : RunsOut isSuffix rest) : delimited spelling (some v) rest = .ok (v, rest) := by
  simp [delimited, h.takeWhile_eq_nil]

theorem delimited_sound (h : delimited spelling value rest = .ok (v, rest')) :
    value = some v ∧ rest' = rest ∧ RunsOut isSuffix rest := by
  unfold delimited at h
  split at h
  next hsuffix =>
    split at h
    · cases h
      exact ⟨rfl, rfl, runsOut_of_takeWhile_eq_nil hsuffix⟩
    · cases h
  · cases h

end

theorem hexValue?_eq_some {digits : List Char} {v : Value} :
    hexValue? digits = some v ↔
      digits ≠ [] ∧ digitsValue 16 digits < Nat.pow 2 64 ∧ v = .integer (Int64.ofNat (digitsValue 16 digits)) := by
  have hsize : UInt64.size = Nat.pow 2 64 := rfl
  simp only [hexValue?, hsize, Option.ite_none_left_eq_some, Bool.or_eq_true, List.isEmpty_iff, decide_eq_true_eq,
    not_or, Nat.not_le, and_assoc, Option.some.injEq, eq_comm (b := v), ne_eq]

theorem decimalValue?_eq_some {digits : List Char} {v : Value} :
    decimalValue? digits = some v ↔
      digitsValue 10 digits < Nat.pow 2 63 ∧ v = .integer (Int64.ofNat (digitsValue 10 digits)) := by
  have hmax : Int64.maxValue.toInt = (Nat.pow 2 63 : Nat) - 1 := by decide
  have hlt : ¬(Int64.maxValue.toInt < (digitsValue 10 digits : Int)) ↔ digitsValue 10 digits < Nat.pow 2 63 := by
    rw [hmax]
    omega
  simp only [decimalValue?, Option.ite_none_left_eq_some, hlt, Option.some.injEq, eq_comm (b := v)]

/-! The parts of a number of base ten -/

section
variable {cs point rest : List Char} {digits : Option (List Char)}

theorem Point.fraction_eq (h : Point point digits) (hrest : RunsOut (fun c => c.isDigit || c == '.') rest) :
    fraction (point ++ rest) = (digits, rest) := by
  cases h with
  | absent =>
    rw [List.nil_append]
    unfold fraction
    split
    next => exact absurd (runsOut_cons.mp hrest) (by decide)
    next => rfl
  | present hdigits =>
    have hend : RunsOut Char.isDigit rest := hrest.mono (fun c hc => by simp [hc])
    rw [List.cons_append, fraction, takeWhile_run hdigits hend, dropWhile_run hdigits hend]

theorem fraction_sound (h : fraction cs = (digits, rest)) : ∃ point, Point point digits ∧ cs = point ++ rest := by
  unfold fraction at h
  split at h
  next tail =>
    cases h
    exact ⟨_, .present fun c hc => of_mem_takeWhile hc, by rw [List.cons_append, List.takeWhile_append_dropWhile]⟩
  next =>
    cases h
    exact ⟨[], .absent, rfl⟩

end

def powerOf (negative : Bool) (digits : List Char) : Int :=
  if negative then -(digitsValue 10 digits : Int) else digitsValue 10 digits

section
variable {cs exponent letters digits rest : List Char} {power : Int} {negative : Bool}

theorem Exponent.exponentMark_eq (h : Exponent exponent (some power)) :
    ∃ letters negative digits, digits ≠ [] ∧ (∀ c ∈ digits, c.isDigit = true) ∧ exponent = letters ++ digits ∧
      power = powerOf negative digits ∧ ∀ rest, exponentMark (exponent ++ rest) = some (letters, negative, digits ++ rest) := by
  cases h with
  | @bare letter digits hletter hne hdigits =>
    refine ⟨[letter], false, digits, hne, hdigits, rfl, rfl, fun rest => ?_⟩
    obtain ⟨d, ds, rfl⟩ := List.exists_cons_of_ne_nil hne
    have hd : d.isDigit = true := hdigits d List.mem_cons_self
    have hplus : d ≠ '+' := by rintro rfl; exact absurd hd (by decide)
    have hminus : d ≠ '-' := by rintro rfl; exact absurd hd (by decide)
    simp [exponentMark, hletter, hplus, hminus]
  | @plus letter digits hletter hne hdigits =>
    exact ⟨[letter, '+'], false, digits, hne, hdigits, rfl, rfl, fun rest => by simp [exponentMark, hletter]⟩
  | @minus letter digits hletter hne hdigits =>
    exact ⟨[letter, '-'], true, digits, hne, hdigits, rfl, rfl, fun rest => by simp [exponentMark, hletter]⟩

theorem exponentMark_eq_none (h : RunsOut isSuffix rest) : exponentMark rest = none := by
  cases rest with
  | nil => rfl
  | cons c rest =>
    have hc : ¬(c = 'e' ∨ c = 'E') := fun hc => by
      have := runsOut_cons.mp h
      rw [isSuffix_of_isExponentLetter hc] at this
      cases this
    simp [exponentMark, not_or.mp hc]

theorem exponentMark_sound (h : exponentMark cs = some (letters, negative, rest)) :
    cs = letters ++ rest ∧ ∀ digits, digits ≠ [] → (∀ c ∈ digits, c.isDigit = true) →
      Exponent (letters ++ digits) (some (powerOf negative digits)) := by
  unfold exponentMark at h
  split at h
  next letter tail =>
    split at h
    next hletter =>
      have hletter : letter = 'e' ∨ letter = 'E' := by simpa using hletter
      split at h <;> cases h
      · exact ⟨rfl, fun digits hne hdigits => .plus hletter hne hdigits⟩
      · exact ⟨rfl, fun digits hne hdigits => .minus hletter hne hdigits⟩
      · exact ⟨rfl, fun digits hne hdigits => .bare hletter hne hdigits⟩
    · cases h
  · cases h

end

/-- The value of digits with an optional fraction and power of ten. Without either they must denote an integer. -/
def decimalValueOf? (whole : List Char) (digits : Option (List Char)) (power : Option Int) : Option Value :=
  if digits.isSome || power.isSome then some (floatValue whole (digits.getD []) (power.getD 0)) else decimalValue? whole

section
variable {p : Char → Bool} {cs whole point exponent rest : List Char} {digits : Option (List Char)} {power : Option Int}
  {v : Value}

theorem Point.runsOut (h : Point point digits) (hp : p '.' = false) (hrest : RunsOut p rest) :
    RunsOut p (point ++ rest) := by
  cases h with
  | absent => exact hrest
  | present => exact runsOut_cons.mpr hp

theorem Exponent.runsOut (h : Exponent exponent power) (hlower : p 'e' = false) (hupper : p 'E' = false)
    (hrest : RunsOut p rest) : RunsOut p (exponent ++ rest) := by
  cases h with
  | absent => exact hrest
  | bare hletter | plus hletter | minus hletter =>
    refine runsOut_cons.mpr ?_
    rcases hletter with rfl | rfl
    · exact hlower
    · exact hupper

theorem decimalNumber_of_parts (hwhole : ∀ c ∈ whole, c.isDigit = true) (hpoint : Point point digits)
    (hexponent : Exponent exponent power) (hrest : RunsOut isSuffix rest)
    (hv : decimalValueOf? whole digits power = some v) :
    decimalNumber (whole ++ (point ++ (exponent ++ rest))) = .ok (v, rest) := by
  have hdigits : RunsOut Char.isDigit rest := hrest.mono fun c => isSuffix_of_isDigit
  have hwholeEnds : RunsOut Char.isDigit (point ++ (exponent ++ rest)) :=
    hpoint.runsOut rfl (hexponent.runsOut rfl rfl hdigits)
  have hpointEnds : RunsOut (fun c => c.isDigit || c == '.') (exponent ++ rest) := by
    refine hexponent.runsOut rfl rfl (hrest.mono fun c hc => ?_)
    rcases Bool.or_eq_true _ _ ▸ hc with hc | hc
    · exact isSuffix_of_isDigit hc
    · simp [isSuffix, hc]
  simp only [decimalNumber, takeWhile_run hwhole hwholeEnds, dropWhile_run hwhole hwholeEnds,
    hpoint.fraction_eq hpointEnds]
  cases power with
  | none =>
    cases hexponent
    rw [List.nil_append, exponentMark_eq_none hrest]
    cases digits with
    | none =>
      have hv : decimalValue? whole = some v := hv
      simp only [hv, delimited_of_runsOut hrest]
    | some digits =>
      have hv : some (floatValue whole digits 0) = some v := hv
      simp only [hv, delimited_of_runsOut hrest]
  | some power =>
    obtain ⟨letters, negative, ds, hne, hds, -, rfl, hmark⟩ := hexponent.exponentMark_eq
    have hv : some (floatValue whole (digits.getD []) (powerOf negative ds)) = some v := by simpa [decimalValueOf?] using hv
    rw [powerOf] at hv
    simp only [hmark rest, takeWhile_run hds hdigits, dropWhile_run hds hdigits, List.isEmpty_iff, hne, if_false, hv,
      delimited_of_runsOut hrest]

theorem decimalNumber_sound (h : decimalNumber cs = .ok (v, rest)) :
    ∃ point exponent digits power, cs = cs.takeWhile Char.isDigit ++ (point ++ (exponent ++ rest)) ∧
      Point point digits ∧ Exponent exponent power ∧ RunsOut isSuffix rest ∧
      decimalValueOf? (cs.takeWhile Char.isDigit) digits power = some v := by
  have hcs : cs.takeWhile Char.isDigit ++ cs.dropWhile Char.isDigit = cs := List.takeWhile_append_dropWhile
  rcases hfraction : fraction (cs.dropWhile Char.isDigit) with ⟨digits, behind⟩
  obtain ⟨point, hpoint, hbehind⟩ := fraction_sound hfraction
  simp only [decimalNumber, hfraction] at h
  cases hmark : exponentMark behind with
  | none =>
    rw [hmark] at h
    obtain ⟨hv, rfl, hends⟩ := delimited_sound h
    refine ⟨point, [], digits, none, by rw [List.nil_append, ← hbehind, hcs], hpoint, .absent, hends, ?_⟩
    cases digits with
    | none => exact hv
    | some digits => exact hv
  | some mark =>
    obtain ⟨letters, negative, tail⟩ := mark
    obtain ⟨rfl, hexponent⟩ := exponentMark_sound hmark
    simp only [hmark] at h
    split at h
    · cases h
    next hne =>
      obtain ⟨hv, rfl, hends⟩ := delimited_sound h
      have hne : tail.takeWhile Char.isDigit ≠ [] := by simpa using hne
      refine ⟨point, letters ++ tail.takeWhile Char.isDigit, digits, some _, ?_, hpoint,
        hexponent _ hne fun c hc => of_mem_takeWhile hc, hends, ?_⟩
      · rw [List.append_assoc letters, List.takeWhile_append_dropWhile, ← hbehind, hcs]
      · simpa [decimalValueOf?, powerOf] using hv

end

/-! Reading -/

section
variable {cs lexeme whole rest : List Char} {v : Value}

theorem readNumber_of_digits (hne : whole ≠ []) (hwhole : ∀ c ∈ whole, c.isDigit = true)
    (hrest : RunsOut (fun c => c == 'x' || c == 'X') rest) : readNumber (whole ++ rest) = decimalNumber (whole ++ rest) := by
  -- Behind a digit stands another digit, or the rest; neither is the mark of base sixteen.
  have hmark : ∀ d mark tail, whole ++ rest = d :: mark :: tail → (mark == 'x' || mark == 'X') = false := by
    intro d mark tail h
    cases whole with
    | nil => exact absurd rfl hne
    | cons c cs =>
      cases cs with
      | nil =>
        obtain ⟨-, rfl⟩ := List.cons.inj h
        exact runsOut_cons.mp hrest
      | cons c' cs =>
        obtain ⟨-, h⟩ := List.cons.inj h
        obtain ⟨rfl, -⟩ := List.cons.inj h
        have hdigit : c'.isDigit = true := hwhole c' (by simp)
        cases hx : (c' == 'x' || c' == 'X') with
        | false => rfl
        | true => rcases Bool.or_eq_true _ _ ▸ hx with hx | hx <;> exact absurd hdigit (by rw [eq_of_beq hx]; decide)
  unfold readNumber
  split
  next tail h => exact absurd (hmark _ _ _ h) (by decide)
  next tail h => exact absurd (hmark _ _ _ h) (by decide)
  next => rfl

theorem hexNumber_eq_ok {opening : List Char} :
    hexNumber opening cs = .ok (v, rest) ↔ ∃ digits, digits ≠ [] ∧ (∀ c ∈ digits, isHexDigit c = true) ∧
      digitsValue 16 digits < Nat.pow 2 64 ∧ v = .integer (Int64.ofNat (digitsValue 16 digits)) ∧
      cs = digits ++ rest ∧ RunsOut isSuffix rest := by
  constructor
  · intro h
    obtain ⟨hv, rfl, hends⟩ := delimited_sound h
    obtain ⟨hne, hlt, hv⟩ := hexValue?_eq_some.mp hv
    exact ⟨_, hne, fun c hc => of_mem_takeWhile hc, hlt, hv, List.takeWhile_append_dropWhile.symm, hends⟩
  · rintro ⟨digits, hne, hdigits, hlt, rfl, rfl, hends⟩
    have hhex : RunsOut isHexDigit rest := hends.mono fun c => isSuffix_of_isHexDigit
    rw [hexNumber, takeWhile_run hdigits hhex, dropWhile_run hdigits hhex, hexValue?_eq_some.mpr ⟨hne, hlt, rfl⟩]
    exact delimited_of_runsOut hends

theorem Numeral.readNumber_eq (h : Numeral lexeme v) (hrest : RunsOut isSuffix rest) :
    readNumber (lexeme ++ rest) = .ok (v, rest) := by
  have hx : RunsOut (fun c => c == 'x' || c == 'X') rest := hrest.mono fun c hc => by
    rcases Bool.or_eq_true _ _ ▸ hc with hc | hc <;> rw [eq_of_beq hc] <;> rfl
  cases h with
  | @hex mark digits hmark hne hdigits hlt =>
    have hread (opening : List Char) :
        hexNumber opening (digits ++ rest) = .ok (.integer (Int64.ofNat (digitsValue 16 digits)), rest) :=
      hexNumber_eq_ok.mpr ⟨digits, hne, hdigits, hlt, rfl, rfl, hrest⟩
    rcases hmark with rfl | rfl
    · exact hread _
    · exact hread _
  | decimal hne hdigits hlt =>
    rw [readNumber_of_digits hne hdigits hx]
    exact decimalNumber_of_parts hdigits .absent .absent hrest (decimalValue?_eq_some.mpr ⟨hlt, rfl⟩)
  | float hne hwhole hpoint hexponent hfloat =>
    rw [List.append_assoc, List.append_assoc,
      readNumber_of_digits hne hwhole (hpoint.runsOut rfl (hexponent.runsOut rfl rfl hx))]
    refine decimalNumber_of_parts hwhole hpoint hexponent hrest ?_
    rw [decimalValueOf?, if_pos (by simpa using hfloat)]
    rfl

theorem readNumber_sound (hdigit : ∃ c ∈ cs.head?, c.isDigit = true) (h : readNumber cs = .ok (v, rest)) :
    ∃ lexeme, cs = lexeme ++ rest ∧ Numeral lexeme v ∧ RunsOut isSuffix rest := by
  unfold readNumber at h
  split at h
  · obtain ⟨digits, hne, hdigits, hlt, rfl, rfl, hends⟩ := hexNumber_eq_ok.mp h
    exact ⟨'0' :: 'x' :: digits, rfl, .hex (.inl rfl) hne hdigits hlt, hends⟩
  · obtain ⟨digits, hne, hdigits, hlt, rfl, rfl, hends⟩ := hexNumber_eq_ok.mp h
    exact ⟨'0' :: 'X' :: digits, rfl, .hex (.inr rfl) hne hdigits hlt, hends⟩
  · obtain ⟨point, exponent, digits, power, hcs, hpoint, hexponent, hends, hv⟩ := decimalNumber_sound h
    have hwhole : ∀ c ∈ cs.takeWhile Char.isDigit, c.isDigit = true := fun c hc => of_mem_takeWhile hc
    have hne : cs.takeWhile Char.isDigit ≠ [] := by
      obtain ⟨c, hc, hdigit⟩ := hdigit
      cases cs with
      | nil => cases hc
      | cons c' cs =>
        cases hc
        simp [hdigit]
    refine ⟨cs.takeWhile Char.isDigit ++ (point ++ exponent), by simpa using hcs, ?_, hends⟩
    rw [decimalValueOf?] at hv
    split at hv
    next hfloat =>
      cases hv
      exact .float hne hwhole hpoint hexponent (by simpa using hfloat)
    next hfloat =>
      obtain ⟨hlt, rfl⟩ := decimalValue?_eq_some.mp hv
      cases hpoint with
      | present => exact absurd rfl hfloat
      | absent =>
        cases hexponent with
        | absent => simpa using Numeral.decimal hne hwhole hlt
        | bare | plus | minus => exact absurd rfl hfloat

end

/-! The digits of a number are a numeral -/

theorem numeral_toDigits {n : Nat} (h : n < Nat.pow 2 63) : Numeral (Nat.toDigits 10 n) (.integer (Int64.ofNat n)) := by
  have hdigits : ∀ c ∈ Nat.toDigits 10 n, c.isDigit = true := fun c hc =>
    Nat.isDigit_of_mem_toDigits (by decide) (by decide) hc
  have hvalue : digitsValue 10 (Nat.toDigits 10 n) = n := digitsValue_toDigits (by decide) (by decide) n
  have hnumeral := Numeral.decimal Nat.toDigits_ne_nil hdigits (hvalue.symm ▸ h)
  rw [hvalue] at hnumeral
  exact hnumeral

end EventTrace
