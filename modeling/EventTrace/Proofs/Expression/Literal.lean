import EventTrace.Proofs.Expression.Field
import EventTrace.Template.Directive
/-! Integers written as literals. Main statement: the digits of base sixteen that a directive shows for an integer stand for
it wherever a literal can stand, and so do the digits of base ten, but for the least integer: its digits are read before
its sign, and without the sign they are too large. -/
namespace EventTrace

open Text

/-! Digits of base sixteen in either case -/

namespace Text

/-- Digits of base sixteen for a number: any zeros in front, and letters in either case. -/
def SpellsHex (n : Nat) (digits : List Char) : Prop :=
  ∃ zeros, digits.map Char.toLower = List.replicate zeros '0' ++ Nat.toDigits 16 n

variable {c : Char} {n : Nat} {digits : List Char}

theorem isHexDigit_of_isSmallDigit (h : isSmallDigit c = true) : isHexDigit c = true := by
  rw [isHexDigit, ← isSmallDigit, h, Bool.true_or]

/-- A capital letter and its small one are the same digit, if they are one at all. -/
theorem capital_cases : ∀ n ∈ List.range' 65 26, isSmallDigit (Char.ofNat n).toLower = true →
    isHexDigit (Char.ofNat n) = true ∧ hexValue (Char.ofNat n) = hexValue (Char.ofNat n).toLower := by decide

theorem of_isSmallDigit_toLower (h : isSmallDigit c.toLower = true) :
    isHexDigit c = true ∧ hexValue c = hexValue c.toLower := by
  by_cases hcapital : 'A'.val ≤ c.val ∧ c.val ≤ 'Z'.val
  · have hrange : c.toNat ∈ List.range' 65 26 := by
      have hlow : 65 ≤ c.toNat := UInt32.le_iff_toNat_le.mp hcapital.1
      have hhigh : c.toNat ≤ 90 := UInt32.le_iff_toNat_le.mp hcapital.2
      rw [List.mem_range'_1]
      omega
    have hcases := capital_cases c.toNat hrange
    rw [Char.ofNat_toNat] at hcases
    exact hcases h
  · have hlower : c.toLower = c := dif_neg hcapital
    rw [hlower] at h ⊢
    exact ⟨isHexDigit_of_isSmallDigit h, rfl⟩

theorem SpellsHex.isSmallDigit (h : SpellsHex n digits) : ∀ c ∈ digits, isSmallDigit c.toLower = true := by
  obtain ⟨zeros, hdigits⟩ := h
  intro c hc
  have hmem : c.toLower ∈ List.replicate zeros '0' ++ Nat.toDigits 16 n := hdigits ▸ List.mem_map_of_mem hc
  rcases List.mem_append.mp hmem with hmem | hmem
  · rw [List.eq_of_mem_replicate hmem]
    rfl
  · exact isSmallDigit_of_mem_toDigits (by decide) (by decide) hmem

theorem SpellsHex.ne_nil (h : SpellsHex n digits) : digits ≠ [] := by
  rintro rfl
  obtain ⟨zeros, hdigits⟩ := h
  exact Nat.toDigits_ne_nil (List.append_eq_nil_iff.mp hdigits.symm).2

theorem digitsValue_map (b : Nat) (f : Char → Char) (h : ∀ c ∈ digits, hexValue c = hexValue (f c)) :
    digitsValue b (digits.map f) = digitsValue b digits := by
  have hfold (n : Nat) : (digits.map f).foldl (fun n c => b * n + hexValue c) n =
      digits.foldl (fun n c => b * n + hexValue c) n := by
    induction digits generalizing n with
    | nil => rfl
    | cons c cs ih =>
      obtain ⟨hc, hcs⟩ := List.forall_mem_cons.mp h
      rw [List.map_cons, List.foldl_cons, List.foldl_cons, ← hc, ih hcs]
  exact hfold 0

theorem SpellsHex.digitsValue_eq (h : SpellsHex n digits) : digitsValue 16 digits = n := by
  have hsame : ∀ c ∈ digits, hexValue c = hexValue c.toLower := fun c hc => (of_isSmallDigit_toLower (h.isSmallDigit c hc)).2
  obtain ⟨zeros, hdigits⟩ := h
  rw [← digitsValue_map 16 Char.toLower hsame, hdigits, digitsValue_replicate_append,
    digitsValue_toDigits (by decide) (by decide)]

theorem toLower_of_isSmallDigit (h : isSmallDigit c = true) : c.toLower = c := by
  refine dif_neg fun hcapital => ?_
  have hlow : 65 ≤ c.toNat := UInt32.le_iff_toNat_le.mp hcapital.1
  have hhigh : c.toNat ≤ 90 := UInt32.le_iff_toNat_le.mp hcapital.2
  simp only [isSmallDigit, Bool.or_eq_true, isDigit_iff, Bool.and_eq_true, decide_eq_true_eq, Char.le_def,
    UInt32.le_iff_toNat_le] at h
  rcases h with h | h
  · omega
  · have hletter : 97 ≤ c.toNat := h.1
    omega

/-- The digits that are shown of a number spell it. -/
theorem spellsHex_hex (width n : Nat) : SpellsHex n (hex width n) := by
  have hlower : (hex width n).map Char.toLower = hex width n := by
    rw [List.map_congr_left fun c hc => toLower_of_isSmallDigit (isSmallDigit_of_mem_hex hc), List.map_id']
  exact ⟨width - (Nat.toDigits 16 n).length, hlower⟩

end Text

theorem Numeral.ofSpellsHex {n : Nat} {digits : List Char} (h : SpellsHex n digits) (hn : n < Nat.pow 2 64) :
    Numeral ('0' :: 'x' :: digits) (.integer (Int64.ofNat n)) := by
  have hvalue := h.digitsValue_eq
  have hnumeral := Numeral.hex (.inl rfl) h.ne_nil (fun c hc => (of_isSmallDigit_toLower (h.isSmallDigit c hc)).1)
    (hvalue.symm ▸ hn)
  rwa [hvalue] at hnumeral

/-! What a literal stands for -/

section
variable {cs rest text : List Char} {ts us : List Token}

theorem lexed_append_of_blank {blanks : List Char} (hblanks : ∀ c ∈ blanks, isBlank c = true) (h : Lexed cs ts) :
    Lexed (blanks ++ cs) ts := by
  cases ts with
  | nil => exact lexed_nil.mpr (List.forall_mem_append.mpr ⟨hblanks, lexed_nil.mp h⟩)
  | cons t ts =>
    obtain ⟨blanks', lexeme, rest, rfl, hblanks', hspelled, hends, hrest⟩ := lexed_cons.mp h
    rw [← List.append_assoc]
    exact .token (List.forall_mem_append.mpr ⟨hblanks, hblanks'⟩) hspelled hends hrest

/-- Tokens behind tokens, if they do not continue any of them. -/
theorem Lexed.append (h : Lexed cs ts) (hends : ∀ t ∈ ts, t.EndsBefore rest) (hrest : Lexed rest us) :
    Lexed (cs ++ rest) (ts ++ us) := by
  induction h with
  | blank hblanks => exact lexed_append_of_blank hblanks hrest
  | token hblanks hspelled hbefore hlexed ih =>
    obtain ⟨ht, hts⟩ := List.forall_mem_cons.mp hends
    rw [List.append_assoc, List.append_assoc]
    exact .token hblanks hspelled (hbefore.append ht) (ih hts)

theorem Token.endsBefore_plus (t : Token) : t.EndsBefore ('+' :: rest) := by
  cases t with
  | name => exact runsOut_cons.mpr rfl
  | number => exact runsOut_cons.mpr rfl
  | mark => trivial

/-- A literal behind a plus sign is added to the term in front. -/
theorem Parsed.plus {source literal : String} {t : Term} {v : Value} (h : Parsed source t none) (hliteral : Literal us v)
    (hlexed : Lexed literal.toList us) : Parsed (source ++ "+" ++ literal) t (some v) := by
  obtain ⟨ts, bs, hterm, hbias, hsource⟩ := h
  cases hbias
  have hplus : Lexed ([] ++ (['+'] ++ literal.toList)) (.mark .plus :: us) := .token (by simp) .plus trivial hlexed
  have hlexed := hsource.append (fun t _ => t.endsBefore_plus) hplus
  refine ⟨ts, .mark .plus :: us, hterm, .some hliteral, ?_⟩
  simpa using hlexed

end

/-- A text that stands for an integer wherever an expression can have a literal: alone, behind a term that it is added to,
and as the offset of a member. -/
structure StandsFor (text : String) (n : Int64) : Prop where
  alone : ∀ (ctx : Context) (levels : Nat), ctx.evaluateWithin (levels + 1) text = .ok (.integer n)
  added : ∀ (ctx : Context) (levels : Nat) (source : String) (t : Term), Parsed source t none →
    ctx.evaluateWithin (levels + 1) (source ++ "+" ++ text) =
      (ctx.evaluateWithin (levels + 1) source).map (·.add (.integer n))
  offset : ∀ (ctx : Context) (levels : Nat) (m : Member), m.offset = text → m.OffsetIs ctx (levels + 1) n.toInt

theorem standsFor_of_lexed {text : String} {n : Int64} {ts : List Token} (hliteral : Literal ts (.integer n))
    (hlexed : Lexed text.toList ts) : StandsFor text n := by
  have halone (ctx : Context) (levels : Nat) : ctx.evaluateWithin (levels + 1) text = .ok (.integer n) := by
    rw [Context.evaluateWithin_of_parsed ⟨ts, [], .literal hliteral, .none, by rwa [List.append_nil]⟩]
    rfl
  refine ⟨halone, fun ctx levels source t hparsed => ?_, fun ctx levels m hoffset => ?_⟩
  · rw [Context.evaluateWithin_of_parsed (hparsed.plus hliteral hlexed), Context.evaluateWithin_of_parsed hparsed]
    cases ctx.term (ctx.evaluateWithin levels) t <;> rfl
  · exact .evaluated (hoffset ▸ halone ctx levels)

/-! Integers -/

theorem ofNat_toNat_bits (n : Int64) : Int64.ofNat n.toUInt64.toNat = n := by
  have hbits : n.toUInt64.toNat = n.toBitVec.toNat := rfl
  rw [hbits, ← Int64.toBitVec_inj, Int64.toBitVec_ofNat', BitVec.ofNat_toNat, BitVec.setWidth_eq]

theorem standsFor_hex {n : Int64} {digits : List Char} (h : SpellsHex n.toUInt64.toNat digits) :
    StandsFor ("0x" ++ String.ofList digits) n := by
  have hnumeral := Numeral.ofSpellsHex h n.toUInt64.toNat_lt
  rw [ofNat_toNat_bits] at hnumeral
  refine standsFor_of_lexed (.bare _) ?_
  simp only [String.toList_append, String.toList_ofList]
  exact lexed_single (.number hnumeral)

/-- The digits of every integer but the least: those of the others are in range without the sign too. -/
theorem standsFor_decimal {n : Int64} (h : n ≠ Int64.minValue) : StandsFor (toString n.toInt) n := by
  have hlow : -Nat.pow 2 63 < n.toInt := by
    have hmin : Int64.minValue.toInt = -(Nat.pow 2 63 : Nat) := by decide
    have hle := n.minValue_le_toInt
    have hne : n.toInt ≠ Int64.minValue.toInt := fun heq => h (Int64.toInt_inj.mp heq)
    omega
  have hhigh : n.toInt < Nat.pow 2 63 := n.toInt_lt
  have htext : toString n.toInt = n.toInt.repr := rfl
  rw [htext, Int.repr_eq_if]
  split
  next hnonneg =>
    have hvalue : Int64.ofNat n.toInt.toNat = n := by
      rw [← Int64.ofInt_eq_ofNat, Int.toNat_of_nonneg hnonneg, Int64.ofInt_toInt]
    have hnumeral := numeral_toDigits (n := n.toInt.toNat) (by omega)
    rw [hvalue] at hnumeral
    refine standsFor_of_lexed (.bare _) ?_
    rw [Nat.repr_eq_ofList_toDigits, String.toList_ofList]
    exact lexed_single (.number hnumeral)
  next hneg =>
    have hvalue : -Int64.ofNat (-n.toInt).toNat = n := by
      rw [← Int64.ofInt_eq_ofNat, Int.toNat_of_nonneg (by omega), Int64.ofInt_neg, Int64.ofInt_toInt, Int64.neg_neg]
    have hnumeral := numeral_toDigits (n := (-n.toInt).toNat) (by omega)
    have hliteral : Literal _ (.integer (-Int64.ofNat (-n.toInt).toNat)) := .negated (.integer (Int64.ofNat (-n.toInt).toNat))
    rw [hvalue] at hliteral
    refine standsFor_of_lexed hliteral ?_
    simp only [String.toList_append, Nat.repr_eq_ofList_toDigits, String.toList_ofList]
    have hlexed : Lexed ([] ++ (['-'] ++ Nat.toDigits 10 (-n.toInt).toNat)) _ :=
      .token (by simp) .minus trivial (lexed_single (.number hnumeral))
    exact hlexed

/-- The least integer has digits that are no number without the sign. -/
theorem evaluateWithin_least (ctx : Context) (levels : Nat) : ctx.evaluateWithin (levels + 1) (toString Int64.minValue.toInt) =
    .error (.form (.malformedLiteral "9223372036854775808")) := rfl

/-- The digits of base ten of an integer stand for it exactly if it is not the least, of which the digits are refused. Its
bits in digits of base sixteen always do, with capital or small letters and any zeros in front. So what the directives for
signed numbers and for bits show can be written back, but for the digits of the least integer. -/
theorem integers_read_back (n : Int64) :
    (StandsFor (toString n.toInt) n ↔ n ≠ Int64.minValue) ∧
    (n = Int64.minValue → ∀ (ctx : Context) (levels : Nat), ctx.evaluateWithin (levels + 1) (toString n.toInt) =
      .error (.form (.malformedLiteral "9223372036854775808"))) ∧
    (∀ digits, SpellsHex n.toUInt64.toNat digits → StandsFor ("0x" ++ String.ofList digits) n) ∧
    ∀ (resolver : Resolver) (v : Value),
      (v.toInt64 = n → ∃ text, Directive.signed.render resolver v = .ok text ∧ (StandsFor text n ↔ n ≠ Int64.minValue)) ∧
      (v.toUInt64 = n.toUInt64 → ∃ text, Directive.hex.render resolver v = .ok text ∧ StandsFor text n) := by
  have hdecimal : StandsFor (toString n.toInt) n ↔ n ≠ Int64.minValue := by
    refine ⟨?_, standsFor_decimal⟩
    rintro h rfl
    cases (evaluateWithin_least {} 0).symm.trans (h.alone {} 0)
  refine ⟨hdecimal, ?_, fun digits => standsFor_hex, fun resolver v => ⟨?_, fun hbits => ?_⟩⟩
  · rintro rfl
    exact evaluateWithin_least
  · rintro rfl
    exact ⟨_, rfl, hdecimal⟩
  · refine ⟨_, rfl, ?_⟩
    rw [hbits]
    exact standsFor_hex (spellsHex_hex 2 _)

/-- A negative integer in base sixteen, with capital letters and a zero in front, and in base ten. -/
theorem integers_read_back_of_negative :
    SpellsHex (-255 : Int64).toUInt64.toNat "0FFFFFFFFFFFFFF01".toList ∧ StandsFor "0x0FFFFFFFFFFFFFF01" (-255) ∧
      Value.toInt64 (.integer (-255)) = -255 ∧ StandsFor "-255" (-255) := by
  have hspells : SpellsHex (-255 : Int64).toUInt64.toNat "0FFFFFFFFFFFFFF01".toList := ⟨1, by decide⟩
  obtain ⟨-, -, hhex, hshown⟩ := integers_read_back (-255)
  obtain ⟨text, htext, hiff⟩ := (hshown .none (.integer (-255))).1 rfl
  obtain rfl : "-255" = text := Except.ok.inj htext
  exact ⟨hspells, hhex _ hspells, rfl, hiff.mpr (by decide)⟩

/-- The least integer is shown by digits that are refused, though its bits are read. -/
theorem least_integer_refused :
    Directive.signed.render .none (.integer Int64.minValue) = .ok "-9223372036854775808" ∧
      Context.evaluate {} "-9223372036854775808" = .error (.form (.malformedLiteral "9223372036854775808")) ∧
      Context.evaluate {} "0x8000000000000000" = .ok (.integer Int64.minValue) ∧
      Context.evaluate {} "-0x8000000000000000" = .ok (.integer Int64.minValue) := by
  exact ⟨rfl, rfl, rfl, rfl⟩

end EventTrace
