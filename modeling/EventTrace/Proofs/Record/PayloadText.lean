import EventTrace.Record.Basic
import EventTrace.Proofs.Text.Digits
import Mathlib.Data.List.Basic
import Mathlib.Data.List.Induction
/-! The text of a payload, which is shown of records that have no definition, and its reading. Main results: a text is read
as a payload exactly if it is what is written for it, so that different payloads have different texts. -/
namespace EventTrace

/-! Digits of base sixteen at the front of a text -/

namespace Text

variable {c : Char} {cs rest xs ys digits : List Char} {width n : Nat}

theorem smallDigit_cases : ∀ n ∈ List.range' 48 55, isSmallDigit (Char.ofNat n) = true →
    hexValue (Char.ofNat n) < 16 ∧ Nat.digitChar (hexValue (Char.ofNat n)) = Char.ofNat n := by decide

theorem mem_range_of_isSmallDigit (h : isSmallDigit c = true) : c.toNat ∈ List.range' 48 55 := by
  have hlow := le_of_isSmallDigit h
  have hhigh : c.toNat ≤ 102 := by
    simp only [isSmallDigit, Char.isDigit, Bool.or_eq_true, Bool.and_eq_true, decide_eq_true_eq] at h
    rcases h with h | h
    · exact Nat.le_trans h.2 (by decide)
    · exact h.2
  rw [List.mem_range'_1]
  omega

/-- A digit is known by its value. -/
theorem digitChar_hexValue (h : isSmallDigit c = true) : hexValue c < 16 ∧ Nat.digitChar (hexValue c) = c := by
  have hcases := smallDigit_cases c.toNat (mem_range_of_isSmallDigit h)
  rw [Char.ofNat_toNat] at hcases
  exact hcases h

theorem forall_smallDigit {P : Char → Prop} (h : ∀ d < 16, P (Nat.digitChar d)) (hc : isSmallDigit c = true) : P c := by
  obtain ⟨hlt, hchar⟩ := digitChar_hexValue hc
  exact hchar ▸ h _ hlt

/-- Digits are known by their number and their value. -/
theorem eq_of_digitsValue_eq (hlength : xs.length = ys.length) (hxs : ∀ c ∈ xs, isSmallDigit c = true)
    (hys : ∀ c ∈ ys, isSmallDigit c = true) (h : digitsValue 16 xs = digitsValue 16 ys) : xs = ys := by
  induction xs using List.reverseRecOn generalizing ys with
  | nil => exact (List.eq_nil_of_length_eq_zero hlength.symm).symm
  | append_singleton xs c ih =>
    rcases List.eq_nil_or_concat' ys with rfl | ⟨ys, d, rfl⟩
    · simp at hlength
    · simp only [List.forall_mem_append, List.forall_mem_singleton] at hxs hys
      obtain ⟨hc, hchar⟩ := digitChar_hexValue hxs.2
      obtain ⟨hd, hchar'⟩ := digitChar_hexValue hys.2
      rw [digitsValue_concat, digitsValue_concat] at h
      have hfront : digitsValue 16 xs = digitsValue 16 ys := by omega
      have hlast : hexValue c = hexValue d := by omega
      rw [ih (by simpa using hlength) hxs.1 hys.1 hfront, ← hchar, ← hchar', hlast]

/-- A number has one spelling of a given width. -/
theorem isHexOf_iff (hwidth : 0 < width) : IsHexOf width n digits ↔ n < Nat.pow 16 width ∧ digits = hex width n := by
  constructor
  · rintro ⟨rfl, hdigits, rfl⟩
    have hn : digitsValue 16 digits < Nat.pow 16 digits.length :=
      digitsValue_lt fun c hc => (digitChar_hexValue (hdigits c hc)).1
    obtain ⟨hlength, hdigits', hvalue⟩ := isHexOf_hex hwidth hn
    exact ⟨hn, eq_of_digitsValue_eq hlength.symm hdigits hdigits' hvalue.symm⟩
  · rintro ⟨hn, rfl⟩
    exact isHexOf_hex hwidth hn

def readHex? (width : Nat) (cs : List Char) : Option (Nat × List Char) :=
  if (cs.take width).length = width ∧ (cs.take width).all isSmallDigit then
    some (digitsValue 16 (cs.take width), cs.drop width)
  else none

theorem readHex?_eq_some_iff (hwidth : 0 < width) :
    readHex? width cs = some (n, rest) ↔ n < Nat.pow 16 width ∧ cs = hex width n ++ rest := by
  rw [readHex?]
  constructor
  · intro h
    split at h
    next hdigits =>
      obtain ⟨rfl, rfl⟩ := Prod.mk.inj (Option.some.inj h)
      obtain ⟨hn, hspelled⟩ := (isHexOf_iff hwidth).mp ⟨hdigits.1, List.all_eq_true.mp hdigits.2, rfl⟩
      refine ⟨hn, ?_⟩
      rw [← hspelled, List.take_append_drop]
    next => cases h
  · rintro ⟨hn, rfl⟩
    obtain ⟨hlength, hdigits, hvalue⟩ := isHexOf_hex hwidth hn
    have htake : (hex width n ++ rest).take width = hex width n := List.take_left' hlength
    have hdrop : (hex width n ++ rest).drop width = rest := List.drop_left' hlength
    rw [htake, hdrop, hvalue, if_pos ⟨hlength, List.all_eq_true.mpr hdigits⟩]

end Text

namespace Payload

open Text

variable {p q : Payload} {s : String} {cs rest : List Char}

/-- The payload apart from the tag of another type. A record of such a type carries nothing, and its tag is that of the
record. -/
def bare : Payload → Payload
  | .other _ => .other 0
  | p => p

theorem bare_bare (p : Payload) : p.bare.bare = p.bare := by cases p <;> rfl

theorem text_bare (p : Payload) : p.bare.text = p.text := by cases p <;> rfl

/-! The bytes of a blob -/

def readBytes? : List Char → Option (List UInt8)
  | [] => some []
  | [_] => none
  | high :: low :: rest =>
    match readHex? 2 [high, low] with
    | some (n, _) => (readBytes? rest).map (UInt8.ofNat n :: ·)
    | none => none

theorem readBytes?_hex (b : UInt8) (rest : List Char) :
    readBytes? (hex 2 b.toNat ++ rest) = (readBytes? rest).map (b :: ·) := by
  have hb : b.toNat < Nat.pow 16 2 := b.toNat_lt
  obtain ⟨high, low, hpair⟩ := List.length_eq_two.mp (length_hex (by decide) hb)
  have hread : readHex? 2 [high, low] = some (b.toNat, []) := by
    rw [readHex?_eq_some_iff (by decide), List.append_nil, hpair]
    exact ⟨hb, rfl⟩
  rw [hpair, List.cons_append, List.singleton_append, readBytes?, hread]
  simp

theorem readBytes?_eq_some_iff {bytes : List UInt8} :
    readBytes? cs = some bytes ↔ cs = bytes.flatMap fun b => hex 2 b.toNat := by
  constructor
  · intro h
    fun_induction readBytes? cs generalizing bytes with
    | case1 =>
      obtain rfl := Option.some.inj h
      rfl
    | case2 => cases h
    | case3 high low rest n left hread ih =>
      obtain ⟨bytes, hbytes, rfl⟩ := Option.map_eq_some_iff.mp h
      obtain ⟨hn, hpair⟩ := (readHex?_eq_some_iff (by decide)).mp hread
      have hleft : left = [] := by
        have hlength := congrArg List.length hpair
        rw [List.length_append, length_hex (by decide) hn] at hlength
        exact List.eq_nil_of_length_eq_zero (by simpa using hlength)
      rw [hleft, List.append_nil] at hpair
      rw [List.flatMap_cons, UInt8.toNat_ofNat_of_lt' hn, ← hpair, ← ih hbytes]
      rfl
    | case4 => cases h
  · rintro rfl
    induction bytes with
    | nil => rfl
    | cons b bytes ih => rw [List.flatMap_cons, readBytes?_hex, ih]; rfl

/-! Words under their names -/

def readWord? (name : String) (cs : List Char) : Option (UInt32 × List Char) :=
  match (name ++ "=0x").toList.isPrefixOf? cs with
  | some digits => (readHex? 8 digits).map fun read => (UInt32.ofNat read.1, read.2)
  | none => none

def readWords? : List Operand → List Char → Option (List UInt32)
  | [], _ => none
  | o :: os, cs =>
    match readWord? o.name cs with
    | none => none
    | some (w, rest) =>
      if rest = [] then some [w]
      else match ", ".toList.isPrefixOf? rest with
        | some more => (readWords? os more).map (w :: ·)
        | none => none

def wordsText (os : List Operand) (ws : List UInt32) : String :=
  ", ".intercalate (os.zipWith (fun o w => wordText o.name w) ws)

theorem readWord?_eq_some_iff {name : String} {w : UInt32} :
    readWord? name cs = some (w, rest) ↔ cs = (wordText name w).toList ++ rest := by
  have hword : (wordText name w).toList = (name ++ "=0x").toList ++ hex 8 w.toNat := by
    rw [wordText, String.toList_append, String.toList_ofList]
  rw [readWord?, hword, List.append_assoc]
  constructor
  · intro h
    split at h
    next digits hdigits =>
      obtain ⟨⟨n, left⟩, hread, hpair⟩ := Option.map_eq_some_iff.mp h
      obtain ⟨rfl, rfl⟩ := Prod.mk.inj hpair
      obtain ⟨hn, rfl⟩ := (readHex?_eq_some_iff (by decide)).mp hread
      rw [UInt32.toNat_ofNat_of_lt' hn]
      exact (List.isPrefixOf?_eq_some_iff_append_eq.mp hdigits).symm
    next => cases h
  · rintro rfl
    have hdigits := List.isPrefixOf?_eq_some_iff_append_eq.mpr (rfl : (name ++ "=0x").toList ++ (hex 8 w.toNat ++ rest) = _)
    have hread : readHex? 8 (hex 8 w.toNat ++ rest) = some (w.toNat, rest) :=
      (readHex?_eq_some_iff (by decide)).mpr ⟨w.toNat_lt, rfl⟩
    rw [hdigits]
    simp [hread]

theorem wordsText_cons (o o' : Operand) (os : List Operand) (w w' : UInt32) (ws : List UInt32) :
    wordsText (o :: o' :: os) (w :: w' :: ws) = wordText o.name w ++ ", " ++ wordsText (o' :: os) (w' :: ws) :=
  String.intercalate_cons_cons ..

theorem wordsText_singleton (o : Operand) (os : List Operand) (w : UInt32) :
    wordsText (o :: os) [w] = wordText o.name w := by
  rw [wordsText, List.zipWith_cons_cons, List.zipWith_nil_right, String.intercalate_singleton]

theorem readWords?_eq_some_iff {os : List Operand} {ws : List UInt32} : readWords? os cs = some ws ↔
    ws ≠ [] ∧ ws.length ≤ os.length ∧ cs = (wordsText os ws).toList := by
  induction os generalizing cs ws with
  | nil => cases ws <;> simp [readWords?]
  | cons o os ih =>
    rw [readWords?]
    constructor
    · intro h
      split at h
      next => cases h
      next w rest hword =>
        have hcs := readWord?_eq_some_iff.mp hword
        split at h
        next hrest =>
          obtain rfl := Option.some.inj h
          rw [hrest, List.append_nil] at hcs
          exact ⟨List.cons_ne_nil _ _, by simp, by rw [wordsText_singleton, hcs]⟩
        next =>
          split at h
          next more hmore =>
            obtain ⟨ws, hws, rfl⟩ := Option.map_eq_some_iff.mp h
            obtain ⟨hne, hlength, rfl⟩ := ih.mp hws
            refine ⟨List.cons_ne_nil _ _, by simpa using hlength, ?_⟩
            obtain ⟨w', ws, rfl⟩ := List.exists_cons_of_ne_nil hne
            obtain ⟨o', os, rfl⟩ := List.exists_cons_of_length_pos (Nat.lt_of_lt_of_le (by simp) hlength)
            rw [hcs, ← List.isPrefixOf?_eq_some_iff_append_eq.mp hmore, wordsText_cons, String.toList_append,
              String.toList_append, List.append_assoc]
          next => cases h
    · rintro ⟨hne, hlength, rfl⟩
      obtain ⟨w, ws, rfl⟩ := List.exists_cons_of_ne_nil hne
      cases ws with
      | nil =>
        have hword : readWord? o.name (wordText o.name w).toList = some (w, []) :=
          readWord?_eq_some_iff.mpr (List.append_nil _).symm
        rw [wordsText_singleton, hword]
        rfl
      | cons w' ws =>
        obtain ⟨o', os, rfl⟩ := List.exists_cons_of_length_pos (l := os) (by simp at hlength; omega)
        have hmore : readWords? (o' :: os) (wordsText (o' :: os) (w' :: ws)).toList = some (w' :: ws) :=
          ih.mpr ⟨List.cons_ne_nil _ _, by simpa using hlength, rfl⟩
        have hcs : (wordsText (o :: o' :: os) (w :: w' :: ws)).toList =
            (wordText o.name w).toList ++ (", ".toList ++ (wordsText (o' :: os) (w' :: ws)).toList) := by
          rw [wordsText_cons, String.toList_append, String.toList_append, List.append_assoc]
        rw [hcs, readWord?_eq_some_iff.mpr rfl]
        have hcomma := List.isPrefixOf?_eq_some_iff_append_eq.mpr
          (rfl : ", ".toList ++ (wordsText (o' :: os) (w' :: ws)).toList = _)
        simp only [hcomma, hmore]
        simp

/-! The whole payload -/

def ofWords? : List UInt32 → Option Payload
  | [a, b] => some (.two a b)
  | [a, b, c, d] => some (.four a b c d)
  | _ => none

/-- Reads a payload: nothing, the bytes of a blob, or words. -/
def ofText? (s : String) : Option Payload :=
  if s = "" then some (.other 0)
  else match "data=0x".toList.isPrefixOf? s.toList with
    | some digits => (readBytes? digits).map .blob
    | none => (readWords? Operand.all s.toList).bind ofWords?

theorem ofWords?_eq_some_iff {ws : List UInt32} : ofWords? ws = some p ↔ p.words = ws ∧ p.words ≠ [] := by
  constructor
  · intro h
    unfold ofWords? at h
    split at h
    next => obtain rfl := Option.some.inj h; simp [words]
    next => obtain rfl := Option.some.inj h; simp [words]
    next => cases h
  · rintro ⟨rfl, hne⟩
    cases p with
    | blob bytes => simp [words] at hne
    | two a b => rfl
    | four a b c d => rfl
    | other tag => simp [words] at hne

theorem bare_of_words (h : p.words ≠ []) : p.bare = p := by
  cases p with
  | other tag => simp [words] at h
  | blob | two | four => rfl

theorem text_of_words (h : p.words ≠ []) : p.text = wordsText Operand.all p.words := by
  cases p with
  | blob bytes => simp [words] at h
  | two a b => rw [words, Operand.all, wordsText_cons, wordsText_singleton]; rfl
  | four a b c d =>
    rw [words, Operand.all, wordsText_cons, wordsText_cons, wordsText_cons, wordsText_singleton, text]
    simp only [String.append_assoc]
    rfl
  | other tag => simp [words] at h

theorem text_of_blob (bytes : List UInt8) :
    (blob bytes).text.toList = "data=0x".toList ++ bytes.flatMap fun b => hex 2 b.toNat := by
  simp only [text, String.toList_append, String.toList_ofList]

/-- The text of words is not taken for the text of a blob. -/
theorem head_text_of_words (h : p.words ≠ []) : ∃ rest, p.text.toList = 'v' :: rest := by
  have hword (w : UInt32) : (wordText "val1" w).toList = 'v' :: ("al1=0x".toList ++ hex 8 w.toNat) := by
    rw [wordText, String.toList_append, String.toList_ofList]
    rfl
  cases p with
  | blob bytes => simp [words] at h
  | two a b => exact ⟨_, by rw [text, String.toList_append, String.toList_append, hword]; rfl⟩
  | four a b c d => exact ⟨_, by simp only [text, String.toList_append, hword]; rfl⟩
  | other tag => simp [words] at h

/-- A text is read as a payload exactly if it is what is written for it. -/
theorem ofText?_eq_some_iff : ofText? s = some p ↔ p.bare = p ∧ s = p.text := by
  rw [ofText?]
  constructor
  · intro h
    split at h
    next hempty =>
      obtain rfl := Option.some.inj h
      exact ⟨rfl, hempty⟩
    next =>
      split at h
      next digits hdigits =>
        obtain ⟨bytes, hbytes, rfl⟩ := Option.map_eq_some_iff.mp h
        refine ⟨rfl, String.toList_inj.mp ?_⟩
        rw [text_of_blob, ← readBytes?_eq_some_iff.mp hbytes]
        exact (List.isPrefixOf?_eq_some_iff_append_eq.mp hdigits).symm
      next =>
        obtain ⟨ws, hws, hp⟩ := Option.bind_eq_some_iff.mp h
        obtain ⟨rfl, hne⟩ := ofWords?_eq_some_iff.mp hp
        obtain ⟨-, -, hs⟩ := readWords?_eq_some_iff.mp hws
        exact ⟨bare_of_words hne, (String.toList_inj.mp hs).trans (text_of_words hne).symm⟩
  · rintro ⟨hbare, rfl⟩
    by_cases hne : p.words = []
    · cases p with
      | blob bytes =>
        have hsome : (blob bytes).text ≠ "" := fun h => by
          have hlist := text_of_blob bytes
          rw [h] at hlist
          cases hlist
        rw [if_neg hsome, List.isPrefixOf?_eq_some_iff_append_eq.mpr (text_of_blob bytes).symm]
        exact Option.map_eq_some_iff.mpr ⟨bytes, readBytes?_eq_some_iff.mpr rfl, rfl⟩
      | two a b => simp [words] at hne
      | four a b c d => simp [words] at hne
      | other tag => exact congrArg some hbare
    · obtain ⟨rest, hhead⟩ := head_text_of_words hne
      have hsome : p.text ≠ "" := fun h => by
        rw [h] at hhead
        cases hhead
      have hblob : "data=0x".toList.isPrefixOf? p.text.toList = none := by
        rw [hhead]
        rfl
      have hlength : p.words.length ≤ Operand.all.length := by cases p <;> simp [words, Operand.all]
      rw [if_neg hsome, hblob]
      refine Option.bind_eq_some_iff.mpr ⟨p.words, ?_, ofWords?_eq_some_iff.mpr ⟨rfl, hne⟩⟩
      exact readWords?_eq_some_iff.mpr ⟨hne, hlength, congrArg String.toList (text_of_words hne)⟩

theorem ofText?_text (p : Payload) : ofText? p.text = some p.bare :=
  ofText?_eq_some_iff.mpr ⟨p.bare_bare, p.text_bare.symm⟩

/-- Different payloads have different texts. -/
theorem text_eq_text_iff : p.text = q.text ↔ p.bare = q.bare := by
  constructor
  · intro h
    have hp := ofText?_text p
    rw [h, ofText?_text q] at hp
    exact (Option.some.inj hp).symm
  · intro h
    rw [← text_bare p, h, text_bare]

end Payload

end EventTrace
