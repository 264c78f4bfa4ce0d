import EventTrace.Proofs.Text.Digits
import EventTrace.Text.Basic
/-! Reading back what is shown of a text of the traced program. Its own backslashes are shown as they are, so one of them
may come to stand in front of characters that it seems to be written for. Main statement: a text is read back exactly if
this happens nowhere in it, and of two texts that are shown alike it happens in one. -/
namespace EventTrace.Text.Escape

def ofLetter? : Char → Option Char
  | '\'' => some '\''
  | '"' => some '"'
  | 'a' => some '\x07'
  | 'b' => some '\x08'
  | 'e' => some '\x1b'
  | 'f' => some '\x0c'
  | 'n' => some '\n'
  | 'r' => some '\r'
  | 't' => some '\t'
  | 'v' => some '\x0b'
  | _ => none

def isOctalDigit (c : Char) : Bool := '0' ≤ c && c ≤ '7'

def readLetter? : List Char → Option (Char × List Char)
  | l :: rest => (ofLetter? l).map fun c => (c, rest)
  | [] => none

def readOctal? : List Char → Option (Char × List Char)
  | a :: b :: c :: rest =>
    if isOctalDigit a && isOctalDigit b && isOctalDigit c then some (Char.ofNat (digitsValue 8 [a, b, c]), rest)
    else none
  | _ => none

/-- Reads what stands behind a backslash: a letter, or three octal digits. -/
def spelled? (cs : List Char) : Option (Char × List Char) := (readLetter? cs).or (readOctal? cs)

variable {c d : Char} {cs rest : List Char}

theorem readLetter?_eq_some : readLetter? cs = some (c, rest) ↔ ∃ l, cs = l :: rest ∧ ofLetter? l = some c := by
  cases cs with
  | nil => simp [readLetter?]
  | cons l tail =>
    simp only [readLetter?, Option.map_eq_some_iff, Prod.mk.injEq, List.cons.injEq]
    constructor
    · rintro ⟨_, h, rfl, rfl⟩
      exact ⟨l, ⟨rfl, rfl⟩, h⟩
    · rintro ⟨_, ⟨rfl, rfl⟩, h⟩
      exact ⟨c, h, rfl, rfl⟩

theorem readOctal?_eq_some : readOctal? cs = some (c, rest) ↔
    ∃ a b d, cs = a :: b :: d :: rest ∧ (isOctalDigit a = true ∧ isOctalDigit b = true ∧ isOctalDigit d = true) ∧
      c = Char.ofNat (digitsValue 8 [a, b, d]) := by
  constructor
  · intro h
    unfold readOctal? at h
    split at h
    next a b d tail =>
      obtain ⟨hdigits, hpair⟩ := Option.ite_none_right_eq_some.mp h
      simp only [Bool.and_eq_true] at hdigits
      cases hpair
      exact ⟨a, b, d, rfl, ⟨hdigits.1.1, hdigits.1.2, hdigits.2⟩, rfl⟩
    next => cases h
  · rintro ⟨a, b, d, rfl, ⟨ha, hb, hd⟩, rfl⟩
    simp [readOctal?, ha, hb, hd]

theorem length_spelled? (h : spelled? cs = some (c, rest)) : rest.length < cs.length := by
  rcases Option.or_eq_some_iff.mp h with h | ⟨-, h⟩
  · obtain ⟨l, rfl, -⟩ := readLetter?_eq_some.mp h
    simp
  · obtain ⟨a, b, d, rfl, -⟩ := readOctal?_eq_some.mp h
    simp
    omega

/-- Reads back what was written with a backslash; one that nothing was written with stands for itself. -/
def decode : List Char → List Char
  | [] => []
  | c :: cs =>
    if c = '\\' then
      match _h : spelled? cs with
      | some (d, rest) => d :: decode rest
      | none => c :: decode cs
    else c :: decode cs
termination_by cs => cs.length
decreasing_by
  · have := length_spelled? _h
    simp only [List.length_cons]
    omega
  · simp
  · simp

theorem decode_cons_of_ne (h : c ≠ '\\') (cs : List Char) : decode (c :: cs) = c :: decode cs := by
  rw [decode, if_neg h]

theorem decode_spelled (h : spelled? cs = some (d, rest)) : decode ('\\' :: cs) = d :: decode rest := by
  rw [decode, if_pos rfl]
  split
  next h' => cases h.symm.trans h'; rfl
  next h' => cases h.symm.trans h'

theorem decode_not_spelled (h : spelled? cs = none) : decode ('\\' :: cs) = '\\' :: decode cs := by
  rw [decode, if_pos rfl]
  split
  next h' => cases h.symm.trans h'
  next => rfl

theorem encode_cons (c : Char) (cs : List Char) : encode (c :: cs) = encodeChar c ++ encode cs := rfl

theorem ofLetter?_of_letter? {l : Char} (h : letter? c = some l) : ofLetter? l = some c := by
  unfold letter? at h
  split at h <;> cases h <;> rfl

theorem octal_three : ∀ n < 0x20, octal 3 n = ['0', Nat.digitChar (n / 8), Nat.digitChar (n % 8)] := by decide

theorem isOctalDigit_digitChar : ∀ d < 8, isOctalDigit (Nat.digitChar d) = true := by decide

theorem spelled?_octal (h : c.toNat < 0x20) (rest : List Char) : spelled? (octal 3 c.toNat ++ rest) = some (c, rest) := by
  have hvalue : digitsValue 8 ['0', Nat.digitChar (c.toNat / 8), Nat.digitChar (c.toNat % 8)] = c.toNat := by
    have hfirst := hexValue_digitChar (c.toNat / 8) (by omega)
    have hlast := hexValue_digitChar (c.toNat % 8) (by omega)
    have hzero : hexValue '0' = 0 := rfl
    simp only [digitsValue, List.foldl_cons, List.foldl_nil, hfirst, hlast, hzero]
    omega
  rw [octal_three _ h, spelled?]
  refine Option.or_eq_some_iff.mpr (.inr ⟨rfl, readOctal?_eq_some.mpr ⟨_, _, _, rfl, ⟨rfl, ?_, ?_⟩, ?_⟩⟩)
  · exact isOctalDigit_digitChar _ (by omega)
  · exact isOctalDigit_digitChar _ (by omega)
  · rw [hvalue, Char.ofNat_toNat]

/-- A character is shown as it is, or written with a backslash that is read as that character. -/
theorem plain_or_written (c : Char) :
    encodeChar c = [c] ∨ ∃ tail, encodeChar c = '\\' :: tail ∧ ∀ rest, spelled? (tail ++ rest) = some (c, rest) := by
  unfold encodeChar
  split
  next l hl =>
    refine .inr ⟨[l], rfl, fun rest => ?_⟩
    exact Option.or_eq_some_iff.mpr (.inl (readLetter?_eq_some.mpr ⟨l, rfl, ofLetter?_of_letter? hl⟩))
  next =>
    split
    next hcontrol => exact .inr ⟨_, rfl, spelled?_octal hcontrol⟩
    next => exact .inl rfl

/-- What is shown begins with a character that is shown as it is, or with a backslash. -/
theorem encode_eq_cons (h : encode cs = c :: rest) (hc : c ≠ '\\') :
    ∃ cs', cs = c :: cs' ∧ encodeChar c = [c] ∧ rest = encode cs' := by
  cases cs with
  | nil => cases h
  | cons d cs' =>
    rw [encode_cons] at h
    obtain hplain | ⟨tail, hwritten, -⟩ := plain_or_written d
    · rw [hplain] at h
      obtain ⟨rfl, rfl⟩ := List.cons.inj h
      exact ⟨cs', rfl, hplain, rfl⟩
    · rw [hwritten] at h
      exact absurd (List.cons.inj h).1.symm hc

/-- With a backslash in front these characters seem to be written for another. -/
inductive Misleading : List Char → Prop
  | letter {l : Char} (h : l ∈ ['a', 'b', 'e', 'f', 'n', 'r', 't', 'v']) (rest : List Char) : Misleading (l :: rest)
  | octal {a b c : Char} (h : isOctalDigit a = true ∧ isOctalDigit b = true ∧ isOctalDigit c = true) (rest : List Char) :
      Misleading (a :: b :: c :: rest)

def Misleads : List Char → Prop
  | [] => False
  | c :: cs => c = '\\' ∧ Misleading cs ∨ Misleads cs

theorem plain_of_isOctalDigit (h : isOctalDigit c = true) : encodeChar c = [c] ∧ ofLetter? c = none ∧ c ≠ '\\' := by
  have hcode : 0x20 ≤ c.toNat := by
    simp only [isOctalDigit, Bool.and_eq_true, decide_eq_true_eq] at h
    exact Nat.le_trans (by decide) (UInt32.le_iff_toNat_le.mp h.1)
  refine ⟨?_, ?_, ?_⟩
  · unfold encodeChar
    split
    next l hl =>
      unfold letter? at hl
      split at hl <;> cases hl <;> cases h
    next => rw [if_neg (Nat.not_lt.mpr hcode)]
  · unfold ofLetter?
    split <;> first | rfl | cases h
  · rintro rfl
    cases h

theorem spelled?_encode_of_misleading (h : Misleading cs) :
    ∃ d k, 0 < k ∧ k ≤ cs.length ∧ spelled? (encode cs) = some (d, encode (cs.drop k)) := by
  cases h with
  | @letter l h rest =>
    have hall : (['a', 'b', 'e', 'f', 'n', 'r', 't', 'v'].all fun l =>
        encodeChar l == [l] && (ofLetter? l).isSome) = true := by rfl
    have hletter : encodeChar l = [l] ∧ (ofLetter? l).isSome = true := by
      simpa only [Bool.and_eq_true, beq_iff_eq] using List.all_eq_true.mp hall l h
    obtain ⟨c, hc⟩ := Option.isSome_iff_exists.mp hletter.2
    refine ⟨c, 1, by decide, by simp, ?_⟩
    rw [encode_cons, hletter.1]
    exact Option.or_eq_some_iff.mpr (.inl (readLetter?_eq_some.mpr ⟨l, rfl, hc⟩))
  | @octal a b c h rest =>
    obtain ⟨ha, hnone, -⟩ := plain_of_isOctalDigit h.1
    refine ⟨Char.ofNat (digitsValue 8 [a, b, c]), 3, by decide, by simp, ?_⟩
    rw [encode_cons, encode_cons, encode_cons, ha, (plain_of_isOctalDigit h.2.1).1, (plain_of_isOctalDigit h.2.2).1]
    refine Option.or_eq_some_iff.mpr (.inr ⟨?_, readOctal?_eq_some.mpr ⟨a, b, c, rfl, h, rfl⟩⟩)
    simp [readLetter?, hnone]

theorem misleading_of_spelled? (h : spelled? (encode cs) = some (d, rest)) : Misleading cs := by
  rcases Option.or_eq_some_iff.mp h with h | ⟨-, h⟩
  · obtain ⟨l, hl, hletter⟩ := readLetter?_eq_some.mp h
    have hne : l ≠ '\\' := by
      rintro rfl
      cases hletter
    obtain ⟨cs', rfl, hplain, -⟩ := encode_eq_cons hl hne
    refine .letter ?_ cs'
    -- The two quotes are letters too, but they are not shown as they are.
    unfold ofLetter? at hletter
    split at hletter <;> cases hletter <;> first | decide | cases hplain
  · obtain ⟨x, y, z, hdigits, hoctal, -⟩ := readOctal?_eq_some.mp h
    obtain ⟨cs₁, rfl, -, h₁⟩ := encode_eq_cons hdigits (plain_of_isOctalDigit hoctal.1).2.2
    obtain ⟨cs₂, rfl, -, h₂⟩ := encode_eq_cons h₁.symm (plain_of_isOctalDigit hoctal.2.1).2.2
    obtain ⟨cs₃, rfl, -, -⟩ := encode_eq_cons h₂.symm (plain_of_isOctalDigit hoctal.2.2).2.2
    exact .octal hoctal cs₃

/-- A text is read back, or it misleads; what is read then is shorter, since some backslash has taken characters in. -/
theorem read_back_or_shorter (s : List Char) :
    ¬Misleads s ∧ decode (encode s) = s ∨ Misleads s ∧ (decode (encode s)).length < s.length := by
  induction hn : s.length using Nat.strongRecOn generalizing s with
  | ind n ih =>
    subst hn
    cases s with
    | nil => exact .inl ⟨id, by rw [encode, List.flatMap_nil, decode]⟩
    | cons c cs =>
      have hcs := ih cs.length (by simp) cs rfl
      have hkeep (hc : ¬(c = '\\' ∧ Misleading cs)) (h : decode (encode (c :: cs)) = c :: decode (encode cs)) :
          ¬Misleads (c :: cs) ∧ decode (encode (c :: cs)) = c :: cs ∨
            Misleads (c :: cs) ∧ (decode (encode (c :: cs))).length < (c :: cs).length := by
        rw [h]
        rcases hcs with ⟨hfine, hback⟩ | ⟨hmisleads, hlt⟩
        · exact .inl ⟨not_or.mpr ⟨hc, hfine⟩, by rw [hback]⟩
        · exact .inr ⟨.inr hmisleads, Nat.succ_lt_succ hlt⟩
      obtain hplain | ⟨tail, hwritten, hread⟩ := plain_or_written c
      · by_cases hc : c = '\\'
        · subst hc
          by_cases hmisleading : Misleading cs
          · -- The backslash takes in `k` characters and gives one.
            obtain ⟨d, k, hpos, hle, hspelled⟩ := spelled?_encode_of_misleading hmisleading
            refine .inr ⟨.inl ⟨rfl, hmisleading⟩, ?_⟩
            have hdrop : (cs.drop k).length < ('\\' :: cs).length := by
              rw [List.length_drop, List.length_cons]
              omega
            have hle' : (decode (encode (cs.drop k))).length ≤ (cs.drop k).length := by
              rcases ih _ hdrop (cs.drop k) rfl with ⟨-, hback⟩ | ⟨-, hlt⟩
              · exact Nat.le_of_eq (congrArg List.length hback)
              · exact Nat.le_of_lt hlt
            rw [encode_cons, hplain, List.singleton_append, decode_spelled hspelled, List.length_cons, List.length_cons]
            rw [List.length_drop] at hle'
            omega
          · refine hkeep (fun h => hmisleading h.2) ?_
            have hnone : spelled? (encode cs) = none :=
              Option.eq_none_iff_forall_ne_some.mpr fun _ h => hmisleading (misleading_of_spelled? h)
            rw [encode_cons, hplain, List.singleton_append, decode_not_spelled hnone]
        · refine hkeep (fun h => hc h.1) ?_
          rw [encode_cons, hplain, List.singleton_append, decode_cons_of_ne hc]
      · have hc : c ≠ '\\' := by
          rintro rfl
          cases hwritten
          cases hread []
        refine hkeep (fun h => hc h.1) ?_
        rw [encode_cons, hwritten, List.cons_append, decode_spelled (hread _)]

theorem decode_encode_iff (s : List Char) : decode (encode s) = s ↔ ¬Misleads s := by
  rcases read_back_or_shorter s with ⟨hfine, hback⟩ | ⟨hmisleads, hlt⟩
  · exact iff_of_true hback hfine
  · refine iff_of_false (fun hback => ?_) (not_not_intro hmisleads)
    rw [hback] at hlt
    exact absurd hlt (Nat.lt_irrefl _)

/-- What a control character is written with is more than one character, and is shown as it is. -/
theorem encode_encodeChar (h : c.toNat < 0x20) : 1 < (encodeChar c).length ∧ encode (encodeChar c) = encodeChar c := by
  have hall : ∀ n < 0x20, 1 < (encodeChar (Char.ofNat n)).length ∧
      encode (encodeChar (Char.ofNat n)) = encodeChar (Char.ofNat n) := by decide
  simpa only [Char.ofNat_toNat] using hall c.toNat h

/-- A text is read back from what is shown of it exactly if none of its backslashes misleads. So two texts that are shown
alike are the same unless one of them misleads; but every text with a control character is shown like another one, in
which the control character is written out. -/
theorem read_back_iff (s : List Char) :
    (decode (encode s) = s ↔ ¬Misleads s) ∧
    (∀ t, encode s = encode t → ¬Misleads s → ¬Misleads t → s = t) ∧
    ∀ before c after, s = before ++ c :: after → c.toNat < 0x20 →
      let t := before ++ (encodeChar c ++ after)
      t ≠ s ∧ encode t = encode s := by
  refine ⟨decode_encode_iff s, ?_, ?_⟩
  · intro t halike hs ht
    calc s
      _ = decode (encode s) := ((decode_encode_iff s).mpr hs).symm
      _ = decode (encode t) := congrArg decode halike
      _ = t := (decode_encode_iff t).mpr ht
  · rintro before c after rfl hc
    obtain ⟨hlength, hshown⟩ := encode_encodeChar hc
    refine ⟨fun hsame => ?_, ?_⟩
    · have hsame := congrArg List.length hsame
      simp only [List.length_append, List.length_cons] at hsame
      omega
    · simp only [encode, List.flatMap_append, List.flatMap_cons]
      exact congrArg (fun shown => before.flatMap encodeChar ++ (shown ++ after.flatMap encodeChar)) hshown

/-- The backslash in front of the `d` does not mislead. One in front of an `n` does. -/
theorem read_back_of_control :
    let s := ['"', '\n', '7', '\\', 'd']
    ¬Misleads s ∧ decode (encode s) = s ∧ encode ['"', '\\', 'n', '7', '\\', 'd'] = encode s := by
  intro s
  have hend : ¬Misleading ['d'] := by
    intro h
    cases h with
    | letter h => exact absurd h (by decide)
  have hfine : ¬Misleads s := by simp [s, Misleads, hend]
  obtain ⟨hback, -, halike⟩ := read_back_iff s
  exact ⟨hfine, hback.mpr hfine, (halike ['"'] '\n' ['7', '\\', 'd'] rfl (by decide)).2⟩

/-- A line break, and a backslash with an `n` behind it, are shown alike, and read back as the line break. -/
theorem shown_alike :
    ['\n'] ≠ ['\\', 'n'] ∧ encode ['\n'] = encode ['\\', 'n'] ∧ decode (encode ['\\', 'n']) = ['\n'] := by
  have hread : spelled? ['n'] = some ('\n', []) := by decide
  have hshown : encode ['\\', 'n'] = ['\\', 'n'] := by decide
  refine ⟨by decide, by decide, ?_⟩
  rw [hshown, decode_spelled hread, decode]

end EventTrace.Text.Escape
