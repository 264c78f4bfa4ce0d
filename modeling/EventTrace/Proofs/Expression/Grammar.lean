import EventTrace.Expression.Term
import EventTrace.Proofs.Expression.Numeral
import EventTrace.Proofs.Outcome
/-! The grammar of expressions, on tokens, and tokens on characters. Main results: a token is read exactly if it is
spelled in front and nothing continues it; a term, and what is added to it, are read exactly if the tokens have the form
of one. -/
namespace EventTrace

open Text

namespace Token

inductive Spelled : List Char → Token → Prop
  | name {c : Char} {cs : List Char} (hstart : isNameStart c = true) (hpart : ∀ d ∈ cs, isNamePart d = true) :
      Spelled (c :: cs) (.name (String.ofList (c :: cs)))
  | number {lexeme : List Char} {v : Value} (h : Numeral lexeme v) : Spelled lexeme (.number v)
  | dot : Spelled ['.'] (.mark .dot)
  | plus : Spelled ['+'] (.mark .plus)
  | minus : Spelled ['-'] (.mark .minus)

/-- What follows does not continue the token. A number must not run into a letter or a point either. -/
def EndsBefore (rest : List Char) : Token → Prop
  | .name _ => RunsOut isNamePart rest
  | .number _ => RunsOut isSuffix rest
  | .mark _ => True

end Token

theorem Token.EndsBefore.of_append {run rest : List Char} {t : Token} (h : t.EndsBefore (run ++ rest)) :
    t.EndsBefore run := by
  cases t with
  | name => exact RunsOut.of_append h
  | number => exact RunsOut.of_append h
  | mark => trivial

theorem Token.EndsBefore.append {run rest : List Char} {t : Token} (hrun : t.EndsBefore run)
    (hrest : t.EndsBefore rest) : t.EndsBefore (run ++ rest) := by
  cases t with
  | name => exact RunsOut.append hrun hrest
  | number => exact RunsOut.append hrun hrest
  | mark => trivial

/-- Characters that are tokens in a row, with blanks before, between and behind them. -/
inductive Lexed : List Char → List Token → Prop
  | blank {blanks : List Char} (hblanks : ∀ c ∈ blanks, isBlank c = true) : Lexed blanks []
  | token {blanks lexeme rest : List Char} {t : Token} {ts : List Token} (hblanks : ∀ c ∈ blanks, isBlank c = true)
      (hspelled : t.Spelled lexeme) (hends : t.EndsBefore rest) (hrest : Lexed rest ts) :
      Lexed (blanks ++ (lexeme ++ rest)) (t :: ts)

theorem lexed_nil {cs : List Char} : Lexed cs [] ↔ ∀ c ∈ cs, isBlank c = true :=
  ⟨fun h => by cases h; assumption, .blank⟩

theorem lexed_cons {cs : List Char} {t : Token} {ts : List Token} : Lexed cs (t :: ts) ↔
    ∃ blanks lexeme rest, cs = blanks ++ (lexeme ++ rest) ∧ (∀ c ∈ blanks, isBlank c = true) ∧ t.Spelled lexeme ∧
      t.EndsBefore rest ∧ Lexed rest ts := by
  constructor
  · intro h
    cases h with
    | token hblanks hspelled hends hrest => exact ⟨_, _, _, rfl, hblanks, hspelled, hends, hrest⟩
  · rintro ⟨blanks, lexeme, rest, rfl, hblanks, hspelled, hends, hrest⟩
    exact .token hblanks hspelled hends hrest

theorem lexed_single {lexeme : List Char} {t : Token} (h : t.Spelled lexeme) : Lexed lexeme [t] := by
  have hends : t.EndsBefore [] := by
    cases t with
    | name | number => exact runsOut_nil _
    | mark => trivial
  have hlexed : Lexed ([] ++ (lexeme ++ [])) [t] := .token (by simp) h hends (lexed_nil.mpr (by simp))
  simpa using hlexed

inductive Literal : List Token → Value → Prop
  | bare (v : Value) : Literal [.number v] v
  | negated (v : Value) : Literal [.mark .minus, .number v] v.neg

inductive Term.Form : List Token → Term → Prop
  | literal {ts : List Token} {v : Value} (h : Literal ts v) : Form ts (.literal v)
  | operand (name : String) : Form [.name name] (.operand name)
  | member (operand member : String) : Form [.name operand, .mark .dot, .name member] (.member operand member)

inductive Bias : List Token → Option Value → Prop
  | none : Bias [] none
  | some {ts : List Token} {v : Value} (h : Literal ts v) : Bias (.mark .plus :: ts) (some v)

namespace Token

variable {source : String} {cs blanks lexeme rest : List Char} {t : Token}

theorem isBlank_of_isNamePart {c : Char} (h : isNamePart c = true) : isBlank c = false := by
  rw [isNamePart_iff, isNameStart_iff, isDigit_iff] at h
  simp only [isBlank, Bool.or_eq_false_iff, Bool.and_eq_false_iff, decide_eq_false_iff_not, beq_eq_false_iff_ne]
  omega

theorem isNamePart_of_isNameStart {c : Char} (h : isNameStart c = true) : isNamePart c = true :=
  isNamePart_iff.mpr (.inl h)

theorem isNamePart_of_isDigit {c : Char} (h : c.isDigit = true) : isNamePart c = true := isNamePart_iff.mpr (.inr h)

theorem head_of_numeral {v : Value} (h : Numeral lexeme v) : ∃ c tail, lexeme = c :: tail ∧ c.isDigit = true := by
  cases h with
  | hex => exact ⟨'0', _, rfl, rfl⟩
  | decimal hne hdigits =>
    obtain ⟨c, tail, rfl⟩ := List.exists_cons_of_ne_nil hne
    exact ⟨c, tail, rfl, hdigits c List.mem_cons_self⟩
  | float hne hwhole =>
    obtain ⟨c, tail, rfl⟩ := List.exists_cons_of_ne_nil hne
    exact ⟨c, _, List.cons_append, hwhole c List.mem_cons_self⟩

theorem Spelled.runsOut_isBlank (h : Spelled lexeme t) (rest : List Char) : RunsOut isBlank (lexeme ++ rest) := by
  cases h with
  | name hstart => exact runsOut_cons.mpr (isBlank_of_isNamePart (isNamePart_of_isNameStart hstart))
  | number hnumeral =>
    obtain ⟨c, tail, rfl, hdigit⟩ := head_of_numeral hnumeral
    exact runsOut_cons.mpr (isBlank_of_isNamePart (isNamePart_of_isDigit hdigit))
  | dot | plus | minus => exact runsOut_cons.mpr rfl

theorem next_of_not_mark {c : Char} (hpart : isNamePart c = true) : next source (c :: cs) =
    if isNameStart c then
      .ok (some (.name (String.ofList ((c :: cs).takeWhile isNamePart))), (c :: cs).dropWhile isNamePart)
    else if c.isDigit then (readNumber (c :: cs)).map fun (v, rest) => (some (.number v), rest)
    else .error (.unexpectedCharacter c source) := by
  have hblank : RunsOut isBlank (c :: cs) := runsOut_cons.mpr (isBlank_of_isNamePart hpart)
  unfold next
  rw [hblank.dropWhile_eq]
  split
  next h => cases h
  next h => cases h; exact absurd hpart (by decide)
  next h => cases h; exact absurd hpart (by decide)
  next h => cases h; exact absurd hpart (by decide)
  next h => cases h; rfl

theorem Spelled.next_eq (h : Spelled lexeme t) (hends : t.EndsBefore rest) :
    next source (lexeme ++ rest) = .ok (some t, rest) := by
  cases h with
  | @name c cs hstart hpart =>
    have hrun : ∀ d ∈ c :: cs, isNamePart d = true :=
      List.forall_mem_cons.mpr ⟨isNamePart_of_isNameStart hstart, hpart⟩
    have htake := takeWhile_run hrun hends
    have hdrop := dropWhile_run hrun hends
    rw [List.cons_append] at htake hdrop ⊢
    rw [next_of_not_mark (isNamePart_of_isNameStart hstart), if_pos hstart, htake, hdrop]
  | number hnumeral =>
    have hread := hnumeral.readNumber_eq hends
    obtain ⟨c, tail, rfl, hdigit⟩ := head_of_numeral hnumeral
    have hpart : isNamePart c = true := isNamePart_of_isDigit hdigit
    have hstart : ¬isNameStart c = true := by simp [isNameStart_of_isDigit hdigit]
    rw [List.cons_append] at hread ⊢
    rw [next_of_not_mark hpart, if_neg hstart, if_pos hdigit, hread]
    rfl
  | dot | plus | minus => rfl

/-- A token is read exactly if it is spelled in front, behind blanks, and what follows does not continue it. -/
theorem next_eq_some : next source cs = .ok (some t, rest) ↔
    ∃ blanks lexeme, cs = blanks ++ (lexeme ++ rest) ∧ (∀ c ∈ blanks, isBlank c = true) ∧ Spelled lexeme t ∧
      t.EndsBefore rest := by
  constructor
  · intro h
    suffices ∃ lexeme, cs.dropWhile isBlank = lexeme ++ rest ∧ Spelled lexeme t ∧ t.EndsBefore rest by
      obtain ⟨lexeme, hcs, hspelled, hends⟩ := this
      refine ⟨cs.takeWhile isBlank, lexeme, ?_, fun c hc => of_mem_takeWhile hc, hspelled, hends⟩
      rw [← hcs, List.takeWhile_append_dropWhile]
    unfold next at h
    split at h
    next => cases h
    next => cases h; exact ⟨['.'], by assumption, .dot, trivial⟩
    next => cases h; exact ⟨['+'], by assumption, .plus, trivial⟩
    next => cases h; exact ⟨['-'], by assumption, .minus, trivial⟩
    next c tail _ _ _ htail =>
      split at h
      next hstart =>
        cases h
        have hpart : isNamePart c = true := isNamePart_of_isNameStart hstart
        refine ⟨(c :: tail).takeWhile isNamePart, by rw [htail, List.takeWhile_append_dropWhile], ?_,
          runsOut_dropWhile isNamePart _⟩
        rw [List.takeWhile_cons_of_pos hpart]
        exact .name hstart fun d hd => of_mem_takeWhile hd
      · split at h
        next hdigit =>
          obtain ⟨⟨v, rest⟩, hread, hpair⟩ := map_eq_ok.mp h
          cases hpair
          obtain ⟨lexeme, hcs, hnumeral, hends⟩ := readNumber_sound ⟨c, rfl, hdigit⟩ hread
          exact ⟨lexeme, by rw [htail, hcs], .number hnumeral, hends⟩
        · cases h
  · rintro ⟨blanks, lexeme, rfl, hblanks, hspelled, hends⟩
    have hblank := hspelled.runsOut_isBlank rest
    have hnext : next source (lexeme ++ rest) = .ok (some t, rest) := hspelled.next_eq hends
    rw [next, hblank.dropWhile_eq] at hnext
    rw [next, dropWhile_run hblanks hblank]
    exact hnext

theorem next_eq_none : next source cs = .ok (none, rest) ↔ (∀ c ∈ cs, isBlank c = true) ∧ rest = [] := by
  constructor
  · intro h
    unfold next at h
    split at h
    next hblank =>
      have hcs : cs.takeWhile isBlank = cs := by
        simpa [hblank] using List.takeWhile_append_dropWhile (p := isBlank) (l := cs)
      cases h
      exact ⟨fun c hc => of_mem_takeWhile (hcs.symm ▸ hc), rfl⟩
    next => cases h
    next => cases h
    next => cases h
    next =>
      split at h
      · cases h
      · split at h
        · obtain ⟨_, -, hpair⟩ := map_eq_ok.mp h
          cases hpair
        · cases h
  · rintro ⟨hblanks, rfl⟩
    have hblank : cs.dropWhile isBlank = [] := by simpa using dropWhile_run hblanks (runsOut_nil isBlank)
    rw [next, hblank]

theorem next_append_of_blank (hblanks : ∀ c ∈ blanks, isBlank c = true) :
    next source (blanks ++ cs) = next source cs := by
  rw [next, next, List.dropWhile_append_of_pos hblanks]

end Token

namespace Cursor

variable {c : Cursor} {ts us : List Token} {v : Value} {t : Term} {b : Option Value}

def Ahead (c : Cursor) : List Token → Prop
  | [] => c.current = none
  | t :: ts => c.current = some t ∧ Lexed c.rest ts

/-- What advancing finds: no token, or one that is spelled next. -/
theorem advance_cases {c' : Cursor} (h : c.advance = .ok c') :
    (c'.current = none ∧ ∀ d ∈ c.rest, isBlank d = true) ∨
    ∃ t blanks lexeme, c'.current = some t ∧ c.rest = blanks ++ (lexeme ++ c'.rest) ∧
      (∀ d ∈ blanks, isBlank d = true) ∧ t.Spelled lexeme ∧ t.EndsBefore c'.rest := by
  obtain ⟨⟨current, rest⟩, hnext, h⟩ := bind_eq_ok.mp h
  cases h
  cases current with
  | none => exact .inl ⟨rfl, (Token.next_eq_none.mp hnext).1⟩
  | some t =>
    obtain ⟨blanks, lexeme, hcs, hblanks, hspelled, hends⟩ := Token.next_eq_some.mp hnext
    exact .inr ⟨t, blanks, lexeme, rfl, hcs, hblanks, hspelled, hends⟩

/-- Advancing succeeds exactly if what follows is tokens, and these are ahead then. -/
theorem advance_iff : (∃ c', c.advance = .ok c' ∧ c'.Ahead ts) ↔ Lexed c.rest ts := by
  constructor
  · rintro ⟨c', h, hahead⟩
    obtain ⟨hcurrent, hblanks⟩ | ⟨t, blanks, lexeme, hcurrent, hcs, hblanks, hspelled, hends⟩ := advance_cases h
    · cases ts with
      | nil => exact lexed_nil.mpr hblanks
      | cons t ts => cases hcurrent.symm.trans hahead.1
    · cases ts with
      | nil => cases hcurrent.symm.trans hahead
      | cons t' ts =>
        obtain ⟨ht, hts⟩ := hahead
        cases hcurrent.symm.trans ht
        exact lexed_cons.mpr ⟨blanks, lexeme, c'.rest, hcs, hblanks, hspelled, hends, hts⟩
  · intro h
    cases ts with
    | nil =>
      exact ⟨{ c with current := none, rest := [] },
        bind_eq_ok.mpr ⟨(none, []), Token.next_eq_none.mpr ⟨lexed_nil.mp h, rfl⟩, rfl⟩, rfl⟩
    | cons t ts =>
      obtain ⟨blanks, lexeme, rest, hcs, hblanks, hspelled, hends, hrest⟩ := lexed_cons.mp h
      exact ⟨{ c with current := some t, rest := rest },
        bind_eq_ok.mpr ⟨(some t, rest), Token.next_eq_some.mpr ⟨blanks, lexeme, hcs, hblanks, hspelled, hends⟩, rfl⟩,
        rfl, hrest⟩

theorem advance_source {c' : Cursor} (h : c.advance = .ok c') : c'.source = c.source := by
  obtain ⟨read, -, h⟩ := bind_eq_ok.mp h
  cases h
  rfl

/-- Advancing over the first of the tokens in front. -/
theorem advance_front {t : Token} {front rest : List Char} (hcs : c.rest = front ++ rest) (h : Lexed front (t :: ts))
    (hends : t.EndsBefore rest) :
    ∃ c' front', c.advance = .ok c' ∧ c'.current = some t ∧ c'.rest = front' ++ rest ∧ Lexed front' ts := by
  obtain ⟨blanks, lexeme, front', rfl, hblanks, hspelled, hbefore, hlexed⟩ := lexed_cons.mp h
  have hnext : Token.next c.source c.rest = .ok (some t, front' ++ rest) :=
    Token.next_eq_some.mpr ⟨blanks, lexeme, by rw [hcs]; simp, hblanks, hspelled, hbefore.append hends⟩
  exact ⟨{ c with current := some t, rest := front' ++ rest }, front', bind_eq_ok.mpr ⟨_, hnext, rfl⟩, rfl, rfl, hlexed⟩

/-- One token in front of others, in front of a rest that does not continue the last. -/
theorem front_of_advance {c' : Cursor} {t : Token} {front rest : List Char} (h : c.advance = .ok c')
    (ht : c'.current = some t) (hrest : c'.rest = front ++ rest) (hlexed : Lexed front ts) :
    ∃ front', c.rest = front' ++ rest ∧ Lexed front' (t :: ts) := by
  obtain ⟨hnone, -⟩ | ⟨t', blanks, lexeme, hcurrent, hcs, hblanks, hspelled, hends⟩ := advance_cases h
  · cases hnone.symm.trans ht
  · cases hcurrent.symm.trans ht
    rw [hrest] at hcs hends
    exact ⟨blanks ++ (lexeme ++ front), by rw [hcs]; simp, .token hblanks hspelled hends.of_append hlexed⟩

theorem number_iff : (∃ c', c.number = .ok (v, c') ∧ c'.Ahead us) ↔ c.Ahead (.number v :: us) := by
  constructor
  · rintro ⟨c', h, hahead⟩
    unfold number at h
    split at h
    next w hcurrent =>
      obtain ⟨c'', hadvance, h⟩ := bind_eq_ok.mp h
      cases h
      exact ⟨hcurrent, advance_iff.mp ⟨c', hadvance, hahead⟩⟩
    next => cases h
  · rintro ⟨hcurrent, hrest⟩
    obtain ⟨c', hadvance, hahead⟩ := advance_iff.mpr hrest
    exact ⟨c', by rw [number, hcurrent]; exact bind_eq_ok.mpr ⟨c', hadvance, rfl⟩, hahead⟩

theorem literal_iff : (∃ c', c.literal = .ok (v, c') ∧ c'.Ahead us) ↔ ∃ ts, Literal ts v ∧ c.Ahead (ts ++ us) := by
  constructor
  · rintro ⟨c', h, hahead⟩
    unfold literal at h
    split at h
    next hcurrent =>
      obtain ⟨c₁, hadvance, h⟩ := bind_eq_ok.mp h
      obtain ⟨⟨w, c₂⟩, hnumber, h⟩ := bind_eq_ok.mp h
      cases h
      have hnumber : c₁.Ahead (.number w :: us) := number_iff.mp ⟨c', hnumber, hahead⟩
      exact ⟨_, .negated w, hcurrent, advance_iff.mp ⟨c₁, hadvance, hnumber⟩⟩
    next => exact ⟨_, .bare v, number_iff.mp ⟨c', h, hahead⟩⟩
  · rintro ⟨ts, hliteral, hahead⟩
    cases hliteral with
    | bare =>
      obtain ⟨c', hnumber, hc'⟩ := number_iff.mpr hahead
      exact ⟨c', by rw [literal, hahead.1]; exact hnumber, hc'⟩
    | negated w =>
      obtain ⟨hcurrent, hrest⟩ := hahead
      obtain ⟨c₁, hadvance, hc₁⟩ := advance_iff.mpr hrest
      obtain ⟨c', hnumber, hc'⟩ := number_iff.mpr hc₁
      refine ⟨c', ?_, hc'⟩
      rw [literal, hcurrent]
      exact bind_eq_ok.mpr ⟨c₁, hadvance, bind_eq_ok.mpr ⟨(w, c'), hnumber, rfl⟩⟩

/-- What a term is read from: a literal, the name of an operand, or three tokens in a row. -/
theorem term_cases {c' : Cursor} (h : c.term = .ok (t, c')) :
    (∃ v, t = .literal v ∧ c.literal = .ok (v, c')) ∨
    (∃ name, t = .operand name ∧ c.current = some (.name name) ∧ c.advance = .ok c') ∨
    ∃ name member c₁ c₂, t = .member name member ∧ (c.current = some (.name name) ∧ c.advance = .ok c₁) ∧
      (c₁.current = some (.mark .dot) ∧ c₁.advance = .ok c₂) ∧ c₂.current = some (.name member) ∧
      c₂.advance = .ok c' := by
  have hliteral (h : (c.literal >>= fun read => pure (Term.literal read.1, read.2)) = .ok (t, c')) :
      ∃ v, t = .literal v ∧ c.literal = .ok (v, c') := by
    obtain ⟨⟨v, c₁⟩, hread, h⟩ := bind_eq_ok.mp h
    cases h
    exact ⟨v, rfl, hread⟩
  unfold term at h
  split at h
  next => cases h
  next => exact .inl (hliteral h)
  next => exact .inl (hliteral h)
  next => cases h
  next name hcurrent =>
    obtain ⟨c₁, hname, h⟩ := bind_eq_ok.mp h
    split at h
    next hpoint =>
      obtain ⟨c₂, hdot, h⟩ := bind_eq_ok.mp h
      split at h
      next member hmember =>
        obtain ⟨c₃, hlast, h⟩ := bind_eq_ok.mp h
        cases h
        exact .inr (.inr ⟨name, member, c₁, c₂, rfl, ⟨hcurrent, hname⟩, ⟨hpoint, hdot⟩, hmember, hlast⟩)
      next => cases h
    next =>
      cases h
      exact .inr (.inl ⟨name, rfl, hcurrent, hname⟩)

theorem term_of_member {name member : String} {c₁ c₂ c' : Cursor} (hcurrent : c.current = some (.name name))
    (hname : c.advance = .ok c₁) (hpoint : c₁.current = some (.mark .dot)) (hdot : c₁.advance = .ok c₂)
    (hmember : c₂.current = some (.name member)) (hlast : c₂.advance = .ok c') :
    c.term = .ok (.member name member, c') := by
  rw [term, hcurrent]
  refine bind_eq_ok.mpr ⟨c₁, hname, ?_⟩
  simp only [hpoint]
  refine bind_eq_ok.mpr ⟨c₂, hdot, ?_⟩
  simp only [hmember]
  exact bind_eq_ok.mpr ⟨c', hlast, rfl⟩

/-- A term is read exactly if one is ahead; a point would make a member of the name of an operand. -/
theorem term_iff (hdot : us.head? ≠ some (.mark .dot)) :
    (∃ c', c.term = .ok (t, c') ∧ c'.Ahead us) ↔ ∃ ts, Term.Form ts t ∧ c.Ahead (ts ++ us) := by
  constructor
  · rintro ⟨c', h, hahead⟩
    obtain ⟨v, rfl, hread⟩ | ⟨name, rfl, hcurrent, hname⟩ |
      ⟨name, member, c₁, c₂, rfl, ⟨hcurrent, hname⟩, ⟨hpoint, hdot⟩, hmember, hlast⟩ := term_cases h
    · obtain ⟨ts, hts, hahead⟩ := literal_iff.mp ⟨c', hread, hahead⟩
      exact ⟨ts, .literal hts, hahead⟩
    · exact ⟨_, .operand name, hcurrent, advance_iff.mp ⟨c', hname, hahead⟩⟩
    · have h₂ : c₂.Ahead (.name member :: us) := ⟨hmember, advance_iff.mp ⟨c', hlast, hahead⟩⟩
      have h₁ : c₁.Ahead (.mark .dot :: .name member :: us) := ⟨hpoint, advance_iff.mp ⟨c₂, hdot, h₂⟩⟩
      exact ⟨_, .member name member, hcurrent, advance_iff.mp ⟨c₁, hname, h₁⟩⟩
  · rintro ⟨ts, hform, hahead⟩
    cases hform with
    | literal hliteral =>
      obtain ⟨c', hread, hc'⟩ := literal_iff.mpr ⟨ts, hliteral, hahead⟩
      refine ⟨c', ?_, hc'⟩
      have hterm : (c.literal >>= fun read => pure (Term.literal read.1, read.2)) = .ok (.literal _, c') :=
        bind_eq_ok.mpr ⟨(_, c'), hread, rfl⟩
      cases hliteral with
      | bare => rw [term, hahead.1]; exact hterm
      | negated => rw [term, hahead.1]; exact hterm
    | operand name =>
      obtain ⟨hcurrent, hrest⟩ := hahead
      obtain ⟨c', hadvance, hc'⟩ := advance_iff.mpr hrest
      refine ⟨c', ?_, hc'⟩
      rw [term, hcurrent]
      refine bind_eq_ok.mpr ⟨c', hadvance, ?_⟩
      split
      next hpoint =>
        cases us with
        | nil => cases hpoint.symm.trans hc'
        | cons u us =>
          have hu : u = .mark .dot := Option.some.inj (hc'.1.symm.trans hpoint)
          exact absurd (congrArg some hu) hdot
      next => rfl
    | member name member =>
      obtain ⟨hcurrent, hrest⟩ := hahead
      obtain ⟨c₁, hname, hpoint, hrest⟩ := advance_iff.mpr hrest
      obtain ⟨c₂, hdot, hmember, hrest⟩ := advance_iff.mpr hrest
      obtain ⟨c', hlast, hc'⟩ := advance_iff.mpr hrest
      exact ⟨c', term_of_member hcurrent hname hpoint hdot hmember hlast, hc'⟩

theorem bias_iff : c.bias = .ok b ↔ ∃ us, Bias us b ∧ c.Ahead us := by
  constructor
  · intro h
    unfold bias at h
    split at h
    next hplus =>
      obtain ⟨c₁, hadvance, h⟩ := bind_eq_ok.mp h
      obtain ⟨⟨v, c₂⟩, hliteral, h⟩ := bind_eq_ok.mp h
      simp only [pure_bind] at h
      split at h
      next hend =>
        cases h
        have hend : c₂.Ahead [] := hend
        obtain ⟨ts, hts, hahead⟩ := literal_iff.mp ⟨c₂, hliteral, hend⟩
        rw [List.append_nil] at hahead
        exact ⟨_, .some hts, hplus, advance_iff.mp ⟨c₁, hadvance, hahead⟩⟩
      next => cases h
    next =>
      simp only [pure_bind] at h
      split at h
      next hend =>
        cases h
        exact ⟨[], .none, hend⟩
      next => cases h
  · rintro ⟨us, hbias, hahead⟩
    cases hbias with
    | none =>
      have hend : c.current = none := hahead
      rw [bias, hend]
      simp only [pure_bind, hend]
      rfl
    | @some ts v hts =>
      obtain ⟨hplus, hrest⟩ := hahead
      obtain ⟨c₁, hadvance, hahead⟩ := advance_iff.mpr hrest
      obtain ⟨c₂, hliteral, hend⟩ := literal_iff.mpr ⟨ts, hts, (List.append_nil ts).symm ▸ hahead⟩
      have hend : c₂.current = none := hend
      rw [bias, hplus]
      refine bind_eq_ok.mpr ⟨c₁, hadvance, bind_eq_ok.mpr ⟨(v, c₂), hliteral, ?_⟩⟩
      simp only [pure_bind, hend]
      rfl

end Cursor

/-- A source that is the form of a term and of what is added to it. -/
def Parsed (source : String) (t : Term) (b : Option Value) : Prop :=
  ∃ ts us, Term.Form ts t ∧ Bias us b ∧ Lexed source.toList (ts ++ us)

theorem parsed_iff {source : String} {t : Term} {b : Option Value} : Parsed source t b ↔
    ∃ c c', Cursor.start source = .ok c ∧ c.term = .ok (t, c') ∧ c'.bias = .ok b := by
  have hstart {ts : List Token} : (∃ c, Cursor.start source = .ok c ∧ c.Ahead ts) ↔ Lexed source.toList ts :=
    Cursor.advance_iff
  constructor
  · rintro ⟨ts, us, hterm, hbias, hlexed⟩
    have hdot : us.head? ≠ some (.mark .dot) := by cases hbias <;> simp
    obtain ⟨c, hc, hahead⟩ := hstart.mpr hlexed
    obtain ⟨c', hread, hahead⟩ := (Cursor.term_iff hdot).mpr ⟨ts, hterm, hahead⟩
    exact ⟨c, c', hc, hread, Cursor.bias_iff.mpr ⟨us, hbias, hahead⟩⟩
  · rintro ⟨c, c', hc, hread, hbias⟩
    obtain ⟨us, hbias, hahead⟩ := Cursor.bias_iff.mp hbias
    have hdot : us.head? ≠ some (.mark .dot) := by cases hbias <;> simp
    obtain ⟨ts, hterm, hahead⟩ := (Cursor.term_iff hdot).mp ⟨c', hread, hahead⟩
    exact ⟨ts, us, hterm, hbias, hstart.mp ⟨c, hc, hahead⟩⟩

/-- A member access in front that is read: what follows it is a token, or there is none. -/
def ReadsMember (source operand member : String) : Prop :=
  ∃ front rest, source.toList = front ++ rest ∧ Lexed front [.name operand, .mark .dot, .name member] ∧
    RunsOut Token.isNamePart rest ∧ ∃ read, Token.next source rest = .ok read

/-- Nothing but such tokens in front is taken for a member access. -/
theorem readsMember_iff {source operand member : String} : ReadsMember source operand member ↔
    ∃ c c', Cursor.start source = .ok c ∧ c.term = .ok (.member operand member, c') := by
  constructor
  · rintro ⟨front, rest, hcs, hlexed, hends, read, hread⟩
    obtain ⟨c, front₁, hstart, hname, hrest, hlexed⟩ := Cursor.advance_front (c := ⟨source, none, source.toList⟩) hcs
      hlexed hends
    obtain ⟨c₁, front₂, hadvance, hpoint, hrest₁, hlexed⟩ := Cursor.advance_front hrest hlexed trivial
    obtain ⟨c₂, front₃, hdot, hmember, hrest₂, hblanks⟩ := Cursor.advance_front hrest₁ hlexed hends
    have hsource : c₂.source = source := by
      rw [Cursor.advance_source hdot, Cursor.advance_source hadvance, Cursor.advance_source hstart]
    have hlast : c₂.advance = .ok { c₂ with current := read.1, rest := read.2 } := by
      refine bind_eq_ok.mpr ⟨read, ?_, rfl⟩
      rw [hsource, hrest₂, Token.next_append_of_blank (lexed_nil.mp hblanks), hread]
    exact ⟨c, _, hstart, Cursor.term_of_member hname hadvance hpoint hdot hmember hlast⟩
  · rintro ⟨c, c', hstart, hterm⟩
    obtain ⟨v, h, -⟩ | ⟨name, h, -⟩ | ⟨_, _, c₁, c₂, h, ⟨hname, hadvance⟩, ⟨hpoint, hdot⟩, hmember, hlast⟩ :=
      Cursor.term_cases hterm
    · cases h
    · cases h
    · cases h
      have hnil : Lexed [] [] := lexed_nil.mpr (by simp)
      obtain ⟨front, hfront, hlexed⟩ := Cursor.front_of_advance hdot hmember (List.nil_append c₂.rest).symm hnil
      obtain ⟨front, hfront, hlexed⟩ := Cursor.front_of_advance hadvance hpoint hfront hlexed
      obtain ⟨front, hcs, hlexed⟩ := Cursor.front_of_advance hstart hname hfront hlexed
      have hsource : c₂.source = source := by
        rw [Cursor.advance_source hdot, Cursor.advance_source hadvance, Cursor.advance_source hstart]
      obtain ⟨read, hread, -⟩ := bind_eq_ok.mp hlast
      refine ⟨front, c₂.rest, hcs, hlexed, ?_, read, hsource ▸ hread⟩
      obtain ⟨hnone, -⟩ | ⟨t, _, _, hcurrent, -, -, -, hends⟩ := Cursor.advance_cases hdot
      · cases hnone.symm.trans hmember
      · cases hcurrent.symm.trans hmember
        exact hends

end EventTrace
