import EventTrace.Proofs.Text.Runs
import EventTrace.Template.Segment
/-! How templates split. Main results: what is split off in front is spelled there, a template has one split into
segments, and this is the one that is found. -/
namespace EventTrace

open Text

/-- The text of an expression in a directive: neither of the characters that end it is in it. -/
def IsInner (cs : List Char) : Prop := ∀ c ∈ cs, c ≠ ',' ∧ c ≠ ']'

/-- The spelling of a segment in front of `rest`. Text is as long as it can be, and a directive takes a bracket if there
is one. An ill-formed directive takes all that is left: a bracket that is not closed, or closed by the wrong character,
or, behind the letter of names, missing. -/
inductive Segment.Spelled : (spelling rest : List Char) → Segment → Prop
  | text {run rest : List Char} (hne : run ≠ []) (hrun : ∀ c ∈ run, c ≠ '%') (hrest : ∀ c ∈ rest.head?, c = '%') :
      Spelled run rest (.text (String.ofList run))
  | percent (rest : List Char) : Spelled ['%', '%'] rest .percent
  | lonePercent : Spelled ['%'] [] .lonePercent
  | name {expression reference : List Char} (rest : List Char) (hexpression : IsInner expression)
      (hreference : ∀ c ∈ reference, c ≠ ']') :
      Spelled ('%' :: 'E' :: '[' :: (expression ++ ',' :: (reference ++ [']']))) rest
        (.name (String.ofList expression) (String.ofList reference))
  | value (d : Directive) {expression : List Char} (rest : List Char) (hexpression : IsInner expression) :
      Spelled ('%' :: d.letter :: '[' :: (expression ++ [']'])) rest (.value d (some (String.ofList expression)))
  | bare (d : Directive) {rest : List Char} (hrest : rest.head? ≠ some '[') :
      Spelled ['%', d.letter] rest (.value d none)
  | letter {c : Char} (rest : List Char) (hpercent : c ≠ '%') (hname : c ≠ 'E') (hvalue : ∀ d : Directive, c ≠ d.letter) :
      Spelled ['%', c] rest (.letter c)
  | openName {expression reference : List Char} (hexpression : IsInner expression)
      (hreference : ∀ c ∈ reference, c ≠ ']') :
      Spelled ('%' :: 'E' :: '[' :: (expression ++ ',' :: reference)) []
        (.openName (String.ofList expression) (String.ofList reference))
  | openExpression {c : Char} {inner : List Char} (hc : c = 'E' ∨ ∃ d : Directive, c = d.letter) (hinner : IsInner inner) :
      Spelled ('%' :: c :: '[' :: inner) [] (.malformed (.openExpression (String.ofList inner)))
  | bracketExpected (d : Directive) {expression : List Char} (tail : List Char) (hexpression : IsInner expression) :
      Spelled ('%' :: d.letter :: '[' :: (expression ++ ',' :: tail)) []
        (.malformed (.bracketExpected d.letter (String.ofList expression)))
  | referenceExpected {expression : List Char} (tail : List Char) (hexpression : IsInner expression) :
      Spelled ('%' :: 'E' :: '[' :: (expression ++ ']' :: tail)) [] (.malformed .referenceExpected)
  | bracketMissing {tail : List Char} (htail : tail.head? ≠ some '[') :
      Spelled ('%' :: 'E' :: tail) [] (.malformed .referenceExpected)

inductive Split : List Char → List Segment → Prop
  | nil : Split [] []
  | cons {spelling rest : List Char} {s : Segment} {ss : List Segment} (hspelled : s.Spelled spelling rest)
      (hrest : Split rest ss) : Split (spelling ++ rest) (s :: ss)

namespace Directive

theorem ofLetter?_letter (d : Directive) : ofLetter? d.letter = some d := by
  cases d <;> rfl

theorem eq_letter_of_ofLetter? {c : Char} {d : Directive} (h : ofLetter? c = some d) : c = d.letter := by
  have hletter : (d.letter == c) = true := List.find?_some (p := fun d : Directive => d.letter == c) h
  exact (eq_of_beq hletter).symm

theorem ofLetter?_eq_none {c : Char} : ofLetter? c = none ↔ ∀ d : Directive, c ≠ d.letter := by
  constructor
  · rintro h d rfl
    rw [ofLetter?_letter] at h
    cases h
  · intro h
    cases hd : ofLetter? c with
    | none => rfl
    | some d => exact absurd (eq_letter_of_ofLetter? hd) (h d)

end Directive

namespace Bracket

variable {inner rest cs : List Char} {c : Char}

theorem isInner_iff : IsInner inner ↔ ∀ c ∈ inner, (!endsExpression c) = true := by
  simp [IsInner, endsExpression]

theorem ofChars_absent (h : cs.head? ≠ some '[') : ofChars cs = .absent := by
  unfold ofChars
  split
  next => exact absurd rfl h
  next => rfl

theorem ofChars_unclosed (h : IsInner inner) : ofChars ('[' :: inner) = .unclosed inner := by
  have hdrop := dropWhile_run (isInner_iff.mp h) (runsOut_nil _)
  rw [List.append_nil] at hdrop
  rw [ofChars, hdrop]

theorem ofChars_closed (h : IsInner inner) (hc : c = ',' ∨ c = ']') :
    ofChars ('[' :: (inner ++ c :: rest)) = .closed inner c rest := by
  have hends : RunsOut (!endsExpression ·) (c :: rest) := by
    rw [runsOut_cons]
    rcases hc with rfl | rfl <;> rfl
  rw [ofChars, dropWhile_run (isInner_iff.mp h) hends, takeWhile_run (isInner_iff.mp h) hends]

/-- A bracket is absent, not closed, or closed by the first character that can. -/
theorem front_cases (cs : List Char) : cs.head? ≠ some '[' ∨ (∃ inner, cs = '[' :: inner ∧ IsInner inner) ∨
    ∃ inner c rest, cs = '[' :: (inner ++ c :: rest) ∧ IsInner inner ∧ (c = ',' ∨ c = ']') := by
  by_cases hopen : cs.head? = some '['
  · obtain ⟨body, rfl⟩ := List.head?_eq_some_iff.mp hopen
    right
    obtain hbody | ⟨inner, c, rest, rfl, hinner, hc⟩ := all_or_first (!endsExpression ·) body
    · exact .inl ⟨body, rfl, isInner_iff.mpr hbody⟩
    · refine .inr ⟨inner, c, rest, rfl, isInner_iff.mpr hinner, ?_⟩
      have hc : endsExpression c = true := by simpa using hc
      simpa [endsExpression] using hc
  · exact .inl hopen

end Bracket

namespace Segment

variable {spelling rest tail expression reference cs : List Char} {s : Segment}

theorem dropWhile_reference (h : ∀ c ∈ reference, c ≠ ']') : (reference ++ ']' :: rest).dropWhile (· != ']') = ']' :: rest :=
  dropWhile_run (by simpa using h) (runsOut_cons.mpr rfl)

theorem takeWhile_reference (h : ∀ c ∈ reference, c ≠ ']') : (reference ++ ']' :: rest).takeWhile (· != ']') = reference :=
  takeWhile_run (by simpa using h) (runsOut_cons.mpr rfl)

theorem dropWhile_openReference (h : ∀ c ∈ reference, c ≠ ']') : reference.dropWhile (· != ']') = [] := by
  simpa using dropWhile_run (p := (· != ']')) (by simpa using h) (runsOut_nil _)

theorem first_text {c : Char} (h : c ≠ '%') (cs : List Char) :
    first c cs = (.text (String.ofList (c :: cs.takeWhile (· != '%'))), cs.dropWhile (· != '%')) := by
  unfold first
  rw [if_neg (by simpa using h)]

theorem first_name (cs : List Char) : first '%' ('E' :: cs) = nameDirective cs := rfl

theorem first_value (d : Directive) (cs : List Char) : first '%' (d.letter :: cs) = valueDirective d cs := by
  cases d <;> rfl

theorem first_letter {c : Char} (hpercent : c ≠ '%') (hname : c ≠ 'E') (hvalue : ∀ d : Directive, c ≠ d.letter)
    (cs : List Char) : first '%' (c :: cs) = (.letter c, cs) := by
  have hnone : Directive.ofLetter? c = none := Directive.ofLetter?_eq_none.mpr hvalue
  unfold first
  rw [if_pos (beq_self_eq_true '%')]
  split
  next h => cases h
  next h => exact absurd (List.cons.inj h).1 hpercent
  next h => exact absurd (List.cons.inj h).1 hname
  next h =>
    cases h
    rw [hnone]

/-- What is spelled in front is what is split off. -/
theorem Spelled.first_eq (h : Spelled spelling rest s) :
    ∃ c cs, spelling = c :: cs ∧ first c (cs ++ rest) = (s, rest) := by
  cases h with
  | text hne hrun hrest =>
    obtain ⟨c, run, rfl⟩ := List.exists_cons_of_ne_nil hne
    obtain ⟨hc, hrun⟩ := List.forall_mem_cons.mp hrun
    have hrun : ∀ d ∈ run, (d != '%') = true := by simpa using hrun
    have hends : RunsOut (· != '%') rest := fun d hd => by simpa using hrest d hd
    refine ⟨c, run, rfl, ?_⟩
    rw [first_text hc, takeWhile_run hrun hends, dropWhile_run hrun hends]
  | percent => exact ⟨'%', ['%'], rfl, rfl⟩
  | lonePercent => exact ⟨'%', [], rfl, rfl⟩
  | name rest hexpression hreference =>
    refine ⟨'%', _, rfl, ?_⟩
    simp only [List.cons_append, List.append_assoc, List.nil_append, first_name, nameDirective,
      Bracket.ofChars_closed hexpression (.inl rfl), dropWhile_reference hreference, takeWhile_reference hreference]
  | value d rest hexpression =>
    refine ⟨'%', _, rfl, ?_⟩
    simp only [List.cons_append, List.append_assoc, List.nil_append, first_value, valueDirective,
      Bracket.ofChars_closed hexpression (.inr rfl)]
  | bare d hrest =>
    refine ⟨'%', [d.letter], rfl, ?_⟩
    simp only [List.cons_append, List.nil_append, first_value, valueDirective, Bracket.ofChars_absent hrest]
  | letter rest hpercent hname hvalue => exact ⟨'%', [_], rfl, first_letter hpercent hname hvalue rest⟩
  | openName hexpression hreference =>
    refine ⟨'%', _, rfl, ?_⟩
    simp only [List.append_nil, first_name, nameDirective, Bracket.ofChars_closed hexpression (.inl rfl),
      dropWhile_openReference hreference]
  | openExpression hc hinner =>
    refine ⟨'%', _, rfl, ?_⟩
    rcases hc with rfl | ⟨d, rfl⟩
    · simp only [List.append_nil, first_name, nameDirective, Bracket.ofChars_unclosed hinner]
    · simp only [List.append_nil, first_value, valueDirective, Bracket.ofChars_unclosed hinner]
  | bracketExpected d tail hexpression =>
    refine ⟨'%', _, rfl, ?_⟩
    simp only [List.append_nil, first_value, valueDirective, Bracket.ofChars_closed hexpression (.inl rfl)]
    rfl
  | referenceExpected tail hexpression =>
    refine ⟨'%', _, rfl, ?_⟩
    simp only [List.append_nil, first_name, nameDirective, Bracket.ofChars_closed hexpression (.inr rfl)]
    rfl
  | bracketMissing htail =>
    refine ⟨'%', _, rfl, ?_⟩
    simp only [List.append_nil, first_name, nameDirective, Bracket.ofChars_absent htail]

theorem exists_spelled_name (cs : List Char) :
    ∃ spelling rest s, '%' :: 'E' :: cs = spelling ++ rest ∧ Spelled spelling rest s := by
  obtain hopen | ⟨inner, rfl, hinner⟩ | ⟨inner, c, tail, rfl, hinner, rfl | rfl⟩ := Bracket.front_cases cs
  · exact ⟨_, [], _, (List.append_nil _).symm, .bracketMissing hopen⟩
  · exact ⟨_, [], _, (List.append_nil _).symm, .openExpression (.inl rfl) hinner⟩
  · obtain htail | ⟨reference, c, rest, rfl, hreference, hc⟩ := all_or_first (· != ']') tail
    · exact ⟨_, [], _, (List.append_nil _).symm, .openName hinner (by simpa using htail)⟩
    · have hc : c = ']' := by simpa using hc
      subst hc
      have hreference : ∀ d ∈ reference, d ≠ ']' := by simpa using hreference
      exact ⟨_, rest, _, by simp, .name rest hinner hreference⟩
  · exact ⟨_, [], _, (List.append_nil _).symm, .referenceExpected tail hinner⟩

theorem exists_spelled_value (d : Directive) (cs : List Char) :
    ∃ spelling rest s, '%' :: d.letter :: cs = spelling ++ rest ∧ Spelled spelling rest s := by
  obtain hopen | ⟨inner, rfl, hinner⟩ | ⟨inner, c, tail, rfl, hinner, rfl | rfl⟩ := Bracket.front_cases cs
  · exact ⟨_, cs, _, rfl, .bare d hopen⟩
  · exact ⟨_, [], _, (List.append_nil _).symm, .openExpression (.inr ⟨d, rfl⟩) hinner⟩
  · exact ⟨_, [], _, (List.append_nil _).symm, .bracketExpected d tail hinner⟩
  · exact ⟨_, tail, _, by simp, .value d tail hinner⟩

theorem exists_spelled (c : Char) (cs : List Char) :
    ∃ spelling rest s, c :: cs = spelling ++ rest ∧ Spelled spelling rest s := by
  by_cases hc : c = '%'
  · subst hc
    cases cs with
    | nil => exact ⟨_, [], _, rfl, .lonePercent⟩
    | cons c cs =>
      by_cases hpercent : c = '%'
      · subst hpercent
        exact ⟨_, cs, _, rfl, .percent cs⟩
      by_cases hname : c = 'E'
      · subst hname
        exact exists_spelled_name cs
      cases hd : Directive.ofLetter? c with
      | some d =>
        cases Directive.eq_letter_of_ofLetter? hd
        exact exists_spelled_value d cs
      | none => exact ⟨_, cs, _, rfl, .letter cs hpercent hname (Directive.ofLetter?_eq_none.mp hd)⟩
  · obtain hcs | ⟨run, d, rest, rfl, hrun, hd⟩ := all_or_first (· != '%') cs
    · have hrun : ∀ d ∈ c :: cs, d ≠ '%' := List.forall_mem_cons.mpr ⟨hc, by simpa using hcs⟩
      exact ⟨c :: cs, [], _, (List.append_nil _).symm, .text (by simp) hrun (by simp)⟩
    · have hrun : ∀ d ∈ c :: run, d ≠ '%' := List.forall_mem_cons.mpr ⟨hc, by simpa using hrun⟩
      exact ⟨c :: run, d :: rest, _, rfl, .text (by simp) hrun (by simpa using hd)⟩

end Segment

/-- A template splits into segments in one way, and these are found. -/
theorem split_iff {cs : List Char} {ss : List Segment} : Split cs ss ↔ ss = segments cs := by
  constructor
  · intro h
    induction h with
    | nil => rw [segments]
    | cons hspelled _ ih =>
      obtain ⟨c, cs, rfl, hfirst⟩ := hspelled.first_eq
      rw [List.cons_append, segments, hfirst, ih]
  · rintro rfl
    fun_induction segments cs with
    | case1 => exact .nil
    | case2 c cs ih =>
      obtain ⟨spelling, rest, s, hcs, hspelled⟩ := Segment.exists_spelled c cs
      have hfirst : Segment.first c cs = (s, rest) := by
        obtain ⟨c', tail, rfl, hfirst⟩ := hspelled.first_eq
        obtain ⟨rfl, rfl⟩ := List.cons.inj hcs
        exact hfirst
      rw [hfirst] at ih ⊢
      rw [hcs]
      exact .cons hspelled ih

end EventTrace
