import EventTrace.Template.Directive
/-! The segments of a template: plain text, and directives behind percent signs. Splitting never fails; an ill-formed
directive is a segment too, the last one. -/
namespace EventTrace

inductive Segment
  /-- Characters other than the percent sign, as many as there are in a row. -/
  | text (s : String)
  | percent
  /-- A percent sign at the end. -/
  | lonePercent
  /-- A percent sign and a letter that is no directive. -/
  | letter (c : Char)
  /-- A directive, perhaps with an expression in brackets. -/
  | value (d : Directive) (expression : Option String)
  /-- The name of a value: `%E[expression,reference]`. -/
  | name (expression reference : String)
  /-- A name whose reference is never closed. -/
  | openName (expression reference : String)
  | malformed (cause : FormFault)
  deriving DecidableEq

inductive Bracket
  | absent
  | unclosed (inner : List Char)
  /-- The text up to the first comma or closing bracket, that character, and what follows it. -/
  | closed (inner : List Char) (terminator : Char) (rest : List Char)

def endsExpression (c : Char) : Bool := c == ',' || c == ']'

def Bracket.ofChars : List Char → Bracket
  | '[' :: inner =>
    match inner.dropWhile (!endsExpression ·) with
    | [] => .unclosed inner
    | c :: rest => .closed (inner.takeWhile (!endsExpression ·)) c rest
  | _ => .absent

theorem length_dropWhile_le (p : Char → Bool) (cs : List Char) : (cs.dropWhile p).length ≤ cs.length :=
  (List.dropWhile_suffix p).length_le

theorem Bracket.length_rest_le {cs inner rest : List Char} {c : Char} (h : ofChars cs = .closed inner c rest) :
    rest.length ≤ cs.length := by
  unfold ofChars at h
  split at h
  next body =>
    have hd := length_dropWhile_le (!endsExpression ·) body
    split at h
    · cases h
    next e =>
      cases h
      rw [e, List.length_cons] at hd
      simp only [List.length_cons]
      omega
  · cases h

namespace Segment

def nameDirective (cs : List Char) : Segment × List Char :=
  match Bracket.ofChars cs with
  | .closed expression ',' tail =>
    match tail.dropWhile (· != ']') with
    | [] => (.openName (String.ofList expression) (String.ofList tail), [])
    | _ :: rest => (.name (String.ofList expression) (String.ofList (tail.takeWhile (· != ']'))), rest)
  | .unclosed inner => (.malformed (.openExpression (String.ofList inner)), [])
  | _ => (.malformed .referenceExpected, [])

def valueDirective (d : Directive) (cs : List Char) : Segment × List Char :=
  match Bracket.ofChars cs with
  | .absent => (.value d none, cs)
  | .closed expression ']' rest => (.value d (some (String.ofList expression)), rest)
  | .closed expression _ _ => (.malformed (.bracketExpected d.letter (String.ofList expression)), [])
  | .unclosed inner => (.malformed (.openExpression (String.ofList inner)), [])

def first (c : Char) (cs : List Char) : Segment × List Char :=
  if c == '%' then
    match cs with
    | [] => (.lonePercent, [])
    | '%' :: cs => (.percent, cs)
    | 'E' :: cs => nameDirective cs
    | c :: cs => match Directive.ofLetter? c with
      | some d => valueDirective d cs
      | none => (.letter c, cs)
  else (.text (String.ofList (c :: cs.takeWhile (· != '%'))), cs.dropWhile (· != '%'))

theorem length_nameDirective_le (cs : List Char) : (nameDirective cs).2.length ≤ cs.length := by
  unfold nameDirective
  split
  next expression tail h =>
    have := Bracket.length_rest_le h
    have hd := length_dropWhile_le (· != ']') tail
    split
    · exact Nat.zero_le _
    next e =>
      rw [e, List.length_cons] at hd
      simp only
      omega
  · exact Nat.zero_le _
  · exact Nat.zero_le _

theorem length_valueDirective_le (d : Directive) (cs : List Char) :
    (valueDirective d cs).2.length ≤ cs.length := by
  unfold valueDirective
  split
  · exact Nat.le_refl _
  next h => exact Bracket.length_rest_le h
  · exact Nat.zero_le _
  · exact Nat.zero_le _

theorem length_first_le (c : Char) (cs : List Char) : (first c cs).2.length ≤ cs.length := by
  unfold first
  split
  · split
    · exact Nat.le_refl _
    · exact Nat.le_succ _
    · exact Nat.le_succ_of_le (length_nameDirective_le _)
    · split
      · exact Nat.le_succ_of_le (length_valueDirective_le ..)
      · exact Nat.le_succ _
  · exact length_dropWhile_le ..

end Segment

def segments : List Char → List Segment
  | [] => []
  | c :: cs => (Segment.first c cs).1 :: segments (Segment.first c cs).2
termination_by cs => cs.length
decreasing_by exact Nat.lt_succ_of_le (Segment.length_first_le c cs)

end EventTrace
