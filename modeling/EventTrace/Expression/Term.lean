import EventTrace.Expression.Token
/-! The form of expressions: a term, and behind a plus sign a literal that is added to it. Reading keeps one token
ahead, so that what follows a term is known to be a token before the term is evaluated. -/
namespace EventTrace

inductive Term
  | literal (value : Value)
  | operand (name : String)
  | member (operand member : String)

/-- A place in an expression: the token there, absent at the end, and what follows it. -/
structure Cursor where
  source : String
  current : Option Token
  rest : List Char

namespace Cursor

def advance (c : Cursor) : Except FormFault Cursor := do
  let (current, rest) ← Token.next c.source c.rest
  pure { c with current, rest }

def start (source : String) : Except FormFault Cursor := advance ⟨source, none, source.toList⟩

def number (c : Cursor) : Except FormFault (Value × Cursor) :=
  match c.current with
  | some (.number v) => do pure (v, ← c.advance)
  | _ => .error (.literalExpected c.source)

def literal (c : Cursor) : Except FormFault (Value × Cursor) :=
  match c.current with
  | some (.mark .minus) => do
    let (v, c) ← (← c.advance).number
    pure (v.neg, c)
  | _ => c.number

def term (c : Cursor) : Except FormFault (Term × Cursor) :=
  match c.current with
  | none => .error .emptyExpression
  | some (.number _) | some (.mark .minus) => do
    let (v, c) ← c.literal
    pure (.literal v, c)
  | some (.mark m) => .error (.operandExpected m)
  | some (.name operand) => do
    let c ← c.advance
    match c.current with
    | some (.mark .dot) =>
      let c ← c.advance
      match c.current with
      | some (.name member) => pure (.member operand member, ← c.advance)
      | _ => .error (.memberExpected operand)
    | _ => pure (.operand operand, c)

def bias (c : Cursor) : Except FormFault (Option Value) := do
  let (v, c) ← match c.current with
    | some (.mark .plus) => do
      let (v, c) ← (← c.advance).literal
      pure (some v, c)
    | _ => pure (none, c)
  match c.current with
  | none => pure v
  | some _ => .error (.trailingInput c.source)

end Cursor
end EventTrace
