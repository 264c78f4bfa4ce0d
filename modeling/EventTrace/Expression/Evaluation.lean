import EventTrace.Expression.Term
import EventTrace.Record.Basic
import EventTrace.Schema.Typedef
/-! The value of an expression for one record. The offset of a field is an expression itself, so evaluation nests; the
number of levels is bounded. -/
namespace EventTrace

/-- What expressions are evaluated against: operand words, the typedefs bound to them, and all typedefs. -/
structure Context where
  operands : Operands := fun _ => 0
  bindings : Std.ExtTreeMap String String := ∅
  typedefs : TypedefTable := ∅

namespace Context

def operand (ctx : Context) (name : String) : Except RenderFault Int64 :=
  match Operand.ofName? name with
  | some o => .ok (ctx.operands o)
  | none => .error (.form (.unknownIdentifier name))

def member (ctx : Context) (operand member : String) : Except RenderFault (Typedef × Member) :=
  match ctx.bindings[operand]? with
  | none => .error (.field (.unbound operand))
  | some typedef =>
    match ctx.typedefs.member? typedef member with
    | none => .error (.field (.noMember typedef member))
    | some found => .ok found

def offset (typedef member : String) : Value → Except RenderFault Nat
  | .float _ => .error (.form (.integerOffsetExpected typedef member))
  | .integer n =>
    if 0 ≤ n.toInt ∧ n.toInt < UInt32.size then .ok n.toInt.toNat
    else .error (.field (.offsetOutOfRange typedef member n))

def field (ctx : Context) (evaluate : String → Except RenderFault Value) (operand member : String) :
    Except RenderFault Value := do
  let word ← ctx.operand operand
  let (t, m) ← ctx.member operand member
  let offset ← offset t.name member (← evaluate m.offset)
  match m.type.extract (t.order m) word.toUInt64.toUInt32 offset with
  | some n => .ok (.integer n)
  | none => .error (.field (.exceedsWord t.name member offset))

def term (ctx : Context) (evaluate : String → Except RenderFault Value) : Term → Except RenderFault Value
  | .literal v => .ok v
  | .operand name => (ctx.operand name).map .integer
  | .member operand member => ctx.field evaluate operand member

/-- Evaluates with `levels` left, this expression's own included. -/
def evaluateWithin (ctx : Context) : (levels : Nat) → (source : String) → Except RenderFault Value
  | 0, source => .error (.form (.nestedTooDeeply source))
  | levels + 1, source => do
    let c ← (Cursor.start source).mapError .form
    let (t, c) ← c.term.mapError .form
    let v ← ctx.term (ctx.evaluateWithin levels) t
    match ← c.bias.mapError .form with
    | some b => pure (v.add b)
    | none => pure v

/-- An expression and eight offsets within one another. -/
def levels : Nat := 9

def evaluate (ctx : Context) (source : String) : Except RenderFault Value := ctx.evaluateWithin levels source

end Context
end EventTrace
