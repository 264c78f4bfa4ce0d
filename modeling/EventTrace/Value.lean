import EventTrace.Decimal
/-! The values of expressions: integers of 64 bits and doubles. -/
namespace EventTrace

inductive Value
  | integer (n : Int64)
  | float (x : Float)

namespace Value

def zero : Value := .integer 0

def isInteger : Value → Bool
  | .integer _ => true
  | .float _ => false

def isFloat (v : Value) : Bool := !v.isInteger

/-- A double loses its fraction and is brought into range; one that is no number gives zero. -/
def toInt64 : Value → Int64
  | .integer n => n
  | .float x => x.toInt64

def toUInt64 : Value → UInt64
  | .integer n => n.toUInt64
  | .float x => x.toUInt64

def toFloat : Value → Float
  | .integer n => Float.ofInt n.toInt
  | .float x => x

/-- Integers wrap; a sum with a double is a double. -/
def add : Value → Value → Value
  | .integer a, .integer b => .integer (a + b)
  | a, b => .float (a.toFloat + b.toFloat)

def neg : Value → Value
  | .integer n => .integer (-n)
  | .float x => .float (-x)

def text : Value → String
  | .integer n => toString n.toInt
  | .float x => Decimal.fixed 6 (.ofBinary64 (.ofFloat x))

end Value
end EventTrace
