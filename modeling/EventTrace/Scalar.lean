/-! The arithmetic that times are kept in. It is stated once for any kind of number, so that the rules of
calibration, pairing and scaling can be read both over doubles, where every operation rounds, and over the
rationals, where none does. -/
namespace EventTrace

/-- What a double stands for; `finite negative m q` is `± m * 2 ^ q`, so a negative zero keeps its sign. -/
inductive Binary64
  | nan
  | infinite (negative : Bool)
  | finite (negative : Bool) (significand : Nat) (exponent : Int)
  deriving DecidableEq, Repr

namespace Binary64

def hiddenBit : Nat := 0x10000000000000

/-- Reads the three fields of the 64 bits. A biased exponent of zero means a subnormal number, which has no
hidden bit; one of 2047 means infinity or no number. -/
def ofBits (bits : Nat) : Binary64 :=
  let negative := bits / 0x8000000000000000 == 1
  let biased : Nat := bits / hiddenBit % 0x800
  let fraction := bits % hiddenBit
  if biased = 2047 then
    if fraction = 0 then .infinite negative else .nan
  else if biased = 0 then
    .finite negative fraction (-1074)
  else
    .finite negative (hiddenBit + fraction) ((biased : Int) - 1075)

def ofFloat (x : Float) : Binary64 := ofBits x.toBits.toNat

end Binary64

/-- The exact value of a number: a fraction with its sign apart, so that a negative zero keeps its sign. -/
inductive Exact
  | nan
  | infinite (negative : Bool)
  | finite (negative : Bool) (num den : Nat)
  deriving DecidableEq, Repr

/-- Numbers with the operations that times need. Comparison is a test, since a double may be no number. -/
class Scalar (α : Type) extends Add α, Sub α, Mul α, Div α where
  ofInt : Int → α
  /-- `ofDecimal m e` is `m * 10 ^ e`, correctly rounded. -/
  ofDecimal : Nat → Int → α
  lt : α → α → Bool
  le : α → α → Bool
  abs : α → α
  /-- The nearest integer; halves go away from zero. -/
  round : α → α
  exact : α → Exact

def Exact.ofBinary64 : Binary64 → Exact
  | .nan => .nan
  | .infinite negative => .infinite negative
  | .finite negative m q =>
    if 0 ≤ q then .finite negative (m * Nat.pow 2 q.toNat) 1 else .finite negative m (Nat.pow 2 (-q).toNat)

/-- The double nearest to `m * 10 ^ e`. Far outside the range of doubles the answer is known without the power
of ten, which would be too long to write down. -/
def nearestDouble (m : Nat) (e : Int) : Float :=
  let places := (Nat.toDigits 10 m).length
  if m = 0 ∨ e + places < -330 then 0
  else if 310 < e + places then 1 / 0
  else Float.ofScientific m (decide (e < 0)) e.natAbs

instance : Scalar Float where
  ofInt := Float.ofInt
  ofDecimal := nearestDouble
  lt x y := x < y
  le x y := x ≤ y
  abs := Float.abs
  round := Float.round
  exact x := .ofBinary64 (.ofFloat x)

def roundAway (x : Rat) : Rat :=
  if 0 ≤ x then ((x + 1 / 2).floor : Rat) else -((-x + 1 / 2).floor : Rat)

instance : Scalar Rat where
  ofInt n := n
  ofDecimal m e := if 0 ≤ e then (m * Nat.pow 10 e.toNat : Nat) else (m : Rat) / (Nat.pow 10 e.natAbs : Nat)
  lt x y := decide (x < y)
  le x y := decide (x ≤ y)
  abs x := if 0 ≤ x then x else -x
  round := roundAway
  exact x := .finite (decide (x < 0)) x.num.natAbs x.den

end EventTrace
