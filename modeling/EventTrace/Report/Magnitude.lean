import EventTrace.Decimal
import EventTrace.Text.Basic
/-! Durations with a prefix of the international system: five significant digits, aligned in nine columns. -/
namespace EventTrace

/-- Values from `threshold` on may be shown in the band, multiplied and with its symbol in front of the unit. -/
structure Band (α : Type) where
  threshold : α
  symbol : String
  multiplier : α

namespace Magnitude

variable {α : Type} [Scalar α]

/-- The bands from the largest to the smallest, which takes all that is left. -/
def band : Nat → Band α
  | 0 => ⟨power 9, "G", power (-9)⟩
  | 1 => ⟨power 6, "M", power (-6)⟩
  | 2 => ⟨power 3, "k", power (-3)⟩
  | 3 => ⟨power 0, "", power 0⟩
  | 4 => ⟨power (-3), "m", power 3⟩
  | 5 => ⟨power (-6), "µ", power 6⟩
  | _ => ⟨Scalar.ofInt 0, "n", power 9⟩
where
  power (e : Int) : α := Scalar.ofDecimal 1 e

def unitBand : Nat := 3

def significantDigits : Nat := 5

/-- The first band whose threshold the magnitude reaches. Zero, and what is no number, have no magnitude to go by. -/
def bandOf (magnitude : α) : Nat :=
  if Scalar.le magnitude (Scalar.ofInt 0) then unitBand
  else ((List.range 7).find? fun i => Scalar.le (band i : Band α).threshold magnitude).getD unitBand

/-- How often `limit`, growing tenfold, is reached by `x`, at most `room` times. -/
def digitsBeyond (x : α) : (room : Nat) → (limit : α) → Nat
  | 0, _ => 0
  | room + 1, limit =>
    if Scalar.le limit x then digitsBeyond x room (limit * Scalar.ofInt 10) + 1 else 0

def integerDigits (x : α) : Nat := 1 + digitsBeyond x 19 (Scalar.ofInt 10)

def roundTo (decimals : Nat) (x : α) : α :=
  let factor : α := Scalar.ofInt (Nat.pow 10 decimals)
  Scalar.round (x * factor) / factor

/-- Digits before the point once `x` is rounded to five digits: one more than before if it is carried over. -/
def carriedDigits (x : α) : Nat :=
  let digits := integerDigits x
  if digits < integerDigits (roundTo (significantDigits - digits) x) then digits + 1 else digits

/-- The band in which the value has at most three digits before the point: the given one or the next larger, as far as
there is one. -/
def fit (value : α) : (start : Nat) → Nat
  | 0 => 0
  | i + 1 =>
    if 3 < carriedDigits (Scalar.abs (value * (band (i + 1)).multiplier)) then fit value i else i + 1

/-- The value in a band. The unit band has no symbol and gets a blank behind the unit, so that all units line up. -/
def renderIn (b : Band α) (value : α) (unit : String) : String :=
  let scaled := value * b.multiplier
  let decimals := significantDigits - carriedDigits (Scalar.abs scaled)
  Text.alignRight 9 (Decimal.fixed decimals (Scalar.exact scaled)) ++
    (if b.symbol.isEmpty then unit ++ " " else b.symbol ++ unit)

def render (value : α) (unit : String) : String :=
  renderIn (band (fit value (bandOf (Scalar.abs value)))) value unit

end Magnitude
end EventTrace
