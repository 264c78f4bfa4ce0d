import EventTrace.Scalar
/-! Decimal notation: with a given number of places, or with the fewest digits that read back as a given double. -/
namespace EventTrace

/-- The integer nearest to `num / den`; a tie goes to the even neighbour. -/
def roundDiv (num den : Nat) : Nat :=
  let q := num / den
  let r := num % den
  if den < 2 * r ∨ (2 * r = den ∧ q % 2 = 1) then q + 1 else q

/-- The sign is written for a negative zero too. -/
def signText (negative : Bool) : String := if negative then "-" else ""

namespace Decimal

def pointed (places n : Nat) : List Char :=
  let whole := Nat.toDigits 10 (n / Nat.pow 10 places)
  if places = 0 then whole
  else whole ++ '.' :: (Nat.toDigits 10 (n % Nat.pow 10 places)).leftpad places '0'

def fixed (places : Nat) : Exact → String
  | .nan => "NaN"
  | .infinite negative => signText negative ++ "inf"
  | .finite negative num den =>
    signText negative ++ String.ofList (pointed places (roundDiv (num * Nat.pow 10 places) den))

/-- Digits and exponent of a positive number: `digits * 10 ^ exponent`, the last digit not zero. -/
structure Scientific where
  digits : Nat
  exponent : Int
  deriving DecidableEq, Repr

inductive Tie
  | even
  | up
  deriving DecidableEq, Repr

/-- The numbers that round to the double `m * 2 ^ q`, in units of `2 ^ (q - 2)`: half a unit of the last place on
either side, but only a quarter below a power of two. The ends round to it only if `m` is even. -/
structure Interval where
  low : Nat
  value : Nat
  high : Nat
  closed : Bool

def Interval.ofBinary (m : Nat) (q : Int) : Interval where
  low := if m = Binary64.hiddenBit ∧ -1074 < q then 4 * m - 1 else 4 * m - 2
  value := 4 * m
  high := 4 * m + 2
  closed := m % 2 == 0

/-- The interval measured in steps of `10 ^ e`: `x` units of `2 ^ b` are `x * num / den` steps. -/
structure Measure where
  num : Nat
  den : Nat

def Measure.ofExponents (b e : Int) : Measure where
  num := (if 0 ≤ b then Nat.pow 2 b.toNat else 1) * (if e < 0 then Nat.pow 10 (-e).toNat else 1)
  den := (if b < 0 then Nat.pow 2 (-b).toNat else 1) * (if 0 ≤ e then Nat.pow 10 e.toNat else 1)

def Interval.holds (i : Interval) (s : Measure) (step : Nat) : Bool :=
  if i.closed then i.low * s.num ≤ step * s.den && step * s.den ≤ i.high * s.num
  else i.low * s.num < step * s.den && step * s.den < i.high * s.num

/-- The multiple of the step that lies in the interval and is nearest to its value, if there is one: it is a
neighbour of the value. -/
def Interval.nearest (i : Interval) (tie : Tie) (s : Measure) : Option Nat :=
  let below := i.value * s.num / s.den
  let above := below + 1
  match i.holds s below, i.holds s above with
  | false, false => none
  | true, false => some below
  | false, true => some above
  | true, true =>
    let down := i.value * s.num - below * s.den
    let up := above * s.den - i.value * s.num
    if down < up then some below
    else if up < down then some above
    else match tie with
      | .up => some above
      | .even => some (if below % 2 = 0 then below else above)

def stripZeros : (fuel : Nat) → Scientific → Scientific
  | 0, d => d
  | fuel + 1, d => if d.digits % 10 = 0 then stripZeros fuel ⟨d.digits / 10, d.exponent + 1⟩ else d

/-- The decimal exponent of the leading digit, from an estimate that is at most one too small. -/
def leadingExponent (m : Nat) (q : Int) : Int :=
  let guess := ((m.log2 + q) * 30103 - 99999) / 100000
  let s := Measure.ofExponents q (guess + 1)
  if s.den ≤ m * s.num then
    let t := Measure.ofExponents q (guess + 2)
    if t.den ≤ m * t.num then guess + 2 else guess + 1
  else guess

/-- Tries one digit, two digits, and so on; seventeen always suffice. -/
def search (i : Interval) (tie : Tie) (b lead : Int) : (fuel : Nat) → (count : Nat) → Scientific
  | 0, count =>
    let e := lead - (count : Int)
    let s := Measure.ofExponents b e
    ⟨i.value * s.num / s.den, e⟩
  | fuel + 1, count =>
    let e := lead - (count : Int)
    match i.nearest tie (.ofExponents b e) with
    | some n => stripZeros 18 ⟨n, e⟩
    | none => search i tie b lead fuel (count + 1)

def shortest (tie : Tie) (m : Nat) (q : Int) : Scientific :=
  search (.ofBinary m q) tie (q - 2) (leadingExponent m q) 17 0

/-- The choices of a number format. `positional` gives the decimal exponents of the leading digit that are written
without an exponent, all of them if absent. -/
structure Spelling where
  positional : Option (Int × Int)
  /-- Whole numbers end in `.0`. -/
  wholePoint : Bool
  /-- A positive exponent carries its sign. -/
  plus : Bool
  tie : Tie
  nan : String
  infinite : Bool → String

def plainForm (wholePoint : Bool) (d : Scientific) : String :=
  let ds := Nat.toDigits 10 d.digits
  if 0 ≤ d.exponent then
    String.ofList (ds ++ List.replicate d.exponent.toNat '0') ++ (if wholePoint then ".0" else "")
  else String.ofList (pointed (-d.exponent).toNat d.digits)

def exponentForm (plus : Bool) (d : Scientific) : String :=
  let ds := Nat.toDigits 10 d.digits
  let lead := d.exponent + ds.length - 1
  let mantissa := match ds with
    | [] => []
    | [c] => [c]
    | c :: rest => c :: '.' :: rest
  let sign := if lead < 0 then "-" else if plus then "+" else ""
  String.ofList mantissa ++ "e" ++ sign ++ toString lead.natAbs

namespace Spelling

def write (s : Spelling) : Binary64 → String
  | .nan => s.nan
  | .infinite negative => s.infinite negative
  | .finite negative m q =>
    if m = 0 then signText negative ++ (if s.wholePoint then "0.0" else "0")
    else
      let d := shortest s.tie m q
      let lead := d.exponent + (Nat.toDigits 10 d.digits).length - 1
      let plain := match s.positional with
        | none => true
        | some (least, greatest) => least ≤ lead && lead ≤ greatest
      signText negative ++ (if plain then plainForm s.wholePoint d else exponentForm s.plus d)

end Spelling
end Decimal
end EventTrace
