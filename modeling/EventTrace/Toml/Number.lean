import EventTrace.Datum
import EventTrace.Scalar
import EventTrace.Text.Basic
import EventTrace.Toml.Text
/-! Numbers, dates and times of TOML documents. -/
namespace EventTrace.Toml

/-- Digits with single underscores between them; the first digit was read already. -/
def moreDigits (isDigit : Char → Bool) : Scan (List Char)
  | '_' :: c :: cs => do
    if !isDigit c then none
    let (digits, rest) ← moreDigits isDigit cs
    pure (c :: digits, rest)
  | c :: cs =>
    if isDigit c then do
      let (digits, rest) ← moreDigits isDigit cs
      pure (c :: digits, rest)
    else if c == '_' then none
    else some ([], c :: cs)
  | [] => some ([], [])

def digits (isDigit : Char → Bool) : Scan (List Char)
  | c :: cs => do
    if !isDigit c then none
    let (digits, rest) ← moreDigits isDigit cs
    pure (c :: digits, rest)
  | [] => none

def integer? (n : Int) : Option Datum := 
  if Int64.minValue.toInt ≤ n ∧ n ≤ Int64.maxValue.toInt then some (.integer n) else none

def based (b : Nat) (isDigit : Char → Bool) : Scan Datum := fun cs => do
  let (ds, rest) ← digits isDigit cs
  pure (← integer? (Text.digitsValue b ds), rest)

def sign : List Char → Bool × List Char
  | '-' :: cs => (true, cs)
  | '+' :: cs => (false, cs)
  | cs => (false, cs)

def wholeDigits : Scan (List Char)
  | '0' :: cs => some (['0'], cs)
  | cs => digits Char.isDigit cs

def fraction : Scan (Option (List Char))
  | '.' :: cs => do
    let (ds, rest) ← digits Char.isDigit cs
    pure (some ds, rest)
  | cs => some (none, cs)

def exponent : Scan (Option Int)
  | c :: cs =>
    if c == 'e' || c == 'E' then do
      let (negative, cs) := sign cs
      let (ds, rest) ← digits Char.isDigit cs
      let n : Int := Text.digitsValue 10 ds
      pure (some (if negative then -n else n), rest)
    else some (none, c :: cs)
  | [] => some (none, [])

/-- A number of base ten behind its sign. What is too large for a double is refused, unless it is negative. -/
def decimal (negative : Bool) : Scan Datum := fun cs => do
  let (whole, cs) ← wholeDigits cs
  let (point, cs) ← fraction cs
  let (power, cs) ← exponent cs
  match point, power with
  | none, none =>
    let n : Int := Text.digitsValue 10 whole
    pure (← integer? (if negative then -n else n), cs)
  | _, _ =>
    let places := point.getD []
    let x := nearestDouble (Text.digitsValue 10 (whole ++ places)) (power.getD 0 - (places.length : Int))
    if x == 1 / 0 && !negative then none
    else pure (.float (if negative then -x else x), cs)

def number : Scan Datum
  | '0' :: 'x' :: cs => based 16 Text.isHexDigit cs
  | '0' :: 'o' :: cs => based 8 (fun c => '0' ≤ c && c ≤ '7') cs
  | '0' :: 'b' :: cs => based 2 (fun c => c == '0' || c == '1') cs
  | cs =>
    let (negative, cs) := sign cs
    match cs with
    | 'i' :: 'n' :: 'f' :: cs => some (.float (if negative then -(1 / 0) else 1 / 0), cs)
    | 'n' :: 'a' :: 'n' :: cs => some (.float (0 / 0), cs)
    | cs => decimal negative cs

def digitsBetween (count low high : Nat) : Scan Nat := fun cs =>
  let ds := cs.take count
  let n := Text.digitsValue 10 ds
  if ds.length = count ∧ ds.all Char.isDigit ∧ low ≤ n ∧ n ≤ high then some (n, cs.drop count) else none

def char (c : Char) : Scan Unit
  | d :: cs => if c == d then some ((), cs) else none
  | [] => none

def daysOfMonth (year month : Nat) : Nat :=
  let leap := year % 4 == 0 && (year % 100 != 0 || year % 400 == 0)
  if month = 2 then (if leap then 29 else 28)
  else if month = 4 ∨ month = 6 ∨ month = 9 ∨ month = 11 then 30
  else 31

def date : Scan Unit := fun cs => do
  let (year, cs) ← digitsBetween 4 0 9999 cs
  let (_, cs) ← char '-' cs
  let (month, cs) ← digitsBetween 2 1 12 cs
  let (_, cs) ← char '-' cs
  let (_, cs) ← digitsBetween 2 1 (daysOfMonth year month) cs
  pure ((), cs)

/-- Hours, minutes, seconds, where a minute may have a leap second, and fractions of one. -/
def timeOfDay : Scan Unit := fun cs => do
  let (_, cs) ← digitsBetween 2 0 23 cs
  let (_, cs) ← char ':' cs
  let (_, cs) ← digitsBetween 2 0 59 cs
  let (_, cs) ← char ':' cs
  let (_, cs) ← digitsBetween 2 0 60 cs
  match cs with
  | '.' :: c :: rest => pure ((), if c.isDigit then rest.dropWhile Char.isDigit else cs)
  | cs => pure ((), cs)

def zone : Scan Unit
  | 'Z' :: cs | 'z' :: cs => some ((), cs)
  | '+' :: cs | '-' :: cs => do
    let (_, cs) ← digitsBetween 2 0 23 cs
    let (_, cs) ← char ':' cs
    let (_, cs) ← digitsBetween 2 0 59 cs
    pure ((), cs)
  | cs => some ((), cs)

def timeBehindDate : Scan Unit
  | c :: cs =>
    if c == 'T' || c == 't' || c == ' ' then
      match timeOfDay cs with
      | some (_, rest) => zone rest
      | none => some ((), c :: cs)
    else some ((), c :: cs)
  | [] => some ((), [])

def moment : Scan Datum := fun cs =>
  match date cs with
  | some (_, rest) => do
    let (_, rest) ← timeBehindDate rest
    pure (.moment, rest)
  | none => do
    let (_, rest) ← timeOfDay cs
    pure (.moment, rest)

end EventTrace.Toml
