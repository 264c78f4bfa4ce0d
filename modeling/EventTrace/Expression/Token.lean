import EventTrace.Fault
import EventTrace.Text.Basic
import EventTrace.Value
/-! Tokens of expressions. A number takes as many characters as it can and must not run into a letter, a digit, an
underscore or another point. -/
namespace EventTrace

inductive Token
  | name (text : String)
  | number (value : Value)
  | mark (m : Mark)

namespace Token

def isNameStart (c : Char) : Bool := c.isAlpha || c == '_'

def isNamePart (c : Char) : Bool := c.isAlphanum || c == '_'

def isSuffix (c : Char) : Bool := isNamePart c || c == '.'

def malformed (cs : List Char) : FormFault := .malformedLiteral (String.ofList cs)

/-- A number was spelled by `spelling` and denotes `value`, if anything; `rest` follows it. What runs on directly
belongs to the malformed literal. -/
def delimited (spelling : List Char) (value : Option Value) (rest : List Char) :
    Except FormFault (Value × List Char) :=
  match rest.takeWhile isSuffix with
  | [] => match value with
    | some v => .ok (v, rest)
    | none => .error (malformed spelling)
  | suffix => .error (malformed (spelling ++ suffix))

/-- Digits of base sixteen denote the 64 bits of an integer. -/
def hexValue? (digits : List Char) : Option Value :=
  let n := Text.digitsValue 16 digits
  if digits.isEmpty || UInt64.size ≤ n then none else some (.integer (Int64.ofNat n))

def decimalValue? (digits : List Char) : Option Value :=
  let n := Text.digitsValue 10 digits
  if Int64.maxValue.toInt < n then none else some (.integer (Int64.ofNat n))

def fraction : List Char → Option (List Char) × List Char
  | '.' :: cs => (some (cs.takeWhile Char.isDigit), cs.dropWhile Char.isDigit)
  | cs => (none, cs)

def exponentMark : List Char → Option (List Char × Bool × List Char)
  | c :: cs =>
    if c == 'e' || c == 'E' then
      match cs with
      | '+' :: cs => some ([c, '+'], false, cs)
      | '-' :: cs => some ([c, '-'], true, cs)
      | cs => some ([c], false, cs)
    else none
  | [] => none

def floatValue (whole fraction : List Char) (exponent : Int) : Value :=
  .float (nearestDouble (Text.digitsValue 10 (whole ++ fraction)) (exponent - (fraction.length : Int)))

def hexNumber (opening cs : List Char) : Except FormFault (Value × List Char) :=
  let digits := cs.takeWhile Text.isHexDigit
  delimited (opening ++ digits) (hexValue? digits) (cs.dropWhile Text.isHexDigit)

def decimalNumber (cs : List Char) : Except FormFault (Value × List Char) :=
  let whole := cs.takeWhile Char.isDigit
  let (point, rest) := fraction (cs.dropWhile Char.isDigit)
  let spelling := match point with
    | some digits => whole ++ '.' :: digits
    | none => whole
  match exponentMark rest with
  | some (letters, negative, rest) =>
    let digits := rest.takeWhile Char.isDigit
    let magnitude : Int := Text.digitsValue 10 digits
    if digits.isEmpty then .error (malformed (spelling ++ letters))
    else
      delimited (spelling ++ letters ++ digits)
        (some (floatValue whole (point.getD []) (if negative then -magnitude else magnitude)))
        (rest.dropWhile Char.isDigit)
  | none =>
    let value := match point with
      | some digits => some (floatValue whole digits 0)
      | none => decimalValue? whole
    delimited spelling value rest

def readNumber : List Char → Except FormFault (Value × List Char)
  | '0' :: 'x' :: cs => hexNumber ['0', 'x'] cs
  | '0' :: 'X' :: cs => hexNumber ['0', 'X'] cs
  | cs => decimalNumber cs

/-- Reads the first token after any blanks and gives what follows it; no token is left at the end. The whole source is
there to be named in a failure. -/
def next (source : String) (cs : List Char) : Except FormFault (Option Token × List Char) :=
  match cs.dropWhile Text.isBlank with
  | [] => .ok (none, [])
  | '.' :: cs => .ok (some (.mark .dot), cs)
  | '+' :: cs => .ok (some (.mark .plus), cs)
  | '-' :: cs => .ok (some (.mark .minus), cs)
  | c :: cs =>
    if isNameStart c then
      .ok (some (.name (String.ofList ((c :: cs).takeWhile isNamePart))), (c :: cs).dropWhile isNamePart)
    else if c.isDigit then (readNumber (c :: cs)).map fun (v, rest) => (some (.number v), rest)
    else .error (.unexpectedCharacter c source)

end Token
end EventTrace
