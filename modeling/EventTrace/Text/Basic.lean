/-! Text as lists of characters: brought to a width, freed of blanks, digits of numbers, and escapes. -/
namespace EventTrace.Text

def alignRight (width : Nat) (s : String) : String := String.ofList (s.toList.leftpad width ' ')

def alignLeft (width : Nat) (s : String) : String := String.ofList (s.toList.rightpad width ' ')

/-- The Unicode property White_Space. -/
def isBlank (c : Char) : Bool :=
  let n := c.toNat
  (9 ≤ n && n ≤ 13) || n == 0x20 || n == 0x85 || n == 0xA0 || n == 0x1680 || (0x2000 ≤ n && n ≤ 0x200A)
    || n == 0x2028 || n == 0x2029 || n == 0x202F || n == 0x205F || n == 0x3000

def trim (cs : List Char) : List Char :=
  ((cs.dropWhile isBlank).reverse.dropWhile isBlank).reverse

def hex (width n : Nat) : List Char := (Nat.toDigits 16 n).leftpad width '0'

def capitalHex (width n : Nat) : List Char := (hex width n).map Char.toUpper

def octal (width n : Nat) : List Char := (Nat.toDigits 8 n).leftpad width '0'

def isHexDigit (c : Char) : Bool :=
  c.isDigit || ('a' ≤ c && c ≤ 'f') || ('A' ≤ c && c ≤ 'F')

def hexValue (c : Char) : Nat :=
  if c.isDigit then c.toNat - '0'.toNat
  else if 'a' ≤ c then c.toNat - 'a'.toNat + 10
  else c.toNat - 'A'.toNat + 10

/-- The number that digits of base `b` denote, most significant first. -/
def digitsValue (b : Nat) (cs : List Char) : Nat := cs.foldl (fun n c => b * n + hexValue c) 0

namespace Escape

def letter? : Char → Option Char
  | '\'' => some '\''
  | '"' => some '"'
  | '\x07' => some 'a'
  | '\x08' => some 'b'
  | '\x1b' => some 'e'
  | '\x0c' => some 'f'
  | '\n' => some 'n'
  | '\r' => some 'r'
  | '\t' => some 't'
  | '\x0b' => some 'v'
  | _ => none

/-- Keeps the text of the traced program on one line. A control character without a letter is written as three octal
digits. A backslash stays as it is. -/
def encodeChar (c : Char) : List Char :=
  match letter? c with
  | some l => ['\\', l]
  | none => if c.toNat < 0x20 then '\\' :: octal 3 c.toNat else [c]

def encode (cs : List Char) : List Char := cs.flatMap encodeChar

end Escape
end EventTrace.Text
