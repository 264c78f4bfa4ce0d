import EventTrace.Bytes
import EventTrace.Fault
import EventTrace.StringTable
import EventTrace.Text.Basic
import EventTrace.Value
/-! Directives: the ways a template can show a value. -/
namespace EventTrace

inductive Directive
  | signed
  | unsigned
  | hex
  | text
  /-- The text at an address, or the address if there is none. -/
  | function
  | object
  | unsupported
  | ipv4
  /-- The lower half of an address of 128 bits. -/
  | ipv6
  | mac
  | address
  | plain
  | ignored
  deriving DecidableEq, Repr

namespace Directive

def all : List Directive :=
  [.signed, .unsigned, .hex, .text, .function, .object, .unsupported, .ipv4, .ipv6, .mac, .address, .plain, .ignored]

def letter : Directive → Char
  | .signed => 'd'
  | .unsigned => 'u'
  | .hex => 'x'
  | .text => 't'
  | .function => 'F'
  | .object => 'N'
  | .unsupported => 'C'
  | .ipv4 => 'I'
  | .ipv6 => 'J'
  | .mac => 'M'
  | .address => 'S'
  | .plain => 'T'
  | .ignored => 'U'

def ofLetter? (c : Char) : Option Directive := all.find? (·.letter == c)

/-- `count` groups of `2 ^ size` values each, the highest first, with at least `width` digits. -/
def groups (count size width : Nat) (bits : Nat) : List (List Char) :=
  (List.range count).reverse.map fun i => Text.hex width (bits / Nat.pow 2 (size * i) % Nat.pow 2 size)

def textOrAddress (resolver : Resolver) (bits : UInt64) : String :=
  let text := resolver bits
  if text.isEmpty then "0x" ++ String.ofList (Text.hex 8 bits.toNat) else text

def render (resolver : Resolver) (d : Directive) (v : Value) : Except RenderFault String :=
  let bits := v.toUInt64
  match d with
  | .signed => .ok (toString v.toInt64.toInt)
  | .unsigned => .ok (toString bits.toNat)
  | .hex => .ok ("0x" ++ String.ofList (Text.hex 2 bits.toNat))
  | .text => .ok (resolver bits)
  | .function | .object => .ok (textOrAddress resolver bits)
  | .unsupported => .error (.form .unsupportedDirective)
  | .ipv4 => .ok (".".intercalate ((List.range 4).reverse.map fun i => toString (bits.toNat / Bytes.capacity i % 256)))
  | .ipv6 => .ok (":".intercalate ((groups 4 16 1 bits.toNat).map String.ofList))
  | .mac => .ok ("-".intercalate ((groups 6 8 2 bits.toNat).map String.ofList))
  | .address => .ok (String.ofList (Text.hex 8 bits.toNat))
  | .plain => .ok v.text
  | .ignored => .ok ""

def renderLetter (resolver : Resolver) (c : Char) (v : Value) : Except RenderFault String :=
  match ofLetter? c with
  | some d => d.render resolver v
  | none => .ok (String.singleton c)

end Directive
end EventTrace
