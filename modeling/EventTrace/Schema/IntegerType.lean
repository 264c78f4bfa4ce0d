import EventTrace.Bytes
/-! Integer types of fields, and their extraction from a word. -/
namespace EventTrace

/-- Where byte offsets of a word count from: its least or its most significant byte. -/
inductive ByteOrder
  | little
  | big
  deriving DecidableEq, Repr

inductive IntegerType
  | uint8
  | int8
  | uint16
  | int16
  | uint32
  | int32
  deriving DecidableEq, Repr

namespace IntegerType

def all : List IntegerType := [.uint8, .int8, .uint16, .int16, .uint32, .int32]

def name : IntegerType → String
  | .uint8 => "uint8_t"
  | .int8 => "int8_t"
  | .uint16 => "uint16_t"
  | .int16 => "int16_t"
  | .uint32 => "uint32_t"
  | .int32 => "int32_t"

def ofName? (s : String) : Option IntegerType := all.find? (·.name == s)

def width : IntegerType → Nat
  | .uint8 | .int8 => 1
  | .uint16 | .int16 => 2
  | .uint32 | .int32 => 4

def signed : IntegerType → Bool
  | .int8 | .int16 | .int32 => true
  | _ => false

/-- The number that `width` bytes with value `n` stand for: two's complement if the type is signed. -/
def ofBytes (t : IntegerType) (n : Nat) : Int64 :=
  if t.signed && Bytes.capacity t.width ≤ 2 * n then Int64.ofInt (n - Bytes.capacity t.width) else Int64.ofNat n

/-- The field of type `t` at byte `offset` of `word`; absent if it does not lie within the word. -/
def extract (t : IntegerType) (order : ByteOrder) (word : UInt32) (offset : Nat) : Option Int64 :=
  if 4 < offset + t.width then none
  else
    let below := match order with
      | .little => offset
      | .big => 4 - offset - t.width
    some (t.ofBytes (word.toNat / Bytes.capacity below % Bytes.capacity t.width))

end IntegerType
end EventTrace
