import EventTrace.Bytes
import EventTrace.EventId
import EventTrace.Text.Basic
/-! Trace records and their bytes. A frame is a type tag, the length of the body, and the body; the body is ticks, id and
info, then the payload. All numbers are little-endian. -/
namespace EventTrace

/-- What a record carries besides its header. Words keep the 32 bits that were recorded; a record of another type is
known by its tag alone. -/
inductive Payload
  | blob (bytes : List UInt8)
  | two (a b : UInt32)
  | four (a b c d : UInt32)
  | other (tag : UInt16)
  deriving DecidableEq, Repr

namespace Payload

def tag : Payload → UInt16
  | .blob _ => 1
  | .two .. => 2
  | .four .. => 3
  | .other tag => tag

def typeName : Payload → String
  | .blob _ => "Blob"
  | .two .. => "Two"
  | .four .. => "Four"
  | .other tag => s!"Unknown({tag.toNat})"

def words : Payload → List UInt32
  | .two a b => [a, b]
  | .four a b c d => [a, b, c, d]
  | _ => []

def wordText (name : String) (w : UInt32) : String := name ++ "=0x" ++ String.ofList (Text.hex 8 w.toNat)

def text : Payload → String
  | .blob bytes => "data=0x" ++ String.ofList (bytes.flatMap fun b => Text.hex 2 b.toNat)
  | .two a b => wordText "val1" a ++ ", " ++ wordText "val2" b
  | .four a b c d =>
    wordText "val1" a ++ ", " ++ wordText "val2" b ++ ", " ++ wordText "val3" c ++ ", " ++ wordText "val4" d
  | .other _ => ""

end Payload

inductive Operand
  | val1
  | val2
  | val3
  | val4
  deriving DecidableEq, Repr

namespace Operand

def all : List Operand := [.val1, .val2, .val3, .val4]

def name : Operand → String
  | .val1 => "val1"
  | .val2 => "val2"
  | .val3 => "val3"
  | .val4 => "val4"

def ofName? (s : String) : Option Operand := all.find? (·.name == s)

def index : Operand → Nat
  | .val1 => 0
  | .val2 => 1
  | .val3 => 2
  | .val4 => 3

end Operand

abbrev Operands := Operand → Int64

/-- The word that starts at byte `4 * i`, most significant byte first; bytes past the end are zero. -/
def blobWord (bytes : List UInt8) (i : Nat) : UInt32 :=
  UInt32.ofNat (Bytes.ofBig ((List.range 4).map fun k => bytes.getD (4 * i + k) 0))

/-- Recorded words are signed; the first eight bytes of a blob are two unsigned words. What is not there is zero. -/
def Payload.operands (p : Payload) : Operands := fun o =>
  match p with
  | .blob bytes => if o.index < 2 then (blobWord bytes o.index).toUInt64.toInt64 else 0
  | p => match p.words[o.index]? with
    | some w => w.toInt32.toInt64
    | none => 0

structure Record where
  ticks : UInt64
  id : EventId
  /-- Bit 15 marks an interrupt, the others are the length of a blob. -/
  info : UInt16
  payload : Payload
  deriving DecidableEq, Repr

namespace Record

def fromInterrupt (r : Record) : Bool := r.info.toNat / 0x8000 == 1

def dataLength (r : Record) : Nat := r.info.toNat % 0x8000

def operands (r : Record) : Operands := r.payload.operands

def printed? (r : Record) : Option (List UInt8) :=
  match r.payload with
  | .blob bytes => if r.id = EventId.standardOutput then some bytes else none
  | _ => none

/-- A blob has the length that the header gives, and the three known tags have their own shapes. -/
def WellFormed (r : Record) : Prop :=
  match r.payload with
  | .blob bytes => bytes.length = r.dataLength
  | .other tag => tag ≠ 1 ∧ tag ≠ 2 ∧ tag ≠ 3
  | _ => True

open Bytes

/-- Ticks, id and info. -/
def headerLength : Nat := 12

def wordAt (bytes : List UInt8) (i : Nat) : UInt32 := UInt32.ofNat (ofLittle ((bytes.drop (4 * i)).take 4))

def decodePayload? (tag info : UInt16) (bytes : List UInt8) : Option Payload :=
  if tag = 1 then
    let length := info.toNat % 0x8000
    if bytes.length < length then none else some (.blob (bytes.take length))
  else if tag = 2 then
    if bytes.length < 8 then none else some (.two (wordAt bytes 0) (wordAt bytes 1))
  else if tag = 3 then
    if bytes.length < 16 then none
    else some (.four (wordAt bytes 0) (wordAt bytes 1) (wordAt bytes 2) (wordAt bytes 3))
  else some (.other tag)

/-- Reads a body, whose surplus bytes do not matter; absent if it is too short. -/
def decode? (tag : UInt16) (body : List UInt8) : Option Record :=
  if body.length < headerLength then none
  else
    let info := UInt16.ofNat (ofLittle ((body.drop 10).take 2))
    (decodePayload? tag info (body.drop headerLength)).map fun payload =>
      { ticks := UInt64.ofNat (ofLittle (body.take 8))
        id := UInt16.ofNat (ofLittle ((body.drop 8).take 2))
        info
        payload }

def encodePayload : Payload → List UInt8
  | .blob bytes => bytes
  | .other _ => []
  | p => p.words.flatMap fun w => little 4 w.toNat

def encode (r : Record) : List UInt8 :=
  little 8 r.ticks.toNat ++ little 2 r.id.toNat ++ little 2 r.info.toNat ++ encodePayload r.payload

def frame (tag : UInt16) (body : List UInt8) : List UInt8 :=
  little 2 tag.toNat ++ little 2 body.length ++ body

end Record
end EventTrace
