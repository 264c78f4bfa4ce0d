/-! Event ids. An id packs a class (high byte), a group (bits 6 and 7), a phase (bit 5) and a slot (low four bits). Events
of the interval class start and stop the slots of a group; a stop of the last slot stops the whole group. -/
namespace EventTrace

abbrev EventId := UInt16

inductive Phase
  | start
  | stop
  deriving DecidableEq, Repr

def Phase.name : Phase → String
  | .start => "Start"
  | .stop => "Stop"

namespace EventId

def classCode (id : EventId) : Nat := id.toNat / 256

def group (id : EventId) : Nat := id.toNat / 64 % 4

def slot (id : EventId) : Nat := id.toNat % 16

def phase (id : EventId) : Phase := if id.toNat / 32 % 2 = 0 then .start else .stop

def intervalClass : Nat := 0xEF

/-- Sent when the recorder is set up; its second value is the tick frequency. -/
def initialization : EventId := 0xFF00

/-- Sent when the tick frequency changes; its first value is the new one. -/
def clock : EventId := 0xFF03

def standardOutput : EventId := 0xFE00

end EventId

inductive IntervalOperation
  | start (slot : Nat)
  | stop (slot : Nat)
  | stopAll
  deriving DecidableEq, Repr

namespace IntervalOperation

def broadcastSlot : Nat := 15

def ofId (id : EventId) : IntervalOperation :=
  match id.phase with
  | .start => .start id.slot
  | .stop => if id.slot = broadcastSlot then .stopAll else .stop id.slot

def text : IntervalOperation → String
  | .start slot => s!"Start({slot})"
  | .stop slot => s!"Stop(One({slot}))"
  | .stopAll => "Stop(All)"

end IntervalOperation
end EventTrace
