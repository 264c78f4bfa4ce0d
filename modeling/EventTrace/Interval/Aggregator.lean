import EventTrace.Decimal
import EventTrace.EventId
import EventTrace.Interval.State
import EventTrace.Log
import EventTrace.Record.Basic
/-! The intervals of all slots: four groups of sixteen. -/
namespace EventTrace

structure Aggregator (α : Type) where
  groups : List (List (IntervalState α))

structure SlotStatistics (α : Type) where
  group : Nat
  slot : Nat
  state : IntervalState α

/-- Groups are lettered; the letter wraps at 256. -/
def SlotStatistics.label {α : Type} (s : SlotStatistics α) : String :=
  String.singleton (Char.ofNat ((65 + s.group) % 256)) ++ s!"({s.slot})"

namespace Aggregator

variable {α : Type} [Scalar α]

def groupCount : Nat := 4

def slotCount : Nat := 16

def empty : Aggregator α := ⟨List.replicate groupCount (List.replicate slotCount .empty)⟩

/-- Applies an operation to a group; groups and slots that do not exist are left alone. -/
def apply (a : Aggregator α) (group : Nat) (op : IntervalOperation) (time : α) (caption : String) : Aggregator α :=
  ⟨a.groups.modify group fun slots =>
    match op with
    | .start slot => slots.modify slot (·.start time caption)
    | .stop slot => slots.modify slot (·.stop time caption)
    | .stopAll => slots.map (·.stop time caption)⟩

def record (a : Aggregator α) (id : EventId) (time : α) (caption : String) : Aggregator α :=
  if id.classCode = EventId.intervalClass then a.apply id.group (.ofId id) time caption else a

def recorded (id : EventId) (time : α) : List Log.Entry :=
  if id.classCode = EventId.intervalClass then
    [⟨.trace, .intervals, s!"Interval {(IntervalOperation.ofId id).text} group {id.group} at " ++
      Decimal.fixed 8 (Scalar.exact time) ++ "s"⟩]
  else []

def state? (a : Aggregator α) (group slot : Nat) : Option (IntervalState α) := do
  (← a.groups[group]?)[slot]?

def completed (a : Aggregator α) : List (SlotStatistics α) :=
  (a.groups.zipIdx.flatMap fun (slots, group) =>
    slots.zipIdx.map fun (state, slot) => ⟨group, slot, state⟩).filter (0 < ·.state.count)

def intervals (a : Aggregator α) : Nat := a.groups.flatten.foldr (fun s n => s.count + n) 0

end Aggregator
end EventTrace
