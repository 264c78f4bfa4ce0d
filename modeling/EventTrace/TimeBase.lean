import EventTrace.Decimal
import EventTrace.Log
import EventTrace.Record.Basic
/-! From ticks to seconds. Control records announce the tick frequency; each of them starts a new stretch of time where
the last one ended. -/
namespace EventTrace

structure TimeBase (α : Type) where
  /-- Seconds per tick. -/
  scale : α
  /-- The ticks at which the scale came into force. -/
  mark : UInt64
  /-- The seconds at the mark. -/
  zero : α

/-- The frequency that a record announces. A frequency of zero announces nothing. -/
def Record.frequency? (r : Record) : Option UInt32 :=
  let word :=
    if r.id = EventId.initialization then r.payload.words[1]?
    else if r.id = EventId.clock then r.payload.words[0]?
    else none
  word.filter (· != 0)

namespace TimeBase

variable {α : Type} [Scalar α]

def start (period : α) : TimeBase α := ⟨period, 0, Scalar.ofInt 0⟩

def restart (t : TimeBase α) : TimeBase α := { t with mark := 0, zero := Scalar.ofInt 0 }

/-- The distance to the mark is an integer, negative before it. -/
def seconds (t : TimeBase α) (ticks : UInt64) : α :=
  t.zero + Scalar.ofInt ((ticks.toNat : Int) - (t.mark.toNat : Int)) * t.scale

def recalibrate (t : TimeBase α) (ticks : UInt64) (frequency : UInt32) : TimeBase α where
  scale := Scalar.ofInt 1 / Scalar.ofInt (frequency.toNat : Int)
  mark := ticks
  zero := t.seconds ticks

def observe (t : TimeBase α) (r : Record) : TimeBase α :=
  match r.frequency? with
  | some frequency => t.recalibrate r.ticks frequency
  | none => t

def recalibrated (t : TimeBase α) (frequency : UInt32) : Log.Entry where
  level := .debug
  topic := .timeBase
  message := s!"Time base recalibrated at tick {t.mark.toNat}: {frequency.toNat} Hz, offset " ++
    Decimal.fixed 8 (Scalar.exact t.zero) ++ "s"

def observed (t : TimeBase α) (r : Record) : List Log.Entry :=
  match r.frequency? with
  | some frequency => [t.recalibrated frequency]
  | none => []

end TimeBase
end EventTrace
