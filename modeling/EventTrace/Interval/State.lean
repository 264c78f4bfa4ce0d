import EventTrace.Scalar
/-! What is known of the intervals of one slot. -/
namespace EventTrace

structure IntervalState (α : Type) where
  running : Bool
  startTime : α
  startCaption : String
  count : Nat
  total : α
  min : α
  max : α
  /-- Start times of the shortest and the longest interval. -/
  minTime : α
  maxTime : α
  /-- Captions of their starts and stops. -/
  minCaptions : String × String
  maxCaptions : String × String
  /-- Durations and start times of the first and the last interval. -/
  first : α
  last : α
  firstTime : α
  lastTime : α

namespace IntervalState

variable {α : Type} [Scalar α]

def empty : IntervalState α :=
  let z : α := Scalar.ofInt 0
  ⟨false, z, "", 0, z, z, z, z, z, ("", ""), ("", ""), z, z, z, z⟩

def start (s : IntervalState α) (time : α) (caption : String) : IntervalState α :=
  if s.running then s else { s with running := true, startTime := time, startCaption := caption }

/-- Takes in the duration of an interval that began at the start time. The first interval is the shortest and the
longest so far; later ones have to be strictly shorter or longer. -/
def complete (s : IntervalState α) (duration : α) (caption : String) : IntervalState α :=
  let seeded := s.count == 0
  let captions := (s.startCaption, caption)
  let shorter := seeded || Scalar.lt duration s.min
  let longer := seeded || Scalar.lt s.max duration
  { s with
    running := false
    count := s.count + 1
    total := s.total + duration
    min := if shorter then duration else s.min
    minTime := if shorter then s.startTime else s.minTime
    minCaptions := if shorter then captions else s.minCaptions
    max := if longer then duration else s.max
    maxTime := if longer then s.startTime else s.maxTime
    maxCaptions := if longer then captions else s.maxCaptions
    first := if seeded then duration else s.first
    firstTime := if seeded then s.startTime else s.firstTime
    last := duration
    lastTime := s.startTime }

def stop (s : IntervalState α) (time : α) (caption : String) : IntervalState α :=
  if s.running then s.complete (time - s.startTime) caption else s

def average (s : IntervalState α) : α :=
  if s.count = 0 then Scalar.ofInt 0 else s.total / Scalar.ofInt s.count

def minStopTime (s : IntervalState α) : α := s.minTime + s.min

def maxStopTime (s : IntervalState α) : α := s.maxTime + s.max

end IntervalState
end EventTrace
