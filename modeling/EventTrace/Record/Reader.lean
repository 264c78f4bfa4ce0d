import EventTrace.Log
import EventTrace.Record.Feed
/-! Reading records one after the other. A frame whose body is too short for its tag is passed over as a whole, and
answered as the end of the stream. -/
namespace EventTrace

structure Reader where
  feed : Feed
  count : Nat := 0
  /-- The unknown tags that a warning was given for. -/
  warned : List UInt16 := []
  finished : Bool := false

namespace Reader

def Entry.unsupported (tag : UInt16) (id : EventId) : Log.Entry where
  level := .warn
  topic := .records
  message := s!"Record type {tag.toNat} is not supported, decoding header only (id 0x" ++
    String.ofList (Text.capitalHex 4 id.toNat) ++ ")"

def Entry.decoded (count : Nat) (r : Record) : Log.Entry where
  level := .trace
  topic := .records
  message := s!"Record {count}: type {r.payload.typeName} id 0x" ++ String.ofList (Text.capitalHex 4 r.id.toNat) ++
    s!" ticks {r.ticks.toNat}"

def Entry.ended (count : Nat) : Log.Entry where
  level := .debug
  topic := .records
  message := s!"End of event stream after {count} records"

def unknownTag? (r : Record) : Option UInt16 :=
  match r.payload with
  | .other tag => some tag
  | _ => none

/-- A record was read: each unknown tag is warned about once. -/
def accept (r : Reader) (record : Record) : List Log.Entry × Reader :=
  let entry := Entry.decoded (r.count + 1) record
  match unknownTag? record with
  | none => ([entry], { r with count := r.count + 1 })
  | some tag =>
    if tag ∈ r.warned then ([entry], { r with count := r.count + 1 })
    else ([Entry.unsupported tag record.id, entry], { r with count := r.count + 1, warned := tag :: r.warned })

/-- Reads the next record, whether or not reading failed before. -/
def read (r : Reader) : (List Log.Entry × Except Fault Record) × Reader :=
  match r.feed.takeFrame with
  | (.error e, feed) => (([], .error e), { r with feed })
  | (.ok (tag, body), feed) =>
    match Record.decode? tag body with
    | none => (([], .error .endOfStream), { r with feed })
    | some record =>
      let (entries, r) := { r with feed }.accept record
      ((entries, .ok record), r)

/-- The next record of the iteration, which ends at the first failure; only one other than the end of the stream is
passed on. -/
def next (r : Reader) : (List Log.Entry × Option (Except Fault Record)) × Reader :=
  if r.finished then (([], none), r)
  else match r.read with
    | ((entries, .ok record), r) => ((entries, some (.ok record)), r)
    | ((entries, .error .endOfStream), r) =>
      ((entries ++ [Entry.ended r.count], none), { r with finished := true })
    | ((entries, .error e), r) => ((entries, some (.error e)), { r with finished := true })

@[simp] theorem accept_feed (r : Reader) (record : Record) : (r.accept record).2.feed = r.feed := by
  unfold accept
  split <;> (try split) <;> rfl

theorem read_pending {r r' : Reader} {entries : List Log.Entry} {record : Record}
    (h : r.read = ((entries, .ok record), r')) : r'.feed.pending.length < r.feed.pending.length := by
  unfold read at h
  split at h
  · simp at h
  next tag body feed hf =>
    split at h
    · simp at h
    next record' hd =>
      simp only [Prod.mk.injEq] at h
      rw [← h.2, accept_feed]
      exact Feed.pending_takeFrame _ hf

theorem next_pending {r r' : Reader} {entries : List Log.Entry} {record : Record}
    (h : r.next = ((entries, some (.ok record)), r')) : r'.feed.pending.length < r.feed.pending.length := by
  unfold next at h
  split at h
  · simp at h
  · split at h
    next hr =>
      simp only [Prod.mk.injEq, Option.some.injEq, Except.ok.injEq] at h
      rw [← h.2]
      exact read_pending hr
    · simp at h
    · simp at h

end Reader

/-- All that iteration gives: the records with what was logged while each was read, what was logged at the end, and the
failure if there was one. -/
structure Trace where
  records : List (List Log.Entry × Record)
  closing : List Log.Entry
  fault : Option Fault

def Reader.trace (r : Reader) : Trace :=
  match _h : r.next with
  | ((entries, none), _) => ⟨[], entries, none⟩
  | ((entries, some (.error e)), _) => ⟨[], entries, some e⟩
  | ((entries, some (.ok record)), r') =>
    let rest := r'.trace
    { rest with records := (entries, record) :: rest.records }
termination_by r.feed.pending.length
decreasing_by exact Reader.next_pending ‹_›

def Feed.trace (f : Feed) : Trace := Reader.trace { feed := f }

end EventTrace
