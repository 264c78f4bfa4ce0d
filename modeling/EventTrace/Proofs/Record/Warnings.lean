import EventTrace.Proofs.Record.Iteration
import EventTrace.Proofs.Text.Digits
import EventTrace.Proofs.Text.Runs
/-! What a reader logs of the records that it decodes: a line for each of them, and for each type that is not supported one
warning in front of the line of its first record. What the reader has warned about are just the types that it has met. -/
namespace EventTrace

open Text

namespace Log.Entry

def unsupportedOpening (tag : UInt16) : String := s!"Record type {tag.toNat} is not supported"

def warnsOf (tag : UInt16) (e : Entry) : Bool :=
  e.topic == .records && e.level == .warn && (unsupportedOpening tag).toList.isPrefixOf e.message.toList

def tellsRecord (e : Entry) : Bool := e.topic == .records && e.level == .trace

/-- A warning about a type, or a line for a record. What a reader says at the end of the stream is neither. -/
def isOfRecord (e : Entry) : Bool := e.topic == .records && e.level != .debug

theorem isOfRecord_of_warnsOf {tag : UInt16} {e : Entry} (h : e.warnsOf tag = true) : e.isOfRecord = true := by
  simp only [warnsOf, Bool.and_eq_true, beq_iff_eq] at h
  simp [isOfRecord, h.1.1, h.1.2]

theorem isOfRecord_of_tellsRecord {e : Entry} (h : e.tellsRecord = true) : e.isOfRecord = true := by
  simp only [tellsRecord, Bool.and_eq_true, beq_iff_eq] at h
  simp [isOfRecord, h.1, h.2]

end Log.Entry

namespace Reader

open Log.Entry

/-! The text of a warning tells its type. -/

theorem toList_unsupportedOpening (tag : UInt16) : (unsupportedOpening tag).toList =
    "Record type ".toList ++ (Nat.toDigits 10 tag.toNat ++ ' ' :: "is not supported".toList) := by
  have hdigits : (toString tag.toNat).toList = Nat.toDigits 10 tag.toNat := by
    rw [Nat.toString_eq_repr, Nat.repr_eq_ofList_toDigits, String.toList_ofList]
  simp only [unsupportedOpening, String.toList_append]
  rw [List.append_assoc]
  exact congrArg (fun digits => _ ++ (digits ++ _)) hdigits

theorem message_unsupported (tag : UInt16) (id : EventId) :
    ∃ rest, (Entry.unsupported tag id).message.toList = (unsupportedOpening tag).toList ++ rest := by
  have hmessage : (Entry.unsupported tag id).message = s!"Record type {tag.toNat}" ++
      " is not supported, decoding header only (id 0x" ++ String.ofList (capitalHex 4 id.toNat) ++ ")" := rfl
  have hopening : unsupportedOpening tag = s!"Record type {tag.toNat}" ++ " is not supported" := rfl
  refine ⟨(", decoding header only (id 0x" ++ String.ofList (capitalHex 4 id.toNat) ++ ")").toList, ?_⟩
  rw [hmessage, hopening]
  simp

/-- The digits of a number are all digits in front of a blank. -/
theorem takeWhile_toDigits (n : Nat) (rest : List Char) :
    (Nat.toDigits 10 n ++ ' ' :: rest).takeWhile isSmallDigit = Nat.toDigits 10 n :=
  takeWhile_run (fun _ hc => isSmallDigit_of_mem_toDigits (by decide) (by decide) hc) (runsOut_cons.mpr rfl)

theorem warnsOf_unsupported {tag tag' : UInt16} {id : EventId} :
    (Entry.unsupported tag' id).warnsOf tag = true ↔ tag' = tag := by
  obtain ⟨rest, hmessage⟩ := message_unsupported tag' id
  have hopens : (Entry.unsupported tag' id).warnsOf tag = true ↔
      (unsupportedOpening tag).toList <+: (unsupportedOpening tag').toList ++ rest := by
    rw [← hmessage, ← List.isPrefixOf_iff_prefix]
    rfl
  rw [hopens]
  constructor
  · intro h
    rw [toList_unsupportedOpening, toList_unsupportedOpening, List.append_assoc, List.prefix_append_right_inj,
      List.append_assoc, List.cons_append] at h
    obtain ⟨more, hmore⟩ := h
    rw [List.append_assoc, List.cons_append] at hmore
    have hdigits := congrArg (List.takeWhile isSmallDigit) hmore
    rw [takeWhile_toDigits, takeWhile_toDigits] at hdigits
    have hvalue := congrArg (digitsValue 10) hdigits
    rw [digitsValue_toDigits (by decide) (by decide), digitsValue_toDigits (by decide) (by decide)] at hvalue
    exact (UInt16.toNat_inj.mp hvalue).symm
  · rintro rfl
    exact List.prefix_append ..

/-! What one record adds to the log -/

section
variable (r : Reader) (record : Record) (tag : UInt16)

/-- Where the bytes come from does not matter for what is said of a record. -/
theorem accept_of_feed (feed : Feed) :
    { r with feed }.accept record = ((r.accept record).1, { (r.accept record).2 with feed }) := by
  unfold accept
  split
  · rfl
  · split <;> rfl

theorem mem_warned_accept : tag ∈ (r.accept record).2.warned ↔ unknownTag? record = some tag ∨ tag ∈ r.warned := by
  unfold accept
  cases hunknown : unknownTag? record with
  | none => simp
  | some known =>
    by_cases hwarned : known ∈ r.warned
    · simp only [if_pos hwarned, Option.some.injEq]
      exact ⟨.inr, fun h => h.elim (fun htag => htag ▸ hwarned) id⟩
    · simp only [if_neg hwarned, List.mem_cons, Option.some.injEq]
      rw [eq_comm]

theorem isOfRecord_of_mem_accept : ∀ e ∈ (r.accept record).1, e.isOfRecord = true := by
  have hdecoded (count : Nat) : (Entry.decoded count record).isOfRecord = true := rfl
  have hunsupported (tag : UInt16) : (Entry.unsupported tag record.id).isOfRecord = true := rfl
  unfold accept
  split
  · simp [hdecoded]
  · split <;> simp [hdecoded, hunsupported]

theorem filter_tellsRecord_accept : (r.accept record).1.filter tellsRecord = [Entry.decoded (r.count + 1) record] := by
  have hdecoded (count : Nat) : (Entry.decoded count record).tellsRecord = true := rfl
  have hunsupported (tag : UInt16) : (Entry.unsupported tag record.id).tellsRecord = false := rfl
  unfold accept
  split
  · simp [hdecoded]
  · split <;> simp [hdecoded, hunsupported]

/-- A record is warned about if it is the first of its type. -/
theorem filter_warnsOf_accept : (r.accept record).1.filter (warnsOf tag) =
    if unknownTag? record = some tag ∧ tag ∉ r.warned then [Entry.unsupported tag record.id] else [] := by
  have hdecoded (count : Nat) : (Entry.decoded count record).warnsOf tag = false := rfl
  unfold accept
  cases hunknown : unknownTag? record with
  | none => simp [hdecoded]
  | some known =>
    by_cases hknown : known = tag
    · subst hknown
      have hwarns : (Entry.unsupported known record.id).warnsOf known = true := warnsOf_unsupported.mpr rfl
      by_cases hwarned : known ∈ r.warned
      · simp [hwarned, hdecoded]
      · simp [hwarned, hdecoded, hwarns]
    · have hsilent : (Entry.unsupported known record.id).warnsOf tag = false :=
        Bool.eq_false_iff.mpr (mt warnsOf_unsupported.mp hknown)
      by_cases hwarned : known ∈ r.warned
      · simp [hwarned, hdecoded, hknown]
      · simp [hwarned, hdecoded, hknown, hsilent]

end

/-! What records one after the other add to it -/

def logged (r : Reader) : List Record → List (List Log.Entry × Record)
  | [] => []
  | record :: rest => ((r.accept record).1, record) :: (r.accept record).2.logged rest

def new : Reader := { feed := { pending := [], chunk := 1, chunk_pos := Nat.one_pos } }

def recordLog (records : List Record) : List Log.Entry := (new.logged records).flatMap (·.1)

def linesFrom (count : Nat) (records : List Record) : List Log.Entry :=
  (records.zipIdx (count + 1)).map fun p => Entry.decoded p.2 p.1

/-- The warning about a type that is not supported, if a record is of that type: it names the id of the first. -/
def warning? (tag : UInt16) (records : List Record) : Option Log.Entry :=
  (records.find? fun record => unknownTag? record == some tag).map fun record => Entry.unsupported tag record.id

section
variable {r : Reader} {records : List Record}

theorem logged_of_feed (feed : Feed) : { r with feed }.logged records = r.logged records := by
  induction records generalizing r with
  | nil => rfl
  | cons record rest ih => rw [logged, logged, accept_of_feed, ih]

theorem filter_tellsRecord_logged :
    ((r.logged records).flatMap (·.1)).filter tellsRecord = linesFrom r.count records := by
  induction records generalizing r with
  | nil => rfl
  | cons record rest ih =>
    rw [logged, List.flatMap_cons, List.filter_append, filter_tellsRecord_accept, ih, accept_count]
    rfl

/-- A type is warned about once, unless it was warned about before. -/
theorem filter_warnsOf_logged (tag : UInt16) : ((r.logged records).flatMap (·.1)).filter (warnsOf tag) =
    if tag ∈ r.warned then [] else (warning? tag records).toList := by
  induction records generalizing r with
  | nil => simp [logged, warning?]
  | cons record rest ih =>
    rw [logged, List.flatMap_cons, List.filter_append, filter_warnsOf_accept, ih]
    simp only [mem_warned_accept, warning?, List.find?_cons]
    by_cases hunknown : unknownTag? record = some tag
    · by_cases hwarned : tag ∈ r.warned
      · simp [hunknown, hwarned]
      · simp [hunknown, hwarned]
    · have hother : (unknownTag? record == some tag) = false := beq_eq_false_iff_ne.mpr hunknown
      simp [hunknown, hother]

theorem filter_tellsRecord_recordLog (records : List Record) :
    (recordLog records).filter tellsRecord = linesFrom 0 records := filter_tellsRecord_logged

theorem filter_warnsOf_recordLog (tag : UInt16) (records : List Record) :
    (recordLog records).filter (warnsOf tag) = (warning? tag records).toList := by
  rw [recordLog, filter_warnsOf_logged]
  rfl

theorem warning?_append (tag : UInt16) (xs ys : List Record) :
    warning? tag (xs ++ ys) = (warning? tag xs).or (warning? tag ys) := by
  rw [warning?, List.find?_append, Option.map_or]
  rfl

theorem warning?_eq_none_iff {tag : UInt16} :
    warning? tag records = none ↔ ∀ record ∈ records, unknownTag? record ≠ some tag := by
  simp [warning?, List.find?_eq_none]

theorem read_of_ok {record : Record} (h : r.read.1.2 = .ok record) :
    r.read.1.1 = (r.accept record).1 ∧ ∃ feed, r.read.2 = { (r.accept record).2 with feed } := by
  rcases htake : r.feed.takeFrame with ⟨answer, feed⟩
  cases answer with
  | error e => simp [read, htake] at h
  | ok frame =>
    cases hdecode : Record.decode? frame.1 frame.2 with
    | none => simp [read, htake, hdecode] at h
    | some found =>
      simp only [read, htake, hdecode, accept_of_feed] at h ⊢
      obtain rfl : found = record := Except.ok.inj h
      exact ⟨rfl, feed, rfl⟩

theorem read_of_error {e : Fault} (h : r.read.1.2 = .error e) : r.read.1.1 = [] := by
  rcases htake : r.feed.takeFrame with ⟨answer, feed⟩
  cases answer with
  | error e => simp [read, htake]
  | ok frame =>
    cases hdecode : Record.decode? frame.1 frame.2 with
    | none => simp [read, htake, hdecode]
    | some found => simp [read, htake, hdecode] at h

/-- What iteration logs of a record, and the reader behind it. -/
theorem next_of_record {entries : List Log.Entry} {record : Record} {r' : Reader}
    (h : r.next = ((entries, some (.ok record)), r')) :
    entries = (r.accept record).1 ∧ ∃ feed, r' = { (r.accept record).2 with feed } := by
  by_cases hfinished : r.finished = true
  · simp [next, hfinished] at h
  · rcases hread : r.read with ⟨⟨said, answer⟩, behind⟩
    cases answer with
    | error e => cases e <;> simp [next, hfinished, hread] at h
    | ok found =>
      simp only [next, hfinished, hread, Bool.false_eq_true, if_false, Prod.mk.injEq, Option.some.injEq,
        Except.ok.injEq] at h
      obtain ⟨⟨rfl, rfl⟩, rfl⟩ := h
      have hok : r.read.1.2 = .ok found := by rw [hread]
      have hrecord := read_of_ok hok
      rwa [hread] at hrecord

/-- The end of iteration is not the line of a record. -/
theorem next_of_end {entries : List Log.Entry} {item : Option (Except Fault Record)} {r' : Reader}
    (h : r.next = ((entries, item), r')) (hitem : ∀ record, item ≠ some (.ok record)) :
    ∀ e ∈ entries, e.isOfRecord = false := by
  have hended (count : Nat) : (Entry.ended count).isOfRecord = false := rfl
  by_cases hfinished : r.finished = true
  · simp only [next, hfinished, if_true, Prod.mk.injEq] at h
    simp [← h.1.1]
  · rcases hread : r.read with ⟨⟨said, answer⟩, behind⟩
    cases answer with
    | ok found =>
      simp only [next, hfinished, hread, Bool.false_eq_true, if_false, Prod.mk.injEq] at h
      exact absurd h.1.2.symm (hitem found)
    | error e =>
      have herror : r.read.1.2 = .error e := by rw [hread]
      have hsilent := read_of_error herror
      obtain rfl : said = [] := by rwa [hread] at hsilent
      cases e <;> simp only [next, hfinished, hread, Bool.false_eq_true, if_false, Prod.mk.injEq] at h <;>
        simp [← h.1.1, hended]

/-- Iteration logs of its records what a reader logs of them, wherever they are read from, and nothing of a record
behind them. -/
theorem trace_logged (r : Reader) :
    r.trace.records = r.logged (r.trace.records.map (·.2)) ∧ ∀ e ∈ r.trace.closing, e.isOfRecord = false := by
  fun_induction trace r with
  | case1 r entries r' h => exact ⟨rfl, next_of_end h (by simp)⟩
  | case2 r entries e r' h => exact ⟨rfl, next_of_end h (by simp)⟩
  | case3 r entries record r' h rest ih =>
    obtain ⟨hrecords, hclosing⟩ := ih
    obtain ⟨rfl, feed, rfl⟩ := next_of_record h
    refine ⟨?_, hclosing⟩
    rw [List.map_cons, logged]
    rw [logged_of_feed] at hrecords
    exact congrArg _ hrecords

end

end Reader

end EventTrace
