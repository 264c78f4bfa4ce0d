import EventTrace.Proofs.Interval.Statistics
import EventTrace.Proofs.Run.Interruption
import Mathlib.Data.List.Basic
/-! What the two passes make of their records, when none of them fails. Record by record: the time that a pass gives
it, what it asks of the aggregator, and its row. -/
namespace EventTrace

open Transcript

namespace TimeBase

variable {α : Type} [Scalar α]

def follow (t : TimeBase α) (records : List Record) : TimeBase α := records.foldl observe t

/-- The time base when record `i` and all records before it were observed. -/
def upTo (t : TimeBase α) (records : List Record) (i : Nat) : TimeBase α := t.follow (records.take (i + 1))

/-- The time of record `i` in a pass that begins with `t`. -/
def timeOf (t : TimeBase α) (records : List Record) (i : Nat) : α :=
  (t.upTo records i).seconds ((records[i]?.map (·.ticks)).getD 0)

theorem follow_append (t : TimeBase α) (xs ys : List Record) : t.follow (xs ++ ys) = (t.follow xs).follow ys :=
  List.foldl_append

theorem follow_concat (t : TimeBase α) (xs : List Record) (r : Record) :
    t.follow (xs ++ [r]) = (t.follow xs).observe r := follow_append t xs [r]

theorem upTo_length (t : TimeBase α) (done : List Record) (r : Record) (rest : List Record) :
    t.upTo (done ++ r :: rest) done.length = (t.follow done).observe r := by
  rw [upTo, List.take_length_add_append, List.take_succ_cons, List.take_zero, follow_concat]

theorem timeOf_eq (t : TimeBase α) {records : List Record} {i : Nat} {r : Record} (h : records[i]? = some r) :
    t.timeOf records i = (t.upTo records i).seconds r.ticks := by
  rw [timeOf, h]
  rfl

theorem timeOf_append (t : TimeBase α) {xs : List Record} {i : Nat} (h : i < xs.length) (ys : List Record) :
    t.timeOf (xs ++ ys) i = t.timeOf xs i := by
  have htake : (xs ++ ys).take (i + 1) = xs.take (i + 1) := List.take_append_of_le_length h
  rw [timeOf, timeOf, upTo, upTo, htake, List.getElem?_append_left h]

end TimeBase

theorem follow_result {σ : Type} {step : σ → Record → Transcript σ} {t : Trace} {s s' : σ} (ht : t.fault = none)
    (h : (followRecords step t.records s).result = .ok s') : (t.follow step s).result = .ok s' := by
  refine (result_bind_of_ok h _).trans ((result_bind_of_ok rfl _).trans ?_)
  rw [ht]
  rfl

namespace Tally

variable {τ : Type}

/-- What a record at a given time asks of the aggregator; its text is the caption. -/
def call? (v : Renderer) (time : τ) (r : Record) : Option (Aggregator.Call τ) :=
  if r.isInterval then
    (r.render v.resolver v.schema.typedefs (v.definition? r)).toOption.map (.apply r.id.group (.ofId r.id) time)
  else none

def calls (v : Renderer) (time : Nat → τ) (records : List Record) : List (Aggregator.Call τ) :=
  records.zipIdx.filterMap fun p => call? v (time p.2) p.1

theorem calls_concat (v : Renderer) (time : Nat → τ) (records : List Record) (r : Record) :
    calls v time (records ++ [r]) = calls v time records ++ (call? v (time records.length) r).toList := by
  rw [calls, List.zipIdx_append, List.filterMap_append, Nat.zero_add, List.zipIdx_singleton]
  rfl

theorem calls_congr (v : Renderer) {time time' : Nat → τ} {records : List Record}
    (h : ∀ i < records.length, time i = time' i) : calls v time records = calls v time' records := by
  refine List.filterMap_congr fun p hp => ?_
  rw [h p.2 (List.snd_lt_of_mem_zipIdx hp)]

variable {α : Type} [Scalar α]

def ofRecords (v : Renderer) (t : TimeBase α) (records : List Record) : Tally α where
  timeBase := t.follow records
  records := records.length
  aggregator := Aggregator.empty.run (calls v (t.timeOf records) records)

theorem calls_timeOf_concat (v : Renderer) (t : TimeBase α) (records : List Record) (r : Record) :
    calls v (t.timeOf (records ++ [r])) (records ++ [r]) =
      calls v (t.timeOf records) records ++ (call? v (((t.follow records).observe r).seconds r.ticks) r).toList := by
  have hlast : (records ++ [r])[records.length]? = some r := by simp
  rw [calls_concat, t.timeOf_eq hlast, TimeBase.upTo_length]
  congr 1
  exact calls_congr v fun i hi => t.timeOf_append hi [r]

def advance (v : Renderer) (s : Tally α) (r : Record) : Tally α where
  timeBase := s.timeBase.observe r
  records := s.records + 1
  aggregator := s.aggregator.run (call? v ((s.timeBase.observe r).seconds r.ticks) r).toList

theorem ofRecords_concat (v : Renderer) (t : TimeBase α) (records : List Record) (r : Record) :
    ofRecords v t (records ++ [r]) = (ofRecords v t records).advance v r := by
  rw [ofRecords, calls_timeOf_concat, TimeBase.follow_concat, List.length_append, Aggregator.run, List.foldl_append]
  rfl

theorem step_result {v : Renderer} {r : Record} (hfine : v.fault? Record.isInterval r = none) (s : Tally α) :
    (step v s r).result = .ok (s.advance v r) := by
  refine (result_bind_of_ok rfl _).trans ?_
  rw [advance, call?]
  by_cases h : r.id.classCode = EventId.intervalClass
  · have hr : r.isInterval = true := beq_iff_eq.mpr h
    obtain ⟨caption, hrender⟩ := Renderer.render_of_fine hr hfine
    have htext : (v.text r).result = .ok caption := by
      rw [v.text_result, hrender]
      rfl
    rw [if_pos h, if_pos hr, hrender]
    refine (result_bind_of_ok htext _).trans ((result_bind_of_ok rfl _).trans ?_)
    rw [Aggregator.record, if_pos h]
    rfl
  · have hr : ¬r.isInterval = true := mt beq_iff_eq.mp h
    rw [if_neg h, if_neg hr]
    rfl

theorem followRecords_result {v : Renderer} {records : List (List Log.Entry × Record)}
    (hfine : ∀ r ∈ records.map (·.2), v.fault? Record.isInterval r = none) (t : TimeBase α) (done : List Record) :
    (followRecords (step v) records (ofRecords v t done)).result =
      .ok (ofRecords v t (done ++ records.map (·.2))) := by
  induction records generalizing done with
  | nil =>
    rw [List.map_nil, List.append_nil]
    rfl
  | cons x rest ih =>
    obtain ⟨hr, hrest⟩ := List.forall_mem_cons.mp hfine
    have h := ih hrest (done ++ [x.2])
    rw [List.append_assoc, ofRecords_concat] at h
    exact (result_bind_of_ok rfl _).trans ((result_bind_of_ok (step_result hr _) _).trans h)

end Tally

def Renderer.shown (v : Renderer) (r : Record) : String :=
  (r.render v.resolver v.schema.typedefs (v.definition? r)).toOption.getD ""

theorem Renderer.shown_of_ok (v : Renderer) {r : Record} {text : String}
    (h : r.render v.resolver v.schema.typedefs (v.definition? r) = .ok text) : v.shown r = text := by
  rw [shown, h]
  rfl

theorem Renderer.fine_of_firstFailure? {v : Renderer} {concerned : Record → Bool} {records : List Record}
    (h : v.firstFailure? concerned records = none) : ∀ r ∈ records, v.fault? concerned r = none := by
  have hall := v.findSome?_fault? concerned records
  rw [h] at hall
  exact List.findSome?_eq_none_iff.mp hall

/-- The first pass over a trace of which no event of intervals fails. -/
theorem collect_result {α : Type} [Scalar α] {v : Renderer} {f : Feed} (hfault : f.fault = none)
    (hfine : v.firstFailure? Record.isInterval f.decoded = none) (t : TimeBase α) :
    (collect v (.steady f) t).result = .ok (Tally.ofRecords v t.restart f.decoded) := by
  have hrecords := Tally.followRecords_result (Renderer.fine_of_firstFailure? hfine) t.restart []
  have hfollow := follow_result (Feed.fault_trace hfault) hrecords
  refine (result_bind_of_ok rfl _).trans ((result_bind_of_ok (Source.openAt_steady f 0) _).trans ?_)
  exact (result_bind_of_ok hfollow _).trans (result_bind_of_ok rfl _)

namespace Listing

variable (v : Renderer) (settings : Settings)

theorem rows_behind (t : TimeBase Float) (done rest : List Record) :
    rows v settings (t.follow done) done.length rest =
      (rest.zipIdx done.length).filterMap fun p => row? v settings (t.upTo (done ++ rest) p.2) p.2 p.1 := by
  induction rest generalizing done with
  | nil => rfl
  | cons r rest ih =>
    have h := ih (done ++ [r])
    rw [TimeBase.follow_concat, List.length_append, List.append_assoc] at h
    rw [rows, List.zipIdx_cons, List.filterMap_cons, TimeBase.upTo_length]
    cases hrow : row? v settings ((t.follow done).observe r) done.length r <;> simpa [hrow] using h

/-- Each record is looked at with its index and the time base that has observed it. -/
theorem rows_eq (t : TimeBase Float) (records : List Record) :
    rows v settings t 0 records =
      records.zipIdx.filterMap fun p => row? v settings (t.upTo records p.2) p.2 p.1 :=
  rows_behind v settings t [] records

variable {v settings}

/-- Of the settings only the level filter concerns the rows. -/
theorem rows_congr {other : Settings} (h : other.lists = settings.lists) (t : TimeBase Float) (index : Nat)
    (records : List Record) : rows v other t index records = rows v settings t index records := by
  induction records generalizing t index with
  | nil => rfl
  | cons r rest ih =>
    rw [rows, rows, ih, row?, row?, h]

theorem row?_eq_some {t : TimeBase Float} {index : Nat} {r : Record} {found : EventRow Float} :
    row? v settings t index r = some found ↔ settings.lists ((v.definition? r).map (·.level)) = true ∧
      ∃ value, r.render v.resolver v.schema.typedefs (v.definition? r) = .ok value ∧ row v t index r value = found := by
  by_cases h : settings.lists ((v.definition? r).map (·.level)) = true
  · cases hr : r.render v.resolver v.schema.typedefs (v.definition? r) <;> simp [row?, h, hr, Except.toOption]
  · simp [row?, h]

/-- Where no listed record fails, each of them has its row. -/
theorem rows_of_fine (hshow : settings.showEvents = true) {records : List Record}
    (hfine : ∀ r ∈ records, v.fault? (v.isListed settings) r = none) (t : TimeBase Float) :
    rows v settings t 0 records =
      (records.zipIdx.filter fun p => settings.lists ((v.definition? p.1).map (·.level))).map
        fun p => row v (t.upTo records p.2) p.2 p.1 (v.shown p.1) := by
  rw [rows_eq, ← List.filterMap_eq_map, List.filterMap_filter]
  refine List.filterMap_congr fun p hp => ?_
  by_cases hlists : settings.lists ((v.definition? p.1).map (·.level)) = true
  · have hmem : p.1 ∈ records := List.fst_mem_of_mem_zipIdx hp
    obtain ⟨value, hrender⟩ := Renderer.render_of_fine ((isListed_iff hshow p.1).mpr hlists) (hfine _ hmem)
    rw [if_pos hlists, Function.comp_apply, v.shown_of_ok hrender]
    exact row?_eq_some.mpr ⟨hlists, value, hrender, rfl⟩
  · rw [if_neg hlists, row?, if_neg hlists]

theorem of_mem_rows {t : TimeBase Float} {records : List Record} {found : EventRow Float}
    (h : found ∈ rows v settings t 0 records) :
    ∃ r value, records[found.index]? = some r ∧
      r.render v.resolver v.schema.typedefs (v.definition? r) = .ok value ∧
      found = row v (t.upTo records found.index) found.index r value := by
  rw [rows_eq] at h
  obtain ⟨⟨r, i⟩, hmem, hrow⟩ := List.mem_filterMap.mp h
  obtain ⟨-, value, hrender, rfl⟩ := row?_eq_some.mp hrow
  exact ⟨r, value, List.mem_zipIdx_iff_getElem?.mp hmem, hrender, rfl⟩

theorem time_of_mem_rows {t : TimeBase Float} {records : List Record} {found : EventRow Float}
    (h : found ∈ rows v settings t 0 records) : found.time = t.timeOf records found.index := by
  obtain ⟨r, value, hr, -, hfound⟩ := of_mem_rows h
  rw [t.timeOf_eq hr]
  exact congrArg EventRow.time hfound

end Listing

/-- The second pass over a trace of which no listed record fails. -/
theorem list_does_of_fine {v : Renderer} {settings : Settings} (hshow : settings.showEvents = true) {f : Feed}
    (hfault : f.fault = none) (hfine : v.firstFailure? (v.isListed settings) f.decoded = none) (t : TimeBase Float)
    (report : Report) :
    let rows := Listing.rows v settings t.restart 0 f.decoded
    (list v settings (.steady f) t report).Does 1 (report.heading ++ report.eventLines rows)
      (.ok (Listing.advance { timeBase := t.restart, report } f.decoded rows)) := by
  intro rows
  have hfollow := Listing.follow_does hshow (Renderer.fine_of_firstFailure? hfine) { timeBase := t.restart, report }
  rw [Feed.fault_trace hfault] at hfollow
  exact list_does_of_follow t report rfl hfollow

end EventTrace
