import EventTrace.Proofs.Outcome
import EventTrace.Proofs.Run.Output
/-! What a run that fails leaves in the sink. Main statement: nothing if the first pass fails, and nothing of a document;
of a text report all blocks in front of the event list, its heading, and the lines of the records in front of the
failure, each of them whole. -/
namespace EventTrace

open Transcript

theorem followRecords_quiet {σ : Type} {step : σ → Record → Transcript σ} (hstep : ∀ s r, (step s r).Quiet)
    (records : List (List Log.Entry × Record)) (s : σ) : (followRecords step records s).Quiet := by
  induction records generalizing s with
  | nil => exact quiet_pure s
  | cons x rest ih => exact (quiet_log x.1).bind fun _ => (hstep s x.2).bind ih

theorem follow_quiet {σ : Type} {step : σ → Record → Transcript σ} (hstep : ∀ s r, (step s r).Quiet) (t : Trace)
    (s : σ) : (t.follow step s).Quiet := by
  refine (followRecords_quiet hstep t.records s).bind fun s => (quiet_log t.closing).bind fun _ => ?_
  cases t.fault with
  | none => exact quiet_pure s
  | some e => exact quiet_ofExcept _

theorem Tally.step_quiet (v : Renderer) (s : Tally Float) (r : Record) : (step v s r).Quiet := by
  refine (quiet_log _).bind fun _ => ?_
  split
  · exact (quiet_ofExcept _).bind fun caption => (quiet_log _).bind fun _ => quiet_pure _
  · exact quiet_pure _

theorem Renderer.text_result (v : Renderer) (r : Record) :
    (v.text r).result = (r.render v.resolver v.schema.typedefs (v.definition? r)).mapError .render := rfl

theorem Renderer.render_of_fine {v : Renderer} {concerned : Record → Bool} {r : Record} (hr : concerned r = true)
    (hfine : v.fault? concerned r = none) :
    ∃ value, r.render v.resolver v.schema.typedefs (v.definition? r) = .ok value := by
  have hends := v.text_ends r
  rw [fault?, if_pos hr] at hfine
  rw [hfine] at hends
  obtain ⟨value, hvalue⟩ := hends
  rw [v.text_result] at hvalue
  exact ⟨value, mapError_eq_ok.mp hvalue⟩

theorem Renderer.text_does (v : Renderer) (r : Record) : (v.text r).Does 0 "" (v.text r).result := does_ofExcept _

theorem Source.openAt_does (source : Source) (i : Nat) :
    (source.openAt i).Does 1 "" ((source.feed i).mapError .transfer) :=
  (does_log source.entries).after (does_opening.ahead (does_ofExcept _))

/-- The first pass opens the source once and writes nothing, whether or not it fails. -/
theorem collect_does (v : Renderer) (source : Source) (t : TimeBase Float) :
    ∃ result, (collect v source t).Does 1 "" result := by
  obtain ⟨result, h⟩ := (source.openAt_does 0).before fun feed =>
    (follow_quiet (Tally.step_quiet v) feed.trace (Tally.start t)).bind fun s =>
      (quiet_log [s.finished]).bind fun _ => quiet_pure s
  exact ⟨result, (does_log _).after h⟩

namespace Report

def withEvents (r : Report) (rows : List (EventRow Float)) : Report :=
  { r with tables := { r.tables with events := r.tables.events ++ rows } }

def withStatistics (r : Report) (rows : List (StatisticRow Float)) : Report :=
  { r with tables := { r.tables with statistics := r.tables.statistics ++ rows } }

def eventLines (r : Report) (rows : List (EventRow Float)) : String :=
  r.inText (Plain.lines (rows.map (Plain.eventLine r.columns)))

theorem inText_append (r : Report) (s t : String) : r.inText (s ++ t) = r.inText s ++ r.inText t := by
  unfold inText
  split
  · rfl
  · rfl

theorem eventLines_append (r : Report) (xs ys : List (EventRow Float)) :
    r.eventLines (xs ++ ys) = r.eventLines xs ++ r.eventLines ys := by
  rw [eventLines, List.map_append, Plain.lines, List.map_append, String.join_append, inText_append]
  rfl

theorem eventLines_singleton (r : Report) (row : EventRow Float) : r.eventLines [row] = (r.event row).1 := by
  simp [eventLines, event, Plain.lines]

theorem eventLines_nil (r : Report) : r.eventLines [] = "" := by simp [eventLines, Plain.lines, inText]

theorem withEvents_nil (r : Report) : r.withEvents [] = r := by simp [withEvents]

theorem withEvents_append (r : Report) (xs ys : List (EventRow Float)) :
    (r.withEvents xs).withEvents ys = r.withEvents (xs ++ ys) := by simp [withEvents]

end Report

namespace Listing

variable (v : Renderer) (settings : Settings)

def row? (t : TimeBase Float) (index : Nat) (r : Record) : Option (EventRow Float) :=
  if settings.lists ((v.definition? r).map (·.level)) then
    (r.render v.resolver v.schema.typedefs (v.definition? r)).toOption.map (row v t index r)
  else none

/-- The rows of the records that are listed. Records are counted from `index` on, and all of them may calibrate the
time. -/
def rows : TimeBase Float → (index : Nat) → List Record → List (EventRow Float)
  | _, _, [] => []
  | t, index, r :: rest => (row? v settings (t.observe r) index r).toList ++ rows (t.observe r) (index + 1) rest

def advance (s : Listing) (records : List Record) (rows : List (EventRow Float)) : Listing where
  timeBase := records.foldl TimeBase.observe s.timeBase
  records := s.records + records.length
  listed := s.listed + rows.length
  report := s.report.withEvents rows

theorem advance_nil (s : Listing) : s.advance [] [] = s := by simp [advance, Report.withEvents_nil]

theorem advance_advance (s : Listing) (xs ys : List Record) (us ws : List (EventRow Float)) :
    (s.advance xs us).advance ys ws = s.advance (xs ++ ys) (us ++ ws) := by
  simp [advance, Report.withEvents_append, Nat.add_assoc]

variable {v settings}

theorem isListed_iff (hshow : settings.showEvents = true) (r : Record) :
    v.isListed settings r = true ↔ settings.lists ((v.definition? r).map (·.level)) = true := by
  rw [Renderer.isListed, hshow, Bool.true_and]

/-- A record that does not fail is listed with its text, or is not listed. -/
theorem step_does (hshow : settings.showEvents = true) {r : Record} (hfine : v.fault? (v.isListed settings) r = none)
    (s : Listing) :
    let found := (row? v settings (s.timeBase.observe r) s.records r).toList
    (step v settings s r).Does 0 (s.report.eventLines found) (.ok (s.advance [r] found)) := by
  intro found
  refine (does_log _).after ?_
  by_cases hlists : settings.lists ((v.definition? r).map (·.level)) = true
  · obtain ⟨value, hrender⟩ := Renderer.render_of_fine ((isListed_iff hshow r).mpr hlists) hfine
    have hvalue : (v.text r).result = .ok value := by
      rw [v.text_result, hrender]
      rfl
    have hfound : found = [row v (s.timeBase.observe r) s.records r value] := by
      simp [found, row?, hlists, hrender, Except.toOption]
    rw [if_pos hlists, hfound, Report.eventLines_singleton]
    refine Does.after (hvalue ▸ v.text_does r) ?_
    exact (does_write .plain _).ahead (does_pure _)
  · have hfound : found = [] := by simp [found, row?, hlists]
    rw [if_neg hlists, hfound, Report.eventLines_nil, advance, Report.withEvents_nil]
    exact does_pure _

theorem step_fails (hshow : settings.showEvents = true) {r : Record} {e : Fault}
    (hfault : v.fault? (v.isListed settings) r = some e) (s : Listing) :
    (step v settings s r).Does 0 "" (.error e) := by
  refine (does_log _).after ?_
  rw [Renderer.fault?] at hfault
  by_cases hlisted : v.isListed settings r = true
  · rw [if_pos hlisted] at hfault
    have hends := v.text_ends r
    rw [hfault] at hends
    rw [if_pos ((isListed_iff hshow r).mp hlisted)]
    exact Does.fail ((show (v.text r).result = .error e from hends) ▸ v.text_does r) _
  · rw [if_neg hlisted] at hfault
    cases hfault

theorem advance_eventLines (s : Listing) (records : List Record) (found more : List (EventRow Float)) :
    (s.advance records found).report.eventLines more = s.report.eventLines more := rfl

/-- Records of which none fails. -/
theorem followRecords_does (hshow : settings.showEvents = true) (records : List (List Log.Entry × Record))
    (hfine : ∀ r ∈ records.map (·.2), v.fault? (v.isListed settings) r = none) (s : Listing) :
    (followRecords (step v settings) records s).Does 0
      (s.report.eventLines (rows v settings s.timeBase s.records (records.map (·.2))))
      (.ok (s.advance (records.map (·.2)) (rows v settings s.timeBase s.records (records.map (·.2))))) := by
  induction records generalizing s with
  | nil =>
    rw [List.map_nil, rows, Report.eventLines_nil, advance_nil]
    exact does_pure s
  | cons x rest ih =>
    obtain ⟨entries, r⟩ := x
    obtain ⟨hr, hrest⟩ := List.forall_mem_cons.mp hfine
    have h := (step_does hshow hr s).bind (ih hrest (s.advance [r] _))
    rw [advance_advance, advance_eventLines, ← Report.eventLines_append] at h
    exact (does_log entries).after h

/-- Records up to the first that fails. -/
theorem followRecords_fails (hshow : settings.showEvents = true) {before after : List Record} {r : Record} {e : Fault}
    (hfine : ∀ b ∈ before, v.fault? (v.isListed settings) b = none)
    (hfault : v.fault? (v.isListed settings) r = some e) {records : List (List Log.Entry × Record)}
    (hrecords : records.map (·.2) = before ++ r :: after) (s : Listing) :
    (followRecords (step v settings) records s).Does 0
      (s.report.eventLines (rows v settings s.timeBase s.records before)) (.error e) := by
  induction before generalizing records s with
  | nil =>
    obtain ⟨x, rest, rfl, rfl, -⟩ := List.map_eq_cons_iff.mp hrecords
    rw [rows, Report.eventLines_nil]
    exact (does_log x.1).after ((step_fails hshow hfault s).fail _)
  | cons b before ih =>
    obtain ⟨x, rest, rfl, rfl, hrest⟩ := List.map_eq_cons_iff.mp hrecords
    obtain ⟨hb, hbefore⟩ := List.forall_mem_cons.mp hfine
    have h := (step_does hshow hb s).bind (ih hbefore hrest (s.advance [x.2] _))
    rw [advance_eventLines, ← Report.eventLines_append] at h
    exact (does_log x.1).after h

/-- Where the second pass fails with `e`: it has worked through the records `before` without a failure, and then the
source cannot be opened, the next record cannot be shown, or reading fails. -/
inductive Stops (v : Renderer) (settings : Settings) : Except String Feed → (before : List Record) → (e : Fault) → Prop
  | opening (reason : String) : Stops v settings (.error reason) [] (.transfer reason)
  | record {f : Feed} {before after : List Record} {r : Record} {e : Fault} (split : f.decoded = before ++ r :: after)
      (fine : ∀ b ∈ before, v.fault? (v.isListed settings) b = none)
      (failing : v.fault? (v.isListed settings) r = some e) : Stops v settings (.ok f) before e
  | reading {f : Feed} {e : Fault} (fine : ∀ r ∈ f.decoded, v.fault? (v.isListed settings) r = none)
      (failing : f.trace.fault = some e) : Stops v settings (.ok f) f.decoded e

theorem follow_does (hshow : settings.showEvents = true) {f : Feed}
    (hfine : ∀ r ∈ f.decoded, v.fault? (v.isListed settings) r = none) (s : Listing) :
    (f.trace.follow (step v settings) s).Does 0
      (s.report.eventLines (rows v settings s.timeBase s.records f.decoded))
      (match f.trace.fault with
        | none => .ok (s.advance f.decoded (rows v settings s.timeBase s.records f.decoded))
        | some e => .error e) := by
  refine (followRecords_does hshow f.trace.records hfine s).ahead ((does_log f.trace.closing).after ?_)
  cases f.trace.fault with
  | none => exact does_pure _
  | some e => exact does_ofExcept _

/-- Without a failure there is a row for every record that is listed. -/
theorem length_rows (hshow : settings.showEvents = true) {records : List Record}
    (hfine : ∀ r ∈ records, v.fault? (v.isListed settings) r = none) (t : TimeBase Float) (index : Nat) :
    (rows v settings t index records).length = records.countP (v.isListed settings) := by
  induction records generalizing t index with
  | nil => rfl
  | cons r rest ih =>
    obtain ⟨hr, hrest⟩ := List.forall_mem_cons.mp hfine
    rw [rows, List.length_append, ih hrest, List.countP_cons, Nat.add_comm]
    congr 1
    by_cases hlisted : v.isListed settings r = true
    · obtain ⟨value, hrender⟩ := Renderer.render_of_fine hlisted hr
      simp [row?, (isListed_iff hshow r).mp hlisted, hrender, Except.toOption, hlisted]
    · simp [row?, mt (isListed_iff hshow r).mpr hlisted, hlisted]

theorem Stops.fine {opened : Except String Feed} {before : List Record} {e : Fault}
    (h : Stops v settings opened before e) : ∀ b ∈ before, v.fault? (v.isListed settings) b = none := by
  cases h with
  | opening reason => simp
  | record split fine failing => exact fine
  | reading fine failing => exact fine

end Listing

section
variable {v : Renderer} {settings : Settings} (hshow : settings.showEvents = true) {source : Source}
  (t : TimeBase Float) (report : Report)

theorem list_does_of_opening_error {reason : String} (hfeed : source.feed 1 = .error reason) :
    (list v settings source t report).Does 1 (report.heading ++ "") (.error (.transfer reason)) := by
  have hopen := source.openAt_does 1
  rw [hfeed] at hopen
  exact (does_log _).after ((does_write .plain _).followed (hopen.fail _))

/-- Behind the heading stands what is written while the trace is worked through. -/
theorem list_does_of_follow {f : Feed} (hfeed : source.feed 1 = .ok f) {text : String} {result : Except Fault Listing}
    (hfollow : (f.trace.follow (Listing.step v settings) { timeBase := t.restart, report }).Does 0 text result) :
    (list v settings source t report).Does 1 (report.heading ++ text) result := by
  have hopen := source.openAt_does 1
  rw [hfeed] at hopen
  have hrest : (do
      let s ← f.trace.follow (Listing.step v settings) { timeBase := t.restart, report }
      .log [⟨.debug, .run, s!"Listed {s.listed} events"⟩]
      pure s).Does 0 text result := by
    cases result with
    | error e => exact hfollow.fail _
    | ok s => exact hfollow.ahead ((does_log _).after (does_pure s))
  exact (does_log _).after ((does_write .plain _).followed (hopen.behind hrest))

include hshow

theorem list_does_of_stops {before : List Record} {e : Fault}
    (hstops : Listing.Stops v settings (source.feed 1) before e) :
    (list v settings source t report).Does 1
      (report.heading ++ report.eventLines (Listing.rows v settings t.restart 0 before)) (.error e) := by
  generalize hfeed : source.feed 1 = opened at hstops
  cases hstops with
  | opening reason =>
    rw [Listing.rows, Report.eventLines_nil]
    exact list_does_of_opening_error t report hfeed
  | record split fine failing =>
    refine list_does_of_follow t report hfeed ?_
    exact (Listing.followRecords_fails hshow fine failing split _).fail _
  | reading fine failing =>
    refine list_does_of_follow t report hfeed ?_
    have h := Listing.follow_does hshow fine { timeBase := t.restart, report }
    rwa [failing] at h

theorem writeEvents_does_of_stops {before : List Record} {e : Fault}
    (hstops : Listing.Stops v settings (source.feed 1) before e) :
    (Run.writeEvents v settings source t report).Does 1
      (report.heading ++ report.eventLines (Listing.rows v settings t.restart 0 before)) (.error e) := by
  rw [Run.writeEvents, if_pos hshow]
  exact (list_does_of_stops hshow t report hstops).fail _

end

namespace Run

def statisticsText (tally : Tally Float) : String :=
  if 0 < tally.records then Plain.statisticsBlock (tally.aggregator.completed.map StatisticRow.ofSlot) else ""

def statisticsRows (tally : Tally Float) : List (StatisticRow Float) :=
  if 0 < tally.records then tally.aggregator.completed.map StatisticRow.ofSlot else []

def textInFront (settings : Settings) (tally : Tally Float) : String :=
  if settings.statisticsFirst then statisticsText tally ++ "\n" else ""

def blank (v : Renderer) (settings : Settings) : Report :=
  { format := settings.format, columns := .ofEvents v.schema.events }

theorem writeStatistics_does (tally : Tally Float) (report : Report) :
    (writeStatistics tally report).Does 0 (report.inText (statisticsText tally))
      (.ok (report.withStatistics (statisticsRows tally))) := by
  rw [writeStatistics, statisticsText, Report.withStatistics, statisticsRows]
  split
  · exact (does_write .plain _).ahead (does_pure _)
  · have hnone : report.inText "" = "" := by simp [Report.inText]
    rw [hnone, List.append_nil]
    exact does_pure report

theorem writeBlankLine_does {settings : Settings} (hshow : settings.showEvents = true) (report : Report) :
    (writeBlankLine settings report).Does 0 (report.inText "\n") (.ok ()) := by
  rw [writeBlankLine, if_pos hshow]
  exact does_write .plain _

theorem writeBlocks_does_of_stops {v : Renderer} {settings : Settings} (hshow : settings.showEvents = true)
    {source : Source} {before : List Record} {e : Fault}
    (hstops : Listing.Stops v settings (source.feed 1) before e) (tally : Tally Float) (report : Report) :
    (writeBlocks v settings source tally report).Does 1
      (report.inText (textInFront settings tally) ++
        (report.heading ++ report.eventLines (Listing.rows v settings tally.timeBase.restart 0 before)))
      (.error e) := by
  rw [writeBlocks, textInFront]
  split
  · rw [Report.inText_append, String.append_assoc]
    have hevents := writeEvents_does_of_stops hshow tally.timeBase (report.withStatistics (statisticsRows tally)) hstops
    exact (writeStatistics_does tally report).followed ((writeBlankLine_does hshow _).followed hevents)
  · have hnone : report.inText "" = "" := by simp [Report.inText]
    rw [hnone, String.empty_append]
    exact (writeEvents_does_of_stops hshow tally.timeBase report hstops).fail _

theorem run_does_of_stops {v : Renderer} {settings : Settings} (hshow : settings.showEvents = true) {source : Source}
    {tally : Tally Float} (hfirst : (statistics v settings source).result = .ok tally) {before : List Record} {e : Fault}
    (hstops : Listing.Stops v settings (source.feed 1) before e) :
    let report := blank v settings
    (run v settings source).Does 2
      (report.inText (textInFront settings tally) ++
        (report.heading ++ report.eventLines (Listing.rows v settings tally.timeBase.restart 0 before)))
      (.error e) := by
  intro report
  obtain ⟨result, h⟩ := collect_does v source (.start settings.tickPeriod)
  obtain rfl : result = .ok tally := h.result.symm.trans hfirst
  have hblocks := writeBlocks_does_of_stops hshow hstops tally report
  have hall : (run v settings source).Does (1 + 1) ("" ++ _) (.error e) := Does.bind h (hblocks.fail _)
  rwa [String.empty_append] at hall

end Run

end EventTrace
