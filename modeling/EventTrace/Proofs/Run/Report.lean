import EventTrace.Proofs.Run.Passes
/-! What a run that succeeds reports, and to what extent its settings matter. Main statement: neither the order of the
blocks nor the format changes what is found, and the statistics depend on the tick period alone. -/
namespace EventTrace

open Transcript

namespace Transcript

variable {α β γ : Type}

theorem andThen_andThen (t : Transcript α) (f : α → Transcript β) (g : β → Transcript γ) :
    (t.andThen f).andThen g = t.andThen fun a => (f a).andThen g := by
  obtain ⟨effects, result⟩ := t
  cases result with
  | error e => rfl
  | ok a =>
    simp only [andThen]
    cases (f a).result with
    | error e => rfl
    | ok b => simp only [List.append_assoc]

end Transcript

namespace Run

def blocks (v : Renderer) (settings : Settings) (source : Source) : Transcript (Tally Float × Nat × Report) := do
  let tally ← statistics v settings source
  let written ← writeBlocks v settings source tally (blank v settings)
  pure (tally, written)

def tables (v : Renderer) (settings : Settings) (source : Source) : Except Fault (Tables Float) :=
  (blocks v settings source).result.map (·.2.2.tables)

def ending (found : Tally Float × Nat × Report) : Transcript Summary := do
  writeAll found.2.2.finish
  let summary : Summary := ⟨found.1.records, found.2.1, found.1.aggregator.intervals⟩
  .log [finished summary]
  pure summary

theorem run_eq (v : Renderer) (settings : Settings) (source : Source) :
    run v settings source = blocks v settings source >>= ending := by
  have hbehind (tally : Tally Float) :
      (writeBlocks v settings source tally (blank v settings) >>= fun written => pure (tally, written)) >>= ending =
        writeBlocks v settings source tally (blank v settings) >>= fun written => ending (tally, written) :=
    andThen_andThen _ _ _
  calc run v settings source
    _ = statistics v settings source >>= fun tally =>
        writeBlocks v settings source tally (blank v settings) >>= fun written => ending (tally, written) := rfl
    _ = statistics v settings source >>= fun tally =>
        (writeBlocks v settings source tally (blank v settings) >>= fun written => pure (tally, written)) >>= ending := by
      simp only [hbehind]
    _ = blocks v settings source >>= ending := (andThen_andThen _ _ _).symm

def listText (columns : Columns) (rows : List (EventRow Float)) : String :=
  Plain.eventsHeading columns ++ Plain.lines (rows.map (Plain.eventLine columns))

def blocksText (settings : Settings) (columns : Columns) (tally : Tally Float) (rows : List (EventRow Float)) : String :=
  if settings.showEvents then
    if settings.statisticsFirst then statisticsText tally ++ "\n" ++ listText columns rows
    else listText columns rows ++ "\n" ++ statisticsText tally
  else statisticsText tally

def textBehind (settings : Settings) (tally : Tally Float) : String :=
  if settings.statisticsFirst then "" else "\n" ++ statisticsText tally

theorem blocksText_eq {settings : Settings} (hshow : settings.showEvents = true) (columns : Columns)
    (tally : Tally Float) (rows : List (EventRow Float)) :
    blocksText settings columns tally rows =
      textInFront settings tally ++ Plain.eventsHeading columns ++ Plain.lines (rows.map (Plain.eventLine columns)) ++
        textBehind settings tally := by
  rw [blocksText, if_pos hshow, listText, textInFront, textBehind]
  split
  · simp only [String.append_empty, String.append_assoc]
  · simp only [String.empty_append, String.append_assoc]

def reportText (v : Renderer) (settings : Settings) (tally : Tally Float) (rows : List (EventRow Float)) : String :=
  match settings.format with
  | .text => blocksText settings (.ofEvents v.schema.events) tally rows
  | .json => Json.document ⟨rows, statisticsRows tally⟩ ++ "\n"
  | .xml => Xml.document ⟨rows, statisticsRows tally⟩ ++ "\n"

theorem writeAll_does (writes : List (Part × String)) :
    (writeAll writes).Does 0 (String.join (writes.map (·.2))) (.ok ()) := by
  induction writes with
  | nil => exact does_pure ()
  | cons x rest ih =>
    rw [List.map_cons, String.join_cons]
    exact (does_write x.1 x.2).followed ih

theorem ending_does (found : Tally Float × Nat × Report) :
    (ending found).Does 0 (String.join (found.2.2.finish.map (·.2)))
      (.ok ⟨found.1.records, found.2.1, found.1.aggregator.intervals⟩) :=
  (writeAll_does found.2.2.finish).ahead ((does_log _).after (does_pure _))

def secondOpenings (settings : Settings) : Nat := if settings.showEvents then 1 else 0

section
variable (v : Renderer) (settings : Settings) (f : Feed)

def tally : Tally Float := .ofRecords v (.start settings.tickPeriod) f.decoded

def rows : List (EventRow Float) :=
  if settings.showEvents then Listing.rows v settings (tally v settings f).timeBase.restart 0 f.decoded else []

end

section
variable {v : Renderer} {settings : Settings} {f : Feed} (hfault : f.fault = none)
include hfault

theorem statistics_does (hfirst : v.firstFailure? Record.isInterval f.decoded = none) :
    (statistics v settings (.steady f)).Does 1 "" (.ok (tally v settings f)) := by
  obtain ⟨result, h⟩ := collect_does v (.steady f) (.start settings.tickPeriod)
  rw [h.result.symm.trans (collect_result hfault hfirst (.start settings.tickPeriod))] at h
  exact h

theorem writeEvents_does (hsecond : v.firstFailure? (v.isListed settings) f.decoded = none) (report : Report) :
    (writeEvents v settings (.steady f) (tally v settings f).timeBase report).Does (secondOpenings settings)
      (if settings.showEvents then report.inText (listText report.columns (rows v settings f)) else "")
      (.ok ((rows v settings f).length, report.withEvents (rows v settings f))) := by
  rw [writeEvents, rows, secondOpenings]
  by_cases hshow : settings.showEvents = true
  · simp only [if_pos hshow]
    rw [listText, Report.inText_append]
    have h := list_does_of_fine hshow hfault hsecond (tally v settings f).timeBase report
    have hlisted (found : List (EventRow Float)) : 0 + found.length = found.length := Nat.zero_add _
    refine h.ahead ?_
    rw [← hlisted]
    exact does_pure _
  · simp only [if_neg hshow]
    rw [List.length_nil, Report.withEvents_nil]
    exact does_pure _

/-- Whatever the order of the blocks, all rows are handed to the report. -/
theorem writeBlocks_does (hsecond : v.firstFailure? (v.isListed settings) f.decoded = none) (report : Report) :
    (writeBlocks v settings (.steady f) (tally v settings f) report).Does (secondOpenings settings)
      (report.inText (blocksText settings report.columns (tally v settings f) (rows v settings f)))
      (.ok ((rows v settings f).length,
        (report.withEvents (rows v settings f)).withStatistics (statisticsRows (tally v settings f)))) := by
  have hevents := writeEvents_does hfault hsecond
  rw [writeBlocks, blocksText]
  by_cases hshow : settings.showEvents = true
  · simp only [if_pos hshow] at hevents ⊢
    by_cases hfirst : settings.statisticsFirst = true
    · simp only [if_pos hfirst]
      rw [String.append_assoc, Report.inText_append, Report.inText_append]
      refine (writeStatistics_does (tally v settings f) report).followed ?_
      exact (writeBlankLine_does hshow _).followed (hevents _)
    · simp only [if_neg hfirst]
      rw [String.append_assoc, Report.inText_append, Report.inText_append]
      refine (hevents report).bind (n := 0) ((writeBlankLine_does hshow _).followed ?_)
      exact (writeStatistics_does _ _).ahead (does_pure _)
  · have hblank (report : Report) : writeBlankLine settings report = pure () := if_neg hshow
    have hopenings : secondOpenings settings = 0 := if_neg hshow
    simp only [if_neg hshow, hblank, hopenings] at hevents ⊢
    by_cases hfirst : settings.statisticsFirst = true
    · simp only [if_pos hfirst]
      refine (writeStatistics_does (tally v settings f) report).ahead ?_
      exact (does_pure ()).after (hevents _)
    · simp only [if_neg hfirst]
      refine Does.after (hevents report) ((does_pure ()).after ?_)
      exact (writeStatistics_does _ _).ahead (does_pure _)

/-- What a run does that does not fail. -/
theorem run_does_of_fine (hfirst : v.firstFailure? Record.isInterval f.decoded = none)
    (hsecond : v.firstFailure? (v.isListed settings) f.decoded = none) :
    (run v settings (.steady f)).Does (1 + secondOpenings settings)
        (reportText v settings (tally v settings f) (rows v settings f))
        (.ok ⟨f.decoded.length, (rows v settings f).length, (tally v settings f).aggregator.intervals⟩) ∧
      tables v settings (.steady f) = .ok ⟨rows v settings f, statisticsRows (tally v settings f)⟩ := by
  have hblocks := writeBlocks_does hfault hsecond (blank v settings)
  have hall : (blocks v settings (.steady f)).Does (1 + secondOpenings settings) _ _ :=
    (statistics_does hfault hfirst).bind (hblocks.ahead (does_pure _))
  rw [String.empty_append] at hall
  refine ⟨?_, ?_⟩
  · have hrun := hall.bind (ending_does _)
    have htext : reportText v settings (tally v settings f) (rows v settings f) =
        (blank v settings).inText (blocksText settings (blank v settings).columns (tally v settings f)
          (rows v settings f)) ++
        String.join ((((blank v settings).withEvents (rows v settings f)).withStatistics
          (statisticsRows (tally v settings f))).finish.map (·.2)) := by
      cases hformat : settings.format <;>
        simp [reportText, Report.inText, Report.finish, Report.withEvents, Report.withStatistics, blank, hformat]
    rw [htext, run_eq]
    exact hrun
  · rw [tables, hall.result]
    rfl

theorem fine_of_ok {reason : String} {summary : Summary}
    (h : ((run v settings (.steady f)).outcome none reason).result = .ok summary) :
    v.firstFailure? Record.isInterval f.decoded = none ∧ v.firstFailure? (v.isListed settings) f.decoded = none := by
  rw [result_outcome_none] at h
  have hends := run_ends v settings hfault
  cases hfails : (v.firstFailure? Record.isInterval f.decoded).or (v.firstFailure? (v.isListed settings) f.decoded) with
  | none => exact Option.or_eq_none_iff.mp hfails
  | some cause =>
    rw [hfails] at hends
    cases h.symm.trans hends

end

theorem tables_of_error {v : Renderer} {settings : Settings} {source : Source} {e : Fault}
    (h : (run v settings source).result = .error e) : tables v settings source = .error e := by
  rw [run_eq] at h
  cases hblocks : (blocks v settings source).result with
  | ok found =>
    rw [result_bind_of_ok hblocks, (ending_does found).result] at h
    cases h
  | error e' =>
    rw [result_bind_of_error hblocks] at h
    obtain rfl : e' = e := Except.error.inj h
    exact map_eq_error.mpr hblocks

theorem statisticsRows_tally (v : Renderer) (settings : Settings) (f : Feed) :
    statisticsRows (tally v settings f) = (tally v settings f).aggregator.completed.map StatisticRow.ofSlot := by
  rw [statisticsRows]
  split
  · rfl
  next hnone =>
    have hempty : f.decoded = [] := List.length_eq_zero_iff.mp (Nat.eq_zero_of_not_pos hnone)
    have hnew : (tally v settings f).aggregator = .empty := by
      rw [tally, hempty]
      rfl
    rw [hnew, Aggregator.empty_eq_ofStates, Aggregator.completed_ofStates]
    simp [IntervalState.empty]

theorem statisticsText_eq_empty_iff (v : Renderer) (settings : Settings) (f : Feed) :
    statisticsText (tally v settings f) = "" ↔ f.decoded = [] := by
  have hblock (rows : List (StatisticRow Float)) : Plain.statisticsBlock rows ≠ "" := by
    simp [Plain.statisticsBlock, Plain.lines, Plain.statisticsHeading, String.append_eq_empty_iff]
  rw [statisticsText]
  split
  next hsome => simpa [hblock] using List.length_pos_iff.mp hsome
  next hnone => simpa using List.length_eq_zero_iff.mp (Nat.eq_zero_of_not_pos hnone)

/-- A run over a trace in memory that has succeeded. -/
structure Reported (v : Renderer) (settings : Settings) (f : Feed) (reason : String) (summary : Summary) : Prop where
  statistics : (statistics v settings (.steady f)).result = .ok (tally v settings f)
  tables : tables v settings (.steady f) =
    .ok ⟨rows v settings f, (tally v settings f).aggregator.completed.map StatisticRow.ofSlot⟩
  summary : summary = ⟨f.decoded.length, (rows v settings f).length, (tally v settings f).aggregator.intervals⟩
  written : ((run v settings (.steady f)).outcome none reason).written =
    (reportText v settings (tally v settings f) (rows v settings f)).toUTF8.toList

theorem reported_of_fine {v : Renderer} {settings : Settings} {f : Feed} (hfault : f.fault = none)
    (hfirst : v.firstFailure? Record.isInterval f.decoded = none)
    (hsecond : v.firstFailure? (v.isListed settings) f.decoded = none) (reason : String) :
    ∃ summary, ((run v settings (.steady f)).outcome none reason).result = .ok summary ∧
      Reported v settings f reason summary := by
  obtain ⟨hdoes, htables⟩ := run_does_of_fine hfault hfirst hsecond
  obtain ⟨-, hwritten, hresult⟩ := hdoes.outcome reason
  rw [statisticsRows_tally] at htables
  exact ⟨_, hresult, (statistics_does hfault hfirst).result, htables, rfl, hwritten⟩

theorem reported_of_ok {v : Renderer} {settings : Settings} {f : Feed} (hfault : f.fault = none) {reason : String}
    {summary : Summary} (h : ((run v settings (.steady f)).outcome none reason).result = .ok summary) :
    Reported v settings f reason summary := by
  obtain ⟨hfirst, hsecond⟩ := fine_of_ok hfault h
  obtain ⟨summary', hresult, hreported⟩ := reported_of_fine hfault hfirst hsecond reason
  obtain rfl : summary' = summary := Except.ok.inj (hresult.symm.trans h)
  exact hreported

theorem rows_of_form (v : Renderer) (settings : Settings) (f : Feed) (statisticsFirst : Bool) (format : Format) :
    rows v { settings with statisticsFirst, format } f = rows v settings f := by
  have hlists : Settings.lists { settings with statisticsFirst, format } = settings.lists := rfl
  have htally : tally v { settings with statisticsFirst, format } f = tally v settings f := rfl
  rw [rows, rows, htally, Listing.rows_congr hlists]

/-- Order and format of the report do not matter for the result of a run, nor for its rows. -/
theorem result_of_form (v : Renderer) (settings : Settings) {f : Feed} (hfault : f.fault = none) (statisticsFirst : Bool)
    (format : Format) :
    let other : Settings := { settings with statisticsFirst, format }
    (run v other (.steady f)).result = (run v settings (.steady f)).result ∧
      tables v other (.steady f) = tables v settings (.steady f) := by
  intro other
  have hends := run_ends v settings hfault
  have hends' : (run v other (.steady f)).Ends _ := run_ends v other hfault
  cases hfails : (v.firstFailure? Record.isInterval f.decoded).or (v.firstFailure? (v.isListed settings) f.decoded) with
  | some cause =>
    have herror : (run v settings (.steady f)).result = .error (.render cause) := by rwa [hfails] at hends
    have herror' : (run v other (.steady f)).result = .error (.render cause) :=
      (hends'.eq_error_iff _).mpr (congrArg (Option.map Fault.render) hfails)
    exact ⟨herror'.trans herror.symm, (tables_of_error herror').trans (tables_of_error herror).symm⟩
  | none =>
    obtain ⟨hfirst, hsecond⟩ := Option.or_eq_none_iff.mp hfails
    obtain ⟨hdoes, htables⟩ := run_does_of_fine hfault hfirst hsecond
    have hsecond' : v.firstFailure? (v.isListed other) f.decoded = none := hsecond
    obtain ⟨hdoes', htables'⟩ := run_does_of_fine hfault hfirst hsecond'
    have htally : tally v other f = tally v settings f := rfl
    rw [htally, rows_of_form] at hdoes' htables'
    exact ⟨hdoes'.result.trans hdoes.result.symm, htables'.trans htables.symm⟩

/-- What a run has written that succeeds, with its report in another form. -/
theorem written_of_form {v : Renderer} {settings : Settings} {f : Feed} (hfault : f.fault = none) {reason : String}
    {summary : Summary} (h : ((run v settings (.steady f)).outcome none reason).result = .ok summary)
    (statisticsFirst : Bool) :
    ((run v { settings with statisticsFirst } (.steady f)).outcome none reason).written =
      (reportText v { settings with statisticsFirst } (tally v settings f) (rows v settings f)).toUTF8.toList := by
  let other : Settings := { settings with statisticsFirst }
  have hform := (result_of_form v settings hfault statisticsFirst settings.format).1
  rw [result_outcome_none] at h
  have hother : ((run v other (.steady f)).outcome none reason).result = .ok summary := by
    rw [result_outcome_none]
    exact hform.trans h
  have hrows : rows v other f = rows v settings f := rows_of_form v settings f statisticsFirst settings.format
  rw [← hrows]
  exact (reported_of_ok hfault hother).written

/-- The order of the blocks is the order in a text report; a document has none. -/
theorem reportText_of_document (v : Renderer) {settings : Settings} (h : settings.format ≠ .text) (tally : Tally Float)
    (rows : List (EventRow Float)) (statisticsFirst : Bool) :
    reportText v { settings with statisticsFirst } tally rows = reportText v settings tally rows := by
  cases hformat : settings.format with
  | text => exact absurd hformat h
  | json => simp only [reportText, hformat]
  | xml => simp only [reportText, hformat]

theorem reportText_of_text (v : Renderer) {settings : Settings} (h : settings.format = .text) (tally : Tally Float)
    (rows : List (EventRow Float)) (statisticsFirst : Bool) :
    reportText v { settings with statisticsFirst } tally rows =
      blocksText { settings with statisticsFirst } (.ofEvents v.schema.events) tally rows := by
  simp only [reportText, h]

/-- The statistics take their tick period from the settings, and nothing else. -/
theorem tally_of_period (v : Renderer) {settings other : Settings} (h : other.tickPeriod = settings.tickPeriod)
    (f : Feed) : tally v other f = tally v settings f := by rw [tally, tally, h]

theorem ok_of_no_events {v : Renderer} (hevents : v.schema.events = ∅) (settings : Settings) {f : Feed}
    (hfault : f.fault = none) (reason : String) :
    ∃ summary, ((run v settings (.steady f)).outcome none reason).result = .ok summary := by
  have hnone (concerned : Record → Bool) := Renderer.firstFailure?_of_no_events hevents concerned f.decoded
  obtain ⟨summary, hok, -⟩ := reported_of_fine hfault (hnone _) (hnone (v.isListed settings)) reason
  exact ⟨summary, hok⟩

end Run

/-- Order and format of the report change nothing of what is computed. With the statistics in front and behind, a run ends
the same way; a document has the same bytes, and a text report has the same two blocks in exchanged places. The rows do
not depend on the format, and the statistics of two runs that succeed are the same if the tick period is. -/
theorem form_changes_nothing (v : Renderer) (settings : Settings) {f : Feed} (hfault : f.fault = none)
    (reason : String) :
    let o (s : Settings) := (run v s (.steady f)).outcome none reason
    let front : Settings := { settings with statisticsFirst := true }
    let behind : Settings := { settings with statisticsFirst := false }
    (o front).result = (o behind).result ∧
    (∀ summary, (o settings).result = .ok summary →
      ∃ tally tables, (Run.statistics v settings (.steady f)).result = .ok tally ∧
        Run.tables v settings (.steady f) = .ok tables ∧
        (settings.format ≠ .text → (o front).written = (o behind).written) ∧
        (settings.format = .text →
          let statistics := Run.statisticsText tally
          let list := Run.listText (.ofEvents v.schema.events) tables.events
          (statistics = "" ↔ f.decoded = []) ∧
          (settings.showEvents = true → (o front).written = (statistics ++ "\n" ++ list).toUTF8.toList ∧
            (o behind).written = (list ++ "\n" ++ statistics).toUTF8.toList) ∧
          (settings.showEvents = false → (o front).written = statistics.toUTF8.toList ∧
            (o behind).written = statistics.toUTF8.toList))) ∧
    (∀ format, (o { settings with format }).result = (o settings).result ∧
      Run.tables v { settings with format } (.steady f) = Run.tables v settings (.steady f)) ∧
    (∀ other : Settings, other.tickPeriod = settings.tickPeriod → ∀ summary summary',
      (o settings).result = .ok summary → (o other).result = .ok summary' →
        summary'.records = summary.records ∧ summary'.intervals = summary.intervals ∧
        ∃ tables tables', Run.tables v settings (.steady f) = .ok tables ∧ Run.tables v other (.steady f) = .ok tables' ∧
          tables'.statistics = tables.statistics) := by
  intro o front behind
  have hform (statisticsFirst : Bool) (format : Format) :
      (o { settings with statisticsFirst, format }).result = (o settings).result := by
    simp only [o, result_outcome_none]
    exact (Run.result_of_form v settings hfault statisticsFirst format).1
  refine ⟨(hform true settings.format).trans (hform false settings.format).symm, ?_, ?_, ?_⟩
  · intro summary hok
    have hreported : Run.Reported v settings f reason summary := Run.reported_of_ok hfault hok
    have hfront := Run.written_of_form hfault hok true
    have hbehind := Run.written_of_form hfault hok false
    refine ⟨_, _, hreported.statistics, hreported.tables, ?_, ?_⟩
    · intro hformat
      rw [Run.reportText_of_document v hformat] at hfront hbehind
      exact hfront.trans hbehind.symm
    · intro hformat statistics list
      rw [Run.reportText_of_text v hformat, Run.blocksText] at hfront hbehind
      refine ⟨Run.statisticsText_eq_empty_iff v settings f, ?_, ?_⟩
      · intro hshow
        rw [if_pos hshow] at hfront hbehind
        exact ⟨hfront, hbehind⟩
      · intro hshow
        rw [if_neg (by simp [hshow])] at hfront hbehind
        exact ⟨hfront, hbehind⟩
  · intro format
    exact ⟨hform settings.statisticsFirst format, (Run.result_of_form v settings hfault settings.statisticsFirst format).2⟩
  · intro other hperiod summary summary' hok hok'
    have h : Run.Reported v settings f reason summary := Run.reported_of_ok hfault hok
    have h' : Run.Reported v other f reason summary' := Run.reported_of_ok hfault hok'
    have hsame := h'.summary
    rw [Run.tally_of_period v hperiod] at hsame
    refine ⟨?_, ?_, _, _, h.tables, h'.tables, ?_⟩
    · rw [hsame, h.summary]
    · rw [hsame, h.summary]
    · rw [Run.tally_of_period v hperiod]

/-- An interval that is closed at once, in a trace that arrives three bytes at a time. -/
theorem form_changes_nothing_of_interval :
    let start : Frame := ⟨7, List.replicate 8 0 ++ [0, 0xEF, 0, 0], by decide⟩
    let stop : Frame := ⟨7, List.replicate 8 0 ++ [0x20, 0xEF, 0, 0], by decide⟩
    let f : Feed := { pending := Frame.stream [start, stop] ++ [7], chunk := 3 }
    let o (s : Settings) := (run {} s (.steady f)).outcome none ""
    f.fault = none ∧ ∃ statistics list, statistics ≠ "" ∧
      (o { statisticsFirst := true }).written = (statistics ++ "\n" ++ list).toUTF8.toList ∧
      (o {}).written = (list ++ "\n" ++ statistics).toUTF8.toList := by
  intro start stop f o
  have htail : Incomplete [7] := .inl (by decide)
  have hpending : f.pending = Frame.stream [start, stop] ++ [7] := rfl
  have hdecoded : f.decoded = [⟨0, 0xEF00, 0, .other 7⟩, ⟨0, 0xEF20, 0, .other 7⟩] :=
    Feed.decoded_stream hpending htail rfl
  obtain ⟨summary, hok⟩ := Run.ok_of_no_events (v := {}) rfl {} (f := f) rfl ""
  obtain ⟨tally, tables, -, -, -, htext⟩ := (form_changes_nothing {} {} (f := f) rfl "").2.1 summary hok
  obtain ⟨hempty, hshown, -⟩ := htext rfl
  obtain ⟨hfront, hbehind⟩ := hshown rfl
  exact ⟨rfl, _, _, mt hempty.mp (by simp [hdecoded]), hfront, hbehind⟩

end EventTrace
