import EventTrace.Proofs.Run.Report
/-! The level filter. Main statement: it takes rows out of the event list and changes nothing else; the rows that stay
keep their index, since records that are not listed are counted and calibrate the time as well. -/
namespace EventTrace

open Transcript

namespace Renderer

/-- A record without a definition has every level. -/
def isOfLevel (v : Renderer) (level : String) (r : Record) : Bool :=
  match v.definition? r with
  | none => true
  | some e => e.level == some level

theorem lists_level (v : Renderer) {settings : Settings} {level : String} (h : settings.level = some level) (r : Record) :
    settings.lists ((v.definition? r).map (·.level)) = v.isOfLevel level r := by
  unfold Settings.lists isOfLevel
  rw [h]
  cases v.definition? r <;> rfl

theorem failure?_of_empty_template {v : Renderer} {r : Record} {e : EventDefinition} (h : v.definition? r = some e)
    (he : e.template = "") : v.failure? r = none := by
  rw [failure?, h]
  cases hprinted : r.printed? with
  | some bytes => simp only [Record.render, hprinted]
  | none => simp [Record.render, hprinted, renderTemplate, he, segments, renderSegments]

/-- Fewer records that are concerned cannot fail where more do not. -/
theorem firstFailure?_mono {v : Renderer} {concerned fewer : Record → Bool} (h : ∀ r, fewer r = true → concerned r = true)
    {records : List Record} (hfine : v.firstFailure? concerned records = none) :
    v.firstFailure? fewer records = none := by
  refine List.findSome?_eq_none_iff.mpr fun r hr => ?_
  obtain ⟨hmem, hfewer⟩ := List.mem_filter.mp hr
  exact List.findSome?_eq_none_iff.mp hfine r (List.mem_filter.mpr ⟨hmem, h r hfewer⟩)

end Renderer

namespace Run

theorem lists_all {settings : Settings} (h : settings.level = none) (level : Option (Option String)) :
    settings.lists level = true := by
  simp only [Settings.lists, h]

/-- Without a level every record has a row. -/
theorem rows_of_no_level {v : Renderer} {settings : Settings} (hshow : settings.showEvents = true)
    (hlevel : settings.level = none) {f : Feed} (hfine : v.firstFailure? (v.isListed settings) f.decoded = none) :
    rows v settings f = f.decoded.zipIdx.map fun p =>
      Listing.row v ((tally v settings f).timeBase.restart.upTo f.decoded p.2) p.2 p.1 (v.shown p.1) := by
  rw [rows, if_pos hshow, Listing.rows_of_fine hshow (Renderer.fine_of_firstFailure? hfine)]
  simp only [lists_all hlevel, List.filter_true]

/-- A level keeps the rows of the records that have it. -/
theorem rows_of_level {v : Renderer} {whole filtered : Settings} {level : String} (hshow : whole.showEvents = true)
    (hshow' : filtered.showEvents = true) (hwhole : whole.level = none) (hfiltered : filtered.level = some level)
    (hperiod : filtered.tickPeriod = whole.tickPeriod) {f : Feed}
    (hfine : v.firstFailure? (v.isListed whole) f.decoded = none) :
    v.firstFailure? (v.isListed filtered) f.decoded = none ∧
      rows v filtered f = ((f.decoded.zip (rows v whole f)).filter fun p => v.isOfLevel level p.1).map (·.2) := by
  have hfewer : v.firstFailure? (v.isListed filtered) f.decoded = none := by
    refine Renderer.firstFailure?_mono (fun r hr => ?_) hfine
    exact (Listing.isListed_iff hshow r).mpr (lists_all hwhole _)
  refine ⟨hfewer, ?_⟩
  let wholeRow (p : Record × Nat) := Listing.row v ((tally v whole f).timeBase.restart.upTo f.decoded p.2) p.2 p.1
    (v.shown p.1)
  have hzip : f.decoded.zip (rows v whole f) = f.decoded.zipIdx.map fun p => (p.1, wholeRow p) := by
    have hrecords : (f.decoded.zipIdx.map Prod.fst).zip (f.decoded.zipIdx.map wholeRow) = _ := List.zip_map'
    rwa [List.zipIdx_map_fst, ← rows_of_no_level hshow hwhole hfine] at hrecords
  have htally : tally v filtered f = tally v whole f := tally_of_period v hperiod f
  rw [hzip, rows, if_pos hshow', htally, Listing.rows_of_fine hshow' (Renderer.fine_of_firstFailure? hfewer),
    List.filter_map, List.map_map]
  simp only [Function.comp_def, v.lists_level hfiltered]
  rfl

/-- The rows are those of all records, in their order. -/
theorem index_of_no_level {v : Renderer} {settings : Settings} (hshow : settings.showEvents = true)
    (hlevel : settings.level = none) {f : Feed} (hfine : v.firstFailure? (v.isListed settings) f.decoded = none) :
    (rows v settings f).map (·.index) = List.range f.decoded.length := by
  have hindex : (rows v settings f).map (·.index) = f.decoded.zipIdx.map Prod.snd := by
    rw [rows_of_no_level hshow hlevel hfine, List.map_map]
    rfl
  rw [hindex, List.zipIdx_map_snd, List.range_eq_range']

/-- A text report has a line for each row, behind the heading of the event list. -/
theorem Reported.written_text {v : Renderer} {settings : Settings} {f : Feed} {reason : String} {summary : Summary}
    (h : Reported v settings f reason summary) (hformat : settings.format = .text)
    (hshow : settings.showEvents = true) :
    let columns := Columns.ofEvents v.schema.events
    ((run v settings (.steady f)).outcome none reason).written =
      (textInFront settings (tally v settings f) ++ Plain.eventsHeading columns ++
        Plain.lines ((rows v settings f).map (Plain.eventLine columns)) ++
          textBehind settings (tally v settings f)).toUTF8.toList := by
  intro columns
  rw [h.written, reportText, hformat, blocksText_eq hshow]

end Run

/-- A level takes rows out of the event list and does nothing else. If the run without a level succeeds, so does the run
with one; it counts the same records and intervals and has the same statistics. The rows of the whole list are indexed by
the records, and those that stay are, unchanged, the rows of the records that have no definition or one of that level. A
text report has the same lines of them, between the same texts. -/
theorem level_removes_rows (v : Renderer) {settings : Settings} (hshow : settings.showEvents = true) {f : Feed}
    (hfault : f.fault = none) (level reason : String) :
    let whole : Settings := { settings with level := none }
    let filtered : Settings := { settings with level := some level }
    let o (s : Settings) := (run v s (.steady f)).outcome none reason
    ∀ summary, (o whole).result = .ok summary →
      ∃ tally tables tables', (Run.statistics v settings (.steady f)).result = .ok tally ∧
        Run.tables v whole (.steady f) = .ok tables ∧ Run.tables v filtered (.steady f) = .ok tables' ∧
        (o filtered).result = .ok { summary with listed := tables'.events.length } ∧
        tables'.statistics = tables.statistics ∧
        tables.events.map (·.index) = List.range f.decoded.length ∧
        tables'.events = ((f.decoded.zip tables.events).filter fun p => v.isOfLevel level p.1).map (·.2) ∧
        (settings.format = .text →
          let columns := Columns.ofEvents v.schema.events
          let report (rows : List (EventRow Float)) :=
            Run.textInFront settings tally ++ Plain.eventsHeading columns ++
              Plain.lines (rows.map (Plain.eventLine columns)) ++ Run.textBehind settings tally
          (o whole).written = (report tables.events).toUTF8.toList ∧
            (o filtered).written = (report tables'.events).toUTF8.toList) := by
  intro whole filtered o summary hok
  have h : Run.Reported v whole f reason summary := Run.reported_of_ok hfault hok
  obtain ⟨hfirst, hsecond⟩ := Run.fine_of_ok hfault hok
  have hshow' : whole.showEvents = true := hshow
  have hshow'' : filtered.showEvents = true := hshow
  obtain ⟨hsecond', hrows⟩ := Run.rows_of_level hshow' hshow'' rfl rfl rfl hsecond
  obtain ⟨summary', hok', h'⟩ := Run.reported_of_fine hfault hfirst hsecond' reason
  refine ⟨_, _, _, h.statistics, h.tables, h'.tables, ?_, rfl, Run.index_of_no_level hshow' rfl hsecond, hrows, ?_⟩
  · rw [h.summary]
    exact hok'.trans (congrArg Except.ok h'.summary)
  · intro hformat columns report
    exact ⟨h.written_text hformat hshow', h'.written_text hformat hshow''⟩

/-- A trace of three records without intervals: one of the level, one of another level, and one without a definition. -/
theorem level_removes_rows_of_three :
    let events : EventTable := .ofList [{ id := 5, level := some "Op" }, { id := 6, level := some "Detail" }]
    let v : Renderer := { schema := { events } }
    let first : Frame := ⟨7, List.replicate 8 0 ++ [5, 0, 0, 0], by decide⟩
    let second : Frame := ⟨7, List.replicate 8 0 ++ [6, 0, 0, 0], by decide⟩
    let third : Frame := ⟨7, List.replicate 8 0 ++ [7, 0, 0, 0], by decide⟩
    let f : Feed := { pending := Frame.stream [first, second, third] ++ [7] }
    let settings : Settings := {}
    let o (s : Settings) := (run v s (.steady f)).outcome none ""
    f.fault = none ∧ settings.showEvents = true ∧ ∃ summary tables, (o settings).result = .ok summary ∧
      (o { level := some "Op" }).result = .ok { summary with listed := 2 } ∧
      Run.tables v { level := some "Op" } (.steady f) = .ok tables ∧ tables.events.map (·.index) = [0, 2] := by
  intro events v first second third f settings o
  have htail : Incomplete [7] := .inl (by decide)
  have hpending : f.pending = Frame.stream [first, second, third] ++ [7] := rfl
  let kept : Record := ⟨0, 5, 0, .other 7⟩
  let removed : Record := ⟨0, 6, 0, .other 7⟩
  let unknown : Record := ⟨0, 7, 0, .other 7⟩
  have hdecoded : f.decoded = [kept, removed, unknown] := Feed.decoded_stream hpending htail rfl
  have hkept : v.definition? kept = some { id := 5, level := some "Op" } := rfl
  have hremoved : v.definition? removed = some { id := 6, level := some "Detail" } := rfl
  have hunknown : v.definition? unknown = none := rfl
  have hfine (concerned : Record → Bool) : v.firstFailure? concerned f.decoded = none := by
    rw [hdecoded]
    refine List.findSome?_eq_none_iff.mpr fun r hr => ?_
    have hmem := (List.mem_filter.mp hr).1
    simp only [List.mem_cons, List.not_mem_nil, or_false] at hmem
    rcases hmem with rfl | rfl | rfl
    · exact Renderer.failure?_of_empty_template hkept rfl
    · exact Renderer.failure?_of_empty_template hremoved rfl
    · exact Renderer.failure?_of_no_definition hunknown
  obtain ⟨summary, hok, -⟩ := Run.reported_of_fine rfl (hfine _) (hfine (v.isListed settings)) ""
  have hshow : settings.showEvents = true := rfl
  obtain ⟨-, tables, tables', -, -, htables', hok', -, hindex, hrows, -⟩ :=
    level_removes_rows v hshow rfl "Op" "" summary hok
  have hthree : tables.events.map (·.index) = [0, 1, 2] := by rw [hindex, hdecoded]; rfl
  obtain ⟨x, behind, hevents, hx, hbehind⟩ := List.map_eq_cons_iff.mp hthree
  obtain ⟨y, last, rfl, -, hlast⟩ := List.map_eq_cons_iff.mp hbehind
  obtain ⟨z, rest, rfl, hz, -⟩ := List.map_eq_cons_iff.mp hlast
  have hstay : tables'.events = [x, z] := by
    rw [hrows, hdecoded, hevents]
    simp [Renderer.isOfLevel, hkept, hremoved, hunknown]
  have hindices : tables'.events.map (·.index) = [0, 2] := by rw [hstay, ← hx, ← hz]; rfl
  rw [hstay] at hok'
  exact ⟨rfl, rfl, summary, tables', hok, hok', htables', hindices⟩

end EventTrace
