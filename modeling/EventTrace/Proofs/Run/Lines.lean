import EventTrace.Proofs.Run.Aggregation
import EventTrace.Proofs.Template.Lines
/-! The lines of a text report. Main statement: there are as many as the report has rows and slots, so that no record adds a
line of its own, whatever it carries. -/
namespace EventTrace

open Text Transcript

namespace Magnitude

variable {α : Type} [Scalar α]

theorem oneLine_symbol (i : Nat) : OneLine (band i : Band α).symbol := by
  unfold band
  split <;> (dsimp only; decide)

theorem oneLine_render (value : α) {unit : String} (h : OneLine unit) : OneLine (render value unit) := by
  rw [render, renderIn, oneLine_append, oneLine_alignRight]
  refine ⟨oneLine_fixed _ _, ?_⟩
  split
  · exact oneLine_append.mpr ⟨h, by decide⟩
  · exact oneLine_append.mpr ⟨oneLine_symbol _, h⟩

end Magnitude

structure StatisticRow.KeepsLine (r : StatisticRow Float) : Prop where
  label : OneLine r.label
  min : OneLine r.state.minCaptions.1 ∧ OneLine r.state.minCaptions.2
  max : OneLine r.state.maxCaptions.1 ∧ OneLine r.state.maxCaptions.2

structure EventRow.KeepsLine (r : EventRow Float) : Prop where
  component : OneLine r.component
  property : OneLine r.property
  value : OneLine r.value

namespace Plain

theorem breaks_lines {ls : List String} (h : ∀ l ∈ ls, OneLine l) : breaks (lines ls) = ls.length := by
  induction ls with
  | nil => rfl
  | cons l ls ih =>
    obtain ⟨hl, hls⟩ := List.forall_mem_cons.mp h
    have hcons : lines (l :: ls) = l ++ "\n" ++ lines ls := by rw [lines, List.map_cons, String.join_cons]; rfl
    have hbreak : breaks "\n" = 1 := by decide
    rw [hcons, breaks_append, breaks_append, breaks_of_oneLine hl, hbreak, ih hls, List.length_cons]
    omega

theorem oneLine_time (x : Float) : OneLine (time x) := oneLine_fixed 8 _

theorem oneLine_extremeLine {name : String} (hname : OneLine name) (start stop : Float) {captions : String × String}
    (h : OneLine captions.1 ∧ OneLine captions.2) : OneLine (extremeLine name start stop captions) := by
  delta extremeLine
  simp +decide [hname, h, oneLine_time]

theorem oneLine_slotLines {r : StatisticRow Float} (h : r.KeepsLine) : ∀ l ∈ slotLines r, OneLine l := by
  have hdurations : ∀ s ∈ r.durations, OneLine s := by
    intro s hs
    obtain ⟨x, -, rfl⟩ := List.mem_map.mp hs
    exact Magnitude.oneLine_render x (by decide)
  have hmark : OneLine r.pendingMark := by
    rw [StatisticRow.pendingMark]
    split <;> decide
  have hblank : OneLine (if r.label.utf8ByteSize < 5 then " " else "") := by split <;> decide
  have hspace : OneLine " " := by decide
  simp only [slotLines, List.forall_mem_cons]
  refine ⟨?_, oneLine_extremeLine (by decide) _ _ h.min, oneLine_extremeLine (by decide) _ _ h.max, by decide, by simp⟩
  simp [h.label, hmark, hblank, hspace, oneLine_intercalate hspace hdurations]

theorem oneLine_eventLine (c : Columns) {r : EventRow Float} (h : r.KeepsLine) : OneLine (eventLine c r) := by
  have hquote : OneLine (if r.quoted then "\"" else "") := by split <;> decide
  have hspace : OneLine " " := by decide
  simp [eventLine, hspace, oneLine_time, h.component, h.property, h.value, hquote]

theorem breaks_eventsHeading (c : Columns) : breaks (eventsHeading c) = 5 := by
  rw [eventsHeading, breaks_lines]
  · rfl
  · have hspace : OneLine " " := by decide
    have hindex : OneLine "Index" := by decide
    have htime : OneLine "Time (s)" := by decide
    have hcomponent : OneLine "Component" := by decide
    have hproperty : OneLine "Event Property" := by decide
    have hvalue : OneLine " Value" := by decide
    have hdashes : OneLine "----- --------   " ∧ OneLine "---------" ∧ OneLine "--------------" ∧ OneLine " -----" := by
      decide
    simp only [List.forall_mem_cons]
    refine ⟨by decide, by decide, by decide, ?_, ?_, by simp⟩
    · simp [hspace, hindex, htime, hcomponent, hproperty, hvalue]
    · simp [hspace, hdashes]

theorem oneLine_statisticsHeading : ∀ l ∈ statisticsHeading, OneLine l := by
  simp only [statisticsHeading, List.forall_mem_cons]
  -- A long literal is taken as the list of its characters: to decide through `String.toList` is slow.
  exact ⟨oneLine_ofList.mpr (by decide), oneLine_ofList.mpr (by decide), by decide, oneLine_ofList.mpr (by decide),
    oneLine_ofList.mpr (by decide), by simp⟩

theorem length_slots (rows : List (StatisticRow Float)) : (rows.flatMap slotLines).length = 4 * rows.length := by
  induction rows with
  | nil => rfl
  | cons r rows ih =>
    have hfour : (slotLines r).length = 4 := rfl
    rw [List.flatMap_cons, List.length_append, ih, hfour, List.length_cons]
    omega

theorem breaks_statisticsBlock {rows : List (StatisticRow Float)} (h : ∀ r ∈ rows, r.KeepsLine) :
    breaks (statisticsBlock rows) = 5 + 4 * rows.length := by
  rw [statisticsBlock, breaks_lines, List.length_append, length_slots]
  · rfl
  · intro l hl
    rcases List.mem_append.mp hl with hl | hl
    · exact oneLine_statisticsHeading l hl
    · obtain ⟨r, hr, hl⟩ := List.mem_flatMap.mp hl
      exact oneLine_slotLines (h r hr) l hl

end Plain

theorem SlotStatistics.oneLine_label {s : SlotStatistics Float} (h : s.group < 4) : OneLine s.label := by
  have hletter : ∀ group < 4, OneLine (String.singleton (Char.ofNat ((65 + group) % 256))) := by decide
  simp +decide [label, hletter s.group h]

theorem Aggregator.group_of_mem_completed {calls : List (Call Float)} {x : SlotStatistics Float}
    (hx : x ∈ (empty.run calls).completed) : x.group < 4 := by
  rw [run_empty, completed_ofStates] at hx
  obtain ⟨p, hp, rfl⟩ := List.mem_map.mp hx
  exact (mem_places.mp (List.mem_filter.mp hp).1).1

theorem Aggregator.captions_of_mem_completed {v : Renderer} {time : Nat → Float} {records : List Record}
    {x : SlotStatistics Float} (hx : x ∈ (empty.run (Tally.calls v time records)).completed) :
    (∃ i ∈ Tally.spans v records x.group x.slot, x.state.minCaptions = i.captions) ∧
      ∃ i ∈ Tally.spans v records x.group x.slot, x.state.maxCaptions = i.captions := by
  -- A slot is reported for an interval at least, so its captions are those of a shortest and of a longest one.
  obtain ⟨hcount, hsum⟩ := summarizes_of_mem_completed hx
  rw [Tally.intervals_eq_spans] at hsum
  have hsome : (Tally.spans v records x.group x.slot).map (Interval.map time) ≠ [] := by
    intro hnone
    rw [hsum.count, hnone] at hcount
    exact absurd hcount (by simp)
  have hspan {precedes : Float → Float → Bool} {i : Interval Float}
      (hi : Interval.Foremost precedes ((Tally.spans v records x.group x.slot).map (Interval.map time)) i) :
      ∃ span ∈ Tally.spans v records x.group x.slot, i.captions = span.captions := by
    obtain ⟨before, after, hsplit, -⟩ := hi
    have hmem : i ∈ (Tally.spans v records x.group x.slot).map (Interval.map time) := by simp [hsplit]
    obtain ⟨span, hspan, rfl⟩ := List.mem_map.mp hmem
    exact ⟨span, hspan, rfl⟩
  obtain ⟨i, hi, -, -, hmin⟩ := hsum.shortest hsome
  obtain ⟨j, hj, -, -, hmax⟩ := hsum.longest hsome
  rw [hmin, hmax]
  exact ⟨hspan hi, hspan hj⟩

section
variable {v : Renderer} (hv : v.KeepsLine)
include hv

theorem Tally.oneLine_of_mem_spans {records : List Record} {group slot : Nat} {i : Interval Nat}
    (h : i ∈ spans v records group slot) : OneLine i.captions.1 ∧ OneLine i.captions.2 := by
  obtain ⟨-, ⟨r, -, -, hstart⟩, r', -, -, hstop⟩ := of_mem_spans h
  exact ⟨Record.oneLine_render hv hstart, Record.oneLine_render hv hstop⟩

theorem Run.statisticsRow_keepsLine (settings : Settings) (f : Feed) {x : SlotStatistics Float}
    (hx : x ∈ (tally v settings f).aggregator.completed) : (StatisticRow.ofSlot x).KeepsLine := by
  obtain ⟨⟨i, hi, hmin⟩, j, hj, hmax⟩ := Aggregator.captions_of_mem_completed hx
  refine ⟨SlotStatistics.oneLine_label (Aggregator.group_of_mem_completed hx), ?_, ?_⟩
  · show OneLine x.state.minCaptions.1 ∧ OneLine x.state.minCaptions.2
    rw [hmin]
    exact Tally.oneLine_of_mem_spans hv hi
  · show OneLine x.state.maxCaptions.1 ∧ OneLine x.state.maxCaptions.2
    rw [hmax]
    exact Tally.oneLine_of_mem_spans hv hj

theorem Listing.row_keepsLine {t : TimeBase Float} {index : Nat} {r : Record} {value : String}
    (h : r.render v.resolver v.schema.typedefs (v.definition? r) = .ok value) : (row v t index r value).KeepsLine := by
  have hlabels : OneLine (labels r (v.definition? r)).1 ∧ OneLine (labels r (v.definition? r)).2 := by
    cases hdefinition : v.definition? r with
    | none => simp +decide [labels]
    | some e => exact (hv.events r.id e hdefinition).2
  exact ⟨hlabels.1, hlabels.2, Record.oneLine_render hv h⟩

theorem Run.row_keepsLine {settings : Settings} {f : Feed} {found : EventRow Float} (h : found ∈ rows v settings f) :
    found.KeepsLine := by
  rw [rows] at h
  split at h
  · obtain ⟨r, value, -, hrender, hfound⟩ := Listing.of_mem_rows h
    exact hfound ▸ Listing.row_keepsLine hv hrender
  · cases h

theorem Run.breaks_statisticsText (settings : Settings) (f : Feed) :
    breaks (statisticsText (tally v settings f)) =
      if f.decoded = [] then 0 else 5 + 4 * (tally v settings f).aggregator.completed.length := by
  have hrecords : 0 < (tally v settings f).records ↔ ¬f.decoded = [] := List.length_pos_iff
  simp only [statisticsText, hrecords, ite_not]
  split
  · rfl
  · rw [Plain.breaks_statisticsBlock, List.length_map]
    intro r hr
    obtain ⟨x, hx, rfl⟩ := List.mem_map.mp hr
    exact statisticsRow_keepsLine hv settings f hx

theorem Run.breaks_listText (settings : Settings) (f : Feed) (columns : Columns) :
    breaks (listText columns (rows v settings f)) = 5 + (rows v settings f).length := by
  rw [listText, breaks_append, Plain.breaks_eventsHeading, Plain.breaks_lines, List.length_map]
  intro l hl
  obtain ⟨found, hfound, rfl⟩ := List.mem_map.mp hl
  exact Plain.oneLine_eventLine columns (row_keepsLine hv hfound)

theorem Run.breaks_blocksText (settings : Settings) (f : Feed) (columns : Columns) :
    breaks (blocksText settings columns (tally v settings f) (rows v settings f)) =
      (if settings.showEvents then 5 + (rows v settings f).length + 1 else 0) +
        if f.decoded = [] then 0 else 5 + 4 * (tally v settings f).aggregator.completed.length := by
  have hbreak : breaks "\n" = 1 := by decide
  rw [← breaks_statisticsText hv, ← breaks_listText hv settings f columns, blocksText]
  split
  · split
    · rw [breaks_append, breaks_append, hbreak]
      omega
    · rw [breaks_append, breaks_append, hbreak]
  · rw [Nat.zero_add]

end

/-- If no text that is looked up has a line break, a text report has the lines of its headings, one line for each event
that is listed and four for each slot that is reported, and no others: the bytes of a trace break no line. What the traced
program printed is shown without control characters. -/
theorem line_breaks_of_report {v : Renderer} (hv : v.KeepsLine) {settings : Settings} (hformat : settings.format = .text)
    {f : Feed} (hfault : f.fault = none) (reason : String) :
    let o := (run v settings (.steady f)).outcome none reason
    let line := Plain.eventLine (.ofEvents v.schema.events)
    (∀ summary, o.result = .ok summary → ∃ tally tables, (Run.statistics v settings (.steady f)).result = .ok tally ∧
      Run.tables v settings (.steady f) = .ok tables ∧ tables.events.length = summary.listed ∧
      o.written.count 0x0A = (if settings.showEvents then 5 + summary.listed + 1 else 0) +
        (if f.decoded = [] then 0 else 5 + 4 * tally.aggregator.completed.length) ∧
      (∀ row ∈ tables.events, OneLine (line row)) ∧
      (settings.showEvents = true → ∃ front behind,
        o.written = (front ++ Plain.lines (tables.events.map line) ++ behind).toUTF8.toList)) ∧
    ∀ (r : Record) (bytes : List UInt8), r.printed? = some bytes →
      ∃ text, r.render v.resolver v.schema.typedefs (v.definition? r) = .ok text ∧ OneLine text ∧
        ∀ c ∈ text.toList, 0x20 ≤ c.toNat := by
  intro o line
  refine ⟨fun summary hok => ?_, fun r bytes h => Record.render_of_printed h _ _ _⟩
  have h : Run.Reported v settings f reason summary := Run.reported_of_ok hfault hok
  have hlisted : (Run.rows v settings f).length = summary.listed := by rw [h.summary]
  refine ⟨_, _, h.statistics, h.tables, hlisted, ?_, fun row hrow => ?_, fun hshow => ?_⟩
  · rw [h.written, Run.reportText, hformat, count_newline_encoded, ← hlisted]
    exact Run.breaks_blocksText hv settings f _
  · exact Plain.oneLine_eventLine _ (Run.row_keepsLine hv hrow)
  · exact ⟨_, _, h.written_text hformat hshow⟩

/-- The traced program prints line breaks, and the memory has a text. -/
theorem line_breaks_of_report_of_printed :
    let out : EventDefinition := { id := 0xFE00, template := "%C", component := "Out" }
    let v : Renderer :=
      { schema := { events := .ofList [out] }, resolver := (StringTable.ofList [(5, "text")]).lookup }
    let printed : Frame := ⟨1, List.replicate 8 0 ++ [0, 0xFE, 3, 0, 0x0A, 0x41, 0x0A], by decide⟩
    let f : Feed := { pending := Frame.stream [printed] ++ [7] }
    let o := (run v {} (.steady f)).outcome none ""
    v.KeepsLine ∧ f.fault = none ∧ ∃ summary, o.result = .ok summary ∧ o.written.count 0x0A = 12 := by
  intro out v printed f o
  have htexts : (StringTable.ofList [(5, "text")]).lookup.KeepsLine := by
    refine StringTable.oneLine_lookup fun address text h => ?_
    simp [StringTable.ofList, Std.ExtTreeMap.getElem?_insert] at h
    exact h.2 ▸ by decide
  have hevents (id : EventId) (e : EventDefinition) (h : v.schema.events[id]? = some e) :
      OneLine e.template ∧ OneLine e.component ∧ OneLine e.property := by
    simp [v, EventTable.ofList, EventTable.add, Std.ExtTreeMap.getElem?_insert] at h
    exact h.2 ▸ by decide
  have hv : v.KeepsLine := ⟨hevents, fun _ _ h => by simp [v] at h, htexts⟩
  have hpending : f.pending = Frame.stream [printed] ++ [7] := rfl
  have htail : Incomplete [7] := .inl (by decide)
  have hdecoded : f.decoded = [⟨0, 0xFE00, 3, .blob [0x0A, 0x41, 0x0A]⟩] := Feed.decoded_stream hpending htail rfl
  have hfine (concerned : Record → Bool) : v.firstFailure? concerned f.decoded = none := by
    refine List.findSome?_eq_none_iff.mpr fun r hr => ?_
    have hr := (List.mem_filter.mp hr).1
    rw [hdecoded] at hr
    obtain rfl := List.mem_singleton.mp hr
    exact Renderer.failure?_of_printed rfl rfl
  obtain ⟨summary, hok, hreported⟩ := Run.reported_of_fine rfl (hfine _) (hfine (v.isListed {})) ""
  have hformat : ({} : Settings).format = .text := rfl
  obtain ⟨tally, tables, htally, -, -, hcount, -⟩ := (line_breaks_of_report hv hformat (f := f) rfl "").1 summary hok
  refine ⟨hv, rfl, summary, hok, hcount.trans ?_⟩
  obtain rfl := Except.ok.inj (hreported.statistics.symm.trans htally)
  have hcompleted : (Run.tally v {} f).aggregator.completed = [] := by
    rw [Run.tally, hdecoded]
    rfl
  have hlength : summary.listed = 1 := by
    rw [hreported.summary]
    show (Run.rows v {} f).length = 1
    rw [Run.rows, if_pos rfl, Listing.length_rows rfl (Renderer.fine_of_firstFailure? (hfine _)), hdecoded]
    rfl
  rw [hcompleted, hlength, hdecoded]
  rfl

end EventTrace
