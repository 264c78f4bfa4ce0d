import EventTrace.Run.Basic
import EventTrace.Proofs.Record.Iteration
import EventTrace.Proofs.Run.Ending
/-! When a run over a trace in memory fails. Main statement: it fails exactly if the text of a record cannot be made
that is an event of intervals or is listed; the first event of intervals that fails comes before every listed record. -/
namespace EventTrace

/-- A trace in memory: each opening delivers the same bytes. -/
def Source.steady (f : Feed) : Source where
  feed := fun _ => .ok f

namespace Feed

/-- The records of a trace, up to the first frame that is refused. -/
def decoded (f : Feed) : List Record := f.trace.records.map (·.2)

theorem decoded_stream {f : Feed} {frames : List Frame} {tail : List UInt8}
    (h : f.pending = Frame.stream frames ++ tail) (htail : Incomplete tail) (hfault : f.fault = none) :
    f.decoded = Frame.accepted frames :=
  (Reader.trace_stream rfl h htail hfault).1

theorem fault_trace {f : Feed} (hfault : f.fault = none) : f.trace.fault = none := by
  obtain ⟨frames, tail, hs, htail⟩ := Frame.exists_frames f.pending
  exact (Reader.trace_stream rfl hs htail hfault).2

end Feed

namespace Renderer

def failure? (v : Renderer) (r : Record) : Option RenderFault :=
  match v.definition? r with
  | none => none
  | some e =>
    match r.render v.resolver v.schema.typedefs (some e) with
    | .ok _ => none
    | .error cause => some cause

theorem failure?_of_no_definition {v : Renderer} {r : Record} (h : v.definition? r = none) : v.failure? r = none := by
  rw [failure?, h]

theorem failure?_eq_some_iff {v : Renderer} {r : Record} {cause : RenderFault} :
    v.failure? r = some cause ↔
      ∃ e, v.definition? r = some e ∧ r.render v.resolver v.schema.typedefs (some e) = .error cause := by
  rw [failure?]
  cases v.definition? r with
  | none => simp
  | some e => cases h : r.render v.resolver v.schema.typedefs (some e) <;> simp [h]

theorem failure?_isSome_iff {v : Renderer} {r : Record} :
    (v.failure? r).isSome = true ↔
      ∃ e cause, v.definition? r = some e ∧ r.render v.resolver v.schema.typedefs (some e) = .error cause := by
  simp only [Option.isSome_iff_exists, failure?_eq_some_iff]
  exact exists_comm

/-- What the traced program printed is shown whatever its definition says. -/
theorem failure?_of_printed {v : Renderer} {r : Record} {bytes : List UInt8} (hid : r.id = 0xFE00)
    (hpayload : r.payload = .blob bytes) : v.failure? r = none := by
  have hprinted : r.printed? = some bytes := by simp [Record.printed?, hpayload, hid, EventId.standardOutput]
  rw [failure?]
  cases v.definition? r with
  | none => rfl
  | some e => simp [Record.render, hprinted]

theorem text_ends (v : Renderer) (r : Record) : (v.text r).Ends ((v.failure? r).map .render) := by
  have hresult : (v.text r).result =
      (r.render v.resolver v.schema.typedefs (v.definition? r)).mapError .render := rfl
  cases he : v.definition? r with
  | none =>
    have hrender : ∃ text, r.render v.resolver v.schema.typedefs none = .ok text := by
      rw [Record.render]
      cases r.printed? with
      | none => exact ⟨_, rfl⟩
      | some bytes => exact ⟨_, rfl⟩
    obtain ⟨text, htext⟩ := hrender
    rw [failure?_of_no_definition he]
    exact Transcript.ends_of_ok (hresult.trans (by rw [he, htext]; rfl))
  | some e =>
    cases hrender : r.render v.resolver v.schema.typedefs (some e) with
    | ok text =>
      have hnone : v.failure? r = none := by simp only [failure?, he, hrender]
      rw [hnone]
      exact Transcript.ends_of_ok (hresult.trans (by rw [he, hrender]; rfl))
    | error cause =>
      have hsome : v.failure? r = some cause := by simp only [failure?, he, hrender]
      rw [hsome]
      exact hresult.trans (by rw [he, hrender]; rfl)

def fault? (v : Renderer) (concerned : Record → Bool) (r : Record) : Option Fault :=
  if concerned r then (v.failure? r).map .render else none

def firstFailure? (v : Renderer) (concerned : Record → Bool) (records : List Record) : Option RenderFault :=
  (records.filter concerned).findSome? v.failure?

theorem findSome?_fault? (v : Renderer) (concerned : Record → Bool) (records : List Record) :
    records.findSome? (v.fault? concerned) = (v.firstFailure? concerned records).map .render := by
  induction records with
  | nil => rfl
  | cons r records ih =>
    rw [firstFailure?] at ih ⊢
    rw [List.findSome?_cons, ih, List.filter_cons, fault?]
    by_cases hr : concerned r = true
    · cases hf : v.failure? r with
      | none => simp [hr, hf]
      | some cause => simp [hr, hf]
    · simp [hr]

theorem firstFailure?_of_no_events {v : Renderer} (h : v.schema.events = ∅) (concerned : Record → Bool)
    (records : List Record) : v.firstFailure? concerned records = none := by
  have hno (r : Record) : v.failure? r = none := by
    apply failure?_of_no_definition
    simp [definition?, h]
  simp [firstFailure?, hno]

theorem firstFailure?_isSome_iff {v : Renderer} {concerned : Record → Bool} {records : List Record} :
    (v.firstFailure? concerned records).isSome = true ↔
      ∃ r ∈ records, concerned r = true ∧ (v.failure? r).isSome = true := by
  simp [firstFailure?, List.findSome?_isSome_iff, and_assoc]

end Renderer

open Transcript

def Record.isInterval (r : Record) : Bool := r.id.classCode == 0xEF

def Renderer.isListed (v : Renderer) (settings : Settings) (r : Record) : Bool :=
  settings.showEvents && settings.lists ((v.definition? r).map (·.level))

/-- Some record fails that concerns one of the passes. -/
theorem Renderer.firstFailure?_or_isSome_iff {v : Renderer} {settings : Settings} {records : List Record} :
    ((v.firstFailure? Record.isInterval records).or (v.firstFailure? (v.isListed settings) records)).isSome = true ↔
      ∃ r ∈ records,
        (∃ d cause, v.definition? r = some d ∧ r.render v.resolver v.schema.typedefs (some d) = .error cause) ∧
        (r.id.classCode = 0xEF ∨
          settings.showEvents = true ∧ settings.lists ((v.definition? r).map (·.level)) = true) := by
  rw [Option.isSome_or, Bool.or_eq_true, firstFailure?_isSome_iff, firstFailure?_isSome_iff]
  simp only [failure?_isSome_iff, Record.isInterval, isListed, beq_iff_eq, Bool.and_eq_true]
  constructor
  · rintro (⟨r, hr, hc, hf⟩ | ⟨r, hr, hc, hf⟩)
    · exact ⟨r, hr, hf, .inl hc⟩
    · exact ⟨r, hr, hf, .inr hc⟩
  · rintro ⟨r, hr, hf, hc | hc⟩
    · exact .inl ⟨r, hr, hc, hf⟩
    · exact .inr ⟨r, hr, hc, hf⟩

theorem Tally.step_ends {α : Type} [Scalar α] (v : Renderer) (s : Tally α) (r : Record) :
    (step v s r).Ends (v.fault? Record.isInterval r) := by
  refine (ends_log _).after fun _ _ => ?_
  rw [Renderer.fault?]
  by_cases h : r.id.classCode = EventId.intervalClass
  · have hr : r.isInterval = true := by
      rw [Record.isInterval, h]
      rfl
    rw [if_pos h, if_pos hr]
    refine (v.text_ends r).before fun caption _ => ?_
    exact (ends_log _).after fun _ _ => ends_pure _
  · have hr : ¬r.isInterval = true := by
      rw [Record.isInterval, beq_iff_eq]
      exact h
    rw [if_neg h, if_neg hr]
    exact ends_pure _

theorem Listing.step_ends (v : Renderer) {settings : Settings} (hshow : settings.showEvents = true) (s : Listing)
    (r : Record) : (step v settings s r).Ends (v.fault? (v.isListed settings) r) := by
  refine (ends_log _).after fun _ _ => ?_
  rw [Renderer.fault?, Renderer.isListed, hshow, Bool.true_and]
  by_cases h : settings.lists ((v.definition? r).map (·.level)) = true
  · rw [if_pos h, if_pos h]
    refine (v.text_ends r).before fun value _ => ?_
    exact (ends_write _ _).after fun _ _ => ends_pure _
  · rw [if_neg h, if_neg h]
    exact ends_pure _

theorem writeStatistics_ends (tally : Tally Float) (report : Report) :
    (Run.writeStatistics tally report).Ends none := by
  rw [Run.writeStatistics]
  split
  · exact (ends_write _ _).after fun _ _ => ends_pure _
  · exact ends_pure _

theorem writeBlankLine_ends (settings : Settings) (report : Report) : (Run.writeBlankLine settings report).Ends none := by
  rw [Run.writeBlankLine]
  split
  · exact ends_write _ _
  · exact ends_pure _

theorem writeAll_ends (writes : List (Part × String)) : (Run.writeAll writes).Ends none := by
  induction writes with
  | nil => exact ends_pure ()
  | cons x writes ih => exact (ends_write x.1 x.2).after fun _ _ => ih

theorem Source.openAt_steady (f : Feed) (opening : Nat) : ((Source.steady f).openAt opening).result = .ok f := rfl

section
variable (v : Renderer) (settings : Settings)

/-- The order of the blocks does not matter for how they end. -/
theorem writeBlocks_ends {source : Source} {tally : Tally Float} {e : Option Fault}
    (hevents : ∀ report, (Run.writeEvents v settings source tally.timeBase report).Ends e) (report : Report) :
    (Run.writeBlocks v settings source tally report).Ends e := by
  rw [Run.writeBlocks]
  split
  · refine (writeStatistics_ends tally report).after fun report _ => ?_
    exact (writeBlankLine_ends settings report).after fun _ _ => hevents report
  · refine (hevents report).before fun written _ => ?_
    refine (writeBlankLine_ends settings written.2).after fun _ _ => ?_
    exact (writeStatistics_ends tally written.2).after fun _ _ => ends_pure _

/-- What a run does behind the first pass. -/
theorem run_ends_of_events {source : Source} {e e' : Option Fault} (hfirst : (Run.statistics v settings source).Ends e)
    (hevents : ∀ tally, (Run.statistics v settings source).result = .ok tally → ∀ report,
      (Run.writeEvents v settings source tally.timeBase report).Ends e') :
    (run v settings source).Ends (e.or e') := by
  refine hfirst.bind fun tally htally => ?_
  refine (writeBlocks_ends v settings (hevents tally htally) _).before fun written _ => ?_
  exact (writeAll_ends _).after fun _ _ => (ends_log _).after fun _ _ => ends_pure _

end

section
variable (v : Renderer) (settings : Settings) {f : Feed} (hfault : f.fault = none)
include hfault

theorem collect_ends {α : Type} [Scalar α] (t : TimeBase α) :
    (collect v (.steady f) t).Ends ((v.firstFailure? Record.isInterval f.decoded).map .render) := by
  refine (ends_log _).after fun _ _ => ?_
  refine (ends_of_ok (Source.openAt_steady f 0)).after fun feed hfeed => ?_
  obtain rfl : f = feed := Except.ok.inj hfeed
  rw [← Renderer.findSome?_fault?]
  refine (follow_ends (Tally.step_ends v) (Feed.fault_trace hfault) _).before fun tally _ => ?_
  exact (ends_log _).after fun _ _ => ends_pure _

theorem list_ends {settings : Settings} (hshow : settings.showEvents = true) (t : TimeBase Float) (report : Report) :
    (list v settings (.steady f) t report).Ends
      ((v.firstFailure? (v.isListed settings) f.decoded).map .render) := by
  refine (ends_log _).after fun _ _ => (ends_write _ _).after fun _ _ => ?_
  refine (ends_of_ok (Source.openAt_steady f 1)).after fun feed hfeed => ?_
  obtain rfl : f = feed := Except.ok.inj hfeed
  rw [← Renderer.findSome?_fault?]
  refine (follow_ends (Listing.step_ends v hshow) (Feed.fault_trace hfault) _).before fun listing _ => ?_
  exact (ends_log _).after fun _ _ => ends_pure _

theorem writeEvents_ends (t : TimeBase Float) (report : Report) :
    (Run.writeEvents v settings (.steady f) t report).Ends
      ((v.firstFailure? (v.isListed settings) f.decoded).map .render) := by
  rw [Run.writeEvents]
  by_cases hshow : settings.showEvents = true
  · rw [if_pos hshow]
    exact (list_ends v hfault hshow t report).before fun listing _ => ends_pure _
  · rw [if_neg hshow]
    have hnone : v.firstFailure? (v.isListed settings) f.decoded = none := by
      simp [Renderer.firstFailure?, Renderer.isListed, hshow]
    rw [hnone]
    exact ends_pure _

/-- A run ends with the first failure of the first pass, or else with the first of the second. -/
theorem run_ends :
    (run v settings (.steady f)).Ends
      (((v.firstFailure? Record.isInterval f.decoded).or
        (v.firstFailure? (v.isListed settings) f.decoded)).map .render) := by
  rw [Option.map_or]
  exact run_ends_of_events v settings (collect_ends v hfault _) fun _ _ => writeEvents_ends v settings hfault _

end

/-- A run over a trace in memory into a sink that accepts everything fails exactly if a record that has a definition
cannot be shown by it and is an event of intervals or is listed. It fails with the first such event of intervals, or
else with the first such record that is listed; the failure is one of form, field or name. A record that has no
definition or was printed by the traced program does not fail, so without definitions no run does. -/
theorem run_fails_iff (v : Renderer) (settings : Settings) (f : Feed) (hfault : f.fault = none) (reason : String) :
    let result := ((run v settings (.steady f)).outcome none reason).result
    ((∃ e, result = .error e) ↔ ∃ r ∈ f.decoded,
      (∃ d cause, v.definition? r = some d ∧ r.render v.resolver v.schema.typedefs (some d) = .error cause) ∧
      (r.id.classCode = 0xEF ∨
        settings.showEvents = true ∧ settings.lists ((v.definition? r).map (·.level)) = true)) ∧
    (∀ e, result = .error e ↔ ∃ cause, e = .render cause ∧
      (v.firstFailure? Record.isInterval f.decoded).or
        (v.firstFailure? (v.isListed settings) f.decoded) = some cause) ∧
    (∀ e, result = .error e →
      (∃ c, e = .render (.form c)) ∨ (∃ c, e = .render (.field c)) ∨ (∃ c, e = .render (.name c))) ∧
    (∀ r, v.definition? r = none ∨ (∃ bytes, r.id = 0xFE00 ∧ r.payload = .blob bytes) → v.failure? r = none) ∧
    (v.schema.events = ∅ → ∃ summary, result = .ok summary) := by
  intro result
  have hresult : result = (run v settings (.steady f)).result := result_outcome_none _ reason
  have hends := run_ends v settings hfault
  have herror (e : Fault) : result = .error e ↔ ∃ cause, e = .render cause ∧
      (v.firstFailure? Record.isInterval f.decoded).or
        (v.firstFailure? (v.isListed settings) f.decoded) = some cause := by
    rw [hresult, hends.eq_error_iff, Option.map_eq_some_iff]
    constructor
    · rintro ⟨cause, hcause, rfl⟩
      exact ⟨cause, rfl, hcause⟩
    · rintro ⟨cause, rfl, hcause⟩
      exact ⟨cause, hcause, rfl⟩
  refine ⟨?_, herror, ?_, ?_, ?_⟩
  · rw [← Renderer.firstFailure?_or_isSome_iff, Option.isSome_iff_exists]
    constructor
    · rintro ⟨e, he⟩
      obtain ⟨cause, _, hcause⟩ := (herror e).mp he
      exact ⟨cause, hcause⟩
    · rintro ⟨cause, hcause⟩
      exact ⟨.render cause, (herror _).mpr ⟨cause, rfl, hcause⟩⟩
  · intro e he
    obtain ⟨cause, rfl, _⟩ := (herror e).mp he
    cases cause with
    | form c => exact .inl ⟨c, rfl⟩
    | field c => exact .inr (.inl ⟨c, rfl⟩)
    | name c => exact .inr (.inr ⟨c, rfl⟩)
  · rintro r (hno | ⟨bytes, hid, hpayload⟩)
    · exact Renderer.failure?_of_no_definition hno
    · exact Renderer.failure?_of_printed hid hpayload
  · intro hempty
    rw [Renderer.firstFailure?_of_no_events hempty, Renderer.firstFailure?_of_no_events hempty] at hends
    rw [hresult]
    exact hends

/-- A listed record fails before an event of intervals does. The run fails with the latter, and without definitions
not at all. -/
theorem run_fails_of_interval :
    let schema : Schema := { events := .ofList [{ id := 5, template := "%C" }, { id := 0xEF00, template := "%E" }] }
    let listed : Frame := ⟨7, List.replicate 8 0 ++ [5, 0, 0, 0], by decide⟩
    let interval : Frame := ⟨7, List.replicate 8 0 ++ [0, 0xEF, 0, 0], by decide⟩
    let f : Feed := { pending := Frame.stream [listed, interval] ++ [7], chunk := 3 }
    ((run { schema } {} (.steady f)).outcome none "").result = .error (.render (.form .referenceExpected)) ∧
      ∃ summary, ((run {} {} (.steady f)).outcome none "").result = .ok summary := by
  intro schema listed interval f
  have htail : Incomplete [7] := .inl (by decide)
  have hpending : f.pending = Frame.stream [listed, interval] ++ [7] := rfl
  have hdecoded : f.decoded = [⟨0, 5, 0, .other 7⟩, ⟨0, 0xEF00, 0, .other 7⟩] :=
    Feed.decoded_stream hpending htail rfl
  have hfirst : ({ schema } : Renderer).firstFailure? Record.isInterval f.decoded =
      some (.form .referenceExpected) := by
    rw [hdecoded]
    simp [Renderer.firstFailure?, Record.isInterval, EventId.classCode, Renderer.failure?, Renderer.definition?,
      schema, EventTable.ofList, EventTable.add, Record.render, Record.printed?, renderTemplate, segments,
      Segment.first, Segment.nameDirective, Bracket.ofChars, renderSegments, Segment.render]
    rfl
  refine ⟨?_, ?_⟩
  · exact ((run_fails_iff { schema } {} f rfl "").2.1 _).mpr ⟨_, rfl, by rw [hfirst]; rfl⟩
  · exact (run_fails_iff {} {} f rfl "").2.2.2.2 rfl

end EventTrace
