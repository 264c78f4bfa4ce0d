import EventTrace.Proofs.Run.Report
/-! Sinks that fill up. Main statement: a sink with room for some bytes takes just the first bytes of what a run writes into
a sink without a limit, and a byte that does not fit fails the run. The failure is named after the part of the report that
the byte belongs to, so it matters where each byte of a report comes from. -/
namespace EventTrace

open Transcript

namespace Effect

def bytes (e : Effect) : List UInt8 := e.text.toUTF8.toList

/-- The part of the report that each byte of a write belongs to. -/
def parts : Effect → List Part
  | .wrote part text => List.replicate text.toUTF8.toList.length part
  | _ => []

theorem length_parts (e : Effect) : e.parts.length = e.bytes.length := by
  cases e with
  | wrote part text => exact List.length_replicate
  | entry | opened => simp [parts, bytes, text]

end Effect

namespace Transcript

variable {α β : Type} {t : Transcript α} {f : α → Transcript β}

def bytes (t : Transcript α) : List UInt8 := t.effects.flatMap Effect.bytes

def parts (t : Transcript α) : List Part := t.effects.flatMap Effect.parts

theorem length_parts (t : Transcript α) : t.parts.length = t.bytes.length := by
  simp only [parts, bytes, List.length_flatMap, Effect.length_parts]

theorem bytes_bind_of_ok {a : α} (h : t.result = .ok a) (f : α → Transcript β) :
    (t >>= f).bytes = t.bytes ++ (f a).bytes := by
  rw [bytes, effects_bind_of_ok h, List.flatMap_append]
  rfl

theorem parts_bind_of_ok {a : α} (h : t.result = .ok a) (f : α → Transcript β) :
    (t >>= f).parts = t.parts ++ (f a).parts := by
  rw [parts, effects_bind_of_ok h, List.flatMap_append]
  rfl

theorem parts_bind_of_error {e : Fault} (h : t.result = .error e) (f : α → Transcript β) : (t >>= f).parts = t.parts := by
  rw [parts, effects_bind_of_error h]
  rfl

theorem written_outcome_none (t : Transcript α) (reason : String) : (t.outcome none reason).written = t.bytes := by
  rw [outcome, bytes]
  induction t.effects with
  | nil => rfl
  | cons effect rest ih =>
    rw [List.flatMap_cons, ← ih]
    cases effect <;> simp [Outcome.follow, Effect.bytes, Effect.text]

theorem Does.bytes_eq {n : Nat} {s : String} {result : Except Fault α} (h : t.Does n s result) :
    t.bytes = s.toUTF8.toList :=
  (t.written_outcome_none "").symm.trans (h.outcome "").2.1

/-- A sink with room for some bytes takes the first bytes, and the first byte that has no room decides the result. -/
theorem outcome_some (t : Transcript α) (room : Nat) (reason : String) :
    (t.outcome (some room) reason).written = t.bytes.take room ∧
      (t.outcome (some room) reason).result = match t.parts[room]? with
        | some part => .error (part.fault reason)
        | none => t.result := by
  rw [outcome, bytes, parts]
  -- for any room: a write that fits leaves less of it for what follows
  induction t.effects generalizing room with
  | nil => exact ⟨List.take_nil.symm, rfl⟩
  | cons effect rest ih =>
    rw [List.flatMap_cons, List.flatMap_cons]
    cases effect with
    | entry | opened =>
      simp only [Outcome.follow, Effect.parts, Effect.bytes, Effect.text, Text.encoded_empty, List.nil_append]
      exact ih room
    | wrote part text =>
      simp only [Outcome.follow, Effect.parts, Effect.bytes, Effect.text]
      split
      next hfits =>
        obtain ⟨hwritten, hresult⟩ := ih (room - text.toUTF8.toList.length)
        refine ⟨?_, ?_⟩
        · rw [hwritten, List.take_append, List.take_of_length_le hfits]
        · rw [List.getElem?_append_right (by rwa [List.length_replicate]), List.length_replicate]
          exact hresult
      next hfull =>
        have hroom : room < text.toUTF8.toList.length := Nat.lt_of_not_le hfull
        refine ⟨?_, ?_⟩
        · rw [List.take_append_of_le_length (Nat.le_of_lt hroom)]
        · rw [List.getElem?_append_left (by rwa [List.length_replicate]), List.getElem?_replicate_of_lt hroom]

/-- The work writes to a report of a format that is not finished: a text report grows outside of documents, and other
reports do not grow. Its result, if there is one, has a property. -/
structure Grows (format : Format) (Q : α → Prop) (t : Transcript α) : Prop where
  plain : ∀ part ∈ t.parts, part = .plain
  silent : format ≠ .text → t.parts = []
  result : ∀ a, t.result = .ok a → Q a

variable {format : Format} {Q : α → Prop} {Q' : β → Prop}

theorem grows_of_silent (h : t.parts = []) (hresult : ∀ a, t.result = .ok a → Q a) : t.Grows format Q where
  plain part hpart := by simp [h] at hpart
  silent _ := h
  result := hresult

theorem Does.grows {n : Nat} {result : Except Fault α} (h : t.Does n "" result) : t.Grows format fun _ => True := by
  have hlength : t.parts.length = 0 := by
    rw [length_parts, h.bytes_eq, Text.encoded_empty]
    rfl
  exact grows_of_silent (List.eq_nil_of_length_eq_zero hlength) fun _ _ => trivial

theorem grows_pure {a : α} (h : Q a) : (pure a : Transcript α).Grows format Q :=
  grows_of_silent rfl fun _ ha => Except.ok.inj ha ▸ h

theorem grows_log (entries : List Log.Entry) : (log entries).Grows format fun _ => True := (does_log entries).grows

theorem grows_write {text : String} (h : format ≠ .text → text = "") :
    (write .plain text).Grows format fun _ => True := by
  have hparts : (write .plain text).parts = List.replicate text.toUTF8.toList.length .plain := List.append_nil _
  refine ⟨fun part hpart => ?_, fun hformat => ?_, fun _ _ => trivial⟩
  · rw [hparts] at hpart
    exact List.eq_of_mem_replicate hpart
  · rw [hparts, h hformat, Text.encoded_empty]
    rfl

theorem Grows.bind (ht : t.Grows format Q) (hf : ∀ a, Q a → (f a).Grows format Q') : (t >>= f).Grows format Q' := by
  cases hresult : t.result with
  | error e =>
    have hparts := parts_bind_of_error hresult f
    refine ⟨hparts ▸ ht.plain, hparts ▸ ht.silent, fun b hb => ?_⟩
    rw [result_bind_of_error hresult] at hb
    cases hb
  | ok a =>
    have hfa := hf a (ht.result a hresult)
    have hparts := parts_bind_of_ok hresult f
    refine ⟨fun part hpart => ?_, fun hformat => ?_, fun b hb => ?_⟩
    · rw [hparts] at hpart
      exact (List.mem_append.mp hpart).elim (ht.plain part) (hfa.plain part)
    · rw [hparts, ht.silent hformat, hfa.silent hformat]
      rfl
    · exact hfa.result b ((result_bind_of_ok hresult f).symm.trans hb)

end Transcript

section
variable {σ : Type} {step : σ → Record → Transcript σ} {format : Format} {Q : σ → Prop}

theorem followRecords_grows (hstep : ∀ s r, Q s → (step s r).Grows format Q) (records : List (List Log.Entry × Record))
    {s : σ} (hs : Q s) : (followRecords step records s).Grows format Q := by
  induction records generalizing s with
  | nil => exact grows_pure hs
  | cons x rest ih => exact (grows_log x.1).bind fun _ _ => (hstep s x.2 hs).bind fun s' hs' => ih hs'

theorem follow_grows (hstep : ∀ s r, Q s → (step s r).Grows format Q) (t : Trace) {s : σ} (hs : Q s) :
    (t.follow step s).Grows format Q := by
  refine (followRecords_grows hstep t.records hs).bind fun s' hs' => (grows_log t.closing).bind fun _ _ => ?_
  cases t.fault with
  | none => exact grows_pure hs'
  | some e => exact grows_of_silent rfl fun a ha => by cases ha

end

theorem Report.inText_eq_empty {report : Report} (h : report.format ≠ .text) (s : String) : report.inText s = "" := if_neg h

section
variable {format : Format}

/-- A listing keeps the format of its report. -/
theorem Listing.step_grows (v : Renderer) (settings : Settings) (s : Listing) (r : Record) (hs : s.report.format = format) :
    (step v settings s r).Grows format (·.report.format = format) := by
  refine (grows_log _).bind fun _ _ => ?_
  split
  · refine (v.text_does r).grows.bind fun value _ => (grows_write fun h => ?_).bind fun _ _ => grows_pure hs
    exact Report.inText_eq_empty (hs ▸ h) _
  · exact grows_pure hs

variable {report : Report} (hreport : report.format = format)
include hreport

theorem list_grows (v : Renderer) (settings : Settings) (source : Source) (t : TimeBase Float) :
    (list v settings source t report).Grows format (·.report.format = format) := by
  refine (grows_log _).bind fun _ _ => (grows_write fun h => ?_).bind fun _ _ => ?_
  · exact Report.inText_eq_empty (hreport ▸ h) _
  · refine (source.openAt_does 1).grows.bind fun feed _ => ?_
    refine (follow_grows (Listing.step_grows v settings) feed.trace hreport).bind fun s hs => ?_
    exact (grows_log _).bind fun _ _ => grows_pure hs

theorem writeEvents_grows (v : Renderer) (settings : Settings) (source : Source) (t : TimeBase Float) :
    (Run.writeEvents v settings source t report).Grows format (·.2.format = format) := by
  rw [Run.writeEvents]
  split
  · exact (list_grows hreport v settings source t).bind fun s hs => grows_pure hs
  · exact grows_pure hreport

theorem writeStatistics_grows (tally : Tally Float) : (Run.writeStatistics tally report).Grows format (·.format = format) := by
  rw [Run.writeStatistics]
  split
  · refine (grows_write fun h => ?_).bind fun _ _ => grows_pure hreport
    exact Report.inText_eq_empty (hreport ▸ h) _
  · exact grows_pure hreport

theorem writeBlankLine_grows (settings : Settings) :
    (Run.writeBlankLine settings report).Grows format fun _ => True := by
  rw [Run.writeBlankLine]
  split
  · exact grows_write fun h => Report.inText_eq_empty (hreport ▸ h) _
  · exact grows_pure trivial

theorem writeBlocks_grows (v : Renderer) (settings : Settings) (source : Source) (tally : Tally Float) :
    (Run.writeBlocks v settings source tally report).Grows format (·.2.format = format) := by
  rw [Run.writeBlocks]
  split
  · refine (writeStatistics_grows hreport tally).bind fun report hreport => ?_
    exact (writeBlankLine_grows hreport settings).bind fun _ _ => writeEvents_grows hreport v settings source tally.timeBase
  · refine (writeEvents_grows hreport v settings source tally.timeBase).bind fun found hfound => ?_
    refine (writeBlankLine_grows hfound settings).bind fun _ _ => ?_
    exact (writeStatistics_grows hfound tally).bind fun report hreport => grows_pure hreport

end

namespace Run

theorem blocks_grows (v : Renderer) (settings : Settings) (source : Source) :
    (blocks v settings source).Grows settings.format (·.2.2.format = settings.format) := by
  obtain ⟨result, hstatistics⟩ := collect_does v source (.start settings.tickPeriod)
  have hblank : (blank v settings).format = settings.format := rfl
  refine Grows.bind (t := statistics v settings source) hstatistics.grows fun tally _ => ?_
  exact (writeBlocks_grows hblank v settings source tally).bind fun written hwritten => grows_pure hwritten

theorem writeAll_parts (writes : List (Part × String)) :
    (writeAll writes).parts = writes.flatMap fun w => List.replicate w.2.toUTF8.toList.length w.1 := by
  induction writes with
  | nil => rfl
  | cons w rest ih =>
    rw [List.flatMap_cons, ← ih]
    rfl

theorem ending_parts (found : Tally Float × Nat × Report) :
    (ending found).parts = found.2.2.finish.flatMap fun w => List.replicate w.2.toUTF8.toList.length w.1 := by
  have hlog (summary : Summary) : (log [finished summary] >>= fun _ => pure summary).parts = [] := rfl
  rw [ending, parts_bind_of_ok (writeAll_does _).result, writeAll_parts, hlog, List.append_nil]

variable (v : Renderer) {settings : Settings} (source : Source)

theorem parts_of_not_json (h : settings.format ≠ .json) : ∀ part ∈ (run v settings source).parts, part = .plain := by
  have hblocks := blocks_grows v settings source
  rw [run_eq]
  cases hresult : (blocks v settings source).result with
  | error e =>
    rw [parts_bind_of_error hresult]
    exact hblocks.plain
  | ok found =>
    have hformat : found.2.2.format = settings.format := hblocks.result found hresult
    rw [parts_bind_of_ok hresult, ending_parts]
    intro part hpart
    refine (List.mem_append.mp hpart).elim (hblocks.plain part) fun hending => ?_
    obtain ⟨w, hw, hpart⟩ := List.mem_flatMap.mp hending
    rw [List.eq_of_mem_replicate hpart]
    cases hkind : settings.format with
    | json => exact absurd hkind h
    | text => simp [Report.finish, hformat, hkind] at hw
    | xml =>
      simp only [Report.finish, hformat, hkind, List.mem_singleton] at hw
      rw [hw]

/-- Unless it fails, a run with a JSON report writes the document and a line break behind it. -/
theorem parts_of_json (h : settings.format = .json) : (run v settings source).parts = [] ∨
    ∃ found, tables v settings source = .ok found ∧
      (run v settings source).bytes = (Json.document found).toUTF8.toList ++ [0x0A] ∧
      (run v settings source).parts = List.replicate (Json.document found).toUTF8.toList.length .document ++ [.plain] := by
  have hblocks := blocks_grows v settings source
  have hsilent : (blocks v settings source).parts = [] := hblocks.silent (by simp [h])
  rw [run_eq]
  cases hresult : (blocks v settings source).result with
  | error e => exact .inl ((parts_bind_of_error hresult ending).trans hsilent)
  | ok found =>
    have hformat : found.2.2.format = .json := (hblocks.result found hresult).trans h
    have hnone : (blocks v settings source).bytes = [] := by
      refine List.eq_nil_of_length_eq_zero ?_
      rw [← length_parts, hsilent]
      rfl
    refine .inr ⟨found.2.2.tables, map_eq_ok.mpr ⟨found, hresult, rfl⟩, ?_, ?_⟩
    · have htext : String.join (found.2.2.finish.map (·.2)) = Json.document found.2.2.tables ++ "\n" := by
        simp [Report.finish, hformat]
      rw [bytes_bind_of_ok hresult, hnone, (ending_does found).bytes_eq, htext, Text.encoded_append, Text.encoded_newline]
      rfl
    · rw [parts_bind_of_ok hresult, hsilent, ending_parts, Report.finish, hformat]
      simp only [List.flatMap_cons, List.flatMap_nil, Text.encoded_newline]
      rfl

end Run

/-- A sink with room for some bytes takes the first bytes of what a run writes that has no limit. The run ends in the same
way if all bytes have room, and fails otherwise: in the document, if that is where the first byte is that has no room, and
in the transfer of bytes if it is anywhere else. -/
theorem sink_takes_first_bytes (v : Renderer) (settings : Settings) (source : Source) (room : Nat) (reason : String) :
    let full := (run v settings source).outcome none reason
    let o := (run v settings source).outcome (some room) reason
    o.written = full.written.take room ∧
    (full.written.length ≤ room → o.result = full.result) ∧
    (room < full.written.length → settings.format ≠ .json → o.result = .error (.transfer reason)) ∧
    (room < full.written.length → settings.format = .json →
      ∃ tables, Run.tables v settings source = .ok tables ∧
        full.written = (Json.document tables).toUTF8.toList ++ [0x0A] ∧
        o.result = .error (if room < (Json.document tables).toUTF8.toList.length then .document reason
          else .transfer reason)) := by
  intro full o
  obtain ⟨hwritten, hresult⟩ := outcome_some (run v settings source) room reason
  have hfull : full.written = (run v settings source).bytes := written_outcome_none _ reason
  have hlength : full.written.length = (run v settings source).parts.length := by rw [hfull, length_parts]
  refine ⟨hfull ▸ hwritten, fun hfits => ?_, fun hroom hformat => ?_, fun hroom hformat => ?_⟩
  · rw [List.getElem?_eq_none (hlength ▸ hfits)] at hresult
    exact hresult.trans (result_outcome_none _ reason).symm
  · have hlt : room < (run v settings source).parts.length := hlength ▸ hroom
    rw [List.getElem?_eq_getElem hlt, Run.parts_of_not_json v source hformat _ (List.getElem_mem hlt)] at hresult
    exact hresult
  · have hlt : room < (run v settings source).parts.length := hlength ▸ hroom
    obtain hnone | ⟨tables, htables, hbytes, hparts⟩ := Run.parts_of_json v source hformat
    · simp [hnone] at hlt
    · refine ⟨tables, htables, hfull.trans hbytes, ?_⟩
      rw [hparts] at hresult hlt
      split
      next hdocument =>
        rw [List.getElem?_append_left (by rwa [List.length_replicate]), List.getElem?_replicate_of_lt hdocument] at hresult
        exact hresult
      next hbehind =>
        have hlast : room = (Json.document tables).toUTF8.toList.length := by
          simp only [List.length_append, List.length_replicate, List.length_singleton] at hlt
          omega
        have hpart : (List.replicate (Json.document tables).toUTF8.toList.length Part.document ++ [.plain])[room]? =
            some .plain := by
          rw [List.getElem?_append_right (by simp [hlast]), List.length_replicate, hlast, Nat.sub_self]
          rfl
        rw [hpart] at hresult
        exact hresult

/-- The source of a text report that cannot be opened again, and a JSON report of which nothing has room. -/
theorem sink_takes_first_bytes_of_failed_listing :
    let source : Source := { feed := fun opening => if opening = 0 then .ok { pending := [] } else .error "gone" }
    let full := (run {} {} source).outcome none "full"
    let o := (run {} {} source).outcome (some 3) "full"
    let document := (run {} { format := .json } (.steady { pending := [] })).outcome (some 0) "full"
    full.result = .error (.transfer "gone") ∧ 3 < full.written.length ∧
      o.written = full.written.take 3 ∧ o.result = .error (.transfer "full") ∧
      document.written = [] ∧ document.result = .error (.document "full") := by
  intro source full o document
  let f : Feed := { pending := [] }
  have hfine := Renderer.firstFailure?_of_no_events (v := {}) rfl Record.isInterval f.decoded
  have hfirst : (Run.statistics {} {} source).result = .ok (Run.tally {} {} f) := (Run.statistics_does rfl hfine).result
  have hstops : Listing.Stops {} {} (source.feed 1) [] (.transfer "gone") := .opening "gone"
  obtain ⟨-, hwritten, hresult⟩ := (Run.run_does_of_stops rfl hfirst hstops).outcome "full"
  have hlength : 3 < full.written.length := by
    have hheading : "   Detailed event list".utf8ByteSize = 22 := by decide
    rw [hwritten, Text.length_encoded]
    simp only [Report.heading, Report.inText, Run.blank, if_true, Plain.eventsHeading, Plain.lines, List.map_cons,
      String.join_cons, String.utf8ByteSize_append]
    omega
  obtain ⟨htaken, -, hfault, -⟩ := sink_takes_first_bytes {} {} source 3 "full"
  refine ⟨hresult, hlength, htaken, hfault hlength (by decide), ?_⟩
  let settings : Settings := { format := .json }
  have hpositive (tables : Tables Float) : 0 < (Json.document tables).toUTF8.toList.length := by
    have hbrace : "\x7b".utf8ByteSize = 1 := by decide
    rw [Text.length_encoded]
    simp only [Json.document, Json.block, String.utf8ByteSize_append]
    omega
  obtain ⟨summary, hok⟩ := Run.ok_of_no_events (v := {}) rfl settings (f := f) rfl "full"
  have hreport : 0 < ((run {} settings (.steady f)).outcome none "full").written.length := by
    rw [(Run.reported_of_ok rfl hok).written, Run.reportText, Text.encoded_append, List.length_append]
    exact Nat.add_pos_left (hpositive _) _
  obtain ⟨hnothing, -, -, hdocument⟩ := sink_takes_first_bytes {} settings (.steady f) 0 "full"
  obtain ⟨tables, -, -, hresult⟩ := hdocument hreport rfl
  rw [if_pos (hpositive tables)] at hresult
  exact ⟨hnothing.trans List.take_zero, hresult⟩

end EventTrace
