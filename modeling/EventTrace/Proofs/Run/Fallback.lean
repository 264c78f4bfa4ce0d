import EventTrace.Proofs.Expression.Literal
import EventTrace.Proofs.Record.PayloadText
import EventTrace.Proofs.Run.Report
/-! What a report shows of records that have no definition. Main statement: their payload is read back from the event list,
unless it is what the traced program printed, which is shown as a text and not in digits. -/
namespace EventTrace

open Text

/-! Texts that documents do not change -/

namespace Text

variable {c : Char} {cs : List Char} {s t : String}

def Verbatim (s : String) : Prop := ∀ c ∈ s.toList, Json.encodeChar c = [c] ∧ Xml.encodeChar c = [c]

instance (s : String) : Decidable (Verbatim s) :=
  List.decidableBAll (fun c => Json.encodeChar c = [c] ∧ Xml.encodeChar c = [c]) s.toList

theorem verbatim_append : Verbatim (s ++ t) ↔ Verbatim s ∧ Verbatim t := by
  rw [Verbatim, String.toList_append, List.forall_mem_append]
  rfl

theorem verbatim_digits (h : ∀ c ∈ cs, isSmallDigit c = true) : Verbatim (String.ofList cs) := by
  rw [Verbatim, String.toList_ofList]
  exact fun c hc => forall_smallDigit (P := fun c => Json.encodeChar c = [c] ∧ Xml.encodeChar c = [c]) (by decide) (h c hc)

theorem Verbatim.quote_eq (h : Verbatim s) : Json.quote s = "\"" ++ s ++ "\"" := by
  have hsame : s.toList.flatMap Json.encodeChar = s.toList := by
    rw [List.flatMap_congr fun c hc => (h c hc).1]
    simp
  rw [Json.quote, hsame, ← String.toList_inj]
  simp

theorem Verbatim.escape_eq (h : Verbatim s) : Xml.escape s = s := by
  have hsame : s.toList.flatMap Xml.encodeChar = s.toList := by
    rw [List.flatMap_congr fun c hc => (h c hc).2]
    simp
  rw [Xml.escape, hsame, String.ofList_toList]

theorem digitsValue_capitalHex (width n : Nat) : digitsValue 16 (capitalHex width n) = n := by
  have hsame : ∀ c ∈ hex width n, hexValue c = hexValue c.toUpper := fun c hc =>
    forall_smallDigit (P := fun c => hexValue c = hexValue c.toUpper) (by decide) (isSmallDigit_of_mem_hex hc)
  rw [capitalHex, digitsValue_map 16 Char.toUpper hsame, digitsValue_hex]

end Text

theorem Payload.verbatim_text (p : Payload) : Verbatim p.text := by
  have hword (name : String) (hname : Verbatim name) (w : UInt32) : Verbatim (wordText name w) := by
    rw [wordText, verbatim_append, verbatim_append]
    exact ⟨⟨hname, by decide⟩, verbatim_digits fun c hc => isSmallDigit_of_mem_hex hc⟩
  have h₁ := hword "val1" (by decide)
  have h₂ := hword "val2" (by decide)
  have hcomma : Verbatim ", " := by decide
  cases p with
  | blob bytes =>
    rw [text, verbatim_append]
    refine ⟨by decide, verbatim_digits fun c hc => ?_⟩
    obtain ⟨b, -, hb⟩ := List.mem_flatMap.mp hc
    exact isSmallDigit_of_mem_hex hb
  | two a b => simp only [text, verbatim_append, h₁, h₂, hcomma, and_self]
  | four a b c d =>
    have h₃ := hword "val3" (by decide)
    have h₄ := hword "val4" (by decide)
    simp only [text, verbatim_append, h₁, h₂, h₃, h₄, hcomma, and_self]
  | other tag => exact (by decide : Verbatim "")

/-! The rows of records that have no definition -/

theorem Renderer.shown_of_no_definition (v : Renderer) {r : Record} (h : v.definition? r = none)
    (hprinted : r.printed? = none) : v.shown r = r.payload.text :=
  v.shown_of_ok (by rw [h, Record.render, hprinted])

/-- A row tells a record: its position, its id, and its payload. In a text report a line ends with the value, and in
documents its cell is the value. -/
structure EventRow.Tells (row : EventRow Float) (index : Nat) (r : Record) : Prop where
  index : row.index = index
  id : ∃ digits, row.property = "0x" ++ String.ofList digits ∧ digitsValue 16 digits = r.id.toNat
  payload : Payload.ofText? row.value = some r.payload.bare
  line : ∀ columns, ∃ front, Plain.eventLine columns row = front ++ row.value
  json : Json.cell (.text row.value) = "\"" ++ row.value ++ "\""
  xml : Xml.cell (.text row.value) = row.value

theorem Listing.row_tells (v : Renderer) {r : Record} (h : v.definition? r = none) (hprinted : r.printed? = none)
    (t : TimeBase Float) (index : Nat) : (row v t index r (v.shown r)).Tells index r := by
  have hshown := v.shown_of_no_definition h hprinted
  have hquoted : (row v t index r (v.shown r)).quoted = false := by simp [row, hprinted]
  have hvalue : (row v t index r (v.shown r)).value = r.payload.text := hshown
  have hline (columns : Columns) :
      ∃ front, Plain.eventLine columns (row v t index r (v.shown r)) = front ++ (row v t index r (v.shown r)).value := by
    rw [Plain.eventLine, hquoted]
    exact ⟨_, String.append_empty⟩
  refine ⟨rfl, ⟨_, ?_, digitsValue_capitalHex 4 _⟩, ?_, hline, ?_, ?_⟩
  · simp only [row, labels, h]
  · rw [hvalue, Payload.ofText?_text]
  · exact hvalue ▸ r.payload.verbatim_text.quote_eq
  · exact hvalue ▸ r.payload.verbatim_text.escape_eq

/-- Whatever the level filter, records without a definition are listed. -/
theorem Run.exists_row_of_no_definition {v : Renderer} {settings : Settings} (hshow : settings.showEvents = true) {f : Feed}
    (hfine : v.firstFailure? (v.isListed settings) f.decoded = none) {i : Nat} {r : Record} (hr : f.decoded[i]? = some r)
    (h : v.definition? r = none) (hprinted : r.printed? = none) : ∃ row ∈ rows v settings f, row.Tells i r := by
  have hlists : settings.lists ((v.definition? r).map (·.level)) = true := by
    rw [h]
    cases hlevel : settings.level <;> simp [Settings.lists, hlevel]
  refine ⟨_, ?_, Listing.row_tells v h hprinted ((tally v settings f).timeBase.restart.upTo f.decoded i) i⟩
  rw [rows, if_pos hshow, Listing.rows_of_fine hshow (Renderer.fine_of_firstFailure? hfine)]
  exact List.mem_map.mpr ⟨(r, i), List.mem_filter.mpr ⟨List.mem_zipIdx_iff_getElem?.mpr hr, hlists⟩, rfl⟩

/-- The text of a payload is read back: a text is read as a payload exactly if it is what is written for it, and different
payloads have different texts. So a row of the event list tells each record that has no definition and is not what the
traced program printed, in a run over a trace in memory that succeeds and shows events. -/
theorem payload_read_back :
    (∀ p : Payload, Payload.ofText? p.text = some p.bare) ∧
    (∀ (s : String) (p : Payload), Payload.ofText? s = some p ↔ p.bare = p ∧ s = p.text) ∧
    (∀ p q : Payload, p.text = q.text ↔ p.bare = q.bare) ∧
    ∀ (v : Renderer) (settings : Settings) (f : Feed) (reason : String) (summary : Summary),
      settings.showEvents = true → f.fault = none →
      ((run v settings (.steady f)).outcome none reason).result = .ok summary →
        ∃ tables, Run.tables v settings (.steady f) = .ok tables ∧
          ((run v settings (.steady f)).outcome none reason).written =
            (Run.reportText v settings (Run.tally v settings f) tables.events).toUTF8.toList ∧
          ∀ (i : Nat) (r : Record), f.decoded[i]? = some r → v.definition? r = none → r.printed? = none →
            ∃ row ∈ tables.events, row.Tells i r := by
  refine ⟨Payload.ofText?_text, fun s p => Payload.ofText?_eq_some_iff, fun p q => Payload.text_eq_text_iff, ?_⟩
  intro v settings f reason summary hshow hfault hok
  have hreported := Run.reported_of_ok hfault hok
  refine ⟨_, hreported.tables, hreported.written, fun i r hr h hprinted => ?_⟩
  exact Run.exists_row_of_no_definition hshow (Run.fine_of_ok hfault hok).2 hr h hprinted

/-- A record of two words, the first of them negative, without any definitions. -/
theorem payload_read_back_of_words :
    let words : Frame := ⟨2, List.replicate 8 0 ++ [5, 0, 0, 0] ++ [0xFE, 0xFF, 0xFF, 0xFF, 7, 0, 0, 0], by decide⟩
    let f : Feed := { pending := Frame.stream [words] ++ [7] }
    let r : Record := ⟨0, 5, 0, .two 0xFFFFFFFE 7⟩
    f.fault = none ∧ r.printed? = none ∧ r.payload.text = "val1=0xfffffffe, val2=0x00000007" ∧
      Payload.ofText? "val1=0xfffffffe, val2=0x00000007" = some (.two 0xFFFFFFFE 7) ∧
      ∃ summary tables, ((run {} {} (.steady f)).outcome none "").result = .ok summary ∧
        Run.tables {} {} (.steady f) = .ok tables ∧ ∃ row ∈ tables.events, row.Tells 0 r := by
  intro words f r
  have hpending : f.pending = Frame.stream [words] ++ [7] := rfl
  have htail : Incomplete [7] := .inl (by decide)
  have hdecoded : f.decoded = [r] := Feed.decoded_stream hpending htail rfl
  have htext : r.payload.text = "val1=0xfffffffe, val2=0x00000007" := by decide
  obtain ⟨hread, -, -, hrows⟩ := payload_read_back
  obtain ⟨summary, hok⟩ := Run.ok_of_no_events (v := {}) rfl {} (f := f) rfl ""
  obtain ⟨tables, htables, -, hall⟩ := hrows {} {} f "" summary rfl rfl hok
  refine ⟨rfl, rfl, htext, htext ▸ hread r.payload, summary, tables, hok, htables, ?_⟩
  exact hall 0 r (by rw [hdecoded]; rfl) (by simp [Renderer.definition?]) rfl

/-- A byte that begins no character is read as the replacement character. -/
theorem Text.Utf8.decodeLossy_of_no_lead {b : UInt8} (h : Lead.ofByte? b.toNat = none) :
    decodeLossy [b] = ['\uFFFD'] := by
  have hpiece : piece b [] = (none, []) := by rw [piece, h]
  rw [decodeLossy, pieces, hpiece, pieces]
  rfl

/-- Two bytes that begin no character, printed by the traced program. Both are shown as the replacement character, so that
nothing in the report tells them apart. -/
theorem printed_bytes_shown_alike :
    let first : Frame := ⟨1, List.replicate 8 0 ++ [0, 0xFE, 1, 0] ++ [0xFF], by decide⟩
    let second : Frame := ⟨1, List.replicate 8 0 ++ [0, 0xFE, 1, 0] ++ [0xFE], by decide⟩
    let f (frame : Frame) : Feed := { pending := Frame.stream [frame] ++ [7] }
    let o (frame : Frame) := (run {} {} (.steady (f frame))).outcome none ""
    let r (byte : UInt8) : Record := ⟨0, 0xFE00, 1, .blob [byte]⟩
    (f first).decoded = [r 0xFF] ∧ (f second).decoded = [r 0xFE] ∧ (r 0xFF).payload.text ≠ (r 0xFE).payload.text ∧
      (∃ summary, (o first).result = .ok summary) ∧ (o first).written = (o second).written := by
  intro first second f o r
  have hpending (frame : Frame) : (f frame).pending = Frame.stream [frame] ++ [7] := rfl
  have htail : Incomplete [7] := .inl (by decide)
  have hfirst : (f first).decoded = [r 0xFF] := Feed.decoded_stream (hpending first) htail rfl
  have hsecond : (f second).decoded = [r 0xFE] := Feed.decoded_stream (hpending second) htail rfl
  have htally : Run.tally {} {} (f first) = Run.tally {} {} (f second) := by
    rw [Run.tally, Run.tally, hfirst, hsecond]
    simp only [r]
    rfl
  have hrow (t : TimeBase Float) : Listing.row? {} {} t 0 (r 0xFF) = Listing.row? {} {} t 0 (r 0xFE) := by
    have hrender (byte : UInt8) (hlead : Utf8.Lead.ofByte? byte.toNat = none) (definition : Option EventDefinition) :
        (r byte).render ({} : Renderer).resolver ∅ definition = .ok (String.ofList (Escape.encode ['\uFFFD'])) := by
      rw [← Utf8.decodeLossy_of_no_lead hlead]
      rfl
    rw [Listing.row?, hrender 0xFF rfl, Listing.row?, hrender 0xFE rfl]
    rfl
  have hrows : Run.rows {} {} (f first) = Run.rows {} {} (f second) := by
    simp only [Run.rows, htally, hfirst, hsecond, Listing.rows, hrow]
    rfl
  obtain ⟨summary, hok⟩ := Run.ok_of_no_events (v := {}) rfl {} (f := f first) rfl ""
  obtain ⟨summary', hok'⟩ := Run.ok_of_no_events (v := {}) rfl {} (f := f second) rfl ""
  refine ⟨hfirst, hsecond, by decide, ⟨summary, hok⟩, ?_⟩
  rw [(Run.reported_of_ok rfl hok).written, (Run.reported_of_ok rfl hok').written, htally, hrows]

end EventTrace
