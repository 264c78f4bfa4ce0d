import EventTrace.Proofs.Template.Rendering
import EventTrace.Proofs.Text.Lines
import EventTrace.Run.Pass
/-! Records on one line. Main result: if nothing that definitions, names and the texts in memory contribute has a line break,
then no record brings one in, whatever it carries. -/
namespace EventTrace

open Text

variable {resolver : Resolver} {ctx : Context} {text : String}

def Resolver.KeepsLine (resolver : Resolver) : Prop := ∀ address, OneLine (resolver address)

def TypedefTable.KeepsLine (table : TypedefTable) : Prop :=
  ∀ (name : String) (t : Typedef), table[name]? = some t → ∀ m ∈ t.members, ∀ (value : Int64) (found : String),
    m.names[value]? = some found → OneLine found

theorem mem_of_dropBytes {cs rest : List Char} {n : Nat} (h : dropBytes cs n = some rest) : ∀ c ∈ rest, c ∈ cs := by
  fun_induction dropBytes cs n with
  | case1 cs =>
    cases h
    exact fun _ hc => hc
  | case2 => cases h
  | case3 c cs n _ ih => exact fun d hd => List.mem_cons_of_mem c (ih h d hd)
  | case4 => cases h

/-- The texts of a table lead to no line break if none of them has one. -/
theorem StringTable.oneLine_lookup {table : StringTable}
    (h : ∀ (address : UInt64) text, table[address]? = some text → OneLine text) : table.lookup.KeepsLine := by
  intro address
  rw [lookup]
  split
  next => decide
  next start text hfloor =>
    have hentry : table[start]? = some text :=
      Std.ExtTreeMap.mem_toList_iff_getElem?_eq_some.mp ((List.takeWhile_sublist _).mem (List.mem_of_getLast? hfloor))
    split
    next => decide
    next cs hcs => exact oneLine_ofList.mpr fun hc => h start text hentry (mem_of_dropBytes hcs _ hc)

theorem Value.oneLine_text (v : Value) : OneLine v.text := by
  cases v with
  | integer n => exact oneLine_repr_int
  | float x => exact oneLine_fixed 6 _

theorem Directive.oneLine_textOrAddress (hresolver : resolver.KeepsLine) (bits : UInt64) :
    OneLine (textOrAddress resolver bits) := by
  rw [textOrAddress]
  split
  · exact oneLine_append.mpr ⟨by decide, by simp⟩
  · exact hresolver bits

theorem Directive.oneLine_groups (count size width bits : Nat) :
    ∀ s ∈ (groups count size width bits).map String.ofList, OneLine s := by
  simp [groups]

theorem Directive.oneLine_render (hresolver : resolver.KeepsLine) {d : Directive} {v : Value}
    (h : d.render resolver v = .ok text) : OneLine text := by
  cases d with
  | unsupported => cases h
  | signed | unsigned =>
    cases h
    simp
  | hex | address =>
    cases h
    simp [show OneLine "0x" by decide]
  | text =>
    cases h
    exact hresolver _
  | function | object =>
    cases h
    exact oneLine_textOrAddress hresolver _
  | ipv4 =>
    cases h
    exact oneLine_intercalate (by decide) fun s hs => by
      obtain ⟨i, -, rfl⟩ := List.mem_map.mp hs
      exact oneLine_repr
  | ipv6 | mac =>
    rw [render] at h
    rw [← Except.ok.inj h]
    exact oneLine_intercalate (by decide) (oneLine_groups _ _ _ _)
  | plain =>
    cases h
    exact v.oneLine_text
  | ignored =>
    cases h
    decide

theorem TypedefTable.oneLine_resolve {table : TypedefTable} (htable : table.KeepsLine) {value : Int64} {reference : String}
    (h : table.resolve value reference = .ok text) : OneLine text := by
  have hnamed {found : Option String} (h : named reference value found = .ok text) : found = some text := by
    cases found with
    | none => cases h
    | some s => exact congrArg some (Except.ok.inj h)
  rw [resolve] at h
  split at h
  next => cases h
  next t ht =>
    split at h
    next =>
      obtain ⟨m, hm, hfound⟩ := List.exists_of_findSome?_eq_some (hnamed h)
      exact htable _ t ht m hm value text hfound
    next member _ =>
      split at h
      next => cases h
      next m hm => exact htable _ t ht m (List.mem_of_find?_eq_some hm) value text (hnamed h)

/-- What a segment takes over from the template has no line break. -/
def Segment.KeepsLine : Segment → Prop
  | .text s => OneLine s
  | .letter c => c ≠ '\n'
  | _ => True

theorem Split.keepsLine {cs : List Char} {ss : List Segment} (h : Split cs ss) (hcs : '\n' ∉ cs) : ∀ s ∈ ss, s.KeepsLine := by
  induction h with
  | nil => simp
  | @cons spelling rest s ss hspelled _ ih =>
    obtain ⟨hspelling, hrest⟩ := not_or.mp (mt List.mem_append.mpr hcs)
    refine List.forall_mem_cons.mpr ⟨?_, ih hrest⟩
    cases hspelled with
    | text => exact oneLine_ofList.mpr hspelling
    | letter => exact fun hc => hspelling (hc ▸ by simp)
    | _ => trivial

theorem Segment.Renders.oneLine (hresolver : resolver.KeepsLine) (htypedefs : ctx.typedefs.KeepsLine) {s : Segment}
    (hs : s.KeepsLine) (h : s.Renders resolver ctx (.ok text)) : OneLine text := by
  generalize hout : Except.ok text = out at h
  cases h with
  | text =>
    cases hout
    exact hs
  | percent | lonePercent =>
    cases hout
    decide
  | letter c =>
    cases hout
    simpa [OneLine] using Ne.symm hs
  | bare d => exact Directive.oneLine_render hresolver hout.symm
  | value d h => exact Directive.oneLine_render hresolver hout.symm
  | name h hname =>
    cases hout
    exact TypedefTable.oneLine_resolve htypedefs hname
  | unnamed | openName | malformed | unevaluated => cases hout

/-- A template without line breaks stays without. -/
theorem oneLine_renderTemplate (hresolver : resolver.KeepsLine) (htypedefs : ctx.typedefs.KeepsLine) {template : String}
    (htemplate : OneLine template) (h : renderTemplate resolver ctx template = .ok text) : OneLine text := by
  have hsegments : ∀ s ∈ segments template.toList, s.KeepsLine := (split_iff.mpr rfl).keepsLine htemplate
  have hrendered : Rendered resolver ctx (segments template.toList) (.ok text) := rendered_iff.mpr h
  generalize segments template.toList = ss at hsegments hrendered
  generalize hout : Except.ok text = out at hrendered
  cases hrendered with
  | all texts hall =>
    cases hout
    refine oneLine_join fun t ht => ?_
    obtain ⟨s, hs, rfl⟩ := List.mem_map.mp ht
    exact (hall s hs).oneLine hresolver htypedefs (hsegments s hs)
  | first => cases hout

theorem Payload.oneLine_text (p : Payload) : OneLine p.text := by
  have hword (name : String) (w : UInt32) (h : OneLine name) : OneLine (wordText name w) := by
    simp [wordText, h, show OneLine "=0x" by decide]
  have hcomma : OneLine ", " := by decide
  cases p with
  | blob bytes => simp [Payload.text, show OneLine "data=0x" by decide]
  | two a b => simp [Payload.text, hcomma, hword _ _ (by decide : OneLine "val1"), hword _ _ (by decide : OneLine "val2")]
  | four a b c d =>
    simp [Payload.text, hcomma, hword _ _ (by decide : OneLine "val1"), hword _ _ (by decide : OneLine "val2"),
      hword _ _ (by decide : OneLine "val3"), hword _ _ (by decide : OneLine "val4")]
  | other => exact (by decide : OneLine "")

structure Renderer.KeepsLine (v : Renderer) : Prop where
  events : ∀ (id : EventId) (e : EventDefinition), v.schema.events[id]? = some e →
    OneLine e.template ∧ OneLine e.component ∧ OneLine e.property
  typedefs : v.schema.typedefs.KeepsLine
  resolver : v.resolver.KeepsLine

namespace Record

variable {v : Renderer} {r : Record}

/-- What the traced program printed is shown without control characters, whatever the schema is. -/
theorem render_of_printed {bytes : List UInt8} (h : r.printed? = some bytes) (resolver : Resolver) (typedefs : TypedefTable)
    (definition : Option EventDefinition) :
    ∃ text, r.render resolver typedefs definition = .ok text ∧ OneLine text ∧ ∀ c ∈ text.toList, 0x20 ≤ c.toNat := by
  have hcontrol : ∀ c ∈ Escape.encode (Utf8.decodeLossy bytes), 0x20 ≤ c.toNat := fun _ hc => le_of_mem_encode hc
  have hrender : r.render resolver typedefs definition =
      .ok (String.ofList (Escape.encode (Utf8.decodeLossy bytes))) := by simp only [render, h]
  refine ⟨_, hrender, oneLine_ofList.mpr fun hbreak => ?_, ?_⟩
  · exact absurd (hcontrol '\n' hbreak) (by decide)
  · rwa [String.toList_ofList]

theorem oneLine_render (hv : v.KeepsLine)
    (h : r.render v.resolver v.schema.typedefs (v.definition? r) = .ok text) : OneLine text := by
  cases hprinted : r.printed? with
  | some bytes =>
    obtain ⟨shown, hshown, hline, -⟩ := render_of_printed hprinted v.resolver v.schema.typedefs (v.definition? r)
    rwa [Except.ok.inj (h.symm.trans hshown)]
  | none =>
    cases hdefinition : v.definition? r with
    | none =>
      simp only [render, hprinted, hdefinition, Except.ok.injEq] at h
      exact h ▸ r.payload.oneLine_text
    | some e =>
      simp only [render, hprinted, hdefinition] at h
      have hcontext : (r.context v.schema.typedefs e).typedefs.KeepsLine := hv.typedefs
      exact oneLine_renderTemplate hv.resolver hcontext (hv.events r.id e hdefinition).1 h

end Record
end EventTrace
