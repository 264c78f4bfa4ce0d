import EventTrace.Proofs.Outcome
import EventTrace.Proofs.Template.Splitting
import EventTrace.Template.Rendering
/-! The text of templates. Main result: it is the texts of the segments in order, or the failure of the first segment
that has no text. -/
namespace EventTrace

variable {resolver : Resolver} {ctx : Context}

namespace Segment

def expression? : Segment → Option String
  | value _ expression => expression
  | name expression _ | openName expression _ => some expression
  | _ => none

def IsMalformed : Segment → Prop
  | openName _ _ | malformed _ => True
  | _ => False

/-- The text or the failure of a segment. An expression is evaluated before anything else is looked at. -/
inductive Renders (resolver : Resolver) (ctx : Context) : Segment → Except RenderFault String → Prop
  | text (s : String) : Renders resolver ctx (.text s) (.ok s)
  | percent : Renders resolver ctx .percent (.ok "%")
  | lonePercent : Renders resolver ctx .lonePercent (.ok "%")
  | letter (c : Char) : Renders resolver ctx (.letter c) (.ok (String.singleton c))
  | bare (d : Directive) : Renders resolver ctx (.value d none) (d.render resolver (.integer 0))
  | value (d : Directive) {expression : String} {v : Value} (h : ctx.evaluate expression = .ok v) :
      Renders resolver ctx (.value d (some expression)) (d.render resolver v)
  | name {expression reference found : String} {v : Value} (h : ctx.evaluate expression = .ok v)
      (hname : ctx.typedefs.resolve v.toInt64 reference = .ok found) :
      Renders resolver ctx (.name expression reference) (.ok found)
  | unnamed {expression reference : String} {v : Value} {cause : NameFault} (h : ctx.evaluate expression = .ok v)
      (hname : ctx.typedefs.resolve v.toInt64 reference = .error cause) :
      Renders resolver ctx (.name expression reference) (.error (.name cause))
  | openName {expression reference : String} {v : Value} (h : ctx.evaluate expression = .ok v) :
      Renders resolver ctx (.openName expression reference) (.error (.form (.openReference reference)))
  | malformed (cause : FormFault) : Renders resolver ctx (.malformed cause) (.error (.form cause))
  | unevaluated {s : Segment} {expression : String} {fault : RenderFault} (hs : s.expression? = some expression)
      (h : ctx.evaluate expression = .error fault) : Renders resolver ctx s (.error fault)

theorem renders_iff {s : Segment} {out : Except RenderFault String} :
    s.Renders resolver ctx out ↔ s.render resolver ctx = out := by
  constructor
  · intro h
    cases h with
    | text | percent | lonePercent | letter | bare | malformed => rfl
    | value d h | openName h => simp only [render, h, bind, Except.bind]
    | name h hname | unnamed h hname =>
      simp only [render, Context.nameOf, h, hname, bind, Except.bind, mapError_ok, mapError_error]
    | @unevaluated s expression _ hs h =>
      cases s with
      | value d inner =>
        have hinner : inner = some expression := hs
        subst hinner
        simp only [render, h, bind, Except.bind]
      | name inner reference | openName inner reference =>
        have hinner : inner = expression := Option.some.inj hs
        subst hinner
        simp only [render, Context.nameOf, h, bind, Except.bind]
      | text | percent | lonePercent | letter | malformed => cases hs
  · rintro rfl
    cases s with
    | text s => exact .text s
    | percent => exact .percent
    | lonePercent => exact .lonePercent
    | letter c => exact .letter c
    | malformed cause => exact .malformed cause
    | value d inner =>
      cases inner with
      | none => exact .bare d
      | some expression =>
        cases h : ctx.evaluate expression with
        | ok v =>
          simp only [render, h, bind, Except.bind]
          exact .value d h
        | error fault =>
          simp only [render, h, bind, Except.bind]
          exact .unevaluated rfl h
    | name expression reference =>
      cases h : ctx.evaluate expression with
      | ok v =>
        cases hname : ctx.typedefs.resolve v.toInt64 reference with
        | ok found =>
          simp only [render, Context.nameOf, h, hname, bind, Except.bind, mapError_ok]
          exact .name h hname
        | error cause =>
          simp only [render, Context.nameOf, h, hname, bind, Except.bind, mapError_error]
          exact .unnamed h hname
      | error fault =>
        simp only [render, Context.nameOf, h, bind, Except.bind]
        exact .unevaluated rfl h
    | openName expression reference =>
      cases h : ctx.evaluate expression with
      | ok v =>
        simp only [render, h, bind, Except.bind]
        exact .openName h
      | error fault =>
        simp only [render, h, bind, Except.bind]
        exact .unevaluated rfl h

end Segment

/-- The text or the failure of segments in order: all texts, or the failure of the first segment that has none. -/
inductive Rendered (resolver : Resolver) (ctx : Context) : List Segment → Except RenderFault String → Prop
  | all {ss : List Segment} (text : Segment → String) (h : ∀ s ∈ ss, s.Renders resolver ctx (.ok (text s))) :
      Rendered resolver ctx ss (.ok (String.join (ss.map text)))
  | first {before : List Segment} {s : Segment} {fault : RenderFault} (after : List Segment)
      (hbefore : ∀ b ∈ before, ∃ text, b.Renders resolver ctx (.ok text)) (h : s.Renders resolver ctx (.error fault)) :
      Rendered resolver ctx (before ++ s :: after) (.error fault)

section
variable {ss before after : List Segment} {s : Segment} {fault : RenderFault} {text : String}

theorem renderSegments_cons_ok (h : s.render resolver ctx = .ok text) :
    renderSegments resolver ctx (s :: ss) = (renderSegments resolver ctx ss).map (text ++ ·) := by
  rw [renderSegments, h]
  cases renderSegments resolver ctx ss <;> rfl

theorem renderSegments_cons_error (h : s.render resolver ctx = .error fault) :
    renderSegments resolver ctx (s :: ss) = .error fault := by
  rw [renderSegments, h]
  rfl

theorem renderSegments_all {text : Segment → String} (h : ∀ s ∈ ss, s.render resolver ctx = .ok (text s)) :
    renderSegments resolver ctx ss = .ok (String.join (ss.map text)) := by
  induction ss with
  | nil => rfl
  | cons s ss ih =>
    obtain ⟨hs, hss⟩ := List.forall_mem_cons.mp h
    rw [renderSegments_cons_ok hs, ih hss, List.map_cons, String.join_cons]
    rfl

theorem renderSegments_first (hbefore : ∀ b ∈ before, ∃ text, b.render resolver ctx = .ok text)
    (h : s.render resolver ctx = .error fault) : renderSegments resolver ctx (before ++ s :: after) = .error fault := by
  induction before with
  | nil => exact renderSegments_cons_error h
  | cons b before ih =>
    obtain ⟨⟨text, hb⟩, hbefore⟩ := List.forall_mem_cons.mp hbefore
    rw [List.cons_append, renderSegments_cons_ok hb, ih hbefore]
    rfl

end

theorem all_or_first_render (resolver : Resolver) (ctx : Context) (ss : List Segment) :
    (∀ s ∈ ss, ∃ text, s.render resolver ctx = .ok text) ∨
    ∃ before s after fault, ss = before ++ s :: after ∧ (∀ b ∈ before, ∃ text, b.render resolver ctx = .ok text) ∧
      s.render resolver ctx = .error fault := by
  induction ss with
  | nil => exact .inl (by simp)
  | cons s ss ih =>
    cases hs : s.render resolver ctx with
    | error fault => exact .inr ⟨[], s, ss, fault, rfl, by simp, hs⟩
    | ok text =>
      obtain hss | ⟨before, s', after, fault, rfl, hbefore, hs'⟩ := ih
      · exact .inl (List.forall_mem_cons.mpr ⟨⟨text, hs⟩, hss⟩)
      · exact .inr ⟨s :: before, s', after, fault, rfl, List.forall_mem_cons.mpr ⟨⟨text, hs⟩, hbefore⟩, hs'⟩

theorem rendered_iff {ss : List Segment} {out : Except RenderFault String} :
    Rendered resolver ctx ss out ↔ renderSegments resolver ctx ss = out := by
  constructor
  · intro h
    cases h with
    | all text h => exact renderSegments_all fun s hs => Segment.renders_iff.mp (h s hs)
    | first after hbefore h =>
      refine renderSegments_first (fun b hb => ?_) (Segment.renders_iff.mp h)
      obtain ⟨text, htext⟩ := hbefore b hb
      exact ⟨text, Segment.renders_iff.mp htext⟩
  · rintro rfl
    obtain h | ⟨before, s, after, fault, rfl, hbefore, hs⟩ := all_or_first_render resolver ctx ss
    · let text (s : Segment) : String := (s.render resolver ctx).toOption.getD ""
      have htext : ∀ s ∈ ss, s.render resolver ctx = .ok (text s) := by
        intro s hs
        obtain ⟨t, ht⟩ := h s hs
        simp only [text, ht, Except.toOption, Option.getD_some]
      rw [renderSegments_all htext]
      exact .all text fun s hs => Segment.renders_iff.mpr (htext s hs)
    · rw [renderSegments_first hbefore hs]
      refine .first after (fun b hb => ?_) (Segment.renders_iff.mpr hs)
      obtain ⟨text, htext⟩ := hbefore b hb
      exact ⟨text, Segment.renders_iff.mpr htext⟩

theorem Segment.IsMalformed.render_eq_error {s : Segment} (h : s.IsMalformed) (resolver : Resolver) (ctx : Context) :
    ∃ fault, s.render resolver ctx = .error fault := by
  cases s with
  | malformed cause => exact ⟨.form cause, rfl⟩
  | openName expression reference =>
    rw [render]
    cases ctx.evaluate expression with
    | ok v => exact ⟨.form (.openReference reference), rfl⟩
    | error fault => exact ⟨fault, rfl⟩
  | _ => exact h.elim

/-- A template splits into segments in one way, and is the concatenation of their texts if all have one, and otherwise
fails as the first does that has none. A malformed directive fails every template it is in. -/
theorem renderTemplate_by_segments (resolver : Resolver) (ctx : Context) (template : String) :
    ∃ ss, (∀ ss', Split template.toList ss' ↔ ss' = ss) ∧
      (∀ out, renderTemplate resolver ctx template = out ↔ Rendered resolver ctx ss out) ∧
      ((∃ s ∈ ss, s.IsMalformed) → ∃ fault, renderTemplate resolver ctx template = .error fault) := by
  refine ⟨segments template.toList, fun ss' => split_iff, fun out => rendered_iff.symm, ?_⟩
  rintro ⟨s, hs, hmalformed⟩
  obtain ⟨fault, hfault⟩ := hmalformed.render_eq_error resolver ctx
  obtain h | ⟨before, s', after, fault', hss, hbefore, hs'⟩ := all_or_first_render resolver ctx (segments template.toList)
  · obtain ⟨text, htext⟩ := h s hs
    rw [hfault] at htext
    cases htext
  · exact ⟨fault', by rw [renderTemplate, hss, renderSegments_first hbefore hs']⟩

/-- A reference that is not closed fails the template, once its expression has a value. -/
theorem renderTemplate_by_segments_open_reference :
    ∃ ss, Split "a%E[1,x".toList ss ∧ (∃ s ∈ ss, s.IsMalformed) ∧
      ∃ fault, renderTemplate Resolver.none {} "a%E[1,x" = .error fault ∧ fault = .form (.openReference "x") := by
  obtain ⟨ss, hsplit, hrender, hfails⟩ := renderTemplate_by_segments Resolver.none {} "a%E[1,x"
  have htext : Segment.Spelled ['a'] "%E[1,x".toList (.text "a") := .text (by simp) (by simp) (by simp)
  have hname : Segment.Spelled "%E[1,x".toList [] (.openName "1" "x") :=
    @Segment.Spelled.openName ['1'] ['x'] (by simp [IsInner]) (by simp)
  have hss : Split "a%E[1,x".toList [.text "a", .openName "1" "x"] := .cons htext (.cons hname .nil)
  obtain rfl := (hsplit _).mp hss
  have hmalformed : ∃ s ∈ [Segment.text "a", .openName "1" "x"], s.IsMalformed :=
    ⟨.openName "1" "x", by simp, trivial⟩
  obtain ⟨fault, hfault⟩ := hfails hmalformed
  have hbefore : ∀ b ∈ [Segment.text "a"], ∃ text, b.Renders Resolver.none {} (.ok text) := by
    simpa using ⟨"a", Segment.Renders.text "a"⟩
  have hfirst := (hrender _).mpr (.first [] hbefore (.openName rfl))
  exact ⟨_, hss, hmalformed, fault, hfault, Except.error.inj (hfault.symm.trans hfirst)⟩

end EventTrace
