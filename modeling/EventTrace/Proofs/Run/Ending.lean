import EventTrace.Run.Pass
/-! How work ends. Work in several parts ends with the first failure of its parts, and work on a list of records with
the first failure that a record causes, if what a record causes does not depend on the state. -/
namespace EventTrace

namespace Transcript

variable {α β : Type}

/-- The work ends with the given failure, or with a result if there is none. -/
def Ends (t : Transcript α) : Option Fault → Prop
  | some e => t.result = .error e
  | none => ∃ a, t.result = .ok a

theorem ends_of_ok {t : Transcript α} {a : α} (h : t.result = .ok a) : t.Ends none := ⟨a, h⟩

theorem ends_pure (a : α) : (pure a : Transcript α).Ends none := ends_of_ok rfl

theorem ends_log (entries : List Log.Entry) : (log entries).Ends none := ends_of_ok rfl

theorem ends_write (part : Part) (text : String) : (write part text).Ends none := ends_of_ok rfl

theorem result_bind_of_ok {x : Transcript α} {a : α} (h : x.result = .ok a) (f : α → Transcript β) :
    (x >>= f).result = (f a).result := by
  show (x.andThen f).result = _
  rw [andThen, h]

theorem result_bind_of_error {x : Transcript α} {e : Fault} (h : x.result = .error e) (f : α → Transcript β) :
    (x >>= f).result = .error e := by
  show (x.andThen f).result = _
  rw [andThen, h]

/-- The first part that fails decides. -/
theorem Ends.bind {x : Transcript α} {f : α → Transcript β} {e e' : Option Fault} (hx : x.Ends e)
    (hf : ∀ a, x.result = .ok a → (f a).Ends e') : (x >>= f).Ends (e.or e') := by
  cases e with
  | some e => exact result_bind_of_error hx f
  | none =>
    obtain ⟨a, ha⟩ := hx
    have h := hf a ha
    cases e' with
    | some e' => exact (result_bind_of_ok ha f).trans h
    | none =>
      obtain ⟨b, hb⟩ := h
      exact ⟨b, (result_bind_of_ok ha f).trans hb⟩

theorem Ends.after {x : Transcript α} {f : α → Transcript β} {e : Option Fault} (hx : x.Ends none)
    (hf : ∀ a, x.result = .ok a → (f a).Ends e) : (x >>= f).Ends e := hx.bind hf

theorem Ends.before {x : Transcript α} {f : α → Transcript β} {e : Option Fault} (hx : x.Ends e)
    (hf : ∀ a, x.result = .ok a → (f a).Ends none) : (x >>= f).Ends e := by
  have h := hx.bind hf
  rwa [Option.or_none] at h

theorem Ends.eq_error_iff {t : Transcript α} {e : Option Fault} (h : t.Ends e) (e' : Fault) :
    t.result = .error e' ↔ e = some e' := by
  cases e with
  | some e =>
    rw [show t.result = .error e from h]
    simp
  | none =>
    obtain ⟨a, ha⟩ := h
    simp [ha]

/-- A sink that accepts everything leaves the result alone. -/
theorem result_outcome_none (t : Transcript α) (reason : String) : (t.outcome none reason).result = t.result := by
  unfold outcome
  induction t.effects with
  | nil => rfl
  | cons effect rest ih => cases effect <;> exact ih

end Transcript

/-- Records end the work on them with the first failure that one of them causes. -/
theorem followRecords_ends {σ : Type} {step : σ → Record → Transcript σ} {fails : Record → Option Fault}
    (hstep : ∀ s r, (step s r).Ends (fails r)) (records : List (List Log.Entry × Record)) (s : σ) :
    (followRecords step records s).Ends ((records.map (·.2)).findSome? fails) := by
  induction records generalizing s with
  | nil => exact Transcript.ends_pure s
  | cons x rest ih =>
    obtain ⟨entries, r⟩ := x
    have hall : (followRecords step ((entries, r) :: rest) s).Ends
        ((fails r).or ((rest.map (·.2)).findSome? fails)) :=
      (Transcript.ends_log entries).after fun _ _ => (hstep s r).bind fun s' _ => ih s'
    rw [List.map_cons, List.findSome?_cons]
    cases hr : fails r with
    | none => rwa [hr] at hall
    | some e => rwa [hr] at hall

/-- Likewise a trace that has no failure of its own. -/
theorem follow_ends {σ : Type} {step : σ → Record → Transcript σ} {fails : Record → Option Fault}
    (hstep : ∀ s r, (step s r).Ends (fails r)) {t : Trace} (ht : t.fault = none) (s : σ) :
    (t.follow step s).Ends ((t.records.map (·.2)).findSome? fails) := by
  refine (followRecords_ends hstep t.records s).before fun s' _ => ?_
  refine (Transcript.ends_log t.closing).after fun _ _ => ?_
  rw [ht]
  exact Transcript.ends_pure s'

end EventTrace
