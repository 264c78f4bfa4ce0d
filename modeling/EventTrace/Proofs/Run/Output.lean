import EventTrace.Proofs.Run.Failure
import EventTrace.Proofs.Text.Encoding
/-! What work does to the outside: how often it opens the source, and what it writes into a sink that accepts
everything. Both are put together from what the parts of the work do. -/
namespace EventTrace

namespace Effect

def text : Effect → String
  | .wrote _ text => text
  | _ => ""

def isOpening : Effect → Bool
  | .opened => true
  | _ => false

end Effect

namespace Transcript

variable {α β : Type}

/-- The work opens the source so many times, writes the text and ends with the result. -/
structure Does (t : Transcript α) (openings : Nat) (text : String) (result : Except Fault α) : Prop where
  openings : t.effects.countP Effect.isOpening = openings
  text : String.join (t.effects.map Effect.text) = text
  result : t.result = result

theorem does_pure (a : α) : (pure a : Transcript α).Does 0 "" (.ok a) := ⟨rfl, rfl, rfl⟩

theorem does_ofExcept (result : Except Fault α) : (ofExcept result).Does 0 "" result := ⟨rfl, rfl, rfl⟩

theorem does_opening : opening.Does 1 "" (.ok ()) := ⟨rfl, rfl, rfl⟩

theorem does_write (part : Part) (text : String) : (write part text).Does 0 text (.ok ()) :=
  ⟨rfl, String.empty_append, rfl⟩

theorem does_log (entries : List Log.Entry) : (log entries).Does 0 "" (.ok ()) := by
  refine ⟨?_, ?_, rfl⟩
  · simp [log, List.countP_map, Function.comp_def, Effect.isOpening]
  · induction entries with
    | nil => rfl
    | cons e entries ih =>
      simp only [log, List.map_cons, String.join_cons] at ih ⊢
      rw [ih]
      rfl

variable {t : Transcript α} {f : α → Transcript β} {m n : Nat} {s u : String}

theorem effects_bind_of_ok {a : α} (h : t.result = .ok a) (f : α → Transcript β) :
    (t >>= f).effects = t.effects ++ (f a).effects := by
  show (t.andThen f).effects = _
  rw [andThen, h]

theorem effects_bind_of_error {e : Fault} (h : t.result = .error e) (f : α → Transcript β) :
    (t >>= f).effects = t.effects := by
  show (t.andThen f).effects = _
  rw [andThen, h]

theorem Does.bind {a : α} {result : Except Fault β} (ht : t.Does m s (.ok a)) (hf : (f a).Does n u result) :
    (t >>= f).Does (m + n) (s ++ u) result := by
  have heffects : (t >>= f).effects = t.effects ++ (f a).effects := effects_bind_of_ok ht.result f
  refine ⟨?_, ?_, (result_bind_of_ok ht.result f).trans hf.result⟩
  · rw [heffects, List.countP_append, ht.openings, hf.openings]
  · rw [heffects, List.map_append, String.join_append, ht.text, hf.text]

theorem Does.fail {e : Fault} (ht : t.Does m s (.error e)) (f : α → Transcript β) :
    (t >>= f).Does m s (.error e) := by
  have heffects : (t >>= f).effects = t.effects := effects_bind_of_error ht.result f
  exact ⟨heffects ▸ ht.openings, heffects ▸ ht.text, result_bind_of_error ht.result f⟩

/-- Work behind work that only logs. -/
theorem Does.after {a : α} {result : Except Fault β} (ht : t.Does 0 "" (.ok a)) (hf : (f a).Does n u result) :
    (t >>= f).Does n u result := by
  have h := ht.bind hf
  rwa [Nat.zero_add, String.empty_append] at h

/-- Work behind the opening of the source. -/
theorem Does.behind {a : α} {result : Except Fault β} (ht : t.Does m "" (.ok a)) (hf : (f a).Does 0 u result) :
    (t >>= f).Does m u result := by
  have h := ht.bind hf
  rwa [Nat.add_zero, String.empty_append] at h

/-- Work behind work that writes. -/
theorem Does.followed {a : α} {result : Except Fault β} (ht : t.Does 0 s (.ok a)) (hf : (f a).Does n u result) :
    (t >>= f).Does n (s ++ u) result := by
  have h := ht.bind hf
  rwa [Nat.zero_add] at h

/-- Work in front of work that only logs. -/
theorem Does.ahead {a : α} {result : Except Fault β} (ht : t.Does m s (.ok a)) (hf : (f a).Does 0 "" result) :
    (t >>= f).Does m s result := by
  have h := ht.bind hf
  rwa [Nat.add_zero, String.append_empty] at h

def Quiet (t : Transcript α) : Prop := ∃ result, t.Does 0 "" result

theorem quiet_pure (a : α) : (pure a : Transcript α).Quiet := ⟨_, does_pure a⟩

theorem quiet_log (entries : List Log.Entry) : (log entries).Quiet := ⟨_, does_log entries⟩

theorem quiet_ofExcept (result : Except Fault α) : (ofExcept result).Quiet := ⟨_, does_ofExcept result⟩

theorem Does.before {result : Except Fault α} (ht : t.Does m s result) (hf : ∀ a, (f a).Quiet) :
    ∃ result, (t >>= f).Does m s result := by
  cases result with
  | error e => exact ⟨_, ht.fail f⟩
  | ok a =>
    obtain ⟨result, hfa⟩ := hf a
    exact ⟨result, ht.ahead hfa⟩

theorem Quiet.bind (ht : t.Quiet) (hf : ∀ a, (f a).Quiet) : (t >>= f).Quiet := by
  obtain ⟨result, ht⟩ := ht
  exact ht.before hf

/-- What a sink that accepts everything shows of the work. -/
theorem Does.outcome {result : Except Fault α} (ht : t.Does n s result) (reason : String) :
    (t.outcome none reason).openings = n ∧ (t.outcome none reason).written = s.toUTF8.toList ∧
      (t.outcome none reason).result = result := by
  obtain ⟨hopenings, htext, hresult⟩ := ht
  refine ⟨?_, ?_, (result_outcome_none t reason).trans hresult⟩
  · subst hopenings
    rw [Transcript.outcome]
    induction t.effects with
    | nil => rfl
    | cons effect rest ih =>
      rw [List.countP_cons, ← ih]
      cases effect <;> rfl
  · subst htext
    rw [Transcript.outcome]
    induction t.effects with
    | nil => simp [Outcome.follow]
    | cons effect rest ih =>
      rw [List.map_cons, String.join_cons, Text.encoded_append, ← ih]
      cases effect <;> simp [Outcome.follow, Effect.text]

end Transcript

end EventTrace
