import EventTrace.Proofs.Expression.Field
/-! Offsets within one another. Main result: evaluation finds the nesting too deep exactly if the chain of offsets that
it comes upon has an expression for every level and one more; below that bound the number of levels does not matter. -/
namespace EventTrace

open Text

def FormFault.TooDeep (fault : FormFault) : Prop := ∃ source, fault = .nestedTooDeeply source

def RenderFault.TooDeep (fault : RenderFault) : Prop := ∃ source, fault = .form (.nestedTooDeeply source)

def Avoids {ε α : Type} (bad : ε → Prop) (x : Except ε α) : Prop := ∀ e, x = .error e → ¬bad e

section
variable {α β ε : Type} {bad : ε → Prop} {x : Except ε α}

theorem avoids_ok (a : α) : Avoids bad (.ok a) := by
  intro e he
  cases he

theorem avoids_error {e : ε} (h : ¬bad e) : Avoids bad (.error e : Except ε α) := by
  intro e' he
  cases he
  exact h

theorem Avoids.bind {f : α → Except ε β} (hx : Avoids bad x) (hf : ∀ a, Avoids bad (f a)) : Avoids bad (x >>= f) := by
  intro e he
  obtain h | ⟨a, -, h⟩ := bind_eq_error.mp he
  · exact hx e h
  · exact hf a e h

theorem Avoids.map (f : α → β) (hx : Avoids bad x) : Avoids bad (x.map f) := fun e he => hx e (map_eq_error.mp he)

theorem Avoids.mapError {y : Except FormFault α} (hy : Avoids FormFault.TooDeep y) :
    Avoids RenderFault.TooDeep (y.mapError .form) := by
  intro e he
  obtain ⟨fault, hfault, rfl⟩ := mapError_eq_error.mp he
  rintro ⟨source, hsource⟩
  exact hy fault hfault ⟨source, RenderFault.form.inj hsource⟩

end

/-! Reading an expression fails for its form alone. -/

theorem FormFault.not_tooDeep_malformed (cs : List Char) : ¬(Token.malformed cs).TooDeep := by
  simp [Token.malformed, FormFault.TooDeep]

namespace Token

theorem avoids_delimited (spelling : List Char) (value : Option Value) (rest : List Char) :
    Avoids FormFault.TooDeep (delimited spelling value rest) := by
  unfold delimited
  split
  · split
    · exact avoids_ok _
    · exact avoids_error (FormFault.not_tooDeep_malformed _)
  · exact avoids_error (FormFault.not_tooDeep_malformed _)

theorem avoids_decimalNumber (cs : List Char) : Avoids FormFault.TooDeep (decimalNumber cs) := by
  unfold decimalNumber
  dsimp only
  split
  · split
    · exact avoids_error (FormFault.not_tooDeep_malformed _)
    · exact avoids_delimited _ _ _
  · exact avoids_delimited _ _ _

theorem avoids_readNumber (cs : List Char) : Avoids FormFault.TooDeep (readNumber cs) := by
  unfold readNumber
  split
  · exact avoids_delimited _ _ _
  · exact avoids_delimited _ _ _
  · exact avoids_decimalNumber _

theorem avoids_next (source : String) (cs : List Char) : Avoids FormFault.TooDeep (next source cs) := by
  unfold next
  split
  · exact avoids_ok _
  · exact avoids_ok _
  · exact avoids_ok _
  · exact avoids_ok _
  · split
    · exact avoids_ok _
    · split
      · exact (avoids_readNumber _).map _
      · exact avoids_error (by simp [FormFault.TooDeep])

end Token

namespace Cursor

theorem avoids_advance (c : Cursor) : Avoids FormFault.TooDeep c.advance :=
  (Token.avoids_next _ _).bind fun _ => avoids_ok _

theorem avoids_number (c : Cursor) : Avoids FormFault.TooDeep c.number := by
  unfold number
  split
  · exact c.avoids_advance.bind fun _ => avoids_ok _
  · exact avoids_error (by simp [FormFault.TooDeep])

theorem avoids_literal (c : Cursor) : Avoids FormFault.TooDeep c.literal := by
  unfold literal
  split
  · exact c.avoids_advance.bind fun c' => c'.avoids_number.bind fun _ => avoids_ok _
  · exact c.avoids_number

theorem avoids_term (c : Cursor) : Avoids FormFault.TooDeep c.term := by
  unfold term
  split
  · exact avoids_error (by simp [FormFault.TooDeep])
  · exact c.avoids_literal.bind fun _ => avoids_ok _
  · exact c.avoids_literal.bind fun _ => avoids_ok _
  · exact avoids_error (by simp [FormFault.TooDeep])
  · refine c.avoids_advance.bind fun c₁ => ?_
    split
    · refine c₁.avoids_advance.bind fun c₂ => ?_
      split
      · exact c₂.avoids_advance.bind fun _ => avoids_ok _
      · exact avoids_error (by simp [FormFault.TooDeep])
    · exact avoids_ok _

theorem avoids_bias (c : Cursor) : Avoids FormFault.TooDeep c.bias := by
  unfold bias
  dsimp only
  split
  · refine c.avoids_advance.bind fun c₁ => c₁.avoids_literal.bind fun read => ?_
    simp only [pure_bind]
    split
    · exact avoids_ok _
    · exact avoids_error (by simp [FormFault.TooDeep])
  · simp only [pure_bind]
    split
    · exact avoids_ok _
    · exact avoids_error (by simp [FormFault.TooDeep])

end Cursor

namespace Context

variable {ctx : Context} {source last : String}

/-- The member that an access stands for, if there is one, has the offset. -/
def Refers (ctx : Context) (operand member offset : String) : Prop :=
  ∃ (o : Operand) (typedef : String) (t : Typedef) (m : Member), operand = o.name ∧
    ctx.bindings[operand]? = some typedef ∧ ctx.typedefs.member? typedef member = some (t, m) ∧ offset = m.offset

/-- An access in front of the source refers to a member with the offset. -/
def Reaches (ctx : Context) (source offset : String) : Prop :=
  ∃ operand member, ReadsMember source operand member ∧ ctx.Refers operand member offset

/-- A chain of so many offsets, each reached by the one before it. -/
def Nests (ctx : Context) : Nat → String → String → Prop
  | 0, source, last => source = last
  | n + 1, source, last => ∃ offset, ctx.Reaches source offset ∧ ctx.Nests n offset last

/-- A step that needs no other value, or that of one source; by itself it does not find the nesting too deep. -/
def Asks (step : (String → Except RenderFault Value) → Except RenderFault Value) : Option String → Prop
  | none => ∃ x, Avoids RenderFault.TooDeep x ∧ ∀ evaluate, step evaluate = x
  | some source => ∃ f, (∀ v, Avoids RenderFault.TooDeep (f v)) ∧ ∀ evaluate, step evaluate = evaluate source >>= f

theorem Asks.bind {step : (String → Except RenderFault Value) → Except RenderFault Value} {asked : Option String}
    (h : Asks step asked) {f : Value → Except RenderFault Value} (hf : ∀ v, Avoids RenderFault.TooDeep (f v)) :
    Asks (fun evaluate => step evaluate >>= f) asked := by
  cases asked with
  | none =>
    obtain ⟨x, hx, hstep⟩ := h
    exact ⟨x >>= f, hx.bind hf, fun evaluate => congrArg (· >>= f) (hstep evaluate)⟩
  | some source =>
    obtain ⟨g, hg, hstep⟩ := h
    refine ⟨fun v => g v >>= f, fun v => (hg v).bind hf, fun evaluate => ?_⟩
    dsimp only
    rw [hstep, bind_assoc]

theorem avoids_operand (ctx : Context) (name : String) : Avoids RenderFault.TooDeep (ctx.operand name) := by
  unfold operand
  split
  · exact avoids_ok _
  · exact avoids_error (by simp [RenderFault.TooDeep])

theorem avoids_member (ctx : Context) (name member : String) :
    Avoids RenderFault.TooDeep (ctx.member name member) := by
  intro fault h
  obtain ⟨cause, rfl⟩ := member_eq_error h
  simp [RenderFault.TooDeep]

theorem avoids_offset (typedef member : String) (v : Value) :
    Avoids RenderFault.TooDeep (offset typedef member v) := by
  unfold offset
  split
  · exact avoids_error (by simp [RenderFault.TooDeep])
  · split
    · exact avoids_ok _
    · exact avoids_error (by simp [RenderFault.TooDeep])

theorem avoids_field (ctx : Context) (name member : String) {evaluate : String → Except RenderFault Value}
    (h : ∀ s, Avoids RenderFault.TooDeep (evaluate s)) : Avoids RenderFault.TooDeep (ctx.field evaluate name member) := by
  refine (ctx.avoids_operand name).bind fun word => (ctx.avoids_member name member).bind fun found => ?_
  refine (h _).bind fun v => (avoids_offset _ _ _).bind fun k => ?_
  split
  · exact avoids_ok _
  · exact avoids_error (by simp [RenderFault.TooDeep])

theorem refers_iff {name member s : String} : ctx.Refers name member s ↔
    ∃ word t m, ctx.operand name = .ok word ∧ ctx.member name member = .ok (t, m) ∧ s = m.offset := by
  constructor
  · rintro ⟨o, typedef, t, m, rfl, hbinding, hmember, rfl⟩
    exact ⟨_, t, m, operand_eq_ok.mpr ⟨o, rfl, rfl⟩, member_eq_ok.mpr ⟨typedef, hbinding, hmember⟩, rfl⟩
  · rintro ⟨word, t, m, hword, hmember, rfl⟩
    obtain ⟨o, rfl, -⟩ := operand_eq_ok.mp hword
    obtain ⟨typedef, hbinding, hmember⟩ := member_eq_ok.mp hmember
    exact ⟨o, typedef, t, m, rfl, hbinding, hmember, rfl⟩

/-- An access needs the value of the offset that it refers to. -/
theorem exists_asks_field (ctx : Context) (name member : String) : ∃ asked : Option String,
    (∀ s, asked = some s ↔ ctx.Refers name member s) ∧ Asks (fun evaluate => ctx.field evaluate name member) asked := by
  cases hword : ctx.operand name with
  | error fault =>
    have hfault : ¬fault.TooDeep := ctx.avoids_operand name fault hword
    refine ⟨none, fun s => ?_, .error fault, avoids_error hfault, fun evaluate => ?_⟩
    · simp [refers_iff, hword]
    · simp only [field, hword, bind, Except.bind]
  | ok word =>
    cases hmember : ctx.member name member with
    | error fault =>
      have hfault : ¬fault.TooDeep := ctx.avoids_member name member fault hmember
      refine ⟨none, fun s => ?_, .error fault, avoids_error hfault, fun evaluate => ?_⟩
      · simp [refers_iff, hmember]
      · simp only [field, hword, hmember, bind, Except.bind]
    | ok found =>
      obtain ⟨t, m⟩ := found
      have hfield (v : Value) := ctx.avoids_field name member fun _ => avoids_ok v
      refine ⟨some m.offset, fun s => ?_, _, hfield, fun evaluate => ?_⟩
      · rw [refers_iff, hword, hmember]
        constructor
        · intro h
          cases h
          exact ⟨word, t, m, rfl, rfl, rfl⟩
        · rintro ⟨_, _, _, -, hfound, rfl⟩
          cases hfound
          rfl
      · cases hvalue : evaluate m.offset with
        | error fault => simp only [field, hword, hmember, hvalue, bind, Except.bind]
        | ok v => simp only [field, hword, hmember, hvalue, bind, Except.bind]

/-- A term needs the value of the offset that it refers to, and no other. -/
theorem exists_asks_term (ctx : Context) (t : Term) : ∃ asked : Option String,
    (∀ s, asked = some s ↔ ∃ operand member, t = .member operand member ∧ ctx.Refers operand member s) ∧
      Asks (fun evaluate => ctx.term evaluate t) asked := by
  cases t with
  | literal v => exact ⟨none, by simp, .ok v, avoids_ok v, fun _ => rfl⟩
  | operand name => exact ⟨none, by simp, _, (ctx.avoids_operand name).map _, fun _ => rfl⟩
  | member name member =>
    obtain ⟨asked, hasked, hasks⟩ := ctx.exists_asks_field name member
    refine ⟨asked, fun s => (hasked s).trans ⟨fun hrefers => ⟨name, member, rfl, hrefers⟩, ?_⟩, hasks⟩
    rintro ⟨_, _, hterm, hrefers⟩
    cases hterm
    exact hrefers

theorem evaluateWithin_succ (ctx : Context) (levels : Nat) (source : String) :
    ctx.evaluateWithin (levels + 1) source = ((Cursor.start source >>= Cursor.term).mapError .form >>= fun (t, c) =>
      ctx.term (ctx.evaluateWithin levels) t >>= fun v => c.bias.mapError .form >>= fun b => .ok (v.biased b)) := by
  rw [evaluateWithin]
  cases Cursor.start source with
  | error fault => rfl
  | ok c =>
    simp only [mapError_ok, bind, Except.bind]
    cases c.term with
    | error fault => rfl
    | ok read =>
      simp only [mapError_ok]
      cases ctx.term (ctx.evaluateWithin levels) read.1 with
      | error fault => rfl
      | ok v =>
        cases read.2.bias with
        | error fault => simp only [mapError_error]
        | ok b =>
          simp only [mapError_ok]
          cases b <;> rfl

theorem reaches_iff {s : String} : ctx.Reaches source s ↔ ∃ t c, (Cursor.start source >>= Cursor.term) = .ok (t, c) ∧
    ∃ operand member, t = .member operand member ∧ ctx.Refers operand member s := by
  constructor
  · rintro ⟨operand, member, hreads, hrefers⟩
    obtain ⟨c, c', hc, ht⟩ := readsMember_iff.mp hreads
    exact ⟨_, c', bind_eq_ok.mpr ⟨c, hc, ht⟩, operand, member, rfl, hrefers⟩
  · rintro ⟨t, c', hread, operand, member, rfl, hrefers⟩
    obtain ⟨c, hc, ht⟩ := bind_eq_ok.mp hread
    exact ⟨operand, member, readsMember_iff.mpr ⟨c, c', hc, ht⟩, hrefers⟩

/-- One level of evaluation needs the value of the offset that the source reaches, and no other. -/
theorem exists_asks (ctx : Context) (source : String) : ∃ step asked,
    (∀ levels, ctx.evaluateWithin (levels + 1) source = step (ctx.evaluateWithin levels)) ∧
      (∀ s, asked = some s ↔ ctx.Reaches source s) ∧ Asks step asked := by
  cases hread : Cursor.start source >>= Cursor.term with
  | error fault =>
    have hfault : Avoids RenderFault.TooDeep ((.error fault : Except FormFault Value).mapError .form) := by
      refine Avoids.mapError (avoids_error ?_)
      exact ((Cursor.avoids_advance _).bind Cursor.avoids_term) fault hread
    refine ⟨fun _ => .error (.form fault), none, fun levels => ?_, fun s => ?_, _, hfault, fun _ => rfl⟩
    · rw [evaluateWithin_succ, hread]
      rfl
    · rw [reaches_iff, hread]
      simp
  | ok read =>
    obtain ⟨t, c⟩ := read
    obtain ⟨asked, hasked, hasks⟩ := ctx.exists_asks_term t
    have hbias (v : Value) : Avoids RenderFault.TooDeep (c.bias.mapError .form >>= fun b => .ok (v.biased b)) :=
      c.avoids_bias.mapError.bind fun b => avoids_ok _
    refine ⟨_, asked, fun levels => ?_, fun s => ?_, hasks.bind hbias⟩
    · rw [evaluateWithin_succ, hread]
      rfl
    · rw [hasked, reaches_iff, hread]
      simp

theorem Reaches.eq {s s' : String} (h : ctx.Reaches source s) (h' : ctx.Reaches source s') : s = s' := by
  obtain ⟨step, asked, -, hasked, -⟩ := ctx.exists_asks source
  exact Option.some.inj (((hasked s).mpr h).symm.trans ((hasked s').mpr h'))

/-- With so many levels the nesting is found too deep exactly if the chain is as long. -/
theorem evaluateWithin_eq_tooDeep {levels : Nat} :
    ctx.evaluateWithin levels source = .error (.form (.nestedTooDeeply last)) ↔ ctx.Nests levels source last := by
  induction levels generalizing source with
  | zero => simp [evaluateWithin, Nests]
  | succ levels ih =>
    obtain ⟨step, asked, hstep, hasked, hasks⟩ := ctx.exists_asks source
    rw [hstep, Nests]
    cases asked with
    | none =>
      obtain ⟨x, hx, hstep⟩ := hasks
      refine iff_of_false (fun h => hx _ ((hstep _).symm.trans h) ⟨last, rfl⟩) ?_
      rintro ⟨s, hs, -⟩
      cases (hasked s).mpr hs
    | some s =>
      obtain ⟨f, hf, hstep⟩ := hasks
      rw [hstep, bind_eq_error, ih]
      constructor
      · rintro (hlast | ⟨v, -, hv⟩)
        · exact ⟨s, (hasked s).mp rfl, hlast⟩
        · exact absurd ⟨last, rfl⟩ (hf v _ hv)
      · rintro ⟨s', hs', hlast⟩
        cases (hasked s').mpr hs'
        exact .inl hlast

/-- Any other outcome is the same with more levels. -/
theorem evaluateWithin_of_le {fewer more : Nat} (hle : fewer ≤ more)
    (h : Avoids RenderFault.TooDeep (ctx.evaluateWithin fewer source)) :
    ctx.evaluateWithin more source = ctx.evaluateWithin fewer source := by
  induction fewer generalizing more source with
  | zero => exact absurd ⟨source, rfl⟩ (h _ rfl)
  | succ fewer ih =>
    obtain ⟨more, rfl⟩ := Nat.exists_eq_add_of_le' hle
    obtain ⟨step, asked, hstep, -, hasks⟩ := ctx.exists_asks source
    rw [← Nat.add_assoc, hstep, hstep]
    cases asked with
    | none =>
      obtain ⟨x, -, hstep⟩ := hasks
      rw [hstep, hstep]
    | some s =>
      obtain ⟨f, -, hvalue⟩ := hasks
      have hs : Avoids RenderFault.TooDeep (ctx.evaluateWithin fewer s) := by
        intro fault hfault
        refine h fault ?_
        rw [hstep, hvalue, hfault]
        rfl
      rw [hvalue, hvalue, ih (by omega) hs]

theorem nests_add {m n : Nat} : ctx.Nests (m + n) source last ↔ ∃ s, ctx.Nests m source s ∧ ctx.Nests n s last := by
  induction m generalizing source with
  | zero => simp [Nests]
  | succ m ih =>
    rw [Nat.succ_add, Nests]
    simp only [ih, Nests]
    constructor
    · rintro ⟨offset, hreaches, s, hm, hn⟩
      exact ⟨s, ⟨offset, hreaches, hm⟩, hn⟩
    · rintro ⟨s, ⟨offset, hreaches, hm⟩, hn⟩
      exact ⟨offset, hreaches, s, hm, hn⟩

theorem Nests.exists_of_le {m n : Nat} (h : ctx.Nests m source last) (hle : n ≤ m) : ∃ s, ctx.Nests n source s := by
  obtain ⟨k, rfl⟩ := Nat.exists_eq_add_of_le hle
  obtain ⟨s, hs, -⟩ := nests_add.mp h
  exact ⟨s, hs⟩

/-- A chain that comes back to a source goes on for ever. -/
theorem Nests.exists_of_cycle {before period : Nat} {s : String} (h : ctx.Nests before source s)
    (hcycle : ctx.Nests (period + 1) s s) (n : Nat) : ∃ last, ctx.Nests n source last := by
  have hrounds (k : Nat) : ctx.Nests (k * (period + 1)) s s := by
    induction k with
    | zero => simp [Nests]
    | succ k ih =>
      rw [Nat.succ_mul]
      exact nests_add.mpr ⟨s, ih, hcycle⟩
  have hlong : n ≤ before + n * (period + 1) := by
    rw [Nat.mul_succ]
    omega
  exact (nests_add.mpr ⟨s, h, hrounds n⟩).exists_of_le hlong

/-- Whatever the typedefs, each source reaches at most one offset, and evaluation finds the nesting too deep exactly if
the chain of these has one more than there are levels; a chain that comes back to a source is such a chain. At depth `d`
there are `9 - d` levels left. Every other outcome is the same with any number of levels that is not smaller, so that at
every smaller depth it is the same, and below the bound evaluation is as without one. -/
theorem nesting_is_bounded (ctx : Context) :
    (∀ source s s', ctx.Reaches source s → ctx.Reaches source s' → s = s') ∧
    (∀ source last, ctx.evaluate source = .error (.form (.nestedTooDeeply last)) ↔ ctx.Nests 9 source last) ∧
    (∀ source s before period, ctx.Nests before source s → ctx.Nests (period + 1) s s →
      ∃ last, ctx.evaluate source = .error (.form (.nestedTooDeeply last))) ∧
    (∀ source fewer more, fewer ≤ more →
      (∀ last, ctx.evaluateWithin fewer source ≠ .error (.form (.nestedTooDeeply last))) →
        ctx.evaluateWithin more source = ctx.evaluateWithin fewer source) ∧
    ∀ source, (¬∃ last, ctx.Nests 9 source last) → ∀ more ≥ 9, ctx.evaluateWithin more source = ctx.evaluate source := by
  have hmore {source : String} {fewer more : Nat} (hle : fewer ≤ more)
      (h : ∀ last, ctx.evaluateWithin fewer source ≠ .error (.form (.nestedTooDeeply last))) :
      ctx.evaluateWithin more source = ctx.evaluateWithin fewer source := by
    refine evaluateWithin_of_le hle ?_
    rintro _ hfault ⟨last, rfl⟩
    exact h last hfault
  refine ⟨fun _ _ _ h h' => h.eq h', fun _ _ => evaluateWithin_eq_tooDeep, ?_, fun _ _ _ => hmore, ?_⟩
  · intro source s before period hbefore hcycle
    obtain ⟨last, hlast⟩ := hbefore.exists_of_cycle hcycle 9
    exact ⟨last, evaluateWithin_eq_tooDeep.mpr hlast⟩
  · intro source hno more hle
    exact hmore hle fun last hlast => hno ⟨last, evaluateWithin_eq_tooDeep.mp hlast⟩

/-- Two members whose offsets are each other, and an expression without a member. -/
theorem nesting_is_bounded_of_cycle :
    let a : Member := { name := "a", offset := "val1.b", type := .uint8 }
    let b : Member := { name := "b", offset := "val1.a", type := .uint8 }
    let pair : Typedef := { name := "Pair", members := [a, b] }
    let ctx : Context :=
      { bindings := (∅ : Std.ExtTreeMap String String).insert "val1" "Pair", typedefs := .ofList [pair] }
    (∃ last, ctx.evaluate "val1.a" = .error (.form (.nestedTooDeeply last))) ∧
      ∀ more ≥ 1, ctx.evaluateWithin more "val1+2" = .ok (.integer 2) := by
  intro a b pair ctx
  have hbinding : ctx.bindings["val1"]? = some "Pair" := by simp [ctx]
  have htable : ctx.typedefs["Pair"]? = some pair := by simp [ctx, pair, TypedefTable.ofList, TypedefTable.add]
  have hreaches {source : String} (name : String) {m : Member} (hsource : source = Operand.val1.name ++ "." ++ name)
      (hname : Token.Spelled name.toList (.name name)) (hm : pair.member? name = some m) :
      ctx.Reaches source m.offset := by
    have hlexed : Lexed source.toList [.name "val1", .mark .dot, .name name] := hsource ▸ lexed_access .val1 hname
    refine ⟨"val1", name, ⟨source.toList, [], (List.append_nil _).symm, hlexed, runsOut_nil _, (none, []), rfl⟩,
      .val1, "Pair", pair, m, rfl, hbinding, ?_, rfl⟩
    simp [TypedefTable.member?, htable, hm]
  have ha : ctx.Reaches "val1.a" "val1.b" := hreaches "a" rfl (@Token.Spelled.name 'a' [] rfl (by simp)) rfl
  have hb : ctx.Reaches "val1.b" "val1.a" := hreaches "b" rfl (@Token.Spelled.name 'b' [] rfl (by simp)) rfl
  obtain ⟨-, -, hcycle, hmore, -⟩ := nesting_is_bounded ctx
  have hvalue : ctx.evaluateWithin 1 "val1+2" = .ok (.integer 2) := by rfl
  refine ⟨hcycle _ _ 0 1 rfl ⟨_, ha, _, hb, rfl⟩, fun more hle => ?_⟩
  exact (hmore _ 1 more hle (by simp [hvalue])).trans hvalue

end Context

end EventTrace
