import EventTrace.Proofs.Expression.Denotation
import EventTrace.Proofs.Record.Words
import EventTrace.Schema.Document
import EventTrace.Template.Rendering
/-! Fields of records. Main result: a member of an operand is the number that its bytes spell on the wire, whatever the
record carries, and is found exactly if it lies within four bytes. -/
namespace EventTrace

open Text

theorem Context.evaluateWithin_toString (ctx : Context) (levels : Nat) {n : Nat} (h : n < Nat.pow 2 63) :
    ctx.evaluateWithin (levels + 1) (toString n) = .ok (.integer (Int64.ofNat n)) := by
  have hlexed : Lexed (toString n).toList [.number (.integer (Int64.ofNat n))] := by
    rw [Nat.toString_eq_repr, Nat.repr_eq_ofList_toDigits, String.toList_ofList]
    exact lexed_single (.number (numeral_toDigits h))
  rw [evaluateWithin_of_parsed ⟨_, [], .literal (.bare _), .none, hlexed⟩]
  rfl

/-- The offset of a member: the integer that its expression evaluates to, or the number that a document gives. -/
inductive Member.OffsetIs (ctx : Context) (levels : Nat) (m : Member) : Int → Prop
  | evaluated {k : Int64} (h : ctx.evaluateWithin levels m.offset = .ok (.integer k)) : OffsetIs ctx levels m k.toInt
  | numeric {n : Int} (hlevels : 0 < levels) (h : Member.offsetOfDatum? (.integer n) = some m.offset) :
      OffsetIs ctx levels m n

theorem Member.offsetOfDatum?_integer {n : Int} {text : String} (h : offsetOfDatum? (.integer n) = some text) :
    0 ≤ n ∧ n < UInt32.size ∧ text = toString n.toNat := by
  by_cases hrange : 0 ≤ n ∧ n < UInt32.size
  · have hread : (Datum.integer n).uint32? = some (UInt32.ofNat n.toNat) := by
      simp only [Datum.uint32?, Datum.natBelow?, Datum.integer?, Option.bind_eq_bind, Option.bind_some, if_pos hrange,
        Option.map_some]
    have hvalue : (UInt32.ofNat n.toNat).toNat = n.toNat := UInt32.toNat_ofNat_of_lt' (by omega)
    simp only [offsetOfDatum?, hread, hvalue, Option.some.injEq] at h
    exact ⟨hrange.1, hrange.2, h.symm⟩
  · have hread : (Datum.integer n).uint32? = none := by
      simp only [Datum.uint32?, Datum.natBelow?, Datum.integer?, Option.bind_eq_bind, Option.bind_some, if_neg hrange,
        Option.map_none]
    simp only [offsetOfDatum?, hread] at h
    cases h

theorem Member.OffsetIs.evaluates {ctx : Context} {levels : Nat} {m : Member} {offset : Int}
    (h : m.OffsetIs ctx levels offset) :
    ∃ k : Int64, ctx.evaluateWithin levels m.offset = .ok (.integer k) ∧ k.toInt = offset := by
  cases h with
  | @evaluated k h => exact ⟨k, h, rfl⟩
  | numeric hlevels h =>
    obtain ⟨levels, rfl⟩ := Nat.exists_eq_add_one.mpr hlevels
    obtain ⟨hnonneg, hlt, htext⟩ := offsetOfDatum?_integer h
    have hsize : Int64.size = 18446744073709551616 := rfl
    refine ⟨Int64.ofNat offset.toNat, ?_, ?_⟩
    · rw [htext]
      exact ctx.evaluateWithin_toString levels (Nat.lt_trans (by omega) (by decide : UInt32.size < Nat.pow 2 63))
    · have hsmall : UInt32.size = 4294967296 := rfl
      rw [Int64.toInt_ofNat', hsize, Int.bmod_def]
      omega

namespace Context

variable {ctx : Context} {evaluate : String → Except RenderFault Value} {o : Operand} {typedef member : String}
  {t : Typedef} {m : Member} {k : Int64}

/-- A member whose offset is known is a field of the word, or is missing because the word does not hold it. -/
theorem field_eq (hbinding : ctx.bindings[o.name]? = some typedef)
    (hmember : ctx.typedefs.member? typedef member = some (t, m)) (hoffset : evaluate m.offset = .ok (.integer k)) :
    (∃ n, 0 ≤ k.toInt ∧ m.type.extract (t.order m) (ctx.operands o).toUInt64.toUInt32 k.toInt.toNat = some n ∧
      ctx.field evaluate o.name member = .ok (.integer n)) ∨
    ¬(0 ≤ k.toInt ∧ k.toInt + m.type.width ≤ 4) ∧ ∃ cause, ctx.field evaluate o.name member = .error (.field cause) := by
  have hword : ctx.operand o.name = .ok (ctx.operands o) := operand_eq_ok.mpr ⟨o, rfl, rfl⟩
  have hfound : ctx.member o.name member = .ok (t, m) := member_eq_ok.mpr ⟨typedef, hbinding, hmember⟩
  by_cases hrange : 0 ≤ k.toInt ∧ k.toInt < UInt32.size
  · cases hfield : m.type.extract (t.order m) (ctx.operands o).toUInt64.toUInt32 k.toInt.toNat with
    | some n =>
      refine .inl ⟨n, hrange.1, rfl, ?_⟩
      simp only [field, hword, hfound, hoffset, bind, Except.bind, offset, if_pos hrange, hfield]
    | none =>
      refine .inr ⟨?_, .exceedsWord t.name member k.toInt.toNat, ?_⟩
      · intro hfits
        rw [IntegerType.extract_eq, if_pos (by omega)] at hfield
        cases hfield
      · simp only [field, hword, hfound, hoffset, bind, Except.bind, offset, if_pos hrange, hfield]
  · refine .inr ⟨?_, .offsetOutOfRange t.name member k, ?_⟩
    · intro hfits
      have hsize : UInt32.size = 4294967296 := rfl
      omega
    · simp only [field, hword, hfound, hoffset, bind, Except.bind, offset, if_neg hrange]

end Context

/-- A member of an operand is found exactly if it lies within four bytes, at no negative offset, and is a missing field
if it does not. Its value is what its bytes in the body of the record spell. The offset is evaluated one level further
in than the member. -/
theorem Record.member_reads_wire {tag : UInt16} {body : List UInt8} {r : Record} (hr : Record.decode? tag body = some r)
    {typedefs : TypedefTable} {e : EventDefinition} {o : Operand} {typedef member : String} {t : Typedef} {m : Member}
    (hbinding : e.bindings[o.name]? = some typedef) (hmember : typedefs.member? typedef member = some (t, m))
    {source : String} (hsource : Lexed source.toList [.name o.name, .mark .dot, .name member])
    {levels : Nat} {offset : Int} (hoffset : m.OffsetIs (r.context typedefs e) levels offset) :
    let result := (r.context typedefs e).evaluateWithin (levels + 1) source
    let number := wireNumber tag body r.dataLength o (t.order m) offset.toNat m.type.width
    ((∃ v, result = .ok v) ↔ 0 ≤ offset ∧ offset + m.type.width ≤ 4) ∧
    ((∃ v, result = .ok v) ∨ ∃ cause, result = .error (.field cause)) ∧
    ∀ v, result = .ok v → ∃ n : Int64, v = .integer n ∧
      n.toInt = if m.type.signed then (BitVec.ofNat (8 * m.type.width) number).toInt else number := by
  intro result number
  obtain ⟨k, hk, rfl⟩ := hoffset.evaluates
  have hresult : result = ((r.context typedefs e).field ((r.context typedefs e).evaluateWithin levels) o.name member).map
      (·.biased none) :=
    Context.evaluateWithin_of_parsed ⟨_, [], .member o.name member, .none, hsource⟩
  have hbound : (r.context typedefs e).bindings[o.name]? = some typedef := hbinding
  obtain ⟨n, hnonneg, hextract, hfield⟩ | ⟨hmisfit, cause, hfield⟩ := Context.field_eq hbound hmember hk
  · have hvalue : result = .ok (.integer n) := by
      rw [hresult, hfield]
      rfl
    have hwindow : m.type.extract (t.order m) (r.operands o).toUInt64.toUInt32 k.toInt.toNat = some n := hextract
    rw [extract_operand hr] at hwindow
    split at hwindow
    next hfits =>
      have hn : n.toInt = if m.type.signed then (BitVec.ofNat (8 * m.type.width) number).toInt else number := by
        rw [← Option.some.inj hwindow, m.type.toInt_ofBytes (wireNumber_lt hfits)]
      refine ⟨⟨fun _ => ⟨hnonneg, by omega⟩, fun _ => ⟨_, hvalue⟩⟩, .inl ⟨_, hvalue⟩, fun v hv => ⟨n, ?_, hn⟩⟩
      rw [hvalue] at hv
      exact (Except.ok.inj hv).symm
    next => cases hwindow
  · have hfailure : result = .error (.field cause) := by
      rw [hresult, hfield]
      rfl
    have hnone : ∀ v, result ≠ .ok v := by
      intro v hv
      rw [hfailure] at hv
      cases hv
    exact ⟨⟨fun ⟨v, hv⟩ => absurd hv (hnone v), fun hfits => absurd hfits hmisfit⟩, .inr ⟨cause, hfailure⟩,
      fun v hv => absurd hv (hnone v)⟩

theorem Operand.spelled_name (o : Operand) : Token.Spelled o.name.toList (.name o.name) := by
  cases o with
  | val1 => exact @Token.Spelled.name 'v' ['a', 'l', '1'] rfl (List.all_eq_true.mp rfl)
  | val2 => exact @Token.Spelled.name 'v' ['a', 'l', '2'] rfl (List.all_eq_true.mp rfl)
  | val3 => exact @Token.Spelled.name 'v' ['a', 'l', '3'] rfl (List.all_eq_true.mp rfl)
  | val4 => exact @Token.Spelled.name 'v' ['a', 'l', '4'] rfl (List.all_eq_true.mp rfl)

/-- The name of an operand, a point and the name of a member are a member access, as they stand. -/
theorem lexed_access (o : Operand) {member : String} (h : Token.Spelled member.toList (.name member)) :
    Lexed (o.name ++ "." ++ member).toList [.name o.name, .mark .dot, .name member] := by
  have hblank : ∀ c ∈ ([] : List Char), isBlank c = true := by simp
  have hmember : Lexed ([] ++ (".".toList ++ member.toList)) [.mark .dot, .name member] :=
    .token hblank .dot trivial (lexed_single h)
  have hlexed : Lexed ([] ++ (o.name.toList ++ (".".toList ++ member.toList)))
      [.name o.name, .mark .dot, .name member] :=
    .token hblank o.spelled_name (runsOut_cons.mpr rfl) hmember
  simpa using hlexed

/-- The upper half of the second word, most significant byte first: its bytes are the last two of the body. -/
theorem Record.member_reads_wire_upper_half :
    let m : Member := { name := "top", offset := "0", type := .int16, bigEndian := some true }
    let e : EventDefinition := { id := 0, bindings := (∅ : Std.ExtTreeMap String String).insert "val2" "Word" }
    let body : List UInt8 := List.replicate 12 0 ++ [0x78, 0x56, 0x34, 0x12, 0xEF, 0xCD, 0xAB, 0x90]
    ∃ r, Record.decode? 2 body = some r ∧ ∃ n : Int64,
      (r.context (TypedefTable.ofList [{ name := "Word", members := [m] }]) e).evaluate "val2.top" = .ok (.integer n) ∧
      n.toInt = -28501 := by
  intro m e body
  have hr : Record.decode? 2 body = some ⟨0, 0, 0, .two 0x12345678 0x90ABCDEF⟩ := by rfl
  have hbinding : e.bindings[Operand.val2.name]? = some "Word" := by simp [e, Operand.name]
  have hmember : (TypedefTable.ofList [{ name := "Word", members := [m] }]).member? "Word" "top" =
      some ({ name := "Word", members := [m] }, m) := by
    simp [TypedefTable.ofList, TypedefTable.add, TypedefTable.member?, Typedef.member?, m]
  have hname : Token.Spelled "top".toList (.name "top") :=
    @Token.Spelled.name 't' ['o', 'p'] rfl (List.all_eq_true.mp rfl)
  have hsource : Lexed "val2.top".toList [.name "val2", .mark .dot, .name "top"] := lexed_access .val2 hname
  have hoffset {ctx : Context} : m.OffsetIs ctx 8 0 := .numeric (by decide) (by rfl)
  obtain ⟨hfound, -, hvalue⟩ := Record.member_reads_wire hr hbinding hmember hsource hoffset
  obtain ⟨v, hv⟩ := hfound.mpr (by decide)
  obtain ⟨n, rfl, hn⟩ := hvalue v hv
  exact ⟨_, hr, n, hv, hn⟩

end EventTrace
