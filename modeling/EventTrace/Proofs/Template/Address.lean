import EventTrace.Proofs.Expression.Field
import EventTrace.Proofs.Template.Rendering
import EventTrace.Proofs.Text.Digits
/-! Directives that show an address: an operand of 32 bits that a record carries. Main statement: they show the address
that was recorded exactly if its top bit is clear. The top bit is a sign, and is repeated in the upper half of the address
that is looked up; the words of a blob have no sign and are always shown as they were recorded. -/
namespace EventTrace

open Text

namespace Directive

def on (d : Directive) (o : Operand) : String := String.ofList ('%' :: d.letter :: '[' :: (o.name.toList ++ [']']))

example : Directive.address.on .val1 = "%S[val1]" := by decide

/-- The address is shown by its text, where that is asked for, and by eight digits of base sixteen where there is no
text or digits are asked for. -/
structure ShowAddress (resolver : Resolver) (shown : Directive → Except RenderFault String) (address : UInt64) : Prop where
  text : shown .text = .ok (resolver address)
  mapped : resolver address ≠ "" →
    shown .function = .ok (resolver address) ∧ shown .object = .ok (resolver address)
  unmapped : resolver address = "" → ∃ digits, IsHexOf 8 address.toNat digits ∧
    shown .function = .ok ("0x" ++ String.ofList digits) ∧ shown .object = .ok ("0x" ++ String.ofList digits)
  digits : ∃ digits, IsHexOf 8 address.toNat digits ∧ shown .address = .ok (String.ofList digits)

variable {resolver : Resolver} {n : Int64}

theorem showAddress_render (h : n.toUInt64.toNat < Nat.pow 2 32) :
    ShowAddress resolver (fun d => d.render resolver (.integer n)) n.toUInt64 := by
  have hdigits : IsHexOf 8 n.toUInt64.toNat (Text.hex 8 n.toUInt64.toNat) := isHexOf_hex (by decide) h
  refine ⟨rfl, fun htext => ?_, fun htext => ⟨_, hdigits, ?_⟩, _, hdigits, rfl⟩
  · have hfound : textOrAddress resolver n.toUInt64 = resolver n.toUInt64 := by simp [textOrAddress, htext]
    exact ⟨congrArg Except.ok hfound, congrArg Except.ok hfound⟩
  · have hmissing : textOrAddress resolver n.toUInt64 = "0x" ++ String.ofList (Text.hex 8 n.toUInt64.toNat) := by
      simp [textOrAddress, htext]
    exact ⟨congrArg Except.ok hmissing, congrArg Except.ok hmissing⟩

/-- The digits that are shown tell the address. -/
theorem ShowAddress.address_eq {address : UInt64}
    (h : ShowAddress resolver (fun d => d.render resolver (.integer n)) address) : n.toUInt64 = address := by
  obtain ⟨digits, ⟨-, -, hvalue⟩, hshown⟩ := h.digits
  have hdigits : Text.hex 8 n.toUInt64.toNat = digits := String.ofList_injective (Except.ok.inj hshown)
  rw [← hdigits, digitsValue_hex] at hvalue
  exact UInt64.toNat_inj.mp hvalue

end Directive

/-- An operand in brackets is shown as its word. -/
theorem renderTemplate_on (resolver : Resolver) (ctx : Context) (d : Directive) (o : Operand) :
    renderTemplate resolver ctx (d.on o) = d.render resolver (.integer (ctx.operands o)) := by
  have hinner : IsInner o.name.toList := by cases o <;> simp [IsInner, Operand.name]
  have hsplit : Split (d.on o).toList [.value d (some o.name)] := by
    have h : Split (('%' :: d.letter :: '[' :: (o.name.toList ++ [']'])) ++ [])
        [.value d (some (String.ofList o.name.toList))] := .cons (.value d [] hinner) .nil
    rw [List.append_nil, String.ofList_toList] at h
    rwa [Directive.on, String.toList_ofList]
  have hvalue : ctx.evaluate o.name = .ok (.integer (ctx.operands o)) := by
    have hparsed : Parsed o.name (.operand o.name) none :=
      ⟨_, [], .operand o.name, .none, by simpa using lexed_single o.spelled_name⟩
    have hword : ctx.operand o.name = .ok (ctx.operands o) := Context.operand_eq_ok.mpr ⟨o, rfl, rfl⟩
    rw [Context.evaluate, Context.levels, Context.evaluateWithin_of_parsed hparsed, Context.term, hword]
    rfl
  rw [renderTemplate, ← split_iff.mp hsplit]
  cases hd : d.render resolver (.integer (ctx.operands o)) with
  | ok text =>
    have hsegment : Segment.render resolver ctx (.value d (some o.name)) = .ok text :=
      Segment.renders_iff.mp (hd ▸ Segment.Renders.value d hvalue)
    rw [renderSegments_cons_ok hsegment]
    simp [renderSegments, Except.map]
  | error fault =>
    have hsegment : Segment.render resolver ctx (.value d (some o.name)) = .error fault :=
      Segment.renders_iff.mp (hd ▸ Segment.Renders.value d hvalue)
    exact renderSegments_cons_error hsegment

namespace Payload

theorem operands_of_words {p : Payload} {o : Operand} {w : UInt32} (h : p.words[o.index]? = some w) :
    p.operands o = w.toInt32.toInt64 := by
  cases p with
  | blob bytes => simp [words] at h
  | two | four | other => simp only [operands, h]

theorem operands_of_blob (bytes : List UInt8) {o : Operand} (h : o.index < 2) :
    (blob bytes).operands o = (blobWord bytes o.index).toUInt64.toInt64 := if_pos h

/-- The upper half of the address repeats the top bit. -/
theorem toNat_address_of_word (w : UInt32) :
    w.toInt32.toInt64.toUInt64.toNat = if w.toNat < 0x80000000 then w.toNat else w.toNat + 0xFFFFFFFF00000000 := by
  have hsigned : w.toInt32.toInt64.toUInt64.toNat = (w.toBitVec.signExtend 64).toNat := rfl
  have hlt : w.toNat < 4294967296 := w.toNat_lt
  rw [hsigned, BitVec.toNat_signExtend, BitVec.toNat_setWidth, BitVec.msb_eq_decide, UInt32.toNat_toBitVec]
  simp only [decide_eq_true_eq, Nat.reducePow, Nat.reduceSub]
  split <;> split <;> omega

end Payload

namespace Record

open Directive

section
variable (resolver : Resolver) (typedefs : TypedefTable) (e : EventDefinition) {r : Record} {o : Operand} {w : UInt32}

def shown (r : Record) (o : Operand) (d : Directive) : Except RenderFault String :=
  renderTemplate resolver (r.context typedefs e) (d.on o)

theorem shown_of_words (hw : r.payload.words[o.index]? = some w) :
    r.shown resolver typedefs e o = fun d => d.render resolver (.integer w.toInt32.toInt64) := by
  funext d
  exact (renderTemplate_on ..).trans (congrArg (fun n => d.render resolver (.integer n)) (Payload.operands_of_words hw))

theorem shown_of_blob {bytes : List UInt8} (hblob : r.payload = .blob bytes) (hindex : o.index < 2)
    (hw : blobWord bytes o.index = w) :
    r.shown resolver typedefs e o = fun d => d.render resolver (.integer w.toUInt64.toInt64) := by
  funext d
  refine (renderTemplate_on ..).trans (congrArg (fun n => d.render resolver (.integer n)) ?_)
  show r.payload.operands o = _
  rw [hblob, Payload.operands_of_blob bytes hindex, hw]

theorem showAddress_of_blob {bytes : List UInt8} (hblob : r.payload = .blob bytes) (hindex : o.index < 2)
    (hw : blobWord bytes o.index = w) : ShowAddress resolver (r.shown resolver typedefs e o) w.toUInt64 := by
  have heq : w.toUInt64.toInt64.toUInt64 = w.toUInt64 := by simp
  have h : ShowAddress resolver (r.shown resolver typedefs e o) w.toUInt64.toInt64.toUInt64 := by
    rw [shown_of_blob resolver typedefs e hblob hindex hw]
    refine showAddress_render ?_
    rw [heq, UInt32.toNat_toUInt64]
    exact w.toNat_lt
  rwa [heq] at h

theorem showAddress_of_words (hw : r.payload.words[o.index]? = some w) :
    ShowAddress resolver (r.shown resolver typedefs e o) w.toUInt64 ↔ w.toNat < 0x80000000 := by
  have haddress := Payload.toNat_address_of_word w
  have hwide : w.toUInt64.toNat = w.toNat := w.toNat_toUInt64
  rw [shown_of_words resolver typedefs e hw]
  constructor
  · -- The digits tell the address that was shown, so it cannot be the one with the upper half set.
    intro h
    rw [h.address_eq, hwide] at haddress
    split at haddress <;> omega
  · intro hlow
    rw [if_pos hlow] at haddress
    have heq : w.toInt32.toInt64.toUInt64 = w.toUInt64 := UInt64.toNat_inj.mp (haddress.trans hwide.symm)
    rw [← heq]
    exact showAddress_render (haddress ▸ w.toNat_lt)

end

/-- Each word that a record carries is shown as an address by its text and its digits exactly if its top bit is clear.
Otherwise the address that is looked up, and shown by sixteen digits, has all upper bits set. The word of a blob is always
shown as it was recorded, so that the same word is shown alike by both exactly if its top bit is clear. -/
theorem address_shown_iff (resolver : Resolver) (typedefs : TypedefTable) (e : EventDefinition) {r : Record} {o : Operand}
    {w : UInt32} (hw : r.payload.words[o.index]? = some w) :
    let shown (r : Record) := r.shown resolver typedefs e o
    (ShowAddress resolver (shown r) w.toUInt64 ↔ w.toNat < 0x80000000) ∧
    (0x80000000 ≤ w.toNat → ∃ address : UInt64, address.toNat = w.toNat + 0xFFFFFFFF00000000 ∧
      shown r .text = .ok (resolver address) ∧
      shown r .function = .ok (textOrAddress resolver address) ∧ shown r .object = .ok (textOrAddress resolver address) ∧
      ∃ digits, IsHexOf 16 address.toNat digits ∧ shown r .address = .ok (String.ofList digits)) ∧
    ∀ (other : Record) (bytes : List UInt8), other.payload = .blob bytes → o.index < 2 → blobWord bytes o.index = w →
      ShowAddress resolver (shown other) w.toUInt64 ∧ (shown r = shown other ↔ w.toNat < 0x80000000) := by
  intro shown
  have hiff := showAddress_of_words resolver typedefs e hw
  have hshown := shown_of_words resolver typedefs e hw
  have haddress := Payload.toNat_address_of_word w
  refine ⟨hiff, fun hhigh => ?_, fun other bytes hblob hindex hword => ?_⟩
  · rw [if_neg (Nat.not_lt.mpr hhigh)] at haddress
    refine ⟨_, haddress, ?_⟩
    simp only [shown, hshown]
    refine ⟨rfl, rfl, rfl, _, isHexOf_hex_of_le (k := 15) (by decide) (by decide) ?_ (UInt64.toNat_lt _), rfl⟩
    rw [haddress]
    exact Nat.le_trans (by decide) (Nat.le_add_left _ _)
  · have hother : ShowAddress resolver (shown other) w.toUInt64 :=
      showAddress_of_blob resolver typedefs e hblob hindex hword
    refine ⟨hother, fun hsame => ?_, fun hlow => ?_⟩
    · have hmine : ShowAddress resolver (shown r) w.toUInt64 := hsame ▸ hother
      exact hiff.mp hmine
    · rw [if_pos hlow] at haddress
      have heq : w.toInt32.toInt64.toUInt64 = w.toUInt64.toInt64.toUInt64 := UInt64.toNat_inj.mp (by simp [haddress])
      have hword' : w.toInt32.toInt64 = w.toUInt64.toInt64 := by simpa using congrArg UInt64.toInt64 heq
      simp only [shown, hshown, shown_of_blob resolver typedefs e hblob hindex hword, hword']

/-- The word of a record whose top bit is set is not shown as the address that it is. -/
theorem address_shown_of_negative :
    let r : Record := ⟨0, 1, 0, .two 0x80000000 1⟩
    r.payload.words[Operand.val1.index]? = some 0x80000000 ∧
      ¬ShowAddress Resolver.none (r.shown .none ∅ { id := 1 } .val1) 0x80000000 := by
  intro r
  have hw : r.payload.words[Operand.val1.index]? = some 0x80000000 := rfl
  obtain ⟨hiff, -, -⟩ := address_shown_iff Resolver.none ∅ { id := 1 } hw
  exact ⟨hw, fun h => absurd (hiff.mp h) (by decide)⟩

/-- A record of two words and a blob carry the same address, which leads to a text. Only the blob shows the text and the
eight digits. -/
theorem address_shown_twice :
    let resolver := (StringTable.ofList [(0x80000000, "rom")]).lookup
    let words : Record := ⟨0, 1, 0, .two 0x80000000 1⟩
    let blob : Record := ⟨0, 1, 8, .blob [0x80, 0, 0, 0, 0, 0, 0, 1]⟩
    let shown (r : Record) := r.shown resolver ∅ { id := 1 } .val1
    shown blob .address = .ok "80000000" ∧ shown words .address = .ok "ffffffff80000000" ∧
      shown blob .text = .ok "rom" ∧ shown words .text = .ok "" ∧
      shown blob .function = .ok "rom" ∧ shown words .function = .ok "0xffffffff80000000" ∧
      shown blob .object = .ok "rom" ∧ shown words .object = .ok "0xffffffff80000000" := by
  simp only [Record.shown, renderTemplate_on]
  refine ⟨?_, ?_, ?_, ?_, ?_, ?_, ?_, ?_⟩ <;> rfl

end Record
end EventTrace
