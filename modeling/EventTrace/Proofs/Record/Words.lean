import EventTrace.Record.Basic
import EventTrace.Schema.IntegerType
/-! Windows of a word: bytes in a row of the four that a record carries, and the number that they spell. -/
namespace EventTrace

namespace Bytes

theorem capacity_pos (width : Nat) : 0 < capacity width := by
  induction width with
  | zero => decide
  | succ width ih => rw [capacity]; omega

theorem ofLittle_div_capacity (bs : List UInt8) (k : Nat) : ofLittle bs / capacity k = ofLittle (bs.drop k) := by
  induction k generalizing bs with
  | zero => simp [capacity]
  | succ k ih =>
    cases bs with
    | nil => simp [ofLittle]
    | cons b bs =>
      have hb : b.toNat < 256 := b.toNat_lt
      have hdiv : (b.toNat + 256 * ofLittle bs) / 256 = ofLittle bs := by omega
      rw [ofLittle, capacity, ← Nat.div_div_eq_div_mul, hdiv, ih, List.drop_succ_cons]

theorem ofLittle_mod_capacity (bs : List UInt8) (width : Nat) :
    ofLittle bs % capacity width = ofLittle (bs.take width) := by
  induction width generalizing bs with
  | zero => simp [capacity, ofLittle, Nat.mod_one]
  | succ width ih =>
    cases bs with
    | nil => simp [ofLittle]
    | cons b bs =>
      have hb : b.toNat < 256 := b.toNat_lt
      have hdiv : (b.toNat + 256 * ofLittle bs) / 256 = ofLittle bs := by omega
      have hmod : (b.toNat + 256 * ofLittle bs) % 256 = b.toNat := by omega
      rw [ofLittle, capacity, Nat.mod_mul, hdiv, hmod, ih, List.take_succ_cons, ofLittle]

theorem ofLittle_window (bs : List UInt8) (k width : Nat) :
    ofLittle bs / capacity k % capacity width = ofLittle ((bs.drop k).take width) := by
  rw [ofLittle_div_capacity, ofLittle_mod_capacity]

/-- With the most significant byte first the window counts from the end. -/
theorem ofBig_window {bs : List UInt8} {k width : Nat} (h : k + width ≤ bs.length) :
    ofBig bs / capacity k % capacity width = ofBig ((bs.drop (bs.length - k - width)).take width) := by
  have hfront : (bs.take (bs.length - k)).length - width = bs.length - k - width := by
    rw [List.length_take]
    omega
  rw [ofBig, ofLittle_window, ofBig, List.drop_reverse, List.take_reverse, hfront, List.drop_take]
  congr 3
  omega

end Bytes

/-- Where a field starts among the four bytes of a word: at its offset if they are stored in its own order, and as far
from their end if not. -/
def fieldStart (stored order : ByteOrder) (offset width : Nat) : Nat :=
  if order = stored then offset else 4 - offset - width

theorem fieldStart_word (stored order : ByteOrder) : fieldStart stored order 0 4 = 0 := by simp [fieldStart]

theorem fieldStart_little_add_le {order : ByteOrder} {offset width : Nat} (h : offset + width ≤ 4) :
    fieldStart .little order offset width + width ≤ 4 := by
  cases order with
  | little => exact h
  | big =>
    simp only [fieldStart, reduceCtorEq, if_false]
    omega

theorem fieldStart_big {order : ByteOrder} {offset width : Nat} (h : offset + width ≤ 4) :
    fieldStart .big order offset width = 4 - fieldStart .little order offset width - width := by
  cases order with
  | little => rfl
  | big =>
    simp only [fieldStart, reduceCtorEq, if_true, if_false]
    omega

namespace IntegerType

/-- Two's complement in as many bits as the bytes have, if the type is signed. -/
theorem toInt_ofBytes (t : IntegerType) {n : Nat} (h : n < Bytes.capacity t.width) :
    (t.ofBytes n).toInt = if t.signed then (BitVec.ofNat (8 * t.width) n).toInt else n := by
  have hsize : Int64.size = 18446744073709551616 := rfl
  have hlt : Bytes.capacity t.width ≤ 4294967296 := by cases t <;> decide
  have hpow : 2 ^ (8 * t.width) = Bytes.capacity t.width := by cases t <;> rfl
  have hbits : (BitVec.ofNat (8 * t.width) n).toInt =
      if 2 * n < Bytes.capacity t.width then (n : Int) else n - Bytes.capacity t.width := by
    rw [BitVec.toInt_eq_toNat_cond, BitVec.toNat_ofNat, hpow, Nat.mod_eq_of_lt h]
  rw [hbits]
  unfold ofBytes
  cases hsigned : t.signed with
  | false =>
    simp only [Bool.false_and, Bool.false_eq_true, if_false]
    rw [Int64.toInt_ofNat', hsize, Int.bmod_def]
    omega
  | true =>
    simp only [Bool.true_and, decide_eq_true_eq, if_true]
    by_cases hle : Bytes.capacity t.width ≤ 2 * n
    · rw [if_pos hle, if_neg (Nat.not_lt.mpr hle), Int64.toInt_ofInt, hsize, Int.bmod_def]
      omega
    · rw [if_neg hle, if_pos (Nat.lt_of_not_le hle), Int64.toInt_ofNat', hsize, Int.bmod_def]
      omega

/-- A field is found exactly if it lies within the word; its number is a window of the word. -/
theorem extract_eq (t : IntegerType) (order : ByteOrder) (word : UInt32) (offset : Nat) :
    t.extract order word offset =
      if offset + t.width ≤ 4 then
        some (t.ofBytes (word.toNat / Bytes.capacity (fieldStart .little order offset t.width) % Bytes.capacity t.width))
      else none := by
  unfold extract
  by_cases h : offset + t.width ≤ 4
  · rw [if_pos h, if_neg (Nat.not_lt.mpr h)]
    cases order with
    | little | big => rfl
  · rw [if_neg h, if_pos (Nat.lt_of_not_le h)]

end IntegerType

namespace Record

open Bytes

/-- The number that the bytes of a field spell on the wire. Behind the header stand the words of the operands, least
significant byte first, or a blob, whose first eight bytes are two words the other way round and which zeros continue.
What is not there is zero. -/
def wireNumber (tag : UInt16) (body : List UInt8) (length : Nat) (o : Operand) (order : ByteOrder)
    (offset width : Nat) : Nat :=
  let first (stored : ByteOrder) := 12 + 4 * o.index + fieldStart stored order offset width
  if tag = 1 ∧ o.index < 2 then
    ofBig ((List.range width).map fun k => (body.take (12 + length)).getD (first .big + k) 0)
  else if tag = 2 ∧ o.index < 2 ∨ tag = 3 then ofLittle ((body.drop (first .little)).take width)
  else 0

section
variable {tag : UInt16} {body : List UInt8} {length : Nat} {o : Operand} {order : ByteOrder} {offset width : Nat}

theorem wireNumber_window (h : offset + width ≤ 4) :
    wireNumber tag body length o order 0 4 / capacity (fieldStart .little order offset width) % capacity width =
      wireNumber tag body length o order offset width := by
  have hfits : fieldStart .little order offset width + width ≤ 4 := fieldStart_little_add_le h
  simp only [wireNumber, fieldStart_word]
  split
  · -- The bytes of a blob are counted from the other end of the word.
    rw [ofBig_window (by simpa using hfits)]
    congr 1
    apply List.ext_getElem
    · simp
      omega
    · intro i hi hi'
      simp [fieldStart_big h, Nat.add_assoc]
  · split
    · rw [ofLittle_window, List.drop_take, List.take_take, List.drop_drop, Nat.add_zero]
      congr 2
      omega
    · simp

theorem wireNumber_lt (h : offset + width ≤ 4) : wireNumber tag body length o order offset width < capacity width := by
  rw [← wireNumber_window h]
  exact Nat.mod_lt _ (capacity_pos width)

end

theorem payload_of_decode? {tag : UInt16} {body : List UInt8} {r : Record} (h : decode? tag body = some r) :
    decodePayload? tag r.info (body.drop 12) = some r.payload := by
  unfold decode? at h
  split at h
  · cases h
  · obtain ⟨payload, hpayload, rfl⟩ := Option.map_eq_some_iff.mp h
    exact hpayload

theorem decodePayload?_cases {tag info : UInt16} {bytes : List UInt8} {p : Payload}
    (h : decodePayload? tag info bytes = some p) :
    (tag = 1 ∧ p = .blob (bytes.take (info.toNat % 0x8000))) ∨ (tag = 2 ∧ p = .two (wordAt bytes 0) (wordAt bytes 1)) ∨
    (tag = 3 ∧ p = .four (wordAt bytes 0) (wordAt bytes 1) (wordAt bytes 2) (wordAt bytes 3)) ∨
    (tag ≠ 1 ∧ tag ≠ 2 ∧ tag ≠ 3) ∧ p = .other tag := by
  simp only [decodePayload?] at h
  split at h
  next htag =>
    split at h <;> cases h
    exact .inl ⟨htag, rfl⟩
  next hblob =>
    split at h
    next htag =>
      split at h <;> cases h
      exact .inr (.inl ⟨htag, rfl⟩)
    next htwo =>
      split at h
      next htag =>
        split at h <;> cases h
        exact .inr (.inr (.inl ⟨htag, rfl⟩))
      next hfour =>
        cases h
        exact .inr (.inr (.inr ⟨⟨hblob, htwo, hfour⟩, rfl⟩))

theorem toNat_wordAt (bytes : List UInt8) (i : Nat) :
    (wordAt bytes i).toNat = ofLittle ((bytes.drop (4 * i)).take 4) := by
  have hmod := ofLittle_mod_capacity ((bytes.drop (4 * i)).take 4) 4
  rw [List.take_take] at hmod
  rw [wordAt, UInt32.toNat_ofNat']
  exact hmod

theorem toNat_blobWord (bytes : List UInt8) (i : Nat) :
    (blobWord bytes i).toNat = ofBig ((List.range 4).map fun k => bytes.getD (4 * i + k) 0) := by
  have hlt := ofLittle_lt ((List.range 4).map fun k => bytes.getD (4 * i + k) 0).reverse
  rw [List.length_reverse, List.length_map, List.length_range] at hlt
  rw [blobWord, UInt32.toNat_ofNat']
  exact Nat.mod_eq_of_lt hlt

theorem toUInt32_of_signed (w : UInt32) : w.toInt32.toInt64.toUInt64.toUInt32 = w := by
  apply UInt32.toBitVec_inj.mp
  change (w.toBitVec.signExtend 64).setWidth 32 = w.toBitVec
  ext i hi
  rw [BitVec.getElem_setWidth, BitVec.getLsbD_signExtend, if_pos hi, BitVec.getLsbD_eq_getElem hi]
  simp
  omega

theorem toUInt32_of_unsigned (w : UInt32) : w.toUInt64.toInt64.toUInt64.toUInt32 = w := by simp

theorem word_of_words {p : Payload} (hp : ∀ bytes, p ≠ .blob bytes) (o : Operand) :
    (p.operands o).toUInt64.toUInt32 = (p.words[o.index]?).getD 0 := by
  have hoperands : p.operands o = (p.words[o.index]?).elim 0 fun w => w.toInt32.toInt64 := by
    cases p with
    | blob bytes => exact absurd rfl (hp bytes)
    | two | four | other =>
      simp only [Payload.operands]
      split
      next h => rw [h, Option.elim_some]
      next h => rw [h, Option.elim_none]
  rw [hoperands]
  cases p.words[o.index]? with
  | none => rfl
  | some w => exact toUInt32_of_signed w

theorem word_of_blob (bytes : List UInt8) (o : Operand) :
    ((Payload.blob bytes).operands o).toUInt64.toUInt32 = if o.index < 2 then blobWord bytes o.index else 0 := by
  rw [Payload.operands]
  split
  · exact toUInt32_of_unsigned _
  · rfl

theorem toNat_operand {tag : UInt16} {body : List UInt8} {r : Record} (h : decode? tag body = some r) (o : Operand)
    (order : ByteOrder) :
    (r.operands o).toUInt64.toUInt32.toNat = wireNumber tag body r.dataLength o order 0 4 := by
  have hword (i : Nat) : (wordAt (body.drop 12) i).toNat = ofLittle ((body.drop (12 + 4 * i)).take 4) := by
    rw [toNat_wordAt, List.drop_drop]
  simp only [Record.operands, wireNumber, fieldStart_word, Nat.add_zero]
  obtain ⟨rfl, hp⟩ | ⟨rfl, hp⟩ | ⟨rfl, hp⟩ | ⟨⟨hblob, htwo, hfour⟩, hp⟩ := decodePayload?_cases (payload_of_decode? h)
  · have hcarried : (body.drop 12).take r.dataLength = (body.take (12 + r.dataLength)).drop 12 := by
      rw [List.drop_take, Nat.add_sub_cancel_left]
    rw [hp, word_of_blob, ← Record.dataLength, hcarried]
    split
    next hindex =>
      rw [toNat_blobWord, if_pos ⟨rfl, hindex⟩]
      simp only [List.getD_eq_getElem?_getD, List.getElem?_drop, Nat.add_assoc]
    next hindex => simp [hindex]
  · rw [hp, word_of_words (by simp)]
    cases o with
    | val1 | val2 => exact hword _
    | val3 | val4 => rfl
  · rw [hp, word_of_words (by simp)]
    cases o with
    | val1 | val2 | val3 | val4 => exact hword _
  · rw [hp, word_of_words (by simp)]
    simp [Payload.words, hblob, htwo, hfour]

/-- A field of an operand is found exactly if it lies within four bytes, and is the number that its bytes on the wire
spell, of the field's type. -/
theorem extract_operand {tag : UInt16} {body : List UInt8} {r : Record} (h : decode? tag body = some r) (o : Operand)
    (t : IntegerType) (order : ByteOrder) (offset : Nat) :
    t.extract order (r.operands o).toUInt64.toUInt32 offset =
      if offset + t.width ≤ 4 then some (t.ofBytes (wireNumber tag body r.dataLength o order offset t.width)) else none := by
  rw [IntegerType.extract_eq, toNat_operand h o order]
  split
  next hfits => rw [wireNumber_window hfits]
  · rfl

end Record
end EventTrace
