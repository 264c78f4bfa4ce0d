/-! Text as the bytes of its encoding: one character after the other. A line break is one byte, and this byte is in no other
character. -/
namespace EventTrace.Text

theorem toList_loop (bytes : ByteArray) (i : Nat) (done : List UInt8) :
    ByteArray.toList.loop bytes i done = done.reverse ++ bytes.data.toList.drop i := by
  fun_induction ByteArray.toList.loop bytes i done with
  | case1 i done h ih =>
    have hi : i < bytes.data.toList.length := by simpa using h
    have hget : bytes.get! i = bytes.data.toList[i] := (getElem!_pos bytes.data i h).trans (by simp)
    rw [ih, List.drop_eq_getElem_cons hi, hget, List.reverse_cons, List.append_assoc, List.singleton_append]
  | case2 i done h =>
    have hi : bytes.data.toList.length ≤ i := by simpa using h
    rw [List.drop_eq_nil_of_le hi, List.append_nil]

theorem toList_eq (bytes : ByteArray) : bytes.toList = bytes.data.toList := toList_loop bytes 0 []

/-- The encodings of the characters one after the other. -/
theorem encoded_eq (s : String) : s.toUTF8.toList = s.toList.flatMap String.utf8EncodeChar := by
  have hs : s.toUTF8 = s.toList.utf8Encode := by
    rw [← String.toByteArray_ofList, String.ofList_toList]
    rfl
  rw [toList_eq, hs, List.utf8Encode]
  simp

theorem length_encoded (s : String) : s.toUTF8.toList.length = s.utf8ByteSize := by
  rw [toList_eq]
  rfl

theorem encoded_append (s t : String) : (s ++ t).toUTF8.toList = s.toUTF8.toList ++ t.toUTF8.toList := by
  rw [encoded_eq, encoded_eq, encoded_eq, String.toList_append, List.flatMap_append]

theorem encoded_empty : "".toUTF8.toList = [] := by rw [encoded_eq, String.toList_empty, List.flatMap_nil]

theorem encoded_newline : "\n".toUTF8.toList = [0x0A] := by
  rw [encoded_eq]
  rfl

theorem ofNat_eq_newline {n : Nat} (h : n < 256) : UInt8.ofNat n = 0x0A ↔ n = 10 := by
  rw [← UInt8.toNat_inj, UInt8.toNat_ofNat_of_lt' h]
  rfl

theorem count_newline_char (c : Char) : (String.utf8EncodeChar c).count 0x0A = [c].count '\n' := by
  have hchar : c = '\n' ↔ c.val.toNat = 10 := by
    rw [← Char.toNat_inj]
    rfl
  by_cases hsingle : c.val.toNat ≤ 127
  · have hencoded : String.utf8EncodeChar c = [UInt8.ofNat c.val.toNat] := by rw [String.utf8EncodeChar, if_pos hsingle]
    simp only [hencoded, List.count_singleton, beq_iff_eq, ofNat_eq_newline (Nat.lt_of_le_of_lt hsingle (by decide)), hchar]
  · have hmulti : 0x0A ∉ String.utf8EncodeChar c := by
      have hbyte {n : Nat} (h : n < 256) (hlarge : 128 ≤ n) : ¬0x0A = UInt8.ofNat n := by
        rw [eq_comm, ofNat_eq_newline h]
        omega
      rw [String.utf8EncodeChar, if_neg hsingle]
      split
      · simp only [List.mem_cons, List.not_mem_nil, or_false, not_or]
        exact ⟨hbyte (by omega) (by omega), hbyte (by omega) (by omega)⟩
      · split
        · simp only [List.mem_cons, List.not_mem_nil, or_false, not_or]
          exact ⟨hbyte (by omega) (by omega), hbyte (by omega) (by omega), hbyte (by omega) (by omega)⟩
        · simp only [List.mem_cons, List.not_mem_nil, or_false, not_or]
          exact ⟨hbyte (by omega) (by omega), hbyte (by omega) (by omega), hbyte (by omega) (by omega),
            hbyte (by omega) (by omega)⟩
    have hother : '\n' ∉ [c] := fun h => by
      have hc := hchar.mp (List.mem_singleton.mp h).symm
      omega
    rw [List.count_eq_zero_of_not_mem hmulti, List.count_eq_zero_of_not_mem hother]

/-- There are as many line breaks among the bytes as among the characters. -/
theorem count_newline_encoded (s : String) : s.toUTF8.toList.count 0x0A = s.toList.count '\n' := by
  rw [encoded_eq]
  induction s.toList with
  | nil => rfl
  | cons c cs ih => rw [List.flatMap_cons, List.count_append, ih, count_newline_char, ← List.count_append, List.singleton_append]

end EventTrace.Text
