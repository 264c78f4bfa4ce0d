import EventTrace.Proofs.Record.Iteration
import EventTrace.Proofs.Record.Words
/-! Bodies of records, written and read. Main statement: what is written for a well-formed record is read as that record,
whatever follows it; what is read is well-formed and was written in front; and only a body that is too short is refused. -/
namespace EventTrace.Record

open Bytes

def payloadLength (tag info : UInt16) : Nat :=
  if tag = 1 then info.toNat % 0x8000 else if tag = 2 then 8 else if tag = 3 then 16 else 0

/-- The length of a blob is in the lower bits of the info, which is at byte ten. -/
def TooShort (tag : UInt16) (body : List UInt8) : Prop :=
  body.length < 12 ∨ tag = 1 ∧ body.length < 12 + ofLittle ((body.drop 10).take 2) % 0x8000 ∨
    tag = 2 ∧ body.length < 20 ∨ tag = 3 ∧ body.length < 28

section
variable {tag info : UInt16} {bytes body x : List UInt8} {p : Payload} {r : Record}

theorem wordAt_zero (w : UInt32) (bytes : List UInt8) : wordAt (little 4 w.toNat ++ bytes) 0 = w := by
  rw [wordAt, Nat.mul_zero, List.drop_zero, List.take_left' (length_little ..), ofLittle_little_of_lt w.toNat_lt,
    UInt32.ofNat_toNat]

theorem wordAt_succ (w : UInt32) (bytes : List UInt8) (i : Nat) :
    wordAt (little 4 w.toNat ++ bytes) (i + 1) = wordAt bytes i := by
  have hskip : 4 * (i + 1) = (little 4 w.toNat).length + 4 * i := by
    rw [length_little]
    omega
  rw [wordAt, wordAt, hskip, List.drop_length_add_append]

/-- A word is written as the four bytes that it was read from. -/
theorem little_wordAt {i : Nat} (h : 4 * i + 4 ≤ bytes.length) :
    little 4 (wordAt bytes i).toNat = (bytes.drop (4 * i)).take 4 := by
  have hlength : ((bytes.drop (4 * i)).take 4).length = 4 := by
    rw [List.length_take, List.length_drop]
    omega
  have hback := little_ofLittle ((bytes.drop (4 * i)).take 4)
  rwa [hlength, ← toNat_wordAt] at hback

theorem flatMap_wordAt {n : Nat} (h : 4 * n ≤ bytes.length) :
    ((List.range n).map (wordAt bytes)).flatMap (fun w => little 4 w.toNat) = bytes.take (4 * n) := by
  induction n with
  | zero => simp
  | succ n ih =>
    rw [List.range_succ, List.map_append, List.flatMap_append, ih (by omega), List.map_singleton, List.flatMap_singleton,
      little_wordAt (by omega), ← List.take_add]
    rfl

/-- A payload is refused exactly if it is not there as a whole. -/
theorem decodePayload?_eq_none_iff : decodePayload? tag info bytes = none ↔ bytes.length < payloadLength tag info := by
  unfold decodePayload? payloadLength
  split
  · simp
  · split
    · simp
    · split
      · simp
      · simp

theorem decodePayload?_encodePayload (h : r.WellFormed) (x : List UInt8) :
    decodePayload? r.payload.tag r.info (encodePayload r.payload ++ x) = some r.payload := by
  obtain ⟨ticks, id, info, payload⟩ := r
  cases payload with
  | blob data =>
    have hlength : data.length = info.toNat % 0x8000 := h
    simp [decodePayload?, Payload.tag, encodePayload, ← hlength]
  | two a b =>
    simp [decodePayload?, Payload.tag, encodePayload, Payload.words, wordAt_zero, wordAt_succ]
    omega
  | four a b c d =>
    simp [decodePayload?, Payload.tag, encodePayload, Payload.words, wordAt_zero, wordAt_succ]
    omega
  | other tag =>
    obtain ⟨hblob, htwo, hfour⟩ : tag ≠ 1 ∧ tag ≠ 2 ∧ tag ≠ 3 := h
    simp [decodePayload?, Payload.tag, hblob, htwo, hfour]

/-- What is read as a payload is well-formed, and is what would be written for it. -/
theorem of_decodePayload? (h : decodePayload? tag r.info bytes = some r.payload) :
    r.WellFormed ∧ r.payload.tag = tag ∧ encodePayload r.payload = bytes.take (payloadLength tag r.info) := by
  have hlength : payloadLength tag r.info ≤ bytes.length := by
    refine Nat.not_lt.mp fun hlt => ?_
    rw [decodePayload?_eq_none_iff.mpr hlt] at h
    cases h
  obtain ⟨ticks, id, info, payload⟩ := r
  dsimp only at h hlength ⊢
  obtain ⟨rfl, rfl⟩ | ⟨rfl, rfl⟩ | ⟨rfl, rfl⟩ | ⟨hother, rfl⟩ := decodePayload?_cases h
  · exact ⟨List.length_take_of_le hlength, rfl, rfl⟩
  · exact ⟨trivial, rfl, flatMap_wordAt (n := 2) hlength⟩
  · exact ⟨trivial, rfl, flatMap_wordAt (n := 4) hlength⟩
  · exact ⟨hother, rfl, by simp [encodePayload, payloadLength, hother]⟩

def header (r : Record) : List UInt8 := little 8 r.ticks.toNat ++ (little 2 r.id.toNat ++ little 2 r.info.toNat)

@[simp] theorem length_header (r : Record) : r.header.length = 12 := by simp [header]

theorem encode_eq (r : Record) : r.encode = r.header ++ encodePayload r.payload := by simp [encode, header]

/-- A header is read back, whatever follows it. -/
theorem decode?_header (r : Record) (tag : UInt16) (bytes : List UInt8) :
    decode? tag (r.header ++ bytes) =
      (decodePayload? tag r.info bytes).map fun payload => { r with payload := payload } := by
  have hticks : (r.header ++ bytes).take 8 = little 8 r.ticks.toNat := by
    rw [header, List.append_assoc, List.take_left' (length_little ..)]
  have hid : ((r.header ++ bytes).drop 8).take 2 = little 2 r.id.toNat := by
    rw [header, List.append_assoc, List.drop_left' (length_little ..), List.append_assoc,
      List.take_left' (length_little ..)]
  have hinfo : ((r.header ++ bytes).drop 10).take 2 = little 2 r.info.toNat := by
    have hskip : (little 8 r.ticks.toNat ++ little 2 r.id.toNat).length = 10 := by simp
    rw [header, ← List.append_assoc, List.append_assoc, List.drop_left' hskip, List.take_left' (length_little ..)]
  have hpayload : (r.header ++ bytes).drop 12 = bytes := List.drop_left' r.length_header
  have hlength : ¬(r.header ++ bytes).length < headerLength := by
    rw [List.length_append, length_header, headerLength]
    omega
  have hticks' : ofLittle (little 8 r.ticks.toNat) = r.ticks.toNat := ofLittle_little_of_lt r.ticks.toNat_lt
  have hid' : ofLittle (little 2 r.id.toNat) = r.id.toNat := ofLittle_little_of_lt r.id.toNat_lt
  have hinfo' : ofLittle (little 2 r.info.toNat) = r.info.toNat := ofLittle_little_of_lt r.info.toNat_lt
  rw [decode?, if_neg hlength, hticks, hid, hinfo, headerLength, hpayload, hticks', hid', hinfo', UInt64.ofNat_toNat,
    UInt16.ofNat_toNat, UInt16.ofNat_toNat]

/-- Twelve bytes are the header of a record. -/
theorem exists_header (h : 12 ≤ body.length) :
    ∃ r : Record, body = r.header ++ body.drop 12 ∧ r.info.toNat = ofLittle ((body.drop 10).take 2) := by
  obtain ⟨ticks, hticks, hbody, -⟩ := exists_little body 8 (by omega)
  obtain ⟨id, hid, hrest, -⟩ := exists_little (body.drop 8) 2 (by rw [List.length_drop]; omega)
  obtain ⟨info, hinfo, hlast, hread⟩ := exists_little (body.drop 10) 2 (by rw [List.length_drop]; omega)
  rw [List.drop_drop] at hrest hlast
  have hinfoNat : (UInt16.ofNat info).toNat = info := UInt16.toNat_ofNat_of_lt hinfo
  refine ⟨⟨.ofNat ticks, .ofNat id, .ofNat info, .other 0⟩, ?_, hinfoNat.trans hread.symm⟩
  have hticksNat : (UInt64.ofNat ticks).toNat = ticks := UInt64.toNat_ofNat_of_lt hticks
  have hidNat : (UInt16.ofNat id).toNat = id := UInt16.toNat_ofNat_of_lt hid
  calc body
    _ = little 8 ticks ++ (little 2 id ++ (little 2 info ++ body.drop 12)) := by
      rw [← hlast, ← hrest, ← hbody]
    _ = _ := by
      rw [header, hticksNat, hidNat, hinfoNat, List.append_assoc, List.append_assoc]

theorem decode?_encode (h : r.WellFormed) (x : List UInt8) : decode? r.payload.tag (r.encode ++ x) = some r := by
  rw [encode_eq, List.append_assoc, decode?_header, decodePayload?_encodePayload h]
  rfl

theorem decode?_eq_none_iff : decode? tag body = none ↔ TooShort tag body := by
  by_cases h : body.length < 12
  · have hnone : decode? tag body = none := by rw [decode?, headerLength, if_pos h]
    exact iff_of_true hnone (.inl h)
  · obtain ⟨s, hbody, hinfo⟩ := exists_header (Nat.not_lt.mp h)
    have hdecode := decode?_header s tag (body.drop 12)
    rw [← hbody] at hdecode
    rw [hdecode, Option.map_eq_none_iff, decodePayload?_eq_none_iff, payloadLength, List.length_drop, hinfo, TooShort]
    by_cases hblob : tag = 1
    · subst hblob
      simp
      omega
    by_cases htwo : tag = 2
    · subst htwo
      simp
      omega
    by_cases hfour : tag = 3
    · subst hfour
      simp
      omega
    · simp [hblob, htwo, hfour, Nat.not_lt.mp h]

theorem of_decode? (h : decode? tag body = some r) : r.WellFormed ∧ r.payload.tag = tag ∧ r.encode <+: body := by
  have hlength : 12 ≤ body.length := by
    refine Nat.not_lt.mp fun hlt => ?_
    rw [decode?_eq_none_iff.mpr (.inl hlt)] at h
    cases h
  obtain ⟨s, hbody, -⟩ := exists_header hlength
  rw [hbody, decode?_header] at h
  obtain ⟨payload, hpayload, rfl⟩ := Option.map_eq_some_iff.mp h
  obtain ⟨hwell, htag, hbytes⟩ := of_decodePayload? (r := { s with payload }) hpayload
  refine ⟨hwell, htag, ?_⟩
  rw [encode_eq, hbytes, hbody]
  exact (List.prefix_append_right_inj s.header).mpr (List.take_prefix ..)

end

/-- What is written for a well-formed record is read as that record, whatever follows it. What is read is well-formed,
has the tag that was given and was written in front of the body. Only a body that is too short is refused, and the
reader answers no other fault to a whole frame than the end of the stream. -/
theorem body_round_trips :
    (∀ (r : Record) (x : List UInt8), r.WellFormed → decode? r.payload.tag (r.encode ++ x) = some r) ∧
    ∀ (tag : UInt16) (body : List UInt8),
      (∀ r, decode? tag body = some r → r.WellFormed ∧ r.payload.tag = tag ∧ r.encode <+: body) ∧
      (decode? tag body = none ↔ TooShort tag body) ∧
      ∀ (reader : Reader) (fits : body.length ≤ 65535) (rest : List UInt8),
        reader.feed.pending = (Frame.mk tag body fits).bytes ++ rest →
          (∀ r, reader.read.1.2 = .ok r ↔ decode? tag body = some r) ∧
          ∀ fault, reader.read.1.2 = .error fault ↔ fault = .endOfStream ∧ TooShort tag body := by
  refine ⟨fun r x h => decode?_encode h x, fun tag body => ⟨fun r h => of_decode? h, decode?_eq_none_iff, ?_⟩⟩
  intro reader fits rest hpending
  have hread := (Reader.read_frame hpending).1
  rw [hread, Frame.answer, Frame.record?, ← decode?_eq_none_iff]
  cases decode? tag body with
  | none => simp [eq_comm]
  | some r => simp

/-- A blob of three bytes that an interrupt recorded, with two bytes behind it; and the body without its last byte. -/
theorem body_round_trips_of_interrupt :
    let r : Record := ⟨0x0102030405060708, 0x6010, 0x8003, .blob [1, 2, 255]⟩
    let cut : Frame := ⟨1, r.encode.dropLast, by decide⟩
    let reader : Reader := { feed := { pending := cut.bytes ++ [7], chunk := 5 } }
    r.WellFormed ∧ decode? 1 (r.encode ++ [0, 9]) = some r ∧ decode? 1 cut.body = none ∧
      reader.read.1.2 = .error .endOfStream := by
  intro r cut reader
  have hwell : r.WellFormed := (by decide : 3 = r.dataLength)
  obtain ⟨hback, hread⟩ := body_round_trips
  have hshort : TooShort 1 cut.body := .inr (.inl (by decide))
  obtain ⟨-, hnone, hreader⟩ := hread 1 cut.body
  exact ⟨hwell, hback r [0, 9] hwell, hnone.mpr hshort, ((hreader reader cut.fits [7] rfl).2 _).mpr ⟨rfl, hshort⟩⟩

end EventTrace.Record
