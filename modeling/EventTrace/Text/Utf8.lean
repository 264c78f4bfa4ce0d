/-! Reading UTF-8. Bytes that are no text are answered piece by piece: each ill-formed piece is as long as a
well-formed character can begin with. -/
namespace EventTrace.Text.Utf8

/-- What a first byte announces: how many bytes follow, the bounds of the first of them, and the bits that the first
byte contributes. The narrower bounds exclude overlong forms, surrogates and code points past the last. -/
structure Lead where
  count : Nat
  low : Nat
  high : Nat
  bits : Nat

def Lead.ofByte? (b : Nat) : Option Lead :=
  if b < 0x80 then some ⟨0, 0x80, 0xBF, b⟩
  else if b < 0xC2 then none
  else if b < 0xE0 then some ⟨1, 0x80, 0xBF, b - 0xC0⟩
  else if b = 0xE0 then some ⟨2, 0xA0, 0xBF, 0⟩
  else if b = 0xED then some ⟨2, 0x80, 0x9F, 13⟩
  else if b < 0xF0 then some ⟨2, 0x80, 0xBF, b - 0xE0⟩
  else if b = 0xF0 then some ⟨3, 0x90, 0xBF, 0⟩
  else if b < 0xF4 then some ⟨3, 0x80, 0xBF, b - 0xF0⟩
  else if b = 0xF4 then some ⟨3, 0x80, 0x8F, 4⟩
  else none

/-- Reads `count` continuation bytes, the first between `low` and `high`; stops before the first that does not fit. -/
def continuation : (count low high bits : Nat) → List UInt8 → Option Nat × List UInt8
  | 0, _, _, bits, bs => (some bits, bs)
  | _ + 1, _, _, _, [] => (none, [])
  | count + 1, low, high, bits, b :: bs =>
    if low ≤ b.toNat ∧ b.toNat ≤ high then
      continuation count 0x80 0xBF (64 * bits + (b.toNat - 0x80)) bs
    else (none, b :: bs)

theorem length_continuation_le (count low high bits : Nat) (bs : List UInt8) :
    (continuation count low high bits bs).2.length ≤ bs.length := by
  induction bs generalizing count low high bits with
  | nil => cases count <;> simp [continuation]
  | cons b bs ih =>
    cases count with
    | zero => simp [continuation]
    | succ count =>
      rw [continuation]
      split
      · exact Nat.le_succ_of_le (ih ..)
      · exact Nat.le_refl _

def piece (b : UInt8) (bs : List UInt8) : Option Char × List UInt8 :=
  match Lead.ofByte? b.toNat with
  | none => (none, bs)
  | some lead =>
    let (code, rest) := continuation lead.count lead.low lead.high lead.bits bs
    (code.map Char.ofNat, rest)

theorem length_piece_le (b : UInt8) (bs : List UInt8) : (piece b bs).2.length ≤ bs.length := by
  unfold piece
  split
  · exact Nat.le_refl _
  · exact length_continuation_le ..

def pieces : List UInt8 → List (Option Char)
  | [] => []
  | b :: bs => (piece b bs).1 :: pieces (piece b bs).2
termination_by bs => bs.length
decreasing_by exact Nat.lt_succ_of_le (length_piece_le b bs)

def decodeLossy (bs : List UInt8) : List Char := (pieces bs).map (·.getD '\uFFFD')

def decode? (bs : List UInt8) : Option (List Char) := (pieces bs).mapM id

end EventTrace.Text.Utf8
