import HoneNode.Lib.Text

/-!
# Lib.Utf8 — bytes read as text

Bytes that are UTF-8 read as the text they encode. The lossy reading puts U+FFFD for each
longest beginning of a character that does not go on as it has to.
-/

namespace Text

def fromUtf8 (bs : List UInt8) : Option String := String.fromUTF8? ⟨bs.toArray⟩

/-- What is written reads back. -/
theorem fromUtf8_bytes (s : String) : fromUtf8 (bytes s) = some s := by
  have hvalid : s.toUTF8.IsValidUTF8 := s.isValidUTF8
  have hbytes : (⟨(bytes s).toArray⟩ : ByteArray) = s.toUTF8 := by
    rw [bytes, Array.toArray_toList]
  rw [fromUtf8, hbytes, String.fromUTF8?, dif_pos hvalid]
  exact congrArg some (String.toByteArray_inj.1 rfl)

/-! ## Lossy reading -/

/-- The length of a character by its first byte, and the range of the second. -/
def leadByte (b : UInt8) : Option (ℕ × UInt8 × UInt8) :=
  if 0xC2 ≤ b ∧ b ≤ 0xDF then some (2, 0x80, 0xBF)
  else if b = 0xE0 then some (3, 0xA0, 0xBF)
  else if b = 0xED then some (3, 0x80, 0x9F)
  else if 0xE1 ≤ b ∧ b ≤ 0xEF then some (3, 0x80, 0xBF)
  else if b = 0xF0 then some (4, 0x90, 0xBF)
  else if 0xF1 ≤ b ∧ b ≤ 0xF3 then some (4, 0x80, 0xBF)
  else if b = 0xF4 then some (4, 0x80, 0x8F)
  else none

def replacement : Char := Char.ofNat 0xFFFD

/-- So many bytes more, from 0x80 to 0xBF. -/
def readTail : ℕ → ℕ → List UInt8 → Char × List UInt8
  | 0, acc, rest => (Char.ofNat acc, rest)
  | _ + 1, _, [] => (replacement, [])
  | n + 1, acc, b :: rest =>
    if 0x80 ≤ b ∧ b ≤ 0xBF then readTail n (acc * 64 + (b &&& 0x3F).toNat) rest
    else (replacement, b :: rest)

def readChar (b0 : UInt8) (rest : List UInt8) : Char × List UInt8 :=
  if b0 < 0x80 then (Char.ofNat b0.toNat, rest)
  else match leadByte b0, rest with
    | none, _ => (replacement, rest)
    | some _, [] => (replacement, [])
    | some (width, low, high), b1 :: rest1 =>
      if low ≤ b1 ∧ b1 ≤ high then
        -- a lead byte has seven bits less one for each byte of the character
        readTail (width - 2) (b0.toNat % 2 ^ (7 - width) * 64 + (b1 &&& 0x3F).toNat) rest1
      else (replacement, rest)

theorem length_readTail (n acc : ℕ) (rest : List UInt8) :
    (readTail n acc rest).2.length ≤ rest.length := by
  induction rest generalizing n acc with
  | nil => cases n <;> exact le_rfl
  | cons b rest ih =>
    cases n with
    | zero => exact le_rfl
    | succ n =>
      rw [readTail]
      split
      · exact Nat.le_succ_of_le (ih _ _)
      · exact le_rfl

theorem length_readChar (b0 : UInt8) (rest : List UInt8) :
    (readChar b0 rest).2.length ≤ rest.length := by
  unfold readChar
  split
  · exact le_rfl
  · split
    · exact le_rfl
    · exact le_rfl
    · split
      · exact Nat.le_succ_of_le (length_readTail _ _ _)
      · exact le_rfl

def lossyChars : List UInt8 → List Char
  | [] => []
  | b0 :: rest =>
    have _hle := length_readChar b0 rest
    (readChar b0 rest).1 :: lossyChars (readChar b0 rest).2
termination_by bs => bs.length
decreasing_by exact Nat.lt_succ_of_le _hle

/-- `String::from_utf8_lossy`, which leaves valid text as it is. -/
def fromUtf8Lossy (bs : List UInt8) : String :=
  match fromUtf8 bs with
  | some s => s
  | none => String.ofList (lossyChars bs)

theorem fromUtf8Lossy_bytes (s : String) : fromUtf8Lossy (bytes s) = s := by
  rw [fromUtf8Lossy, fromUtf8_bytes]

end Text
