import HoneNode.Lib.Bits
import HoneNode.Lib.Text

/-!
# Base32 — the text of a second-factor secret

`base32_encode` and `base32_decode` shift a 32-bit accumulator that neither of them
clears. Only its low bits count: with what is already written they are the bits read
so far.
-/

namespace HoneNode

namespace Base32

open Bits

/-! ## The two directions -/

/-- `ALPHABET`, as bytes. -/
def alphabet : List UInt8 :=
  "ABCDEFGHIJKLMNOPQRSTUVWXYZ234567".toList.map fun c => UInt8.ofNat c.toNat

/-- `bits << k` on a `u32`. -/
def shl (bits k : ℕ) : ℕ := (bits <<< k) % 2 ^ 32

/-- `str::to_uppercase`; `upper` is its table for the characters outside ASCII. -/
def toUppercase (upper : Char → List Char) (s : String) : String :=
  String.ofList (s.toList.flatMap fun c => if c.toNat < 128 then [c.toUpper] else upper c)

/-- The loop of `base32_decode`. -/
def decodeLoop (bits bitCount : ℕ) : List UInt8 → Option (List UInt8)
  | [] => some []
  | ch :: rest => do
    let val ← alphabet.findIdx? (· == ch)
    let bits := shl bits 5 ||| val
    let bitCount := bitCount + 5
    if 8 ≤ bitCount then
      let bitCount := bitCount - 8
      let out ← decodeLoop bits bitCount rest
      some (UInt8.ofNat (bits >>> bitCount) :: out)
    else decodeLoop bits bitCount rest

def base32Decode (upper : Char → List Char) (s : String) : Option (List UInt8) :=
  let s := String.ofList ((toUppercase upper s).toList.filter (· ≠ '='))
  decodeLoop 0 0 (Text.bytes s)

/-- `while bit_count >= 5`: the digits taken out, and the `bit_count` left. -/
def takeDigits (bits : ℕ) : ℕ → List ℕ × ℕ
  | bitCount + 5 =>
    let (digits, left) := takeDigits bits bitCount
    ((bits >>> bitCount &&& 0x1f) :: digits, left)
  | bitCount => ([], bitCount)

/-- The loop of `base32_encode`, as places in the alphabet. -/
def encodeLoop (bits bitCount : ℕ) : List UInt8 → List ℕ
  | [] => if 0 < bitCount then [shl bits (5 - bitCount) &&& 0x1f] else []
  | byte :: rest =>
    let bits := shl bits 8 ||| byte.toNat
    let (digits, left) := takeDigits bits (bitCount + 8)
    digits ++ encodeLoop bits left rest

/-- `ALPHABET[digit] as char`. -/
def digitChar (digit : ℕ) : Char := Char.ofNat (alphabet.getD digit 0).toNat

def base32Encode (data : List UInt8) : String :=
  String.ofList ((encodeLoop 0 0 data).map digitChar)

/-! ## Bits in the accumulator -/

section Accumulator

variable {bits bitCount k v : ℕ}

theorem lowBits_shl_or (hw : bitCount + k ≤ 32) (hv : v < 2 ^ k) :
    lowBits (bitCount + k) (shl bits k ||| v) = lowBits bitCount bits ++ lowBits k v := by
  rw [← lowBits_shiftLeft_or hv]
  refine lowBits_congr fun i hi => ?_
  rw [shl, Nat.testBit_or, Nat.testBit_or, Nat.testBit_mod_two_pow,
    decide_eq_true (hi.trans_le hw), Bool.true_and]

theorem lowBits_and_mask (n : ℕ) : lowBits 5 (n &&& 0x1f) = lowBits 5 n := by
  have hmask : n &&& (2 ^ 5 - 1) = n % 2 ^ 5 := Nat.and_two_pow_sub_one_eq_mod n 5
  rw [show (0x1f : ℕ) = 2 ^ 5 - 1 from rfl, hmask]
  exact lowBits_mod (le_refl 5)

theorem and_mask_lt (n : ℕ) : n &&& 0x1f < 32 := Nat.lt_succ_of_le Nat.and_le_right

variable (bits bitCount : ℕ)

/-- The digits taken out are the upper bits; what is left is shorter than a digit. -/
theorem takeDigits_bits : (takeDigits bits bitCount).1.flatMap (lowBits 5) ++
        lowBits (takeDigits bits bitCount).2 bits = lowBits bitCount bits ∧
      (takeDigits bits bitCount).2 < 5 ∧ ∀ digit ∈ (takeDigits bits bitCount).1, digit < 32 := by
  induction bitCount using Nat.strong_induction_on with
  | _ bitCount ih =>
    by_cases hlarge : 5 ≤ bitCount
    · obtain ⟨rest, rfl⟩ := Nat.exists_eq_add_of_le' hlarge
      obtain ⟨hbits, hleft, hdigits⟩ := ih rest (by omega)
      rw [takeDigits]
      refine ⟨?_, hleft, List.forall_mem_cons.2 ⟨and_mask_lt _, hdigits⟩⟩
      rw [List.flatMap_cons, lowBits_and_mask, List.append_assoc, hbits, Nat.add_comm rest,
        lowBits_add]
    · have hsmall : takeDigits bits bitCount = ([], bitCount) := by
        rw [takeDigits]
        rintro n rfl
        exact hlarge (Nat.le_add_left 5 n)
      rw [hsmall]
      exact ⟨List.nil_append _, Nat.lt_of_not_le hlarge, fun digit h => absurd h List.not_mem_nil⟩

/-- What the encoder writes for the bits it holds and the bytes to come, up to the
zeros that fill the last digit. -/
theorem encodeLoop_bits (data : List UInt8) (hcount : bitCount < 5) :
    (∃ zeros : List Bool, zeros.length < 5 ∧ (encodeLoop bits bitCount data).flatMap (lowBits 5) =
      lowBits bitCount bits ++ data.flatMap byteBits ++ zeros) ∧
      ∀ digit ∈ encodeLoop bits bitCount data, digit < 32 := by
  induction data generalizing bits bitCount with
  | nil =>
    rw [encodeLoop, List.flatMap_nil, List.append_nil]
    by_cases hpos : 0 < bitCount
    · rw [if_pos hpos]
      have hfill : bitCount + (5 - bitCount) = 5 := Nat.add_sub_cancel' (Nat.le_of_lt hcount)
      have hlast : lowBits 5 (shl bits (5 - bitCount)) =
          lowBits bitCount bits ++ lowBits (5 - bitCount) 0 := by
        have hzero : lowBits (bitCount + (5 - bitCount)) (shl bits (5 - bitCount) ||| 0) =
            lowBits bitCount bits ++ lowBits (5 - bitCount) 0 :=
          lowBits_shl_or (by omega) (Nat.two_pow_pos (5 - bitCount))
        rwa [Nat.or_zero, hfill] at hzero
      refine ⟨⟨lowBits (5 - bitCount) 0, ?_, ?_⟩, ?_⟩
      · rw [length_lowBits]
        omega
      · rw [List.flatMap_singleton, lowBits_and_mask, hlast]
      · exact List.forall_mem_singleton.2 (and_mask_lt _)
    · rw [if_neg hpos, Nat.eq_zero_of_not_pos hpos]
      exact ⟨⟨[], Nat.succ_pos 4, rfl⟩, fun digit h => absurd h List.not_mem_nil⟩
  | cons byte rest ih =>
    rw [encodeLoop]
    obtain ⟨hbits, hleft, hdigits⟩ := takeDigits_bits (shl bits 8 ||| byte.toNat) (bitCount + 8)
    obtain ⟨⟨zeros, hshort, hrest⟩, hlater⟩ :=
      ih (shl bits 8 ||| byte.toNat) (takeDigits (shl bits 8 ||| byte.toNat) (bitCount + 8)).2 hleft
    have hpushed : lowBits (bitCount + 8) (shl bits 8 ||| byte.toNat) =
        lowBits bitCount bits ++ byteBits byte :=
      lowBits_shl_or (by omega) byte.toNat_lt
    refine ⟨⟨zeros, hshort, ?_⟩, ?_⟩
    · rw [List.flatMap_append, hrest, List.append_assoc, ← List.append_assoc, ← List.append_assoc,
        hbits, hpushed, List.flatMap_cons, List.append_assoc, List.append_assoc, List.append_assoc,
        List.append_assoc]
    · exact List.forall_mem_append.2 ⟨hdigits, hlater⟩

theorem findIdx?_alphabet {digit : ℕ} (h : digit < 32) :
    alphabet.findIdx? (· == alphabet.getD digit 0) = some digit := by
  have hall : ∀ i : Fin 32, alphabet.findIdx? (· == alphabet.getD i 0) = some i.val := by decide
  exact hall ⟨digit, h⟩

/-- What the decoder reads from the bits it holds and the digits to come, up to a
rest that fills no byte. -/
theorem decodeLoop_bits (digits : List ℕ) (hcount : bitCount < 8)
    (hdigits : ∀ digit ∈ digits, digit < 32) :
    ∃ out rest, decodeLoop bits bitCount (digits.map (alphabet.getD · 0)) = some out ∧
      rest.length < 8 ∧
      out.flatMap byteBits ++ rest = lowBits bitCount bits ++ digits.flatMap (lowBits 5) := by
  induction digits generalizing bits bitCount with
  | nil =>
    refine ⟨[], lowBits bitCount bits, rfl, ?_, ?_⟩
    · rw [length_lowBits]
      exact hcount
    · rw [List.flatMap_nil, List.flatMap_nil, List.nil_append, List.append_nil]
  | cons digit digits ih =>
    obtain ⟨hdigit, hrest⟩ := List.forall_mem_cons.1 hdigits
    have hpushed : lowBits (bitCount + 5) (shl bits 5 ||| digit) =
        lowBits bitCount bits ++ lowBits 5 digit :=
      lowBits_shl_or (by omega) hdigit
    rw [List.map_cons, decodeLoop, findIdx?_alphabet hdigit, Option.bind_eq_bind, Option.bind_some,
      List.flatMap_cons, ← List.append_assoc, ← hpushed]
    by_cases hfull : 8 ≤ bitCount + 5
    · obtain ⟨left, hleft⟩ := Nat.exists_eq_add_of_le' hfull
      obtain ⟨out, rest, hout, hshort, hrow⟩ :=
        ih (shl bits 5 ||| digit) left (by omega) hrest
      rw [if_pos hfull, hleft]
      dsimp only
      rw [Nat.add_sub_cancel, hout, Option.bind_eq_bind, Option.bind_some]
      refine ⟨_, rest, rfl, hshort, ?_⟩
      rw [List.flatMap_cons, byteBits_ofNat, List.append_assoc, hrow, ← List.append_assoc,
        Nat.add_comm left, lowBits_add]
    · rw [if_neg hfull]
      exact ih _ _ (Nat.lt_of_not_le hfull) hrest

end Accumulator

/-- The decoder reads back what the encoder's digits hold. -/
theorem decodeLoop_encodeLoop (data : List UInt8) :
    decodeLoop 0 0 ((encodeLoop 0 0 data).map (alphabet.getD · 0)) = some data := by
  obtain ⟨⟨zeros, hzeros, hwritten⟩, hdigits⟩ := encodeLoop_bits 0 0 data (Nat.succ_pos 4)
  obtain ⟨out, rest, hout, hrest, hread⟩ :=
    decodeLoop_bits 0 0 (encodeLoop 0 0 data) (Nat.succ_pos 7) hdigits
  rw [hwritten, lowBits, List.nil_append, List.nil_append] at hread
  have hsame : out = data :=
    flatMap_append_inj length_byteBits byteBits_injective hrest (by omega) hread
  rw [hout, hsame]

/-! ## The text -/

section Text

/-- `str::to_lowercase`; `lower` is its table for the characters outside ASCII. -/
def toLowercase (lower : Char → List Char) (s : String) : String :=
  String.ofList (s.toList.flatMap fun c => if c.toNat < 128 then [c.toLower] else lower c)

variable {digit : ℕ}

theorem bytes_ofList_cons (c : Char) (cs : List Char) :
    Text.bytes (String.ofList (c :: cs)) =
      Text.bytes (String.ofList [c]) ++ Text.bytes (String.ofList cs) := by
  rw [← Text.bytes_append, ← String.ofList_append, List.singleton_append]

theorem bytes_digitChar (h : digit < 32) :
    Text.bytes (String.ofList [digitChar digit]) = [alphabet.getD digit 0] := by
  have hall : ∀ i : Fin 32,
      Text.bytes (String.ofList [digitChar i]) = [alphabet.getD i 0] := by decide
  exact hall ⟨digit, h⟩

theorem bytes_digitChars {digits : List ℕ} (h : ∀ digit ∈ digits, digit < 32) :
    Text.bytes (String.ofList (digits.map digitChar)) = digits.map (alphabet.getD · 0) := by
  induction digits with
  | nil => rfl
  | cons digit digits ih =>
    obtain ⟨hdigit, hrest⟩ := List.forall_mem_cons.1 h
    rw [List.map_cons, bytes_ofList_cons, bytes_digitChar hdigit, ih hrest, List.map_cons,
      List.singleton_append]

/-- One character in ASCII, in the other case. -/
theorem digitChar_cases (h : digit < 32) :
    (digitChar digit).toNat < 128 ∧ (digitChar digit).toLower.toNat < 128 ∧
      (digitChar digit).toUpper = digitChar digit ∧
      (digitChar digit).toLower.toUpper = digitChar digit ∧ digitChar digit ≠ '=' := by
  have hall : ∀ i : Fin 32,
      (digitChar i).toNat < 128 ∧ (digitChar i).toLower.toNat < 128 ∧
        (digitChar i).toUpper = digitChar i ∧
        (digitChar i).toLower.toUpper = digitChar i ∧ digitChar i ≠ '=' := by decide
  exact hall ⟨digit, h⟩

/-- The characters that `base32_decode` looks up. -/
def lookedUp (upper : Char → List Char) (cs : List Char) : List Char :=
  (cs.flatMap fun c => if c.toNat < 128 then [c.toUpper] else upper c).filter (· ≠ '=')

variable (upper lower : Char → List Char)

theorem lookedUp_append (cs ds : List Char) :
    lookedUp upper (cs ++ ds) = lookedUp upper cs ++ lookedUp upper ds := by
  rw [lookedUp, List.flatMap_append, List.filter_append, lookedUp, lookedUp]

theorem lookedUp_padding (padding : ℕ) : lookedUp upper (List.replicate padding '=') = [] := by
  refine List.filter_eq_nil_iff.2 fun c hc => ?_
  obtain ⟨d, hd, hmem⟩ := List.mem_flatMap.1 hc
  rw [List.eq_of_mem_replicate hd, if_pos (by decide), List.mem_singleton] at hmem
  subst hmem
  decide

/-- Characters that are digits once they are in upper case. -/
theorem lookedUp_digits {digits : List ℕ} (h : ∀ digit ∈ digits, digit < 32) (f : ℕ → Char)
    (hf : ∀ digit < 32, (f digit).toNat < 128 ∧ (f digit).toUpper = digitChar digit) :
    lookedUp upper (digits.map f) = digits.map digitChar := by
  induction digits with
  | nil => rfl
  | cons digit digits ih =>
    obtain ⟨hdigit, hrest⟩ := List.forall_mem_cons.1 h
    obtain ⟨hascii, hupper⟩ := hf digit hdigit
    obtain ⟨-, -, -, -, hpad⟩ := digitChar_cases hdigit
    have hhead : lookedUp upper [f digit] = [digitChar digit] := by
      rw [lookedUp, List.flatMap_singleton, if_pos hascii, hupper, List.filter_singleton,
        decide_eq_true hpad, cond_true]
    rw [List.map_cons, ← List.singleton_append, lookedUp_append, hhead, ih hrest, List.map_cons,
      List.singleton_append]

/-- The text of the digits and of the padding, in lower case. -/
theorem toList_toLowercase {digits : List ℕ} (h : ∀ digit ∈ digits, digit < 32) (padding : ℕ) :
    (toLowercase lower
        (String.ofList (digits.map digitChar ++ List.replicate padding '='))).toList =
      digits.map (fun digit => (digitChar digit).toLower) ++ List.replicate padding '=' := by
  have hdigits : (digits.map digitChar).flatMap
      (fun c => if c.toNat < 128 then [c.toLower] else lower c) =
      digits.map fun digit => (digitChar digit).toLower := by
    rw [List.flatMap_map, ← List.flatMap_singleton' (digits.map _), List.flatMap_map]
    exact List.flatMap_congr fun digit hmem => if_pos (digitChar_cases (h digit hmem)).1
  have hpad : (List.replicate padding '=').flatMap
      (fun c => if c.toNat < 128 then [c.toLower] else lower c) = List.replicate padding '=' := by
    refine (List.flatMap_congr fun c hmem => ?_).trans (List.flatMap_singleton' _)
    rw [List.eq_of_mem_replicate hmem]
    exact if_pos (by decide)
  rw [toLowercase, String.toList_ofList, String.toList_ofList, List.flatMap_append, hdigits, hpad]

theorem base32Decode_of_lookedUp {data : List UInt8} {s : String}
    (h : lookedUp upper s.toList = (encodeLoop 0 0 data).map digitChar) :
    base32Decode upper s = some data := by
  obtain ⟨-, hdigits⟩ := encodeLoop_bits 0 0 data (Nat.succ_pos 4)
  have hfilter : (toUppercase upper s).toList.filter (· ≠ '=') = lookedUp upper s.toList := by
    rw [toUppercase, String.toList_ofList, lookedUp]
  rw [base32Decode, hfilter, h, bytes_digitChars hdigits]
  exact decodeLoop_encodeLoop data

/-- A secret survives its text, also in lower case and behind any padding. -/
theorem base32_roundTrip (data : List UInt8) (padding : ℕ) :
    base32Decode upper (base32Encode data) = some data ∧
    base32Decode upper (base32Encode data ++ String.ofList (List.replicate padding '=')) =
      some data ∧
    base32Decode upper (toLowercase lower (base32Encode data)) = some data ∧
    base32Decode upper
      (toLowercase lower (base32Encode data ++ String.ofList (List.replicate padding '='))) =
      some data := by
  obtain ⟨-, hdigits⟩ := encodeLoop_bits 0 0 data (Nat.succ_pos 4)
  have hplain : lookedUp upper ((encodeLoop 0 0 data).map digitChar) =
      (encodeLoop 0 0 data).map digitChar :=
    lookedUp_digits upper hdigits digitChar fun digit h =>
      ⟨(digitChar_cases h).1, (digitChar_cases h).2.2.1⟩
  have hlower : lookedUp upper ((encodeLoop 0 0 data).map fun digit => (digitChar digit).toLower) =
      (encodeLoop 0 0 data).map digitChar :=
    lookedUp_digits upper hdigits _ fun digit h =>
      ⟨(digitChar_cases h).2.1, (digitChar_cases h).2.2.2.1⟩
  have hpadded : ∀ cs, lookedUp upper (cs ++ List.replicate padding '=') = lookedUp upper cs := by
    intro cs
    rw [lookedUp_append, lookedUp_padding, List.append_nil]
  refine ⟨base32Decode_of_lookedUp upper ?_, base32Decode_of_lookedUp upper ?_,
    base32Decode_of_lookedUp upper ?_, base32Decode_of_lookedUp upper ?_⟩
  · rw [base32Encode, String.toList_ofList]
    exact hplain
  · rw [base32Encode, ← String.ofList_append, String.toList_ofList, hpadded]
    exact hplain
  · have hlow := toList_toLowercase lower hdigits 0
    rw [List.replicate_zero, List.append_nil, List.append_nil] at hlow
    rw [base32Encode, hlow]
    exact hlower
  · rw [base32Encode, ← String.ofList_append, toList_toLowercase lower hdigits padding, hpadded]
    exact hlower

end Text

end Base32

end HoneNode
