import HoneNode.Env
import HoneNode.Lib.Word

/-!
# Blocks.Header — blocks and their bytes

A block is a header of 180 bytes, the length of its payload in four bytes, and the
payload as JSON. Whatever is written reads back, unless the payload does not fit its
length field (`headerOf_toBytes`).
-/

namespace HoneNode.Blocks

/-! ## The header -/

abbrev Hash := { b : Bytes // b.length = 32 }

/-- `ZERO_HASH`. -/
def zeroHash : Hash := ⟨List.replicate 32 0, List.length_replicate⟩

/-- `try_into().ok()` of a slice. -/
def toHash (b : Bytes) : Option Hash := if h : b.length = 32 then some ⟨b, h⟩ else none

theorem toHash_val (h : Hash) : toHash h.1 = some h := dif_pos h.2

/-- A node whose SHA-256 has digests of 32 bytes. -/
structure Node extends Env where
  length_sha256 : ∀ b, (toEnv.sha256 b).length = 32

/-- `Sha256::digest`. -/
def Node.digest (node : Node) (b : Bytes) : Hash := ⟨node.sha256 b, node.length_sha256 b⟩

/-- No input among the first collides with another one among the second. -/
def Node.CollisionFree (node : Node) (xs ys : List Bytes) : Prop :=
  ∀ x ∈ xs, ∀ y ∈ ys, node.digest x = node.digest y → x = y

structure BlockHeader where
  version : UInt32
  (previousBlockHash merkleRootTransactions merkleRootComputeProofs stateRoot : Hash)
  timestamp : UInt64
  (epochNumber difficulty : UInt32)
  minerId : Hash
deriving DecidableEq

namespace BlockHeader

/-- `BlockHeader::new`, where the time is set by the caller. -/
def new (epochNumber : UInt32) (previousBlockHash minerId : Hash) (now : UInt64) : BlockHeader where
  version := 1
  previousBlockHash := previousBlockHash
  merkleRootTransactions := zeroHash
  merkleRootComputeProofs := zeroHash
  stateRoot := zeroHash
  timestamp := now
  epochNumber := epochNumber
  difficulty := 1
  minerId := minerId

variable (h : BlockHeader)

def serialize : Bytes :=
  leBytes 4 h.version.toNat ++ (h.previousBlockHash.1 ++ (h.merkleRootTransactions.1 ++
    (h.merkleRootComputeProofs.1 ++ (h.stateRoot.1 ++ (leBytes 8 h.timestamp.toNat ++
      (leBytes 4 h.epochNumber.toNat ++ (leBytes 4 h.difficulty.toNat ++
        h.minerId.1)))))))

def deserialize (buf : Bytes) : Option BlockHeader := do
  guard (180 ≤ buf.length)
  return {
    version := .ofNat (Text.leNat (Text.slice 0 4 buf))
    previousBlockHash := ← toHash (Text.slice 4 36 buf)
    merkleRootTransactions := ← toHash (Text.slice 36 68 buf)
    merkleRootComputeProofs := ← toHash (Text.slice 68 100 buf)
    stateRoot := ← toHash (Text.slice 100 132 buf)
    timestamp := .ofNat (Text.leNat (Text.slice 132 140 buf))
    epochNumber := .ofNat (Text.leNat (Text.slice 140 144 buf))
    difficulty := .ofNat (Text.leNat (Text.slice 144 148 buf))
    minerId := ← toHash (Text.slice 148 180 buf) }

def hash (node : Node) : Hash := node.digest h.serialize

def hashHex (node : Node) : String := hexEncode (h.hash node).1

theorem length_serialize : h.serialize.length = 180 := by
  unfold serialize
  simp only [List.length_append, Text.length_leBytes, h.previousBlockHash.2,
    h.merkleRootTransactions.2, h.merkleRootComputeProofs.2, h.stateRoot.2, h.minerId.2]

theorem word32 (x : UInt32) : UInt32.ofNat (Text.leNat (leBytes 4 x.toNat)) = x := by
  rw [Text.leNat_leBytes_of_lt x.toNat_lt, UInt32.ofNat_toNat]

theorem word64 (x : UInt64) : UInt64.ofNat (Text.leNat (leBytes 8 x.toNat)) = x := by
  rw [Text.leNat_leBytes_of_lt x.toNat_lt, UInt64.ofNat_toNat]

theorem deserialize_serialize : deserialize h.serialize = some h := by
  have hlen : 180 ≤ h.serialize.length := h.length_serialize.ge
  unfold deserialize
  rw [(Option.guard_eq_some' ()).2 hlen]
  unfold serialize
  simp only [Text.slice_append, Text.slice_zero_append, Text.slice_zero_self, Text.length_leBytes,
    h.previousBlockHash.2, h.merkleRootTransactions.2, h.merkleRootComputeProofs.2, h.stateRoot.2,
    h.minerId.2, Nat.reduceLeDiff, Nat.reduceSub, toHash_val, word32, word64]
  rfl

end BlockHeader

/-! ## The block -/

/-- The JSON texts of payloads: an object is read as a whole, and cut short it is none. -/
structure PayloadJson (α : Type) where
  print : α → Bytes
  isJson : Bytes → Bool
  isJson_print : ∀ p, isJson (print p) = true
  isJson_take : ∀ p n, n < (print p).length → isJson ((print p).take n) = false

/-- Every payload as the empty object. -/
def PayloadJson.empty (α : Type) : PayloadJson α where
  print _ := Text.bytes "\x7b\x7d"
  isJson b := b = Text.bytes "\x7b\x7d"
  isJson_print _ := decide_eq_true rfl
  isJson_take _ n h := by
    refine decide_eq_false fun heq => ?_
    have hlen := congrArg List.length heq
    rw [List.length_take, Nat.min_eq_left h.le] at hlen
    exact absurd hlen h.ne

structure Block (α : Type) where
  header : BlockHeader
  payload : α

/-! ### The parts of a written block -/

section Framed

variable (h : BlockHeader) (payload : Bytes)

theorem length_framed :
    (h.serialize ++ (leBytes 4 payload.length ++ payload)).length = 184 + payload.length := by
  rw [List.length_append, List.length_append, h.length_serialize, Text.length_leBytes,
    ← Nat.add_assoc]

theorem slice_header :
    Text.slice 0 180 (h.serialize ++ (leBytes 4 payload.length ++ payload)) = h.serialize :=
  Text.slice_zero_append h.length_serialize

theorem slice_length :
    Text.slice 180 184 (h.serialize ++ (leBytes 4 payload.length ++ payload)) =
      leBytes 4 payload.length := by
  rw [Text.slice_append h.length_serialize.le, h.length_serialize]
  exact Text.slice_zero_append (Text.length_leBytes ..)

theorem slice_payload (n : ℕ) :
    Text.slice 184 (184 + n) (h.serialize ++ (leBytes 4 payload.length ++ payload)) =
      payload.take n := by
  rw [Text.slice_append (h.length_serialize.le.trans (by decide)), h.length_serialize,
    Text.slice_append (Text.length_leBytes ..).le, Text.length_leBytes]
  have hend : 184 + n - 180 - 4 = n := by omega
  rw [hend]
  exact congrArg (fun k => payload.take k) (Nat.sub_zero n)

end Framed

section Block

variable {α : Type} (json : PayloadJson α)

def Block.toBytes (b : Block α) : Bytes :=
  let payload := json.print b.payload
  b.header.serialize ++ (leBytes 4 payload.length ++ payload)

/-- `Block::from_bytes`, of whose result only the header is ever read. -/
def headerOf (data : Bytes) : Option BlockHeader := do
  guard (184 ≤ data.length)
  let header ← BlockHeader.deserialize (Text.slice 0 180 data)
  let len := Text.leNat (Text.slice 180 184 data)
  guard (184 + len ≤ data.length)
  guard (json.isJson (Text.slice 184 (184 + len) data))
  return header

/-- A written block reads back exactly if its payload fits the length field. -/
theorem headerOf_toBytes (b : Block α) : headerOf json (b.toBytes json) =
    if (json.print b.payload).length < 2 ^ 32 then some b.header else none := by
  have hbuf : (b.toBytes json).length = 184 + (json.print b.payload).length := length_framed ..
  have hread : Text.slice 0 180 (b.toBytes json) = b.header.serialize := slice_header ..
  have hlen : Text.slice 180 184 (b.toBytes json) =
      leBytes 4 (json.print b.payload).length := slice_length ..
  have hpayload : ∀ n, Text.slice 184 (184 + n) (b.toBytes json) =
      (json.print b.payload).take n := slice_payload b.header (json.print b.payload)
  unfold headerOf
  rw [(Option.guard_eq_some' ()).2 (hbuf.ge.trans' (Nat.le_add_right _ _)), hread,
    BlockHeader.deserialize_serialize, hlen, Text.leNat_leBytes]
  dsimp only [Option.bind_eq_bind, Option.bind_some]
  rw [hpayload, hbuf, (Option.guard_eq_some' ()).2 (Nat.add_le_add_left (Nat.mod_le _ _) _)]
  dsimp only [Option.bind_some]
  by_cases hfit : (json.print b.payload).length < 2 ^ 32
  · have hall : (json.print b.payload).length % 256 ^ 4 = (json.print b.payload).length :=
      Nat.mod_eq_of_lt hfit
    rw [if_pos hfit, hall, List.take_length, json.isJson_print]
    rfl
  · -- the length field holds less than the payload, which is cut short
    have hcut : (json.print b.payload).length % 256 ^ 4 < (json.print b.payload).length :=
      (Nat.mod_lt _ (by decide)).trans_le (Nat.not_lt.1 hfit)
    rw [if_neg hfit, json.isJson_take _ _ hcut]
    rfl

end Block

end HoneNode.Blocks
