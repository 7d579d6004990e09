import Mathlib.Data.Nat.Log
import HoneNode.Apply

/-!
# StorageProofs — what a storage challenge proves

The challenged chunk is drawn from the declared bytes, the credit is counted in the
chunks that the proof declares, and the path may have any length. The three belong
together only if the heartbeat says so.
-/

namespace HoneNode.StorageProofs

open Entry Prog Within

/-! ## What is verified -/

/-- The whole chunks that a number of bytes takes. -/
def chunksOf (bytes : ℕ) : ℕ := (bytes + (storageChunkBytes - 1)) / storageChunkBytes

/-- The chunks that the challenged index is drawn from. -/
def drawnFrom (bytesProven : ℕ) : ℕ := satAdd bytesProven (storageChunkBytes - 1) / storageChunkBytes

/-- The index that a challenge draws from so many chunks. -/
def challengedIndex (env : Env) (prev nodeId : String) (epoch chunks : ℕ) : ℕ :=
  Text.beNat ((env.sha256 (Text.bytes s!"{prev}:{nodeId}:{epoch}")).take 8) % chunks

/-- The path of a proof leads from the leaf at an index to the root. -/
def Leads (env : Env) (proof : MerkleRangeProof) (idx : ℕ) : Prop :=
  ∃ leaf, decodeHex32 proof.leafHash = some leaf ∧
    (merkleWalk env idx leaf proof.proofNodes).map hexEncode = some proof.merkleRoot

section Verified

variable {env : Env} {s : Chain} {proof : MerkleRangeProof} {nodeId : String}
  {epoch bytesProven : ℕ}

/-- The chunks that a proof declares play no part in its verification. -/
theorem verify_totalChunks (totalChunks : ℕ) :
    verifyStorageProof env s { proof with totalChunks } nodeId epoch bytesProven =
      verifyStorageProof env s proof nodeId epoch bytesProven := by
  unfold verifyStorageProof
  cases s.stateGet .epochSealHash s!"{epoch - 1}" <;> rfl

theorem leads_of_verify (h : verifyStorageProof env s proof nodeId epoch bytesProven = true) :
    ∃ prev, s.stateGet .epochSealHash s!"{epoch - 1}" = some prev ∧ drawnFrom bytesProven ≠ 0 ∧
      proof.rangeStart =
        challengedIndex env prev nodeId epoch (drawnFrom bytesProven) * storageChunkBytes ∧
      Leads env proof (challengedIndex env prev nodeId epoch (drawnFrom bytesProven)) := by
  unfold verifyStorageProof at h
  cases hseal : s.stateGet .epochSealHash s!"{epoch - 1}" with
  | none =>
    rw [hseal] at h
    cases h
  | some prev =>
    rw [hseal] at h
    dsimp only at h
    rw [Bool.and_eq_true, Bool.and_eq_true, Bool.and_eq_true, Bool.and_eq_true,
      decide_eq_true_iff, decide_eq_true_iff, decide_eq_true_iff, decide_eq_true_iff] at h
    obtain ⟨⟨⟨⟨-, hchunks⟩, hstart⟩, -⟩, hwalk⟩ := h
    refine ⟨prev, rfl, hchunks, hstart, ?_⟩
    cases hleaf : decodeHex32 proof.leafHash with
    | none =>
      rw [hleaf] at hwalk
      cases hwalk
    | some leaf =>
      rw [hleaf] at hwalk
      exact ⟨leaf, hleaf, beq_iff_eq.1 hwalk⟩

end Verified

/-! ## What is recorded -/

section Recorded

variable {env : Env} {s : Chain} {p : StorageHeartbeat}

/-- Whether the heartbeat carries a proof that verifies. -/
def provenBy (env : Env) (s : Chain) (p : StorageHeartbeat) : Bool :=
  match p.challengeResponse with
  | some proof => verifyStorageProof env s proof p.nodeId p.epoch p.bytesProven
  | none => false

/-- What the heartbeat is stored as. -/
def beatOf (env : Env) (s : Chain) (p : StorageHeartbeat) : StorageBeat :=
  { nodeId := p.nodeId, epoch := p.epoch,
    bytesProven := if provenBy env s p then
      satMul ((p.challengeResponse.map (·.totalChunks)).getD 0) storageChunkBytes
      else p.bytesProven,
    queryCount := p.queryCount, proofValid := provenBy env s p, tier := p.tier.getD 1 }

def beatKey (p : StorageHeartbeat) : String := s!"{p.epoch}:{p.nodeId}"

theorem stateGet_applyStorageHeartbeat :
    ((applyStorageHeartbeat env p).run s).2.stateGet .storageBeat (beatKey p) =
      some (beatOf env s p) := by
  have hstate : provenBy env (s.withAccount p.nodeId p.epoch) p = provenBy env s p := by
    unfold provenBy verifyStorageProof
    rw [Chain.stateGet_withAccount]
  have hrun : ((applyStorageHeartbeat env p).run s).2 =
      (s.withAccount p.nodeId p.epoch).stateSet .storageBeat (beatKey p)
        (beatOf env (s.withAccount p.nodeId p.epoch) p) := by
    rw [applyStorageHeartbeat, run_ensureAccount_bind, run_inspect_bind]
    rfl
  rw [hrun, stateGet_stateSet, if_pos rfl, beatOf, hstate, ← beatOf]

/-! ## When the credit is what was challenged -/

/-- The credit, the path and the challenge range over the same chunks: the declared
bytes, rounded up. -/
structure Matches (env : Env) (s : Chain) (p : StorageHeartbeat) (proof : MerkleRangeProof)
    (beat : StorageBeat) : Prop where
  drawn : drawnFrom p.bytesProven = chunksOf p.bytesProven
  credit : beat.bytesProven = chunksOf p.bytesProven * storageChunkBytes
  depth : proof.proofNodes.length = Nat.clog 2 (chunksOf p.bytesProven)
  starts : ∃ prev, s.stateGet .epochSealHash s!"{p.epoch - 1}" = some prev ∧
    proof.rangeStart =
      challengedIndex env prev p.nodeId p.epoch (chunksOf p.bytesProven) * storageChunkBytes ∧
    Leads env proof (challengedIndex env prev p.nodeId p.epoch (chunksOf p.bytesProven))

/-- The rounding does not saturate. -/
theorem drawnFrom_eq_iff (bytes : ℕ) :
    drawnFrom bytes = chunksOf bytes ↔ bytes + (storageChunkBytes - 1) < 2 ^ 64 := by
  unfold drawnFrom chunksOf satAdd u64Max storageChunkBytes
  omega

/-- A credit that saturates is no whole number of chunks. -/
theorem satMul_eq_iff {total chunks : ℕ} (h : chunks * storageChunkBytes < 2 ^ 64) :
    satMul total storageChunkBytes = chunks * storageChunkBytes ↔ total = chunks := by
  unfold satMul u64Max storageChunkBytes at *
  omega

theorem beat_matches_iff {beat : StorageBeat}
    (hbeat : ((applyStorageHeartbeat env p).run s).2.stateGet .storageBeat (beatKey p) = some beat)
    (hvalid : beat.proofValid = true) :
    ∃ proof, p.challengeResponse = some proof ∧
      (Matches env s p proof beat ↔
        proof.totalChunks = chunksOf p.bytesProven ∧
        proof.proofNodes.length = Nat.clog 2 (chunksOf p.bytesProven) ∧
        p.bytesProven + (storageChunkBytes - 1) < 2 ^ 64) := by
  rw [stateGet_applyStorageHeartbeat, Option.some_inj] at hbeat
  subst hbeat
  have hproven : provenBy env s p = true := hvalid
  cases hresponse : p.challengeResponse with
  | none =>
    rw [provenBy, hresponse] at hproven
    cases hproven
  | some proof =>
    have hcredit : (beatOf env s p).bytesProven = satMul proof.totalChunks storageChunkBytes := by
      rw [beatOf, if_pos hproven, hresponse]
      rfl
    have hwhole : p.bytesProven + (storageChunkBytes - 1) < 2 ^ 64 →
        chunksOf p.bytesProven * storageChunkBytes < 2 ^ 64 :=
      (Nat.div_mul_le_self _ _).trans_lt
    refine ⟨proof, rfl, ?_, ?_⟩
    · intro h
      have hroom := (drawnFrom_eq_iff _).1 h.drawn
      have hcount := h.credit
      rw [hcredit, satMul_eq_iff (hwhole hroom)] at hcount
      exact ⟨hcount, h.depth, hroom⟩
    · rintro ⟨hcount, hdepth, hroom⟩
      have hdrawn := (drawnFrom_eq_iff _).2 hroom
      rw [provenBy, hresponse] at hproven
      obtain ⟨prev, hseal, -, hstart, hleads⟩ := leads_of_verify hproven
      rw [hdrawn] at hstart hleads
      refine ⟨hdrawn, ?_, hdepth, prev, hseal, hstart, hleads⟩
      rw [hcredit, satMul_eq_iff (hwhole hroom)]
      exact hcount

end Recorded

/-! ### One byte, in as many chunks as declared -/

/-- The digest of the challenge. -/
def challengeHash : String := "202493cf3da55bbfbcc190af3338ae4ff00e91039ca66673d13d4a4b4bd5f6c9"

def diskEnv : Env := Env.digesting [("c0ffee:disk:1", challengeHash)]

/-- The digest of a zero byte. -/
def byteHash : String := "6e340b9cffb37a989ca544e6bb780a2c78901d3fb33738768511a30617afa01d"

/-- A proof of one byte: the leaf is the root. -/
def byteProof (totalChunks : ℕ) : MerkleRangeProof :=
  { challengeHash, rangeStart := 0, rangeEnd := 1, totalChunks, leafHash := byteHash,
    merkleRoot := byteHash, proofNodes := [] }

def byteBeat (totalChunks : ℕ) : StorageHeartbeat :=
  { nodeId := "disk", epoch := 1, bytesProven := 1, queryCount := 0,
    challengeResponse := some (byteProof totalChunks), tier := none, signedBy := "disk" }

/-- A chain with the seal of epoch 0. -/
def sealedChain : Chain := ({} : Chain).stateSet .epochSealHash "0" "c0ffee"

theorem provenBy_byteBeat (totalChunks : ℕ) :
    provenBy diskEnv sealedChain (byteBeat totalChunks) = true := by
  change verifyStorageProof diskEnv sealedChain { byteProof 0 with totalChunks } "disk" 1 1 = true
  rw [verify_totalChunks]
  decide +kernel

theorem beat_matches_iff_byte :
    Matches diskEnv sealedChain (byteBeat 1) (byteProof 1)
      (beatOf diskEnv sealedChain (byteBeat 1)) := by
  obtain ⟨proof, hresponse, hiff⟩ := @beat_matches_iff diskEnv sealedChain (byteBeat 1) _
    stateGet_applyStorageHeartbeat (provenBy_byteBeat 1)
  cases hresponse
  exact hiff.2 ⟨rfl, (Nat.clog_one_right 2).symm, by decide⟩

/-- A thousand chunks are credited in full for a byte. -/
theorem byte_credited_thousandfold :
    ∃ beat, ((applyStorageHeartbeat diskEnv (byteBeat 1000)).run sealedChain).2.stateGet .storageBeat
        (beatKey (byteBeat 1000)) = some beat ∧ beat.proofValid = true ∧
      beat.bytesProven = 1000 * storageChunkBytes ∧
      ¬ Matches diskEnv sealedChain (byteBeat 1000) (byteProof 1000) beat := by
  have hproven := provenBy_byteBeat 1000
  have hcredit : (beatOf diskEnv sealedChain (byteBeat 1000)).bytesProven =
      1000 * storageChunkBytes := by
    rw [beatOf, if_pos hproven]
    decide
  refine ⟨_, stateGet_applyStorageHeartbeat, hproven, hcredit, ?_⟩
  intro h
  have hmatch := h.credit
  rw [hcredit] at hmatch
  exact absurd hmatch (by decide)

end HoneNode.StorageProofs
