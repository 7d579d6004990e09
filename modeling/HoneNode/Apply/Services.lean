import HoneNode.Env

/-!
# Apply.Services — small services with a record each

Group approvals, account memory, proofs of phone storage and of served blobs,
fine-tune and computer-use jobs with their escrow, saved snapshots, and the
replicas kept on Hive.
-/

namespace HoneNode

open Entry Prog Within

/-! ## Group approvals -/

def applyPrivateAuthEnroll (p : PrivateAuthEnroll) : Prog {} Unit := do
  touchAlive p.member p.epoch
  ensureAccount p.member p.epoch
  ensure (p.thresholdM ≤ p.thresholdN ∧ 1 ≤ p.thresholdM)
    s!"invalid threshold: M={p.thresholdM} N={p.thresholdN}"
  let found ← stateGet .privateAuthGroup p.groupId
  let group := found.getD ⟨p.groupId, [], p.thresholdN, p.thresholdM⟩
  let members := if group.members.any (·.account = p.member) then group.members
    else group.members ++ [⟨p.member, p.memberPubkey⟩]
  stateSet .privateAuthGroup p.groupId
    { group with members := members, thresholdN := p.thresholdN, thresholdM := p.thresholdM }

/-- The record is keyed by the transaction alone, whichever group it was opened by. -/
def applyPrivateAuthApprove (p : PrivateAuthApprove) : Prog {} Unit := do
  touchAlive p.approver p.epoch
  ensureAccount p.approver p.epoch
  let found ← stateGet .privateAuthGroup p.groupId
  let group ← orBail found s!"group '{p.groupId}' not found"
  ensure (group.members.any (·.account = p.approver))
    s!"approver is not a member of group '{p.groupId}'"
  let stored ← stateGet .privateAuthApproval p.txHash
  let record := stored.getD ⟨p.groupId, p.txHash, [], false⟩
  ensure (¬ record.finalized) "approval already finalized"
  let approvals := if p.approver ∈ record.approvals then record.approvals
    else record.approvals ++ [p.approver]
  stateSet .privateAuthApproval p.txHash
    { record with
      approvals := approvals
      finalized := group.thresholdM ≤ approvals.length % 2 ^ 32 }

/-! ## Memory -/

def memoryKey (account key : String) : String := s!"{account}:{key}"

def applyMemorySet (p : MemorySet) : Prog {} Unit := do
  touchAlive p.account p.epoch
  ensureAccount p.account p.epoch
  ensure (p.key ≠ "") "memory key cannot be empty"
  ensure (p.value.utf8ByteSize ≤ 4096) "memory value exceeds 4096 byte limit"
  stateSet .memory (memoryKey p.account p.key) p.value

def applyMemoryDelete (p : MemoryDelete) : Prog {} Unit := do
  touchAlive p.account p.epoch
  ensureAccount p.account p.epoch
  stateDelete .memory (memoryKey p.account p.key)

/-! ## Proofs -/

/-- One pill per account and one account per pill. -/
def applyAmberPillMint (p : AmberPillMint) : Prog {} Unit := do
  touchAlive p.account p.epoch
  ensureAccount p.account p.epoch
  let held ← stateGet .amberPill p.account
  ensure held.isNone s!"account '{p.account}' already holds an AmberPill"
  let minted ← stateGet .amberPillId p.pillId
  ensure minted.isNone s!"pill_id '{p.pillId}' already minted"
  stateSet .amberPill p.account ⟨p.account, p.pillId, p.epoch⟩
  stateSet .amberPillId p.pillId p.account

/-- Count one more proof over so many bytes. -/
def ProofStats.add (bytes : ℕ) (stats : Option ProofStats) : ProofStats :=
  match stats with
  | some st => ⟨wrapAdd st.proofs 1, wrapAdd st.bytesTotal bytes⟩
  | none => ⟨1, bytes⟩

def phoneStorageRewardHunits : ℕ := 250

def applyPhoneStorageProof (p : PhoneStorageProof) : Prog {} Unit := do
  touchAlive p.account p.epoch
  ensureAccount p.account p.epoch
  ensure (0 < p.bytesProven) "bytes_proven must be positive"
  let used ← stateGet .phoneStoreProofUsed p.proofHash
  ensure used.isNone "proof already claimed"
  stateSet .phoneStoreProofUsed p.proofHash p.epoch
  credit p.account nativeToken phoneStorageRewardHunits
  let stats ← stateGet .phoneStoreStats s!"{p.account}:{p.deviceId}"
  stateSet .phoneStoreStats s!"{p.account}:{p.deviceId}" (.add p.bytesProven stats)

def blobServeRewardHunits : ℕ := 1000000
def maxBytesPerProof : ℕ := 100 * 1024 * 1024 * 1024

/-- The hash binds the blob, the amount, the node and the epoch. -/
def blobProofHash (env : Env) (p : BlobServeProof) : String :=
  hexEncode (env.sha256 (Text.bytes p.cid ++ leBytes 8 p.bytesServed
    ++ Text.bytes p.nodeId ++ leBytes 8 p.epoch))

def applyBlobServeProof (env : Env) (p : BlobServeProof) : Prog {} Unit := do
  touchAlive p.nodeId p.epoch
  ensureAccount p.nodeId p.epoch
  ensure (0 < p.bytesServed) "bytes_served must be positive"
  ensure (p.bytesServed ≤ maxBytesPerProof) "bytes_served exceeds per-proof limit"
  let used ← stateGet .blobProofUsed p.proofHash
  ensure (blobProofHash env p ≠ p.proofHash ∨ used.isNone) "proof already claimed"
  ensure (blobProofHash env p = p.proofHash) "invalid proof hash"
  stateSet .blobProofUsed p.proofHash p.epoch
  credit p.nodeId nativeToken blobServeRewardHunits
  let stats ← stateGet .blobServeStats p.nodeId
  stateSet .blobServeStats p.nodeId (.add p.bytesServed stats)
  let bandwidth ← stateGet .blobServeBw p.cid
  stateSet .blobServeBw p.cid (wrapAdd (bandwidth.getD 0) p.bytesServed)

/-! ## Escrowed jobs -/

def applyFineTuneJobPost (p : FineTuneJobPost) :
    Prog { pays := {balanceKey p.requester nativeToken} } Unit := do
  touchAlive p.requester p.epoch
  ensureAccount p.requester p.epoch
  let existing ← stateGet .fineTuneJob p.jobId
  ensure existing.isNone s!"fine-tune job '{p.jobId}' already exists"
  ensure (0 < p.maxFee) "max_fee must be positive"
  debit p.requester nativeToken p.maxFee
  stateSet .fineTuneEscrow p.jobId p.maxFee
  stateSet .fineTuneJob p.jobId
    ⟨p.jobId, p.requester, p.baseModel, p.datasetCid, p.maxFee, .open, p.epoch, none, none, none⟩

def applyFineTuneJobComplete (p : FineTuneJobComplete) : Prog {} Unit := do
  touchAlive p.worker p.epoch
  ensureAccount p.worker p.epoch
  let found ← stateGet .fineTuneJob p.jobId
  let job ← orBail found s!"fine-tune job '{p.jobId}' not found"
  ensure (job.status = .open) "job is not open"
  let stored ← stateGet .fineTuneEscrow p.jobId
  let escrow := stored.getD 0
  when (0 < escrow) do
    credit p.worker nativeToken escrow
    stateDelete .fineTuneEscrow p.jobId
  stateSet .fineTuneJob p.jobId
    { job with status := .complete, worker := some p.worker, adapterCid := some p.adapterCid,
               completedEpoch := some p.epoch }

def applyComputerUseJobPost (env : Env) (p : ComputerUseJobPost) :
    Prog { pays := {balanceKey p.requester nativeToken} } Unit := do
  touchAlive p.requester p.epoch
  ensureAccount p.requester p.epoch
  let existing ← stateGet .computerUseJob p.jobId
  ensure existing.isNone s!"computer-use job '{p.jobId}' already exists"
  ensure (0 < p.maxFee) "max_fee must be positive"
  match env.jsonError p.taskJson with
  | some e => bail s!"invalid task_json: {e}"
  | none => pure ()
  debit p.requester nativeToken p.maxFee
  stateSet .computerUseEscrow p.jobId p.maxFee
  stateSet .computerUseJob p.jobId
    ⟨p.jobId, p.requester, p.taskJson, p.maxFee, .open, p.epoch, none, none, none⟩

def applyComputerUseJobComplete (p : ComputerUseJobComplete) : Prog {} Unit := do
  touchAlive p.worker p.epoch
  ensureAccount p.worker p.epoch
  let found ← stateGet .computerUseJob p.jobId
  let job ← orBail found s!"computer-use job '{p.jobId}' not found"
  ensure (job.status = .open) "job is not open"
  let stored ← stateGet .computerUseEscrow p.jobId
  let escrow := stored.getD 0
  when (0 < escrow) do
    credit p.worker nativeToken escrow
    stateDelete .computerUseEscrow p.jobId
  stateSet .computerUseJob p.jobId
    { job with status := .complete, worker := some p.worker, resultCid := some p.resultCid,
               completedEpoch := some p.epoch }

/-! ## Snapshots -/

def applySnapshotSave (env : Env) (p : SnapshotSave) : Prog {} Unit := do
  touchAlive p.account p.epoch
  ensureAccount p.account p.epoch
  ensure (p.slug ≠ "") "snapshot slug cannot be empty"
  ensure (p.slug.toList.all fun c => env.isAlphanumeric c || c = '-' || c = '_')
    "snapshot slug must be alphanumeric with dashes/underscores"
  stateSet .snapshot s!"{p.account}:{p.slug}" ⟨p.account, p.slug, p.cid, p.epoch⟩

/-! ## Hive replicas -/

namespace HiveReplica

def minConfirmations : ℕ := 20
def maxBytes : ℕ := 100 * 1024 * 1024 * 1024
def maxScorePerEpoch : ℕ := 100 * 1024 * 1024 * 1024
def manifestMaxScore : ℕ := 1024 * 1024

/-- A text of `lo` to `hi` bytes, all of which satisfy `ok`. -/
def isToken (text : String) (lo hi : ℕ) (ok : Char → Bool) : Bool :=
  lo ≤ text.utf8ByteSize && text.utf8ByteSize ≤ hi && text.toList.all ok

def isSafeToken (text : String) (lo hi : ℕ) : Bool :=
  isToken text lo hi fun c => c.isAlphanum || ['.', '-', '_', ':', '/'].contains c

def isHiveAccount (text : String) : Bool :=
  isToken text 3 64 fun c => c.isLower || c.isDigit || ['.', '-'].contains c

def isHexLen (text : String) (len : ℕ) : Bool := isToken text len len Text.isHexDigit

/-- Bytes a replica of this kind is credited with. -/
def scoreBytes (bytes : ℕ) (kind : String) : Except String ℕ :=
  if bytes = 0 then .error "Hive replica bytes must be positive"
  else if maxBytes < bytes then .error "Hive replica bytes exceed per-proof limit"
  else match kind with
    | "full" => .ok (bytes * 7500 / 10000)
    | "chunk" => .ok (bytes * 5000 / 10000)
    | "parity" => .ok (bytes * 3000 / 10000)
    | "manifest" => .ok (min bytes manifestMaxScore * 500 / 10000)
    | _ => .error s!"unsupported Hive replica kind '{kind}'"

/-- Where a replica sits on Hive, shared by commit and verification. -/
structure Ref where
  (cid hiveAccount customJsonId : String) (hiveBlockNum : ℕ) (hiveTxId : String) (opIndex : ℕ)
  (payloadSha256 merkleRoot : String)

def refId (env : Env) (r : Ref) : String :=
  hexEncode (env.sha256 (Text.bytes r.cid ++ Text.bytes r.hiveAccount
    ++ Text.bytes r.customJsonId ++ leBytes 8 r.hiveBlockNum ++ Text.bytes r.hiveTxId
    ++ leBytes 4 r.opIndex ++ Text.bytes r.payloadSha256 ++ Text.bytes r.merkleRoot))

def validateCommon (r : Ref) (bytes : ℕ) (kind : String) : Prog {} Unit := do
  ensure (isSafeToken r.cid 1 256) "invalid CID"
  ensure (isHiveAccount r.hiveAccount) "invalid Hive account"
  ensure (isSafeToken r.customJsonId 1 128) "invalid Hive custom_json id"
  ensure (0 < r.hiveBlockNum) "Hive block number must be positive"
  ensure (isHexLen r.hiveTxId 40 ∨ isHexLen r.hiveTxId 64) "invalid Hive tx id"
  ensure (isHexLen r.payloadSha256 64) "invalid payload_sha256"
  ensure (isHexLen r.merkleRoot 64) "invalid merkle_root"
  match scoreBytes bytes kind with
  | .ok _ => pure ()
  | .error e => bail e

/-- The challenge is bound to the seal of the epoch before. -/
def expectedChallengeHash (env : Env) (p : HiveReplicaVerify) (s : Chain) :
    Option String :=
  (s.stateGet .epochSealHash (toString (p.epoch - 1))).map fun prev =>
    env.sha256Hex s!"{prev}:{p.nodeId}:hive:{p.cid}:{p.hiveTxId}:{p.epoch}"

end HiveReplica

open HiveReplica

def applyHiveReplicaCommit (env : Env) (p : HiveReplicaCommit) : Prog {} Unit := do
  touchAlive p.nodeId p.epoch
  ensureAccount p.nodeId p.epoch
  ensure (p.signedBy = p.nodeId) "HiveReplicaCommit must be signed by node_id"
  let ref : Ref := ⟨p.cid, p.hiveAccount, p.customJsonId, p.hiveBlockNum, p.hiveTxId, p.opIndex,
    p.payloadSha256, p.merkleRoot⟩
  validateCommon ref p.bytesReplicated p.replicaKind
  ensure (minConfirmations ≤ p.confirmations)
    s!"Hive replica requires at least {minConfirmations} confirmations"
  let existing ← stateGet .hiveReplicaCommit (refId env ref)
  match existing with
  | some c => do
    ensure (c.nodeId = p.nodeId) "Hive replica ref already committed by another node"
    bail "Hive replica ref already committed"
  | none => pure ()
  stateSet .hiveReplicaCommit (refId env ref)
    ⟨refId env ref, p.nodeId, p.cid, p.hiveAccount, p.customJsonId, p.hiveBlockNum, p.hiveTxId,
      p.opIndex, p.payloadSha256, p.merkleRoot, p.bytesReplicated, p.replicaKind, p.confirmations,
      p.epoch⟩

/-- One reward per replica and epoch; the score joins the node's storage beat. -/
def applyHiveReplicaVerify (env : Env) (p : HiveReplicaVerify) : Prog {} Unit := do
  touchAlive p.verifier p.epoch
  ensureAccount p.verifier p.epoch
  ensureAccount p.nodeId p.epoch
  ensure (p.signedBy = p.verifier) "HiveReplicaVerify must be signed by verifier"
  ensure (p.verifier ≠ p.nodeId) "Hive replica verifier must be independent from node_id"
  let ref : Ref := ⟨p.cid, p.hiveAccount, p.customJsonId, p.hiveBlockNum, p.hiveTxId, p.opIndex,
    p.payloadSha256, p.merkleRoot⟩
  validateCommon ref p.bytesVerified p.replicaKind
  let challenge ← inspect (expectedChallengeHash env p)
  ensure (challenge = some p.challengeHash) "invalid Hive replica challenge_hash"
  let found ← stateGet .hiveReplicaCommit (refId env ref)
  let commit ← orBail found "Hive replica commit not found"
  ensure (commit.nodeId = p.nodeId) "commit node_id mismatch"
  ensure (commit.bytesReplicated = p.bytesVerified) "verified bytes mismatch"
  ensure (commit.replicaKind = p.replicaKind) "replica kind mismatch"
  let rewarded ← stateGet .hiveReplicaRewarded s!"{p.epoch}:{refId env ref}"
  ensure rewarded.isNone "Hive replica already rewarded this epoch"
  stateSet .hiveReplicaRewarded s!"{p.epoch}:{refId env ref}" p.verifier
  let score ← match scoreBytes p.bytesVerified p.replicaKind with
    | .ok score => pure score
    | .error e => bail e
  let beatKey := s!"{p.epoch}:{p.nodeId}:hive"
  let stored ← stateGet .storageBeat beatKey
  let beat := stored.getD
    { nodeId := p.nodeId, epoch := p.epoch, bytesProven := 0, queryCount := 0, proofValid := true,
      tier := 1, backend := some "hive", storageDomain := some "hive", rawBytesVerified := some 0,
      replicaCount := some 0 }
  stateSet .storageBeat beatKey
    { beat with
      bytesProven := min (satAdd beat.bytesProven score) maxScorePerEpoch
      rawBytesVerified := some (satAdd (beat.rawBytesVerified.getD 0) p.bytesVerified)
      replicaCount := some (wrapAdd (beat.replicaCount.getD 0) 1)
      lastRefId := some (refId env ref), lastCid := some p.cid, lastHiveTxId := some p.hiveTxId
      lastVerifier := some p.verifier, lastReplicaKind := some p.replicaKind }

end HoneNode
