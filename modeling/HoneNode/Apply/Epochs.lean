import HoneNode.Apply.Value
import HoneNode.Apply.Accounts

/-!
# Apply.Epochs — mining, seals, finalization, rewards and proofs of work

What nodes report during an epoch (mined work, storage, service, mempool and
sensor proofs), how an epoch is sealed and finalized, and what the reward
entries credit.
-/

namespace HoneNode

open Entry Prog Within

/-! ## Mining -/

/-- `major.minor.patch`, parts that do not parse read as `0`. -/
def parseSemver (v : String) : ℕ × ℕ × ℕ :=
  let num (s : Option String) : ℕ := (s.bind parseU64).getD 0
  match splitOnce '.' (trim v) with
  | none => (num (some (trim v)), 0, 0)
  | some (major, rest) =>
    match splitOnce '.' rest with
    | none => (num (some major), num (some rest), 0)
    | some (minor, patch) =>
      (num (some major), num (some minor), num (Text.split '-' patch).head?)

/-- Compare two versions numerically. -/
def semverGte (a b : String) : Bool :=
  let x := parseSemver a
  let y := parseSemver b
  decide (y.1 < x.1) || (decide (x.1 = y.1) && (decide (y.2.1 < x.2.1)
    || (decide (x.2.1 = y.2.1) && decide (y.2.2 ≤ x.2.2))))

/-- The model's name without its tag. -/
def modelBase (model : String) : String := (Text.split ':' model).headD model

/-- The checks governance can put on a mined result. -/
def checkMineApproval (env : Env) (p : Mine) : Prog {} Unit := do
  let models ← inspect fun s => s.listParam env "approved_models"
  ensure (p.model = "" ∨ models = [] ∨
      models.any (fun a => a = p.model || modelBase a = modelBase p.model))
    s!"model '{p.model}' is not on the approved list; run an approved model or wait for governance to add it"
  let minVersion ← inspect (·.param "min_node_version")
  match p.nodeVersion, minVersion.filter (fun v => trim v ≠ "") with
  | some ver, some min =>
    ensure (semverGte ver min)
      s!"node version '{ver}' is below minimum required '{trim min}' — upgrade hone-node"
  | _, _ => pure ()
  let software ← inspect fun s => s.listParam env "approved_software"
  match p.softwareHash with
  | some h =>
    ensure (h = "" ∨ software = [] ∨ h ∈ software)
      s!"software hash '{h}' is not on the approved list — upgrade to an official hone-node release"
  | none => pure ()
  let hashes ← inspect fun s => s.listParam env "approved_model_hashes"
  match p.modelHash with
  | some h =>
    ensure (h = "" ∨ hashes = [] ∨ h ∈ hashes)
      s!"model digest '{h}' is not approved — pull an official model version"
  | none => pure ()

/-- A referenced job must be awarded to the miner. -/
def checkMineJob (p : Mine) : Prog {} Unit :=
  match p.jobId.filter (· ≠ "") with
  | none => pure ()
  | some jid => do
    let found ← stateGet .inferJob jid
    let job ← orBail found s!"Mine references unknown job '{jid}'"
    ensure (job.winner = some p.miner)
      s!"miner '{p.miner}' is not the awarded worker for job '{jid}'"

def applyMine (env : Env) (p : Mine) : Prog {} Unit := do
  touchAlive p.miner p.epoch
  ensureAccount p.miner p.epoch
  let cur ← inspect (·.currentEpoch)
  ensure (cur = 0 ∨ cur ≤ wrapAdd p.epoch 3)
    s!"Mine epoch {p.epoch} is too old (current epoch {cur}); submit for a more recent epoch"
  checkMineApproval env p
  checkMineJob p
  stateSet .mine s!"{p.epoch}:{p.miner}"
    ⟨p.miner, p.epoch, p.model, p.inputTokens, p.outputTokens, p.toolCalls, p.hwTier, p.outputHash,
      p.jobId⟩

/-- Minted before the recycle era, paid from the recycle fund in it. -/
def applyMineReward (p : MineReward) :
    Prog { pays := {balanceKey recycleFund nativeToken} } Unit := do
  ensureAccount p.miner p.epoch
  when (recycleEra ≤ era p.epoch) <|
    mapErr (fun e => s!"recycle fund insufficient for era-5 reward: {e}")
      (debit recycleFund nativeToken p.amount (Footprint.hone_pays recycleFund))
  let left ← distributeRoleBackerReward "miner" p.miner p.amount
  credit p.miner nativeToken left

/-! ## Seals and finalization -/

/-- Store the calibrated durations of the remaining eras, each twice the one before. -/
def storeEraDurations {W : Footprint} (env : Env) (base first : ℕ) : ℕ → Prog W Unit
  | 0 => pure ()
  | n + 1 => do
    storeEraDurations env base first n
    stateSet .chainParam s!"era_epoch_ms:{first + n}" (env.encodeU64 (base * 2 ^ n % 2 ^ 64))

def applyEpochSeal (env : Env) (p : Entry.EpochSeal) : Prog {} Unit := do
  let prior ← stateGet .epochNodeSeal s!"{p.epoch}:{p.nodeId}"
  match prior with
  | some h =>
    ensure (h = p.sealHash)
      s!"equivocating EpochSeal: node '{p.nodeId}' epoch {p.epoch} already sealed with hash '{h}'"
  | none => do
    stateSet .epochNodeSeal s!"{p.epoch}:{p.nodeId}" p.sealHash
    let current ← inspect (·.currentEpoch)
    when (current < p.epoch) (setCurrentEpoch p.epoch)
    stateSet .epochSealHash s!"{p.epoch}" p.sealHash
    -- an era boundary recalibrates the remaining minting eras
    let newEra := era p.epoch
    let target ← inspect fun s =>
      ((s.param "btc_end_ms").bind env.decodeU64).getD btcProjectedEndMs
    when (era (p.epoch - 1) < newEra ∧ newEra < recycleEra) <|
      storeEraDurations env (calibrateEraEpochMs newEra p.timestamp target) newEra
        (recycleEra - newEra)

/-- The incoming head is heavier, or as heavy with the smaller hash. -/
def newWins (p : EpochFinalize) (prev : EpochMeta) : Bool :=
  decide (prev.quorum < p.quorum)
    || (decide (p.quorum = prev.quorum) && decide (p.rewardsHash < prev.rewardsHash))

def finalizeMeta (p : EpochFinalize) : EpochMeta :=
  ⟨p.rewardsHash, p.quorum, p.stateRoot, p.timestamp, p.sealedBy⟩

/-- Heaviest-quorum fork choice between the stored head and the incoming one. A
repeated hash falls through and overwrites the record, quorum included. -/
def applyEpochFinalize (env : Env) (p : EpochFinalize) : Prog {} Unit := do
  let existing ← inspect fun s => s.epochs.get p.epoch
  match existing with
  | none => setEpochMeta p.epoch (finalizeMeta p)
  | some prev =>
    if prev.rewardsHash = p.rewardsHash then setEpochMeta p.epoch (finalizeMeta p)
    else do
      logSlice env.warn prev.rewardsHash 12
      logSlice env.warn p.rewardsHash 12
      let wins := newWins p prev
      stateSet .forkEvidence s!"{p.epoch}"
        ⟨p.epoch, ⟨prev.rewardsHash, prev.quorum⟩, ⟨p.rewardsHash, p.quorum⟩,
          if wins then "head_b" else "head_a"⟩
      when wins (setEpochMeta p.epoch (finalizeMeta p))

/-! ## Clock nodes -/

def clockMinStake (env : Env) (s : Chain) : ℕ :=
  ((s.param "clock_min_stake").bind env.decodeU64).getD 50000000000

/-- The stake a registration records: a first one pays it, and outside the bootstrap
window must reach the minimum. -/
def clockRegisterStake (env : Env) (p : ClockNodeRegister) (existing : ℕ) :
    Prog { pays := {balanceKey p.nodeId nativeToken} } ℕ :=
  if existing ≠ 0 then pure existing
  else if p.epoch ≤ clockBootstrapGraceEndEpoch then do
    when (0 < p.stake) (debit p.nodeId nativeToken p.stake)
    pure p.stake
  else do
    let min ← inspect (clockMinStake env)
    ensure (min ≤ p.stake)
      s!"ClockNodeRegister: stake {p.stake} hunits is below minimum {min} hunits"
    debit p.nodeId nativeToken p.stake
    pure p.stake

def applyClockNodeRegister (env : Env) (p : ClockNodeRegister) :
    Prog { pays := {balanceKey p.nodeId nativeToken} } Unit := do
  let prev ← stateGet .clockReg p.nodeId
  let stake ← clockRegisterStake env p ((prev.map (·.stake)).getD 0)
  stateSet .clockReg p.nodeId
    ⟨p.nodeId, stake, some p.epoch, none, p.pubkey.or (prev.bind (·.pubkey))⟩
  touchAlive p.nodeId p.epoch

/-- A node's signature over its seal. -/
def verifyClockSealSig (env : Env) (epoch : ℕ) (sealHash nodeId : String) (timestamp : ℕ)
    (pubkey sig : String) : Bool :=
  match decodeHex32 pubkey, (hexDecode sig).filter (·.length = 64) with
  | some pk, some sg => (env.keyError pk).isNone
      && env.verifyLax pk (Text.bytes s!"seal:{epoch}:{sealHash}:{nodeId}:{timestamp}") sg
  | _, _ => false

/-- Slash a node that signed two seals for one epoch. -/
def applyClockDoubleSignEvidence (env : Env) (p : ClockDoubleSignEvidence) :
    Prog {} Unit := do
  ensure (p.sealHashA ≠ p.sealHashB) "double-sign evidence: seal hashes must differ"
  let done ← stateGet .dblSlash s!"{p.offender}:{p.epoch}"
  ensure done.isNone
    s!"double-sign evidence for '{p.offender}' epoch {p.epoch} already applied"
  let reg ← stateGet .clockReg p.offender
  let stake := (reg.map (·.stake)).getD 0
  ensure (0 < stake) s!"offender '{p.offender}' has no registered stake"
  let pubkey ← orBail (reg.bind (·.pubkey))
    s!"offender '{p.offender}' has no registered pubkey — cannot verify seal signatures"
  ensure (verifyClockSealSig env p.epoch p.sealHashA p.offender p.timestampA pubkey p.sigA)
    "seal A signature invalid"
  ensure (verifyClockSealSig env p.epoch p.sealHashB p.offender p.timestampB pubkey p.sigB)
    "seal B signature invalid"
  credit p.submitter nativeToken (stake / 10)
  credit "__legal__" nativeToken (stake / 10)
  credit recycleFund nativeToken (stake - stake / 10 - stake / 10)
  stateSet .clockReg p.offender ⟨p.offender, 0, none, some p.epoch, some pubkey⟩
  stateSet .dblSlash s!"{p.offender}:{p.epoch}" ()
  logSlice env.warn p.sealHashA 12
  logSlice env.warn p.sealHashB 12

/-- What of a clock reward still has to build up the registered stake. -/
def clockStakeShare (env : Env) (s : Chain) (epoch : ℕ) (reg : Option ClockReg) (reward : ℕ) : ℕ :=
  match reg with
  | some r => if epoch ≤ clockBootstrapGraceEndEpoch ∧ r.stake < clockMinStake env s then
      min reward (clockMinStake env s - r.stake) else 0
  | none => 0

/-- During the bootstrap window an under-staked clock saves its reward as stake. -/
def applyClockReward (env : Env) (p : ClockReward) : Prog {} Unit := do
  ensureAccount p.nodeId p.epoch
  let reward ← distributeRoleBackerReward "clock" p.nodeId p.amount
  let reg ← stateGet .clockReg p.nodeId
  let min ← inspect (clockMinStake env)
  let share ← inspect fun s => clockStakeShare env s p.epoch reg reward
  match reg with
  | some r =>
    when (p.epoch ≤ clockBootstrapGraceEndEpoch ∧ r.stake < min)
      (stateSet .clockReg p.nodeId { r with stake := r.stake + share })
  | none => pure ()
  when (0 < reward - share) (credit p.nodeId nativeToken (reward - share))

/-! ## Plain rewards -/

/-- Credit a reward to a node that may have no record yet. -/
def applyReward (account : String) (amount epoch : ℕ) : Prog {} Unit := do
  ensureAccount account epoch
  credit account nativeToken amount

def applyStorageReward (p : StorageReward) := applyReward p.nodeId p.amount p.epoch
def applySensorReward (p : SensorReward) := applyReward p.nodeId p.amount p.epoch
def applyVerifierReward (p : VerifierReward) := applyReward p.nodeId p.amount p.epoch
def applyServiceReward (p : ServiceReward) := applyReward p.nodeId p.amount p.epoch
def applyMempoolReward (p : MempoolReward) := applyReward p.operator p.amount p.epoch
def applyRuntimeReward (p : RuntimeReward) := applyReward p.hostId p.amount p.epoch

def applyGatewayRewardSplit (p : GatewayRewardSplit) : Prog {} Unit := do
  ensureAccount p.sensorAccount p.epoch
  ensureAccount p.gatewayAccount p.epoch
  credit p.sensorAccount nativeToken p.sensorAmount
  credit p.gatewayAccount nativeToken p.gatewayAmount

/-- The debit of the fund is best-effort; the credit is made either way. -/
def applyTestnetReward (p : TestnetReward) :
    Prog { pays := {balanceKey testnetFund nativeToken} } Unit := do
  ensureAccount p.mainnetAccount p.epoch
  ignoreErr (debit testnetFund nativeToken p.amount)
  credit p.mainnetAccount nativeToken p.amount

/-! ## Reports of an epoch -/

def merkleNode (env : Env) (left right : Bytes) : Bytes :=
  env.sha256 (Text.bytes "node:" ++ left ++ right)

/-- Fold the siblings of a range proof from the leaf to the root. -/
def merkleWalk (env : Env) : ℕ → Bytes → List String → Option Bytes
  | _, current, [] => some current
  | idx, current, sibling :: rest =>
    match decodeHex32 sibling with
    | none => none
    | some sib =>
      merkleWalk env (idx / 2)
        (if idx % 2 = 0 then merkleNode env current sib else merkleNode env sib current) rest

def storageChunkBytes : ℕ := 1048576

/-- The challenged range, re-derived from the previous seal, and its Merkle path. -/
def verifyStorageProof (env : Env) (s : Chain) (proof : MerkleRangeProof) (nodeId : String)
    (epoch bytesProven : ℕ) : Bool :=
  match s.stateGet .epochSealHash s!"{epoch - 1}" with
  | none => false
  | some prev =>
    let challenge := env.sha256 (Text.bytes s!"{prev}:{nodeId}:{epoch}")
    let chunks := satAdd bytesProven (storageChunkBytes - 1) / storageChunkBytes
    let idx := Text.beNat (challenge.take 8) % chunks
    let start := idx * storageChunkBytes
    decide (proof.challengeHash = hexEncode challenge) && decide (chunks ≠ 0)
      && decide (proof.rangeStart = start)
      && decide (proof.rangeEnd = start + min storageChunkBytes (bytesProven - start))
      && match decodeHex32 proof.leafHash with
        | some leaf =>
          ((merkleWalk env idx leaf proof.proofNodes).map hexEncode) == some proof.merkleRoot
        | none => false

theorem storageBeat_open :
    Family.storageBeat.guarded = false ∨ Family.storageBeat ∈ ({} : Footprint).grants :=
  .inl rfl

def applyStorageHeartbeat (env : Env) (p : StorageHeartbeat) : Prog {} Unit := do
  ensureAccount p.nodeId p.epoch
  let valid ← inspect fun s => match p.challengeResponse with
    | some proof => verifyStorageProof env s proof p.nodeId p.epoch p.bytesProven
    | none => false
  let chunks := (p.challengeResponse.map (·.totalChunks)).getD 0
  let effective := if valid then satMul chunks storageChunkBytes else p.bytesProven
  stateSet .storageBeat s!"{p.epoch}:{p.nodeId}"
    { nodeId := p.nodeId, epoch := p.epoch, bytesProven := effective, queryCount := p.queryCount,
      proofValid := valid, tier := p.tier.getD 1 }
    storageBeat_open

def applyServiceHeartbeat (p : ServiceHeartbeat) : Prog {} Unit := do
  ensureAccount p.nodeId p.epoch
  stateSet .serviceBeat s!"{p.epoch}:{p.nodeId}" ⟨p.nodeId, p.epoch, p.containerHours⟩

def applyMempoolOperatorRegister (p : MempoolOperatorRegister) :
    Prog { pays := {balanceKey p.operator nativeToken} } Unit := do
  ensureAccount p.operator p.epoch
  debit p.operator nativeToken p.amount
  stateSet .mempoolOp p.operator ⟨p.operator, p.amount, p.epoch⟩

def applyMempoolHeartbeat (p : MempoolHeartbeat) : Prog {} Unit := do
  ensureAccount p.operator p.epoch
  stateSet .mempoolBeat s!"{p.epoch}:{p.operator}"
    ⟨p.operator, p.epoch, p.propagationLatencyMs, p.entriesRelayed⟩

def applyTestnetOperatorRegister (p : TestnetOperatorRegister) : Prog {} Unit := do
  ensureAccount p.mainnetAccount p.epoch
  stateSet .testnetOp s!"{p.mainnetAccount}:{p.testnetChainId}"
    ⟨p.mainnetAccount, p.testnetNodeId, p.testnetChainId, p.epoch⟩

def applyTestnetOperatorDeregister (p : TestnetOperatorDeregister) : Prog {} Unit :=
  stateDelete .testnetOp s!"{p.mainnetAccount}:{p.testnetChainId}"

def applyInferenceVerifyClaim (p : InferenceVerifyClaim) : Prog {} Unit :=
  stateSet .verifyClaim s!"{p.jobId}:{p.verifier}" ⟨p.jobId, p.verifier, p.epoch⟩

def applyScientificResult (p : ScientificResult) : Prog {} Unit :=
  stateSet .sciResult p.jobId p

def applyCrossChainFinalityAnnounce (p : CrossChainFinalityAnnounce) : Prog {} Unit :=
  stateSet .ccFinality s!"{p.targetChain}:{p.finalityEpoch}" p

/-! ## Sensors and coverage -/

def applySensorRegister (p : SensorRegister) : Prog {} Unit :=
  stateSet .sensor p.sensorId
    ⟨p.sensorId, p.owner, p.sensorType, p.location, p.metadata, p.epoch⟩

def applyGatewayHeartbeat (p : GatewayHeartbeat) : Prog {} Unit :=
  stateSet .gateway p.gatewayId ⟨p.gatewayId, p.owner, p.epoch⟩

/-- A field of a JSON object as a float. -/
def Json.f64Field (env : Env) (key : String) : Json → Option F64
  | .obj fields => (fields.find? (·.1 = key)).bind fun kv => env.jsonF64 kv.2
  | _ => none

def applySensorReading (env : Env) (p : SensorReading) : Prog {} Unit :=
  match p.metadata.bind (Json.f64Field env "lat"), p.metadata.bind (Json.f64Field env "lon") with
  | some lat, some lon => do
    let prev ← stateGet .sensorLastGnss p.sensorId
    match prev.bind fun f => env.gnssTooFast f.lat f.lon lat lon with
    | some speed =>
      bail
        s!"sensor '{p.sensorId}' GNSS reading implausible: {speed} m/s exceeds 300 m/s limit"
    | none => stateSet .sensorLastGnss p.sensorId ⟨lat, lon, p.epoch⟩
  | _, _ => pure ()

def applySensorDataCommit (p : SensorDataCommit) : Prog {} Unit := do
  ensureAccount p.owner p.epoch
  ensure (p.readingCount ≤ 10000)
    s!"reading_count {p.readingCount} exceeds maximum 10000 per epoch"
  let reg ← stateGet .sensor p.sensorId
  match reg with
  | some r =>
    ensure (r.owner = p.owner)
      s!"sensor '{p.sensorId}' is registered to '{r.owner}', not '{p.owner}'"
  | none => pure ()
  stateSet .sensorCommit s!"{p.epoch}:{p.sensorId}"
    ⟨p.sensorId, p.owner, p.epoch, p.readingCount, p.sensorType, none⟩

/-- Four fifths to the owner, the rest to the recycle fund. -/
def applySensorDataPurchase (p : SensorDataPurchase) :
    Prog { pays := {balanceKey p.buyer nativeToken} } Unit := do
  let ownerShare := p.fee * 80 / 100 % 2 ^ 64
  let recycleShare := p.fee - ownerShare
  debit p.buyer nativeToken p.fee
  ensureAccount p.owner p.epoch
  credit p.owner nativeToken ownerShare
  when (0 < recycleShare) (ignoreErr (credit recycleFund nativeToken recycleShare))

/-- Add a reporter to a cell unless listed or past the cap, and count dead spots. -/
def CoverageCell.report (cell : CoverageCell) (reporter : String) (dead : Bool) : CoverageCell :=
  let reporters :=
    if reporter ∉ cell.reporters ∧ cell.reporters.length < 10 then cell.reporters ++ [reporter]
    else cell.reporters
  ⟨reporters, cell.deadSpotCount + (if dead then 1 else 0), decide (3 ≤ reporters.length)⟩

def applyCoverageReport (env : Env) (p : CoverageReport) : Prog {} Unit := do
  touchAlive p.reporter p.epoch
  ensureAccount p.reporter p.epoch
  let count ← stateGet .coverageReporterCount s!"{p.epoch}:{p.reporter}"
  ensure (count.getD 0 < 200)
    s!"reporter '{p.reporter}' exceeded 200 coverage reports for epoch {p.epoch}"
  stateSet .coverageReporterCount s!"{p.epoch}:{p.reporter}" (count.getD 0 + 1)
  let latQ := env.gridCell p.lat
  let lonQ := env.gridCell p.lon
  let dead : Bool := match p.signalDbm with
    | some d => d < -120
    | none => true
  stateSet .coverageReport s!"{p.epoch}:{latQ}:{lonQ}:{p.carrierMccMnc}:{p.reporter}"
    ⟨p.reporter, p.epoch, p.lat, p.lon, latQ, lonQ, p.signalDbm, dead, p.carrierMccMnc,
      p.technology, p.dataHash⟩
  let cellKey := s!"{p.epoch}:{latQ}:{lonQ}:{p.carrierMccMnc}"
  let cell ← stateGet .coverageCell cellKey
  stateSet .coverageCell cellKey ((cell.getD ⟨[], 0, false⟩).report p.reporter dead)

end HoneNode
