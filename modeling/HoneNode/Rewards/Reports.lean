import HoneNode.Lib.Tally
import HoneNode.Rewards.Emission

/-!
# Rewards.Reports — the contributors of an epoch

Layer B of `emit_epoch_rewards` reads what was reported in an epoch and turns it
into lists of contributors with their scores. Sums over a hash map come out in
the map's own order, which the `HashOrder` arguments stand for.
-/

namespace HoneNode

/-! ## Constants -/

def mineGracePeriodEpochs : ℕ := 259200
def mineGraceRewardBps : ℕ := 2000
def storageProofNoProofBps : ℕ := 2000
def sensorLocationBoostBps : ℕ := 13000
def sensorLocationRequiredEpoch : ℕ := 0
def coverageScoreSignal : ℕ := 100
def coverageScoreDeadSpot : ℕ := 300
def coverageCorroborationBonusBps : ℕ := 15000
def layerCFeeBoostNum : ℕ := 1
def layerCFeeBoostDenom : ℕ := 2

namespace Chain

variable (s : Chain)

/-- The records of a family whose key starts with the text. -/
def records (f : Family) (pfx : String) : List f.Val :=
  ((s.state f).scan (hasPrefix pfx)).map (·.2)

end Chain

/-- The score of a name with another one added (`*map.entry(name).or_default() += n`). -/
def accrue (name : String) (n : ℕ) : List (String × ℕ) → List (String × ℕ)
  | [] => [(name, n % 2 ^ 64)]
  | (k, c) :: rest => if k = name then (k, wrapAdd c n) :: rest else (k, c) :: accrue name n rest

/-! ## Miners -/

/-- A job its board has approved. -/
def jobVerified (s : Chain) (jobId : String) : Bool :=
  match s.stateGet .inferJob jobId with
  | some job => job.status = .verified || job.status = .paid
  | none => false

/-- Work linked to an approved job scores in full; other work scores a fifth, and nothing
after the grace period. -/
def mineScore (epoch : ℕ) (s : Chain) (m : MineRecord) : ℕ :=
  let raw := satMul (inferenceScore m.outputTokens (m.hwTier % 256) m.model)
    (stakeWeight (s.getStake m.miner))
  let unlinked := if epoch < mineGracePeriodEpochs then wrapMul raw mineGraceRewardBps / 10000
    else 0
  match m.jobId.filter (· ≠ "") with
  | some jobId => if jobVerified s jobId then raw else unlinked
  | none => unlinked

def mines (epoch : ℕ) (s : Chain) : List (String × ℕ) :=
  (s.records .mine s!"{epoch}:").filterMap fun m =>
    if mineScore epoch s m = 0 then none else some (m.miner, mineScore epoch s m)

/-! ## Storage, verifiers, services and mempools -/

/-- Bytes proven, up to doubled by queries; without a proof a fifth of it. -/
def storageScore (b : StorageBeat) : ℕ :=
  let raw := satAdd b.bytesProven (b.bytesProven * min b.queryCount 100 / 100)
  if b.proofValid then raw else wrapMul raw storageProofNoProofBps / 10000

/-- A higher tier counts only with the bytes it asks for. -/
def tierMul (b : StorageBeat) : ℕ :=
  let gb := b.bytesProven / (1024 * 1024 * 1024)
  if b.tier = 3 ∧ 100 ≤ gb then 5 else if b.tier = 2 ∧ 10 ≤ gb then 2 else 1

def storageNodes (epoch : ℕ) (s : Chain) : List (String × ℕ) :=
  (s.records .storageBeat s!"{epoch}:").filterMap fun b =>
    if storageScore b = 0 then none else some (b.nodeId, satMul (storageScore b) (tierMul b))

def verifiers (epoch : ℕ) (s : Chain) : List (String × ℕ) :=
  (s.records .inferVerify s!"{epoch}:").filterMap fun t =>
    if t.valueScoreTotal = 0 then none else some (t.verifier, t.valueScoreTotal)

def serviceNodes (epoch : ℕ) (s : Chain) : List (String × ℕ) :=
  (s.records .serviceBeat s!"{epoch}:").map fun b => (b.nodeId, b.containerHours)

def mempoolOps (epoch : ℕ) (s : Chain) : List (String × ℕ) :=
  (s.records .mempoolBeat s!"{epoch}:").filterMap fun b =>
    if b.entriesRelayed = 0 then none
    else some (b.operator, mempoolRelayScore b.entriesRelayed b.latencyMs)

/-! ## Sensors and coverage -/

/-- The sensor is registered with a place. -/
def hasLocation (s : Chain) (sensorId : String) : Bool :=
  match (s.stateGet .sensor sensorId).bind (·.location) with
  | some place => place ≠ ""
  | none => false

/-- The commits that count: all of them while no epoch requires a place. -/
def sensorCommits (epoch : ℕ) (s : Chain) : List SensorCommit :=
  (s.records .sensorCommit s!"{epoch}:").filter fun c =>
    ¬ (0 < sensorLocationRequiredEpoch ∧ sensorLocationRequiredEpoch ≤ epoch
      ∧ hasLocation s c.sensorId = false)

def sensorCommitScore (s : Chain) (c : SensorCommit) : ℕ :=
  let base := sensorScore c.readingCount c.sensorType
  if hasLocation s c.sensorId then base * sensorLocationBoostBps / 10000 % 2 ^ 64 else base

def coverageScore (epoch : ℕ) (s : Chain) (r : CoverageRecord) : ℕ :=
  let base := if r.isDeadSpot then coverageScoreDeadSpot else coverageScoreSignal
  let cell := s.stateGet .coverageCell s!"{epoch}:{r.latQ}:{r.lonQ}:{r.carrierMccMnc}"
  if (cell.map (·.corroborated)).getD false then base * coverageCorroborationBonusBps / 10000
  else base

/-- Sensor owners and coverage reporters share one pool. -/
def sensorNodes (order : Tally.HashOrder (String × ℕ)) (epoch : ℕ) (s : Chain) :
    List (String × ℕ) :=
  let owners := (sensorCommits epoch s).foldl
    (fun m c => accrue c.owner (sensorCommitScore s c) m) []
  order.visit ((s.records .coverageReport s!"{epoch}:").foldl
    (fun m r => accrue r.reporter (coverageScore epoch s r) m) owners)

/-- The gateway an owner's last commit names. -/
def sensorGateways (epoch : ℕ) (s : Chain) : Kv String String :=
  (sensorCommits epoch s).foldl
    (fun m c => match c.gatewayAccount with
      | some gw => m.put c.owner gw
      | none => m) ∅

/-! ## Trackers -/

/-- Some claim of the observer was verified in person. -/
def hasVerifiedClaim (s : Chain) (observer : String) : Bool :=
  (s.records .trackerClaim s!"{observer}:").any (·.status = "Verified")

def isAcousticWitness (s : Chain) (observer : String) : Bool :=
  (s.records .trackerClaim "").any fun r =>
    r.status = "AcousticVerified" && r.witnessId = some observer

def sightingCount (t : TrackerSighting) : ℕ :=
  wrapAdd (wrapAdd (wrapAdd (wrapAdd t.airtagCount t.androidFmdCount) t.tileCount) t.samsungCount)
    t.otherCount

def trackerNodes (order : Tally.HashOrder (String × ℕ)) (epoch : ℕ) (s : Chain) :
    List (String × ℕ) :=
  let counted := (s.records .trackerSighting s!"{epoch}:").filter fun t =>
    sightingCount t ≠ 0 && hasVerifiedClaim s t.observerId
  order.visit (counted.foldl (fun m t =>
    let base := sensorScore (sightingCount t) "event"
    accrue t.observerId (if isAcousticWitness s t.observerId then base * 3 / 2 else base) m) [])

/-! ## LinkGit -/

/-- Who pushed, and how often. -/
def linkgitBuilders (epoch : ℕ) (s : Chain) : List (String × ℕ) :=
  ((s.stateGet .linkGitBuilders s!"{epoch}").getD []).filterMap fun builder =>
    let pushes := (s.stateGet .linkGitBuild s!"{epoch}:{builder}").getD 0
    if pushes = 0 then none else some (builder, pushes)

/-- A repository with its owner and how often it was fetched. -/
structure ServedRepo where
  (repoId owner : String) (serveCount : ℕ)
deriving DecidableEq, Repr

def linkgitRepos (epoch : ℕ) (s : Chain) : List ServedRepo :=
  ((s.stateGet .linkGitServedRepos s!"{epoch}").getD []).filterMap fun repoId =>
    let count := (s.stateGet .linkGitServeCount s!"{epoch}:{repoId}").getD 0
    if count = 0 then none
    else (s.stateGet .linkGitRepo repoId).map fun repo => ⟨repoId, repo.owner, count⟩

/-! ## Fee flows -/

/-- The amounts paid from one account to another. -/
def directedFlows : List FeeFlow → List ((String × String) × ℕ)
  | [] => []
  | f :: rest =>
    let flows := directedFlows rest
    if f.from_ = "" ∨ f.to_ = "" ∨ f.from_ = f.to_ ∨ f.amount = 0 then flows
    else match flows.lookup (f.from_, f.to_) with
      | some n => ((f.from_, f.to_), wrapAdd n f.amount) ::
          flows.filter fun p => p.1 ≠ (f.from_, f.to_)
      | none => ((f.from_, f.to_), f.amount) :: flows

/-- What flowed one way more than the other, over all pairs of accounts. -/
def netFlow (flows : List ((String × String) × ℕ)) : ℕ :=
  let pairs := (flows.map fun p => if p.1.1 ≤ p.1.2 then p.1 else (p.1.2, p.1.1)).dedup
  (pairs.map fun p =>
    let ab := (flows.lookup p).getD 0
    let ba := (flows.lookup (p.2, p.1)).getD 0
    if ba ≤ ab then ab - ba else ba - ab).sum

/-- Fees of the previous epoch that may unlock idle rewards. -/
def feeBoostRaw (epoch : ℕ) (s : Chain) : ℕ :=
  if 0 < epoch then
    netFlow (directedFlows (s.records .feeFlow s!"{epoch - 1}:")) * layerCFeeBoostNum
      / layerCFeeBoostDenom % 2 ^ 64
  else 0

end HoneNode
