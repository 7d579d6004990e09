import HoneNode.Apply
import HoneNode.Rewards.Sweeps

/-!
# Rewards.Emit — `emit_epoch_rewards`

The rewards of one epoch as a program over the chain, in the order of the
source: the sweeps, the pool and its health scalar (layer A), the reserve and
the clock rewards (layer D), the testnet operators (layer E), then the nine
work pools with gating, fee boost and scarcity (layers B and C), the averages
for the next epoch, subscriptions, benchmark jobs and pruning.

A reward entry goes through its arm of `apply_entry`; the arms used here never
panic, so `ignoreErr` drops exactly the `Err` that the source logs.
-/

namespace HoneNode

open Prog Within

/-! ## Funds -/

def treasuryAccount : String := "__treasury__"

/-- The balance rows a reward may be taken from. -/
def rewardFunds : Set String :=
  {balanceKey recycleFund nativeToken, balanceKey testnetFund nativeToken}

abbrev RewardProg := Prog { pays := rewardFunds }

/-- A program that pays from fewer rows. -/
def Prog.payingFrom {P Q : Set String} {α : Type} (h : P ⊆ Q) (m : Prog { pays := P } α) :
    Prog { pays := Q } α :=
  widen (fun _ _ hm => Footprint.Allows.mono (W := { pays := P }) h subset_rfl subset_rfl
    subset_rfl hm) m

def Prog.free {Q : Set String} {α : Type} (m : Prog {} α) : Prog { pays := Q } α :=
  payingFrom (Set.empty_subset Q) m

/-- A best-effort credit of a positive amount. -/
def creditIfAny {W : Footprint} (account : String) (amount : ℕ) : Prog W Unit :=
  when (0 < amount) (ignoreErr (credit account nativeToken amount))

/-- The orders in which the hash maps of one emission are visited. -/
structure RewardOrders where
  tasks : Tally.HashOrder (String × ℕ)
  sensors : Tally.HashOrder (String × ℕ)
  trackers : Tally.HashOrder (String × ℕ)
  observers : Tally.HashOrder String

def RewardOrders.stored : RewardOrders := ⟨.stored, .stored, .stored, .stored⟩

/-! ## The pool, layer A and the reserve -/

/-- What the epoch has to give: new supply, or a slice of the recycle fund. -/
def rawPool (epoch : ℕ) (s : Chain) : ℕ :=
  if recycleEra ≤ era epoch then
    s.getBalance recycleFund nativeToken * recycleRewardRate / recycleRewardDenom % 2 ^ 64
  else blockRewardAt epoch

/-- A health average of the previous epoch, full health before there is one. -/
def layerAEma (key : String) (s : Chain) : ℕ := (s.stateGet .layerA key).getD layerAScalarDenom

def adjustedPool (raw fast slow : ℕ) : ℕ :=
  raw * layerAScalar fast slow / layerAScalarDenom % 2 ^ 64

def reserveTotal (pool : ℕ) : ℕ := pool * 2 / 100 % 2 ^ 64
def testnetTopUp (pool : ℕ) : ℕ := pool * 4 / 1000 % 2 ^ 64
def treasurySplit (pool : ℕ) : ℕ := pool / 1000 % 2 ^ 64
def recycleSplit (pool : ℕ) : ℕ := reserveTotal pool - testnetTopUp pool - treasurySplit pool
def activityPool (pool : ℕ) : ℕ := pool - reserveTotal pool

def splitReserve (pool : ℕ) : RewardProg Unit := do
  creditIfAny recycleFund (recycleSplit pool)
  creditIfAny testnetFund (testnetTopUp pool)
  creditIfAny treasuryAccount (treasurySplit pool)

/-! ## Clock rewards -/

def clockUptimeWindow : ℕ := 100
def clockUptimeMinEpochs : ℕ := 10

/-- Registered clock nodes that still have stake. -/
def registeredNodes (s : Chain) : List String :=
  ((s.records .clockReg "").filter (·.stake ≠ 0)).map (·.nodeId)

/-- One more epoch in a node's window; a full window leaks a seal for each one missed. -/
def Uptime.next (prev : Uptime) (sealed : Bool) : Uptime :=
  let epochs := min (wrapAdd prev.epochs 1) clockUptimeWindow
  if sealed then ⟨min (wrapAdd prev.seals 1) epochs, epochs⟩
  else if epochs = clockUptimeWindow then ⟨prev.seals - 1, epochs⟩
  else ⟨prev.seals, epochs⟩

def updateUptime (clockSealers : List String) : RewardProg Unit := do
  let nodes ← inspect registeredNodes
  nodes.forM fun node => do
    let prev ← stateGet .clockUptime node
    stateSet .clockUptime node ((prev.getD ⟨0, 0⟩).next (node ∈ clockSealers))

/-- Half to full reward by uptime, in thousandths; full in the first epochs. -/
def uptimeMultiplier (uptime : Option Uptime) : ℕ :=
  let seals := max (uptime.getD ⟨1, 1⟩).seals 1
  let epochs := max (uptime.getD ⟨1, 1⟩).epochs 1
  if epochs < clockUptimeMinEpochs then 1000 else 500 + wrapMul 500 seals / epochs

/-- The reward is the schedule's, whatever the pool holds. -/
def emitClockRewards (env : Env) (epoch : ℕ) (clockSealers : List String) : RewardProg Unit :=
  clockSealers.forM fun node => do
    let uptime ← stateGet .clockUptime node
    let scaled := clockRewardAt epoch * uptimeMultiplier uptime / 1000 % 2 ^ 64
    when (0 < scaled) (ignoreErr (applyClockReward env ⟨node, scaled, epoch⟩).free)

/-! ## Testnet operators -/

/-- An equal part of the fund for each operator, at most the schedule's reward. -/
def testnetShare (epoch fund : ℕ) (operators : List TestnetOp) : ℕ :=
  let needed := satMul (testnetRewardAt epoch) operators.length
  if 0 < needed then min fund needed / operators.length else 0

theorem testnetFund_mem_rewardFunds :
    {balanceKey testnetFund nativeToken} ⊆ rewardFunds := by
  rintro k rfl
  exact Set.mem_insert_of_mem _ rfl

theorem recycleFund_mem_rewardFunds :
    {balanceKey recycleFund nativeToken} ⊆ rewardFunds := by
  rintro k rfl
  exact Set.mem_insert _ _

def emitTestnetRewards (epoch : ℕ) : RewardProg Unit := do
  let operators ← inspect (·.records .testnetOp "")
  let fund ← inspect (·.getBalance testnetFund nativeToken)
  let actual := testnetShare epoch fund operators
  operators.forM fun op => when (0 < actual)
    (ignoreErr ((applyTestnetReward ⟨op.mainnetAccount, op.testnetNodeId, actual, epoch⟩).payingFrom
      testnetFund_mem_rewardFunds))

/-! ## Work pools -/

/-- The nine activities that share the rest of the pool, in the source's order. -/
inductive WorkPool where
  | inference | storage | sensor | verifier | service | mempool | tracker | linkgit | linkgitBuild
deriving DecidableEq, Repr

namespace WorkPool

def all : List WorkPool :=
  [.inference, .storage, .sensor, .verifier, .service, .mempool, .tracker, .linkgit, .linkgitBuild]

/-- The name its average is stored under. -/
def key : WorkPool → String
  | .inference => "inference"
  | .storage => "storage"
  | .sensor => "sensor"
  | .verifier => "verifier"
  | .service => "service"
  | .mempool => "mempool"
  | .tracker => "tracker"
  | .linkgit => "linkgit"
  | .linkgitBuild => "linkgit_build"

/-- The total score at which the pool counts as fully used. -/
def calibration : WorkPool → ℕ
  | .inference => 10000
  | .storage => 10000000000
  | .sensor => 5000
  | .verifier => 5000
  | .service => 24
  | .mempool => 10000
  | .tracker => 2000
  | .linkgit => 100
  | .linkgitBuild => 10

/-- The number of contributors below which the pool pays less, before there is an average. -/
def criticalMass : WorkPool → ℕ
  | .inference => 10
  | .storage => 5
  | .sensor => 20
  | .verifier => 5
  | .service => 3
  | .mempool => 3
  | .tracker => 5
  | .linkgit => 5
  | .linkgitBuild => 3

end WorkPool

def activityRatioDenom : ℕ := 10000
def minActivityRatioNum : ℕ := 100

/-- The stored average, its default where it is unset or zero. -/
def readEmaCm (pool : WorkPool) (s : Chain) : ℕ :=
  ((s.stateGet .emaCriticalMass pool.key).filter (0 < ·)).getD pool.criticalMass

/-- What was done in an epoch, as the rewards see it. -/
structure Work where
  contributors : WorkPool → List (String × ℕ)
  repos : List ServedRepo
  gateways : Kv String String
  boost : ℕ

def workOf (orders : RewardOrders) (epoch : ℕ) (s : Chain) : Work where
  contributors
    | .inference => mines epoch s
    | .storage => storageNodes epoch s
    | .sensor => sensorNodes orders.sensors epoch s
    | .verifier => verifiers epoch s
    | .service => serviceNodes epoch s
    | .mempool => mempoolOps epoch s
    | .tracker => trackerNodes orders.trackers epoch s
    | .linkgit => (linkgitRepos epoch s).map fun r => (r.repoId, r.serveCount)
    | .linkgitBuild => linkgitBuilders epoch s
  repos := linkgitRepos epoch s
  gateways := sensorGateways epoch s
  boost := feeBoostRaw epoch s

/-- The sum of the scores, as `u64` adds them. -/
def totalScore (nodes : List (String × ℕ)) : ℕ := (nodes.map (·.2)).sum % 2 ^ 64

namespace Work

variable (w : Work) (pool : WorkPool)

/-- How much of its calibrated capacity a pool used, capped at all of it. -/
def util : ℕ :=
  min (totalScore (w.contributors pool) * activityRatioDenom / pool.calibration) activityRatioDenom

def totalUtil : ℕ := (WorkPool.all.map w.util).sum

def activeCount : ℕ := (WorkPool.all.filter fun p => 0 < w.util p).length

/-- The average over the pools that were used at all, at least one percent. -/
def activityRatio : ℕ :=
  if w.totalUtil = 0 then 0 else max (w.totalUtil / w.activeCount) minActivityRatioNum

def gatedBase (activity : ℕ) : ℕ := activity * w.activityRatio / activityRatioDenom % 2 ^ 64

def idleBeforeBoost (activity : ℕ) : ℕ := activity - w.gatedBase activity

def feeBoost (activity : ℕ) : ℕ := min w.boost (w.idleBeforeBoost activity)

def gatedPool (activity : ℕ) : ℕ := satAdd (w.gatedBase activity) (w.feeBoost activity)

def idleRecycle (activity : ℕ) : ℕ := w.idleBeforeBoost activity - w.feeBoost activity

/-- The part of the gated pool that goes to one activity. -/
def allocPool (gated : ℕ) : ℕ :=
  if w.totalUtil = 0 then 0 else gated * w.util pool / w.totalUtil % 2 ^ 64

/-- Fewer contributors than the critical mass are paid in proportion. -/
def payoutFactor (count criticalMass : ℕ) : ℕ :=
  if criticalMass = 0 then activityRatioDenom
  else wrapMul (min count criticalMass) activityRatioDenom / criticalMass

/-- What a pool pays out; the rest of its part is recycled. -/
def effectivePool (gated : ℕ) (cm : WorkPool → ℕ) : ℕ :=
  w.allocPool pool gated * payoutFactor (w.contributors pool).length (cm pool)
    / activityRatioDenom % 2 ^ 64

def scattered (gated : ℕ) (cm : WorkPool → ℕ) : ℕ :=
  w.allocPool pool gated - w.effectivePool pool gated cm

def scarcityRecycle (gated : ℕ) (cm : WorkPool → ℕ) : ℕ :=
  (WorkPool.all.map fun p => w.scattered p gated cm).sum

def distributed (gated : ℕ) (cm : WorkPool → ℕ) : ℕ :=
  (WorkPool.all.map fun p => w.effectivePool p gated cm).sum

def remainder (gated : ℕ) (cm : WorkPool → ℕ) : ℕ :=
  gated - w.distributed gated cm - w.scarcityRecycle gated cm

end Work

/-- The share of one contributor. -/
def shareOf (pool score : ℕ) (nodes : List (String × ℕ)) : ℕ :=
  if totalScore nodes = 0 then pool / nodes.length else pool * score / totalScore nodes % 2 ^ 64

/-- Pay a pool out by score. -/
def distributeRewards (nodes : List (String × ℕ)) (pool : ℕ)
    (pay : String → ℕ → RewardProg Unit) : RewardProg Unit :=
  if nodes = [] ∨ pool = 0 then pure ()
  else nodes.forM fun n =>
    when (0 < shareOf pool n.2 nodes) (ignoreErr (pay n.1 (shareOf pool n.2 nodes)))

/-- A sensor behind a gateway shares its reward with it. -/
def paySensor (gateways : Kv String String) (epoch : ℕ) (node : String) (amount : ℕ) :
    RewardProg Unit :=
  match gateways.get node with
  | some gateway => (applyGatewayRewardSplit
      ⟨node, gateway, amount * 6000 / 10000 % 2 ^ 64, amount * 4000 / 10000 % 2 ^ 64, epoch⟩).free
  | none => (applySensorReward ⟨node, amount, epoch⟩).free

/-- Sensors with a score of zero, or a total of zero, get nothing. -/
def distributeSensors (nodes : List (String × ℕ)) (pool : ℕ) (gateways : Kv String String)
    (epoch : ℕ) : RewardProg Unit :=
  nodes.forM fun n =>
    when (totalScore nodes ≠ 0 ∧ n.2 ≠ 0 ∧ 0 < pool * n.2 / totalScore nodes % 2 ^ 64)
      (ignoreErr (paySensor gateways epoch n.1 (pool * n.2 / totalScore nodes % 2 ^ 64)))

def distributeRepos (repos : List ServedRepo) (pool total epoch : ℕ) : RewardProg Unit :=
  when (0 < pool ∧ repos ≠ []) <| repos.forM fun r =>
    if total = 0 then fail (.panic "attempt to divide by zero")
    else when (0 < pool * r.serveCount / total % 2 ^ 64) (ignoreErr (applyLinkGitServeReward
      ⟨r.repoId, r.owner, pool * r.serveCount / total % 2 ^ 64, r.serveCount, epoch⟩).free)

/-- The payouts of the nine pools. -/
def payPools (w : Work) (gated : ℕ) (cm : WorkPool → ℕ) (epoch : ℕ) : RewardProg Unit := do
  let pool (p : WorkPool) : ℕ := w.effectivePool p gated cm
  distributeRewards (w.contributors .inference) (pool .inference) fun miner amount =>
    (applyMineReward ⟨miner, amount, epoch⟩).payingFrom recycleFund_mem_rewardFunds
  distributeRewards (w.contributors .storage) (pool .storage) fun node amount =>
    (applyStorageReward ⟨node, amount, epoch⟩).free
  distributeSensors (w.contributors .sensor) (pool .sensor) w.gateways epoch
  distributeRewards (w.contributors .verifier) (pool .verifier) fun node amount =>
    (applyVerifierReward ⟨node, amount, epoch⟩).free
  distributeRewards (w.contributors .service) (pool .service) fun node amount =>
    (applyServiceReward ⟨node, amount, epoch⟩).free
  distributeRewards (w.contributors .mempool) (pool .mempool) fun operator amount =>
    (applyMempoolReward ⟨operator, amount, epoch⟩).free
  distributeRewards (w.contributors .tracker) (pool .tracker) fun observer amount =>
    (applyTrackerCoverageReward ⟨observer, amount, epoch⟩).free
  distributeRepos w.repos (pool .linkgit) (totalScore (w.contributors .linkgit)) epoch
  distributeRewards (w.contributors .linkgitBuild) (pool .linkgitBuild) fun builder amount =>
    (applyLinkGitBuildReward ⟨builder, amount,
      ((w.contributors .linkgitBuild).lookup builder).getD 0, epoch⟩).free

/-- The averages the next epoch reads. -/
def updateAverages (w : Work) (cm : WorkPool → ℕ) (fast slow : ℕ) : RewardProg Unit := do
  WorkPool.all.forM fun p => stateSet .emaCriticalMass p.key
    (emaStep emaAlphaNum emaAlphaDenom (w.contributors p).length (cm p))
  let signal := w.totalUtil * layerAScalarDenom / (layerAPoolCount * activityRatioDenom)
  stateSet .layerA "fast_ema" (emaStep emaAlphaNum emaAlphaDenom signal fast)
  stateSet .layerA "slow_ema" (emaStep layerASlowAlphaNum layerASlowAlphaDenom signal slow)

/-! ## Benchmark jobs and pruning -/

def mineGraceBenchmarkJobsPerEpoch : ℕ := 5
def benchmarkMaxFee : ℕ := 1000000

/-- `{:064x}`. -/
def hex64 (n : ℕ) : String :=
  String.ofList ((List.range 64).reverse.map fun i => Text.hexDigit (n / 16 ^ i % 16))

def benchmarkJob (epoch i : ℕ) : Entry.InferenceJobPost where
  jobId := s!"benchmark:{epoch}:{i}"
  requester := testnetFund
  model := "auto"
  mode := "solo"
  inputHash := hex64 (wrapAdd (wrapMul epoch 1000) i)
  maxFee := benchmarkMaxFee
  minReputation := 0
  bidWindowEpochs := 2
  deadlineEpoch := wrapAdd epoch 10
  epoch := epoch
  nonce := wrapAdd (wrapMul epoch 1000) i
  signedBy := testnetFund
  persistOnFs := none
  fsFee := none
  minVerifiers := none
  nodeFingerprint := none

/-- Post a job; its prompt is kept for the local worker once the post went through. -/
def postBenchmark (epoch i : ℕ) : RewardProg Unit := do
  (applyInferenceJobPost (benchmarkJob epoch i)).payingFrom testnetFund_mem_rewardFunds
  stateSet .inferInput s!"benchmark:{epoch}:{i}"
    s!"Summarise epoch {epoch} of the HONE chain in one sentence."

/-- Post the jobs one by one while the fund covers the next one. -/
def postBenchmarks (epoch : ℕ) : List ℕ → RewardProg Unit
  | [] => pure ()
  | i :: rest => do
    let posted ← stateGet .job s!"benchmark:{epoch}:{i}"
    let fund ← inspect (·.getBalance testnetFund nativeToken)
    if posted.isSome then postBenchmarks epoch rest
    else if fund < benchmarkMaxFee then pure ()
    else do
      ignoreErr (postBenchmark epoch i)
      postBenchmarks epoch rest

/-- `j[key] = v`: an object gets the field, `null` becomes one, anything else panics. -/
def Json.setField (key : String) (v : Json) : Json → Option Json
  | .null => some (.obj [(key, v)])
  | .obj fields => some (.obj ((fields.filter (·.1 ≠ key)) ++ [(key, v)]))
  | _ => none

/-- Drop the payload of a settled job. -/
def prunedJob (epoch : ℕ) (j : Json) : Option Json := do
  let j ← j.setField "output_hash" .null
  let j ← j.setField "input_hash" .null
  let j ← j.setField "result_hash" .null
  j.setField "pruned_epoch" (.num epoch)

def pruneJob (epoch : ℕ) (jobId : String) : RewardProg Unit := do
  let found ← stateGet .job jobId
  match found.map (prunedJob epoch) with
  | some (some pruned) => stateSet .job jobId pruned
  | some none => fail (.panic "cannot access key in JSON value")
  | none => pure ()

/-- The scan of an epoch also catches every epoch whose number it starts. -/
def pruneProofs (epoch : ℕ) : RewardProg Unit := do
  let rows ← stateScan .pruneReady s!"{epoch - inferencePruneWindowEpochs}"
  rows.forM fun r => when (r.2 ≠ "") do
    pruneJob epoch r.2
    stateDelete .pruneReady r.1

/-! ## The whole emission -/

/-- Layers B and C, and what follows them. -/
def emitActivity (orders : RewardOrders) (epoch activity fast slow : ℕ) : RewardProg Unit := do
  let cm ← inspect fun s p => readEmaCm p s
  let w ← inspect (workOf orders epoch)
  let gated := w.gatedPool activity
  creditIfAny recycleFund (w.idleRecycle activity)
  creditIfAny recycleFund (w.scarcityRecycle gated cm)
  payPools w gated cm epoch
  updateAverages w cm fast slow
  (sweepTrackerSubscriptionFees orders.observers epoch).free
  creditIfAny recycleFund (w.remainder gated cm)
  when (epoch < mineGracePeriodEpochs)
    (postBenchmarks epoch (List.range mineGraceBenchmarkJobsPerEpoch))
  when (inferencePruneWindowEpochs ≤ epoch) (pruneProofs epoch)

/-- Everything a positive pool pays for. -/
def emitPool (env : Env) (orders : RewardOrders) (epoch : ℕ) (clockSealers : List String)
    (raw : ℕ) : RewardProg Unit := do
  let fast ← inspect (layerAEma "fast_ema")
  let slow ← inspect (layerAEma "slow_ema")
  let adjusted := adjustedPool raw fast slow
  creditIfAny recycleFund (raw - adjusted)
  splitReserve adjusted
  updateUptime clockSealers
  emitClockRewards env epoch clockSealers
  emitTestnetRewards epoch
  when (0 < activityPool adjusted) (emitActivity orders epoch (activityPool adjusted) fast slow)

def emitEpochRewards (env : Env) (orders : RewardOrders) (epoch : ℕ)
    (clockSealers : List String) : RewardProg Unit := do
  (sweepExpired env orders.tasks epoch).free
  let raw ← inspect (rawPool epoch)
  when (0 < raw) (emitPool env orders epoch clockSealers raw)

end HoneNode
