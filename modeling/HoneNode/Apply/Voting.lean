import HoneNode.Env

/-!
# Apply.Voting — slashing, randomness, price feeds, ensembles

The protocols in which several accounts commit, reveal or vote on one record:
slash reports with their appeal panel, the commit-reveal beacon, oracle feeds
and ensemble jobs.
-/

namespace HoneNode

open Entry Prog Within

/-- The native-token rows of all accounts. -/
def nativeRows : Set String := { k | ∃ account, k = balanceKey account nativeToken }

@[simp] theorem balanceKey_mem_nativeRows (account : String) :
    balanceKey account nativeToken ∈ nativeRows := ⟨account, rfl⟩

/-! ## Slashing -/

def minSlashStake : ℕ := 1000000
def appealWindowEpochs : ℕ := 100
def appealPanelSize : ℕ := 5
def overturnThresholdBps : ℕ := 6600

/-- The share of a slash that goes to its reporter. -/
def reporterCut (amount : ℕ) : ℕ := wrapMul amount 5000 / 10000

/-- A tenth of the accused's stake is taken, from the balance. -/
def applySlashValidator (p : SlashValidator) :
    Prog { pays := {balanceKey p.accused nativeToken} } Unit := do
  let reporterStake ← stateGet .clockStake p.reporter
  ensure (reporterStake.getD 0 ≠ 0) s!"reporter '{p.reporter}' has no clock stake"
  let accusedStake ← inspect (·.getStake p.accused)
  ensure (minSlashStake ≤ accusedStake)
    s!"accused '{p.accused}' stake {accusedStake} is below minimum {minSlashStake}"
  let existing ← stateGet .slash p.slashId
  ensure existing.isNone s!"slash '{p.slashId}' already exists"
  let amount := accusedStake / 10
  debit p.accused nativeToken amount
  let recycleCut := amount - reporterCut amount
  credit p.reporter nativeToken (reporterCut amount)
  when (0 < recycleCut) (credit recycleFund nativeToken recycleCut)
  stateSet .slash p.slashId
    ⟨p.slashId, p.reporter, p.accused, p.evidence, p.violation, p.epoch,
      wrapAdd p.epoch appealWindowEpochs, amount, .active, []⟩

/-- What the panel's verdict does; every payment is best effort. -/
def closeAppeal (record : SlashRecord) : Prog { pays := nativeRows } SlashStatus := do
  let overturns := (record.appealVotes.filter (·.overturn)).length
  if overturnThresholdBps ≤ overturns * 10000 / appealPanelSize then
    ignoreErr (credit record.accused nativeToken record.slashedAmount)
    ignoreErr (debit record.reporter nativeToken (reporterCut record.slashedAmount))
    ignoreErr (credit recycleFund nativeToken (reporterCut record.slashedAmount))
    pure .overturned
  else pure .upheld

def applySlashAppeal (p : SlashAppeal) : Prog { pays := nativeRows } Unit := do
  let found ← stateGet .slash p.slashId
  let record ← orBail found s!"slash '{p.slashId}' not found"
  ensure (record.status = .active ∨ record.status = .appealed)
    s!"slash '{p.slashId}' is already finalized"
  ensure (p.epoch ≤ record.appealDeadline) s!"appeal window closed for slash '{p.slashId}'"
  ensure (∀ v ∈ record.appealVotes, v.panelist ≠ p.panelist)
    s!"panelist '{p.panelist}' already voted on appeal '{p.slashId}'"
  let voted := { record with status := .appealed,
                             appealVotes := record.appealVotes ++ [⟨p.panelist, p.overturn, p.epoch⟩] }
  let status ← if appealPanelSize ≤ voted.appealVotes.length then closeAppeal voted
    else pure voted.status
  stateSet .slash p.slashId { voted with status := status }

/-! ## The randomness beacon -/

def commitDepositHunits : ℕ := 10000

def vrfRoundKey (epoch : ℕ) : String := toString epoch

def applyVrfCommit (p : VrfCommit) :
    Prog { pays := {balanceKey p.committer nativeToken} } Unit := do
  let reg ← stateGet .clockNode p.committer
  ensure reg.isSome s!"committer '{p.committer}' is not a registered clock node"
  let found ← stateGet .vrfRound (vrfRoundKey p.epoch)
  let round := found.getD ⟨p.epoch, [], none, false⟩
  ensure (¬ round.finalised) s!"VRF round {p.epoch} already finalised"
  ensure (∀ c ∈ round.commits, c.committer ≠ p.committer)
    s!"'{p.committer}' already committed for epoch {p.epoch}"
  debit p.committer nativeToken commitDepositHunits
  stateSet .vrfRound (vrfRoundKey p.epoch)
    { round with commits := round.commits ++ [⟨p.committer, p.commitHash, none, false⟩] }

/-- The beacon is the exclusive or of the digests of the revealed secrets. -/
def vrfBeacon (env : Env) (commits : List VrfCommitRecord) : Bytes :=
  commits.foldl (fun beacon c =>
    match c.revealedSecret.bind hexDecode with
    | some secret => List.zipWith (· ^^^ ·) beacon (env.sha256 secret)
    | none => beacon) (List.replicate 32 0)

/-- Record the secret with the first commit of the committer. -/
def revealSecret (committer secretHex : String) : List VrfCommitRecord → List VrfCommitRecord
  | [] => []
  | c :: rest =>
    if c.committer = committer then
      { c with revealedSecret := some secretHex, depositRefunded := true } :: rest
    else c :: revealSecret committer secretHex rest

def finaliseRound {W : Footprint} (env : Env) (round : VrfRound) (epoch : ℕ) :
    Prog W VrfRound := do
  let beaconHex := hexEncode (vrfBeacon env round.commits)
  stateSet .vrfLatestBeacon "" (beaconHex, epoch)
  logPrefix env.info beaconHex 16
  pure { round with beacon := some beaconHex, finalised := true }

def applyVrfReveal (env : Env) (p : VrfReveal) : Prog {} Unit := do
  let found ← stateGet .vrfRound (vrfRoundKey p.epoch)
  let round ← orBail found s!"VRF round {p.epoch} not found"
  let commit ← orBail (round.commits.find? (·.committer = p.committer))
    s!"no commit found for '{p.committer}' in epoch {p.epoch}"
  ensure commit.revealedSecret.isNone s!"'{p.committer}' already revealed"
  let secret ← orBail (hexDecode p.secretHex) "invalid secret hex"
  ensure (hexEncode (env.sha256 (secret ++ beBytes 8 p.epoch)) = commit.commitHash)
    s!"reveal does not match commit for '{p.committer}'"
  credit p.committer nativeToken commitDepositHunits
  let revealed := { round with commits := revealSecret p.committer p.secretHex round.commits }
  let closed ← if ∀ c ∈ revealed.commits, c.revealedSecret.isSome then
      finaliseRound env revealed p.epoch
    else pure revealed
  stateSet .vrfRound (vrfRoundKey p.epoch) closed

/-! ## Price feeds -/

def outlierThresholdBps : ℕ := 500
def reporterRewardHunits : ℕ := 2000
def feedCreationFeeHunits : ℕ := 100000
def minReports : ℕ := 3

def applyOracleFeedCreate (p : OracleFeedCreate) :
    Prog { pays := {balanceKey p.creator nativeToken} } Unit := do
  let existing ← stateGet .oracleFeed p.feedId
  ensure existing.isNone s!"feed '{p.feedId}' already exists"
  debit p.creator nativeToken feedCreationFeeHunits
  credit recycleFund nativeToken feedCreationFeeHunits
  stateSet .oracleFeed p.feedId
    ⟨p.feedId, p.creator, p.assetPair, p.updateIntervalEpochs, p.epoch, none, none,
      wrapAdd p.epoch p.updateIntervalEpochs, [], true⟩

def applyOracleReport (p : OracleReport) : Prog {} Unit := do
  let found ← stateGet .oracleFeed p.feedId
  let feed ← orBail found s!"feed '{p.feedId}' not found"
  ensure feed.active s!"feed '{p.feedId}' is inactive"
  ensure (p.epoch ≤ feed.reportDeadline) s!"report window closed for '{p.feedId}'"
  ensure (∀ r ∈ feed.reports, r.reporter ≠ p.reporter)
    s!"reporter '{p.reporter}' already submitted for this round"
  stateSet .oracleFeed p.feedId
    { feed with reports := feed.reports ++ [⟨p.reporter, p.commitHash, none, none, p.epoch⟩] }

/-- The reveal that opens a commit; of several for one reporter the last counts. -/
def opening (env : Env) (reveals : List OracleReveal) (commit : OracleCommit) :
    Option OracleReveal :=
  (reveals.reverse.find? (·.reporter = commit.reporter)).filter fun r =>
    hexEncode (env.sha256 (leBytes 8 r.value ++ Text.bytes r.nonce
      ++ Text.bytes commit.reporter)) = commit.commitHash

def openCommit (env : Env) (reveals : List OracleReveal) (commit : OracleCommit) :
    OracleCommit :=
  match opening env reveals commit with
  | some r => { commit with revealValue := some r.value, revealNonce := some r.nonce }
  | none => commit

/-- Distance from the median in basis points; the product wraps. -/
def deviationBps (value median : ℕ) : ℕ :=
  wrapMul (if median < value then value - median else median - value) 10000 / max median 1

/-- Score one revealed report and pay it if it is near the median. -/
def scoreReport (median : ℕ) (reporter : String) (value : ℕ) : Prog {} Unit := do
  let found ← stateGet .oracleRep reporter
  let rep := found.getD ⟨reporter, 100, 0, 0⟩
  if outlierThresholdBps < deviationBps value median then
    stateSet .oracleRep reporter
      { rep with score := max (rep.score - 5) 0, reportsTotal := wrapAdd rep.reportsTotal 1,
                 outliers := wrapAdd rep.outliers 1 }
  else
    ignoreErr (credit reporter nativeToken reporterRewardHunits)
    stateSet .oracleRep reporter
      { rep with score := min (rep.score + 1) 100, reportsTotal := wrapAdd rep.reportsTotal 1 }

def scoreReports (median : ℕ) : List OracleCommit → Prog {} Unit
  | [] => pure ()
  | c :: rest => do
    match c.revealValue with
    | some value => scoreReport median c.reporter value
    | none => pure ()
    scoreReports median rest

def applyOracleFeedFinalize (env : Env) (p : OracleFeedFinalize) : Prog {} Unit := do
  let found ← stateGet .oracleFeed p.feedId
  let feed ← orBail found s!"feed '{p.feedId}' not found"
  ensure (feed.reportDeadline ≤ p.epoch) "finalization window not open yet"
  ensure (minReports ≤ feed.reports.length) s!"insufficient reports: need {minReports}"
  let values := (feed.reports.filterMap fun c => (opening env p.reveals c).map (·.value)).mergeSort
  let deadline := wrapAdd p.epoch feed.updateIntervalEpochs
  if values.length < minReports then
    stateSet .oracleFeed p.feedId { feed with reportDeadline := deadline, reports := [] }
  else
    let median := values.getD (values.length / 2) 0
    scoreReports median (feed.reports.map (openCommit env p.reveals))
    stateSet .oracleFeed p.feedId
      { feed with lastPrice := some median, lastUpdatedEpoch := some p.epoch,
                  reportDeadline := deadline, reports := [] }
    stateSet .oraclePrice feed.assetPair ⟨median, p.epoch, p.feedId⟩

/-! ## Ensembles -/

def voteWindowEpochs : ℕ := 3
def minEnsembleSize : ℕ := 2
def maxEnsembleSize : ℕ := 7

def applyEnsembleJobPost (env : Env) (p : EnsembleJobPost) :
    Prog { pays := {balanceKey p.requester nativeToken} } Unit := do
  let existing ← stateGet .ensembleJob p.jobId
  ensure existing.isNone s!"ensemble job '{p.jobId}' already exists"
  ensure (minEnsembleSize ≤ p.nWorkers ∧ p.nWorkers ≤ maxEnsembleSize)
    s!"n_workers must be {minEnsembleSize}-{maxEnsembleSize}"
  debit p.requester nativeToken p.maxFee
  stateSet .ensembleJob p.jobId
    ⟨p.jobId, p.requester, p.model, p.inputHash, p.maxFee, p.nWorkers, p.epoch,
      wrapAdd p.epoch voteWindowEpochs, [], .voting, none⟩
  logPrefix env.info p.jobId 12

/-- The output more than half of the votes agree on. -/
def majorityHash (votes : List EnsembleVoteRecord) : Option String :=
  (votes.map (·.outputHash)).find? fun h =>
    votes.length / 2 + 1 ≤ (votes.map (·.outputHash)).count h

def payWorkers (amount : ℕ) : List String → Prog {} Unit
  | [] => pure ()
  | w :: rest => do
    credit w nativeToken amount
    payWorkers amount rest

def finalizeJob (env : Env) (job : EnsembleJob) (winnerHash : String) : Prog {} EnsembleJob := do
  let winners := (job.votes.filter (·.outputHash = winnerHash)).map (·.worker)
  let workerPool := wrapMul job.maxFee 7000 / 10000
  let recycle := job.maxFee - workerPool
  payWorkers (workerPool / max winners.length 1) winners
  when (0 < recycle) (credit recycleFund nativeToken recycle)
  logPrefix env.info job.jobId 12
  pure { job with status := .finalized, winnerOutputHash := some winnerHash }

def applyEnsembleVote (env : Env) (p : EnsembleVote) : Prog {} Unit := do
  let found ← stateGet .ensembleJob p.jobId
  let job ← orBail found s!"ensemble job '{p.jobId}' not found"
  ensure (job.status = .voting) s!"job '{p.jobId}' is not accepting votes"
  ensure (p.epoch ≤ job.voteDeadline) s!"vote window closed for job '{p.jobId}'"
  ensure (∀ v ∈ job.votes, v.worker ≠ p.worker)
    s!"worker '{p.worker}' already voted on job '{p.jobId}'"
  let voted := { job with votes := job.votes ++ [⟨p.worker, p.outputHash, p.epoch⟩] }
  let winner := if (voted.nWorkers + 1) / 2 ≤ voted.votes.length then majorityHash voted.votes
    else none
  let closed ← match winner with
    | some h => finalizeJob env voted h
    | none => pure voted
  stateSet .ensembleJob p.jobId closed

end HoneNode
