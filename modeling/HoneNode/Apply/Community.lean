import HoneNode.Env

/-!
# Apply.Community — trackers, governance, projects, activation intents

BLE tracker claims with their subscription and bounty escrows, stake-gated
governance votes, projects with bounties, and the records of the TON relay.
-/

namespace HoneNode

open Entry Prog Within

/-! ## Trackers -/

def trackerKey (claimer commitment : String) : String := s!"{claimer}:{commitment}"

def applyTrackerSightingCommit (env : Env) (p : TrackerSightingCommit) :
    Prog {} Unit := do
  let cap ← inspect fun s => ((s.param "max_sightings_per_observer").bind env.decodeU64).getD 500
  let total := p.airtagCount + p.androidFmdCount + p.tileCount + p.samsungCount + p.otherCount
  ensure (total ≤ cap)
    s!"sighting count {total} exceeds per-observer cap {cap} for epoch {p.epoch}"
  stateSet .trackerSighting s!"{p.epoch}:{p.observerId}"
    ⟨p.observerId, p.owner, p.airtagCount, p.androidFmdCount, p.tileCount, p.samsungCount,
      p.otherCount, p.batchHash, p.epoch⟩

def applyTrackerClaim (p : TrackerClaim) :
    Prog { pays := {balanceKey p.claimer nativeToken} } Unit := do
  when (0 < p.fee) do
    debit p.claimer nativeToken p.fee
    credit "treasury" nativeToken p.fee
  stateSet .trackerClaim (trackerKey p.claimer p.serialCommitment)
    { serialCommitment := p.serialCommitment, tagType := p.tagType, claimer := p.claimer,
      fee := p.fee, epoch := p.epoch, nonce := p.nonce, status := "Registered", witnessId := none,
      proofHash := none, verifiedEpoch := none, lostMode := none, lostSince := none }

def applyTrackerClaimRelease (p : TrackerClaimRelease) : Prog {} Unit :=
  stateDelete .trackerClaim (trackerKey p.claimer p.serialCommitment)

def applyTrackerAcousticProof (p : TrackerAcousticProof) : Prog {} Unit :=
  stateModify .trackerClaim (trackerKey p.claimer p.serialCommitment) fun r =>
    { r with status := "Verified", witnessId := some p.witnessId, proofHash := some p.proofHash,
             verifiedEpoch := some p.epoch }

/-- The whole subscription is escrowed up front; an earlier escrow is overwritten. -/
def applyTrackerSubscription (p : TrackerSubscription) :
    Prog { pays := {balanceKey p.claimer nativeToken} } Unit := do
  let found ← stateGet .trackerClaim (trackerKey p.claimer p.serialCommitment)
  let claim ← orBail found "no TrackerClaim found for serial_commitment"
  ensure (claim.status = "Verified" ∨ claim.status = "AcousticVerified")
    "TrackerSubscription requires Verified or AcousticVerified claim"
  let total := satMul p.feePerEpoch (p.expiresEpoch - p.epoch)
  when (0 < total) do
    debit p.claimer nativeToken total
    stateSet .trackerSubEscrow (trackerKey p.claimer p.serialCommitment)
      ⟨p.serialCommitment, p.claimer, p.feePerEpoch, p.expiresEpoch, p.epoch, p.nonce, total, 0⟩

def applyTrackerSightingData (p : TrackerSightingData) : Prog {} Unit :=
  stateSet .trackerRoute s!"{p.serialCommitment}:{Text.hex16 p.epoch}"
    ⟨p.epoch, p.observerId, p.cid, p.plaintextHash⟩

def applyTrackerLostMode (p : TrackerLostMode) :
    Prog { pays := {balanceKey p.claimer nativeToken} } Unit := do
  when (0 < p.bountyHunits) do
    debit p.claimer nativeToken p.bountyHunits
    stateSet .trackerLostEscrow (trackerKey p.claimer p.serialCommitment)
      ⟨p.serialCommitment, p.claimer, p.bountyHunits, p.expiresEpoch, p.contactEncrypted, p.epoch,
        p.nonce, "active", none⟩
  stateModify .trackerClaim (trackerKey p.claimer p.serialCommitment) fun r =>
    { r with lostMode := some true, lostSince := some p.epoch }

def applyTrackerFoundReport (p : TrackerFoundReport) : Prog {} Unit :=
  stateSet .trackerFoundReport s!"{p.serialCommitment}:{p.finder}"
    ⟨p.serialCommitment, p.finder, p.gpsCommitment, p.acousticProofHash, p.epoch, p.nonce⟩

def applyTrackerCoverageReward (p : TrackerCoverageReward) : Prog {} Unit :=
  credit p.observerId nativeToken p.amount

/-- The bounty goes 70% to the finder, 20% to the sensor pool, the rest to the treasury.
A confirmed escrow is not told apart from an active one. -/
def applyTrackerFoundConfirm (p : TrackerFoundConfirm) : Prog {} Unit := do
  let key := trackerKey p.claimer p.serialCommitment
  let found ← stateGet .trackerLostEscrow key
  match found with
  | some escrow => do
    let bounty := escrow.bountyHunits
    when (0 < bounty) do
      let finderShare := wrapMul bounty 70 / 100
      let observerShare := wrapMul bounty 20 / 100
      credit p.finder nativeToken finderShare
      credit "treasury" nativeToken (wrapSub (wrapSub bounty finderShare) observerShare)
      credit "sensor_pool" nativeToken observerShare
    stateSet .trackerLostEscrow key
      { escrow with status := "confirmed", confirmedEpoch := some p.epoch }
  | none => pure ()
  stateModify .trackerClaim key fun r => { r with lostMode := some false }

/-! ## Governance -/

/-- The council, with its built-in default. -/
def governanceKeys (env : Env) (s : Chain) : List String :=
  ((s.param "governance_keys").bind env.decodeStrings).getD
    ["shindevlin", "natoshisakamoto", "josh"]

def applyGovernancePropose (env : Env) (p : GovernancePropose) : Prog {} Unit := do
  let council ← inspect (governanceKeys env)
  ensure (p.proposer ∈ council) s!"account '{p.proposer}' is not in the governance council"
  ensure (p.proposalId ≠ "") "proposal_id cannot be empty"
  let existing ← stateGet .proposal p.proposalId
  ensure existing.isNone s!"proposal '{p.proposalId}' already exists"
  stateSet .proposal p.proposalId
    { proposalId := p.proposalId, proposer := p.proposer, title := p.title,
      description := p.description, action := p.action, actionKey := p.actionKey,
      actionValue := p.actionValue, votingEndsEpoch := p.votingEndsEpoch,
      submittedEpoch := p.epoch, yesVotes := 0, noVotes := 0, status := "open",
      finalizedEpoch := none }

/-- One vote per account; the account must hold stake when it votes. -/
def applyGovernanceVote (p : GovernanceVote) : Prog {} Unit := do
  let found ← stateGet .proposal p.proposalId
  let proposal ← orBail found s!"proposal '{p.proposalId}' not found"
  ensure (proposal.status = "open") s!"proposal '{p.proposalId}' is not open for voting"
  ensure (p.epoch ≤ proposal.votingEndsEpoch)
    s!"voting on proposal '{p.proposalId}' closed at epoch {proposal.votingEndsEpoch}"
  let stake ← inspect (·.getStake p.voter)
  ensure (0 < stake) s!"account '{p.voter}' has no stake — stake HONE to vote"
  let voted ← stateGet .proposalVote s!"{p.proposalId}:{p.voter}"
  ensure voted.isNone
    s!"account '{p.voter}' has already voted on proposal '{p.proposalId}'"
  stateSet .proposalVote s!"{p.proposalId}:{p.voter}" ⟨p.approve, p.epoch⟩
  stateSet .proposal p.proposalId
    (if p.approve then { proposal with yesVotes := wrapAdd proposal.yesVotes 1 }
     else { proposal with noVotes := wrapAdd proposal.noVotes 1 })

/-- What a passed proposal does. -/
def executeProposal (env : Env) (p : Proposal) : Prog {} Unit := do
  let key := p.actionKey.getD ""
  let council ← inspect (governanceKeys env)
  if key = "" then pure ()
  else match p.action with
    | "param_set" => stateSet .chainParam key (p.actionValue.getD "")
    | "council_add" =>
      when (key ∉ council)
        (stateSet .chainParam "governance_keys" (env.encodeStrings (council ++ [key])))
    | "council_remove" =>
      stateSet .chainParam "governance_keys" (env.encodeStrings (council.filter (· ≠ key)))
    | _ => pure ()

def applyGovernanceFinalize (env : Env) (p : GovernanceFinalize) : Prog {} Unit := do
  let found ← stateGet .proposal p.proposalId
  let proposal ← orBail found s!"proposal '{p.proposalId}' not found for finalization"
  ensure (proposal.status = "open") s!"proposal '{p.proposalId}' already finalized"
  when (p.outcome = "passed") (executeProposal env proposal)
  stateSet .proposal p.proposalId
    { proposal with status := p.outcome, yesVotes := p.yesVotes, noVotes := p.noVotes,
                    finalizedEpoch := some p.epoch }

/-! ## Projects -/

def taskKey (projectId taskId : String) : String := s!"{projectId}:{taskId}"

def applyProjectCreate (p : ProjectCreate) : Prog {} Unit := do
  let existing ← stateGet .project p.projectId
  ensure existing.isNone s!"project '{p.projectId}' already exists"
  stateSet .project p.projectId
    ⟨p.projectId, p.name, p.description, p.repo, p.creator, p.epoch, []⟩

def applyProjectTask (p : ProjectTask) : Prog {} Unit := do
  let project ← stateGet .project p.projectId
  ensure project.isSome s!"project '{p.projectId}' does not exist"
  let existing ← stateGet .projectTask (taskKey p.projectId p.taskId)
  ensure existing.isNone s!"task '{p.taskId}' already exists in project '{p.projectId}'"
  stateSet .projectTask (taskKey p.projectId p.taskId)
    { projectId := p.projectId, taskId := p.taskId, title := p.title,
      description := p.description, taskType := p.taskType, bounty := p.bounty, tags := p.tags,
      deadlineEpoch := p.deadlineEpoch, creator := p.creator, createdEpoch := p.epoch,
      status := "open", claimant := none, submissionLink := none, submissionNotes := none,
      submittedEpoch := none, approvedEpoch := none, approvedBy := none }

def applyTaskClaim (p : TaskClaim) : Prog {} Unit := do
  let found ← stateGet .projectTask (taskKey p.projectId p.taskId)
  let task ← orBail found s!"task '{p.taskId}' not found in project '{p.projectId}'"
  ensure (task.status = "open") s!"task '{p.taskId}' is not open (status: \"{task.status}\")"
  stateSet .projectTask (taskKey p.projectId p.taskId)
    { task with status := "claimed", claimant := some p.claimant }

def applyTaskSubmit (p : TaskSubmit) : Prog {} Unit := do
  let found ← stateGet .projectTask (taskKey p.projectId p.taskId)
  let task ← orBail found s!"task '{p.taskId}' not found in project '{p.projectId}'"
  ensure (task.claimant = some p.submitter) "only the task claimant can submit"
  stateSet .projectTask (taskKey p.projectId p.taskId)
    { task with status := "submitted", submissionLink := some p.link,
                submissionNotes := p.notes, submittedEpoch := some p.epoch }

/-- The approver pays the bounty of a partial task; a full task adds a collaborator. -/
def applyTaskApprove (p : TaskApprove) :
    Prog { pays := {balanceKey p.approver nativeToken} } Unit := do
  let foundProject ← stateGet .project p.projectId
  let project ← orBail foundProject s!"project '{p.projectId}' not found"
  ensure (p.approver = project.creator ∨ p.approver ∈ project.collaborators)
    "only the project lead or a collaborator can approve tasks"
  let foundTask ← stateGet .projectTask (taskKey p.projectId p.taskId)
  let task ← orBail foundTask s!"task '{p.taskId}' not found"
  when (task.taskType = "partial") do
    let bounty := p.payout.getD task.bounty
    when (0 < bounty) do
      debit p.approver nativeToken bounty
      ensureAccount p.recipient p.epoch
      credit p.recipient nativeToken bounty
  when (task.taskType = "full" ∧ p.recipient ∉ project.collaborators)
    (stateSet .project p.projectId
      { project with collaborators := project.collaborators ++ [p.recipient] })
  stateSet .projectTask (taskKey p.projectId p.taskId)
    { task with status := "approved", approvedEpoch := some p.epoch,
                approvedBy := some p.approver }

/-! ## TON activation -/

def applyTonActivationIntent (p : TonActivationIntent) : Prog {} Unit := do
  touchAlive p.honeAccount p.epoch
  ensureAccount p.honeAccount p.epoch
  stateSet .tonIntent s!"{p.honeAccount}:{p.sourceAddress}"
    { tonAddress := p.tonAddress, sourceChain := some p.sourceChain,
      sourceAddress := some p.sourceAddress, epoch := p.epoch, status := "pending",
      txHash := none, relay := none, tonSent := none, feeUsdt := none, usdtReceived := none }

def applyTonWalletActivated (p : TonWalletActivated) : Prog {} Unit :=
  stateSet .tonIntent s!"{p.honeAccount}:{p.sourceAddress}"
    { tonAddress := p.tonAddress, sourceChain := none, sourceAddress := none, epoch := p.epoch,
      status := "activated", txHash := some p.txHash, relay := some p.relay,
      tonSent := some p.tonSent, feeUsdt := some p.feeUsdt, usdtReceived := some p.usdtReceived }

/-- A phone's work proof earns a fixed reward. -/
def applyPhoneMineSubmit (p : PhoneMineSubmit) : Prog {} Unit := do
  touchAlive p.account p.epoch
  ensureAccount p.account p.epoch
  credit p.account nativeToken 500
  let proofs ← stateGet .phoneProofs p.account
  stateSet .phoneProofs p.account (wrapAdd (proofs.getD 0) 1)
  stateSet .phoneLastReward p.account p.epoch
  stateSet .phoneWorkUsed p.workHash p.epoch

end HoneNode
