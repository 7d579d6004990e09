import HoneNode.Apply.Community
import HoneNode.Apply.Market
import HoneNode.Apply.Value
import HoneNode.Apply.Voting
import HoneNode.Rewards.Reports

/-!
# Rewards.Sweeps — what expires with an epoch

The sweeps `emit_epoch_rewards` runs: pending transfers, agent tasks, ensemble
jobs, agent sessions and the randomness beacon before the rewards, tracker
subscriptions after them. Each scans its family once and then walks the rows;
the payments are best effort, so a row is closed even when a credit overflows.
-/

namespace HoneNode

open Prog Within

/-- The result of a program, or a default where it errs (`unwrap_or`). A panic goes on. -/
def Prog.orDefault {W : Footprint} {α : Type} (a : α) (m : Prog W α) : Prog W α where
  run := fun s => match m.run s with
    | (.error (.err _), s') => (.ok a, s')
    | r => r
  within := by
    intro s
    have h := m.within s
    cases hr : m.run s with
    | mk r s' =>
      rw [hr] at h
      cases r with
      | ok a => exact h
      | error e => cases e <;> exact h

/-! ## Agent tasks -/

def taskExpiryBufferEpochs : ℕ := 10

def AgentTask.closed (task : AgentTask) : Bool :=
  task.status = .settled || task.status = .expired || task.status = .cancelled

/-- Verifiers have revealed and there is a result to compare with. -/
def AgentTask.settleable (task : AgentTask) : Bool :=
  task.status = .verifying && task.agent.isSome && task.resultHash.isSome
    && task.minVerifiers ≤ task.reveals.length

/-- Settle the stored task if it can be settled, and tell whether it was. -/
def trySettled {W : Footprint} (order : Tally.HashOrder (String × ℕ)) (taskId : String) :
    Prog W Bool := do
  let found ← stateGet .agentTask taskId
  match found with
  | some task => do
    trySettle order taskId
    pure task.settleable
  | none => pure false

/-- An overdue task that the verifiers have judged is settled. -/
def settleOverdue (order : Tally.HashOrder (String × ℕ)) (task : AgentTask) : Prog {} Bool :=
  if task.status = .verifying ∧ task.minVerifiers ≤ task.reveals.length then
    trySettled order task.taskId
  else pure false

theorem agentCredit_open :
    Family.agentCredit.guarded = false ∨ Family.agentCredit ∈ ({} : Footprint).grants :=
  .inl rfl

/-- Any other one gives its fee back as prepaid credit. -/
def refundTask (key : String) (task : AgentTask) : Prog {} Unit := do
  let have_ ← inspect (getCredit task.requester)
  stateSet .agentCredit task.requester (satAdd have_ task.maxFee) agentCredit_open
  stateSet .agentTask key { task with status := .expired, maxFee := 0 }

def expireTask (order : Tally.HashOrder (String × ℕ)) (key : String) (task : AgentTask) :
    Prog {} Unit := do
  let settled ← settleOverdue order task
  when (settled = false) (refundTask key task)

def taskDue (epoch : ℕ) (task : AgentTask) : Bool :=
  !task.closed && wrapAdd task.deadlineEpoch taskExpiryBufferEpochs < epoch

def sweepExpiredTasks (order : Tally.HashOrder (String × ℕ)) (epoch : ℕ) : Prog {} Unit := do
  let rows ← stateScan .agentTask ""
  rows.forM fun r => when (taskDue epoch r.2) (expireTask order r.1 r.2)

/-! ## Ensemble jobs -/

/-- Pay the majority, or give the fee back. -/
def closeEnsemble (env : Env) (job : EnsembleJob) : Prog {} EnsembleJob :=
  match majorityHash job.votes with
  | some winner => orDefault job (finalizeJob env job winner)
  | none => do
    ignoreErr (credit job.requester nativeToken job.maxFee)
    logPrefix env.info job.jobId 12
    pure { job with status := .cancelled }

theorem ensembleJob_open :
    Family.ensembleJob.guarded = false ∨ Family.ensembleJob ∈ ({} : Footprint).grants :=
  .inl rfl

/-- The job is saved after its log line, so a panic there leaves it open and paid. -/
def expireEnsemble (env : Env) (key : String) (job : EnsembleJob) : Prog {} Unit := do
  let closed ← closeEnsemble env job
  stateSet .ensembleJob key closed ensembleJob_open

def ensembleDue (epoch : ℕ) (job : EnsembleJob) : Bool :=
  job.status = .voting && job.voteDeadline < epoch

def sweepExpiredEnsembles (env : Env) (epoch : ℕ) : Prog {} Unit := do
  let rows ← stateScan .ensembleJob ""
  rows.forM fun r => when (ensembleDue epoch r.2) (expireEnsemble env r.1 r.2)

/-! ## Agent sessions -/

theorem agentSession_open :
    Family.agentSession.guarded = false ∨ Family.agentSession ∈ ({} : Footprint).grants :=
  .inl rfl

def expireSession (key : String) (session : AgentSession) : Prog {} Unit := do
  when (0 < session.feeEscrow) (ignoreErr (credit session.client nativeToken session.feeEscrow))
  stateSet .agentSession key { session with status := .expired, feeEscrow := 0 }
    agentSession_open

def sessionDue (epoch : ℕ) (session : AgentSession) : Bool :=
  session.status = .open && session.expiresEpoch < epoch

def sweepExpiredSessions (epoch : ℕ) : Prog {} Unit := do
  let rows ← stateScan .agentSession ""
  rows.forM fun r => when (sessionDue epoch r.2) (expireSession r.1 r.2)

/-! ## The beacon -/

def revealWindowEpochs : ℕ := 2

theorem vrfRound_open :
    Family.vrfRound.guarded = false ∨ Family.vrfRound ∈ ({} : Footprint).grants :=
  .inl rfl

/-- The deposits of those who did not reveal go to the recycle fund, and the round is
closed with what was revealed. -/
def closeRound (env : Env) (slashEpoch : ℕ) (round : VrfRound) : Prog {} Unit := do
  (round.commits.filter fun c => !c.depositRefunded).forM fun _ =>
    ignoreErr (credit recycleFund nativeToken commitDepositHunits)
  let slashed := { round with commits := round.commits.map ({ · with depositRefunded := true }) }
  let closed ← finaliseRound env slashed slashEpoch
  stateSet .vrfRound (vrfRoundKey slashEpoch) closed vrfRound_open

def sweepBeacon (env : Env) (epoch : ℕ) : Prog {} Unit := do
  let found ← stateGet .vrfRound (vrfRoundKey (epoch - revealWindowEpochs))
  match found with
  | some round => when (round.finalised = false) (closeRound env (epoch - revealWindowEpochs) round)
  | none => pure ()

/-- The sweeps that come before the rewards, in their order. -/
def sweepExpired (env : Env) (order : Tally.HashOrder (String × ℕ)) (epoch : ℕ) :
    Prog {} Unit := do
  sweepExpiredPendingTransfers epoch
  sweepExpiredTasks order epoch
  sweepExpiredEnsembles env epoch
  sweepExpiredSessions epoch
  sweepBeacon env epoch

/-! ## Tracker subscriptions -/

def treasuryName : String := "treasury"

/-- What a subscription pays this epoch. -/
def subscriptionFee (epoch : ℕ) (r : TrackerSubEscrow) : ℕ :=
  if r.expiresEpoch < epoch ∨ epoch < r.startEpoch then 0
  else min r.feePerEpoch (r.totalEscrowed - r.paidOut)

/-- The observers whose sightings of the tag arrived in the epoch, each once. -/
def subscriptionObservers (order : Tally.HashOrder String) (epoch : ℕ) (serial : String)
    (s : Chain) : List String :=
  order.visit ((s.records .trackerRoute s!"{serial}:{Text.hex16 epoch}").map (·.observerId)).dedup

/-- Split one epoch's fee between observers, treasury and recycle fund. -/
def releaseSubscription (order : Tally.HashOrder String) (epoch fee : ℕ) (key : String)
    (r : TrackerSubEscrow) : Prog {} Unit := do
  let observerCut := wrapMul fee 50 / 100
  let treasuryCut := wrapMul fee 15 / 100
  let recycleCut := fee - observerCut - treasuryCut
  let observers ← inspect (subscriptionObservers order epoch r.serialCommitment)
  if 0 < observers.length then
    observers.forM fun o =>
      when (0 < observerCut / observers.length)
        (ignoreErr (applyTrackerCoverageReward ⟨o, observerCut / observers.length, epoch⟩))
  else ignoreErr (credit recycleFund nativeToken observerCut)
  when (0 < treasuryCut) (ignoreErr (credit treasuryName nativeToken treasuryCut))
  when (0 < recycleCut) (ignoreErr (credit recycleFund nativeToken recycleCut))
  stateSet .trackerSubEscrow key { r with paidOut := r.paidOut + fee }

def sweepTrackerSubscriptionFees (order : Tally.HashOrder String) (epoch : ℕ) :
    Prog {} Unit := do
  let rows ← stateScan .trackerSubEscrow ""
  rows.forM fun r => when (0 < subscriptionFee epoch r.2)
    (releaseSubscription order epoch (subscriptionFee epoch r.2) r.1 r.2)

end HoneNode
