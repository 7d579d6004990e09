import HoneNode.Env

/-!
# Apply.Inference — the inference market

A job is posted with its fee in escrow at the recycle fund, bid for, awarded,
completed, judged by a board of verifiers and paid, with a dispute path through
a claim and review votes.
-/

namespace HoneNode

open Entry Prog Within

/-! ## Constants -/

def claimWindowEpochs : ℕ := 20
def minReviewVotes : ℕ := 3
def completeStaleWindow : ℕ := 3
def inferencePruneWindowEpochs : ℕ := 100
def verifierAssignmentEnabled : Bool := false
def verifierThresholdByte : UInt8 := 51
def inferenceCommitRevealEnabled : Bool := false
def verifierApprovalWindowEpochs : ℕ := 100
def verifierVoteWeightNormal : ℕ := 100
def verifierVoteWeightReview : ℕ := 101
def verifierRubberStampBps : ℕ := 9500
def verifierSuspendBps : ℕ := 9900
def verifierSuspendEpochs : ℕ := 20

/-- The status as error texts print it. -/
def InferenceStatus.name : InferenceStatus → String
  | .posted => "Posted"
  | .awarded => "Awarded"
  | .completed => "Completed"
  | .verified => "Verified"
  | .disputed => "Disputed"
  | .claimed => "Claimed"
  | .reviewed => "Reviewed"
  | .paid => "Paid"
  | .rejected => "Rejected"
  | .noFee => "NoFee"
  | .cancelled => "Cancelled"
  | .expired => "Expired"

/-! ## Reputation -/

/-- Completion rate times a latency factor, on a scale of 10000. -/
def NodeReputation.recomputeScore (rep : NodeReputation) : NodeReputation :=
  if rep.jobsAccepted = 0 then { rep with score := 5000 }
  else
    let completion := wrapMul rep.jobsCompleted 100 / rep.jobsAccepted
    let avgLatency := if rep.jobsCompleted = 0 then 5000
      else rep.totalLatencyMs / rep.jobsCompleted
    let latencyFactor := min (5000 / max avgLatency 50) 100
    { rep with score := min (wrapMul completion (50 + latencyFactor)) 10000 }

def getReputation (nodeId : String) (s : Chain) : NodeReputation :=
  (s.stateGet .nodeRep nodeId).getD { nodeId := nodeId }

/-- Update the counters of a node and its score. -/
def rerate {W : Footprint} (nodeId : String) (g : NodeReputation → NodeReputation) :
    Prog W Unit := do
  let rep ← inspect (getReputation nodeId)
  let next := (g rep).recomputeScore
  stateSet .nodeRep next.nodeId next

def NodeReputation.fail (rep : NodeReputation) : NodeReputation :=
  { rep with jobsFailed := wrapAdd rep.jobsFailed 1 }

/-- Rolling approval rate of a verifier, with suspension of rubber stampers. -/
def VerifierReputation.record (rep : VerifierReputation) (approved : Bool) :
    VerifierReputation :=
  let (total, approvedCount) :=
    if rep.total < verifierApprovalWindowEpochs then
      (rep.total + 1, wrapAdd rep.approvedCount (if approved then 1 else 0))
    else (rep.total, if approved then rep.approvedCount else rep.approvedCount - 1)
  let bps := if 0 < total then wrapMul approvedCount 10000 / total else 0
  if 10 ≤ total ∧ verifierSuspendBps ≤ bps then
    ⟨total, approvedCount, true, max rep.suspendedUntil (wrapAdd total verifierSuspendEpochs)⟩
  else ⟨total, approvedCount, 10 ≤ total ∧ verifierRubberStampBps ≤ bps, rep.suspendedUntil⟩

def getVerifierRep (verifier : String) (s : Chain) : VerifierReputation :=
  (s.stateGet .verifierRep verifier).getD ⟨0, 0, false, 0⟩

/-! ## The board -/

def autoScaleMinVerifiers (s : Chain) : ℕ :=
  let active := (s.stateGet .activeVerifierCount "").getD 0
  if 15 ≤ active then 5 else if 5 ≤ active then 3 else 1

/-- Weight of the votes for one verdict. -/
def verdictWeight (verdicts : List (String × String)) (verdict : String) (weight : ℕ) : ℕ :=
  wrapMul (verdicts.map (·.2) |>.count verdict) weight

/-- The board's verdict once no outstanding vote can change it, or all have voted. -/
def resolveQuorumVerdict (verdicts : List (String × String)) (minVerifiers : ℕ) :
    Option String :=
  let voted := verdicts.length
  let approved := verdictWeight verdicts "approved" verifierVoteWeightNormal
  let rejected := verdictWeight verdicts "rejected" verifierVoteWeightNormal
  let review := verdictWeight verdicts "review_required" verifierVoteWeightReview
  let swing := wrapMul (minVerifiers - voted) verifierVoteWeightReview
  if satAdd rejected swing < approved ∧ satAdd review swing < approved then some "approved"
  else if satAdd approved swing < rejected ∧ satAdd review swing < rejected then some "rejected"
  else if satAdd approved swing < review ∧ satAdd rejected swing < review then
    some "review_required"
  else if voted < minVerifiers then none
  else if approved ≤ review ∧ rejected ≤ review then some "review_required"
  else if rejected ≤ approved then some "approved"
  else some "rejected"

/-! ## Jobs -/

def inferBidKey (jobId bidder : String) : String := s!"{jobId}:{bidder}"

def getJob {W : Footprint} (jobId : String) : Prog W InferenceJob := do
  let found ← stateGet .inferJob jobId
  orBail found s!"job '{jobId}' not found"

/-- A job is stored under the id it carries. -/
def setJob {W : Footprint} (job : InferenceJob) : Prog W Unit := stateSet .inferJob job.jobId job

def applyInferenceJobPost (p : InferenceJobPost) :
    Prog { pays := {balanceKey p.requester nativeToken} } Unit := do
  let existing ← stateGet .inferJob p.jobId
  ensure existing.isNone s!"job '{p.jobId}' already exists"
  debit p.requester nativeToken p.maxFee
  credit recycleFund nativeToken p.maxFee
  let autoMin ← inspect autoScaleMinVerifiers
  setJob
    { jobId := p.jobId, requester := p.requester, model := p.model, mode := p.mode,
      inputHash := p.inputHash, maxFee := p.maxFee, minReputation := p.minReputation,
      bidWindowEpochs := p.bidWindowEpochs, deadlineEpoch := p.deadlineEpoch,
      postedEpoch := p.epoch, status := .posted, winner := none, awardedFee := none,
      verifiers := [], resultHash := none, latencyMs := none, disputedEpoch := none,
      claimedEpoch := none, settledEpoch := none, completedEpoch := none,
      persistOnFs := p.persistOnFs.getD false, verdicts := [], commits := [],
      minVerifiers := max autoMin (p.minVerifiers.getD 0), nodeFingerprint := p.nodeFingerprint }

def applyInferenceJobBid (p : InferenceJobBid) : Prog {} Unit := do
  let job ← getJob p.jobId
  ensure (job.status = .posted)
    s!"job '{p.jobId}' not open for bids (status: {job.status.name})"
  let current ← inspect (·.currentEpoch)
  let close := wrapAdd job.postedEpoch job.bidWindowEpochs
  ensure (current < close) s!"bid window for job '{p.jobId}' closed at epoch {close}"
  ensure (p.bidder ≠ job.requester)
    s!"requester '{p.bidder}' cannot bid on their own job '{p.jobId}'"
  ensure (p.fee ≤ job.maxFee) s!"bid fee {p.fee} exceeds job max_fee {job.maxFee}"
  ensure (p.role = "worker" ∨ p.role = "verifier") "bid role must be 'worker' or 'verifier'"
  let rep ← inspect (getReputation p.bidder)
  ensure (job.minReputation ≤ rep.score)
    s!"node '{p.bidder}' reputation {rep.score} below required {job.minReputation}"
  let bid ← stateGet .inferBid (inferBidKey p.jobId p.bidder)
  ensure bid.isNone s!"node '{p.bidder}' already bid on job '{p.jobId}'"
  stateSet .inferBid (inferBidKey p.jobId p.bidder) ⟨p.jobId, p.bidder, p.fee, p.role, p.epoch⟩

/-- What an award changes in the job, by role. -/
def awardRole (p : InferenceJobAward) (job : InferenceJob) : Prog {} InferenceJob :=
  match p.role with
  | "worker" => do
    stateSet .mineQueue s!"{p.winner}:{p.jobId}" "awarded"
    pure { job with winner := some p.winner, awardedFee := some p.fee, status := .awarded }
  | "verifier" => do
    ensure (job.verifiers.length < 3) s!"job '{p.jobId}' already has the maximum 3 verifiers"
    ensure (p.winner ∉ job.verifiers)
      s!"'{p.winner}' is already a verifier for job '{p.jobId}'"
    pure { job with verifiers := job.verifiers ++ [p.winner] }
  | other => bail s!"unknown award role '{other}'"

def applyInferenceJobAward (p : InferenceJobAward) : Prog {} Unit := do
  let job ← getJob p.jobId
  ensure (job.status = .posted)
    s!"job '{p.jobId}' cannot be awarded (status: {job.status.name})"
  let awarded ← awardRole p job
  rerate p.winner fun rep => { rep with jobsAccepted := wrapAdd rep.jobsAccepted 1 }
  setJob awarded

def applyInferenceJobComplete (p : InferenceJobComplete) : Prog {} Unit := do
  let job ← getJob p.jobId
  ensure (job.status = .awarded) s!"job '{p.jobId}' not in awarded state"
  ensure (job.winner = some p.worker)
    s!"'{p.worker}' is not the awarded worker for job '{p.jobId}'"
  let current ← inspect (·.currentEpoch)
  ensure (current ≤ wrapAdd job.deadlineEpoch completeStaleWindow)
    s!"job '{p.jobId}' completion is too late — deadline was epoch {job.deadlineEpoch}, current epoch {current}"
  rerate p.worker fun rep =>
    { rep with jobsCompleted := wrapAdd rep.jobsCompleted 1,
               totalLatencyMs := satAdd rep.totalLatencyMs p.latencyMs }
  setJob { job with resultHash := some p.resultHash, latencyMs := some p.latencyMs,
                    status := .completed, completedEpoch := some p.epoch }
  stateSet .mineQueue s!"{p.worker}:{p.jobId}" "completed"

/-- Count one more verdict or commit of the verifier in the epoch. -/
def tallyVerify (verifier : String) (epoch valueScore : ℕ) : Prog {} Unit := do
  let prev ← stateGet .inferVerify s!"{epoch}:{verifier}"
  let tally := prev.getD ⟨verifier, epoch, 0, 0⟩
  stateSet .inferVerify s!"{epoch}:{verifier}"
    ⟨verifier, epoch, wrapAdd tally.count 1, wrapAdd tally.valueScoreTotal valueScore⟩

def applyInferenceJobCommit (p : InferenceJobCommit) : Prog {} Unit := do
  let job ← getJob p.jobId
  ensure (job.status = .completed)
    s!"job '{p.jobId}' must be Completed to accept commits (status: {job.status.name})"
  ensure (p.commitHash.utf8ByteSize = 64 ∧ p.commitHash.toList.all Text.isHexDigit)
    "commit_hash must be a 64-char hex SHA-256"
  ensure (∀ c ∈ job.commits, c.1 ≠ p.verifier)
    s!"verifier '{p.verifier}' already committed for job '{p.jobId}'"
  ensure (job.verifiers = [] ∨ p.verifier ∈ job.verifiers)
    s!"'{p.verifier}' is not an assigned verifier for job '{p.jobId}'"
  setJob { job with commits := job.commits ++ [(p.verifier, p.commitHash)] }
  tallyVerify p.verifier p.epoch 0

/-- The reveal must open the verifier's commit, where commits are switched on. -/
def checkReveal (env : Env) (p : InferenceJobVerify) (job : InferenceJob) :
    Prog {} Unit :=
  match job.commits.find? (·.1 = p.verifier) with
  | none => bail s!"verifier '{p.verifier}' must submit InferenceJobCommit before revealing"
  | some (_, stored) =>
    ensure (env.sha256Hex (p.verdict ++ "|" ++ p.revealSalt.getD "") = stored)
      s!"reveal does not match commit for verifier '{p.verifier}' on job '{p.jobId}'"

/-- Whether the epoch's entropy draws the verifier for the job. -/
def isDrawn (env : Env) (p : InferenceJobVerify) (s : Chain) : Bool :=
  let entropy := (s.stateGet .epochEntropy (toString p.epoch)).getD ""
  match env.sha256 (Text.bytes s!"{entropy}:{p.jobId}:{p.verifier}") with
  | first :: _ => first < verifierThresholdByte
  | [] => false

/-- Settle the board's verdict in the job; a rejection costs the worker. -/
def closeBoard (epoch : ℕ) (job : InferenceJob) : Prog {} InferenceJob :=
  match resolveQuorumVerdict job.verdicts job.minVerifiers with
  | some "approved" => pure { job with status := .verified }
  | some "rejected" => do
    match job.winner with
    | some winner => rerate winner NodeReputation.fail
    | none => pure ()
    pure { job with status := .rejected }
  | some "review_required" =>
    pure { job with status := .disputed, disputedEpoch := some epoch }
  | _ => pure job

def applyInferenceJobVerify (env : Env) (p : InferenceJobVerify) : Prog {} Unit := do
  let job ← getJob p.jobId
  ensure (job.status = .completed) s!"job '{p.jobId}' not in completed state for verification"
  ensure (job.winner ≠ some p.verifier)
    s!"verifier '{p.verifier}' cannot verify their own job '{p.jobId}'"
  when (inferenceCommitRevealEnabled = true) (checkReveal env p job)
  let rep ← inspect (getVerifierRep p.verifier)
  ensure (rep.suspendedUntil ≤ p.epoch)
    s!"verifier '{p.verifier}' is suspended until epoch {rep.suspendedUntil}"
  let drawn ← inspect (isDrawn env p)
  ensure (verifierAssignmentEnabled = true → drawn)
    s!"verifier '{p.verifier}' not assigned to job '{p.jobId}' this epoch"
  ensure (job.verifiers = [] ∨ p.verifier ∈ job.verifiers)
    s!"'{p.verifier}' is not an assigned verifier for job '{p.jobId}'"
  ensure (∀ v ∈ job.verdicts, v.1 ≠ p.verifier)
    s!"verifier '{p.verifier}' already submitted a verdict for '{p.jobId}'"
  ensure (p.verdict ∈ ["approved", "rejected", "review_required"])
    s!"unknown verdict '{p.verdict}' (expected approved|rejected|review_required)"
  let closed ← closeBoard p.epoch { job with verdicts := job.verdicts ++ [(p.verifier, p.verdict)] }
  setJob closed
  tallyVerify p.verifier p.epoch p.valueScore
  stateSet .verifierRep p.verifier (rep.record (p.verdict = "approved"))

def applyInferenceJobClaim (p : InferenceJobClaim) : Prog {} Unit := do
  let job ← getJob p.jobId
  ensure (job.status = .disputed) s!"job '{p.jobId}' is not in review_required state"
  ensure (job.winner = some p.claimant ∨ job.requester = p.claimant)
    s!"only the worker or requester can file a claim on job '{p.jobId}'"
  ensure (p.epoch ≤ wrapAdd (job.disputedEpoch.getD 0) claimWindowEpochs)
    s!"claim window for job '{p.jobId}' has expired"
  setJob { job with status := .claimed, claimedEpoch := some p.epoch }

def applyInferenceReviewVote (p : InferenceReviewVote) : Prog {} Unit := do
  let job ← getJob p.jobId
  ensure (job.status = .claimed) s!"job '{p.jobId}' is not in claimed state"
  let stored ← stateGet .inferVotes p.jobId
  ensure (∀ v ∈ stored.getD [], v.reviewer ≠ p.reviewer)
    s!"reviewer '{p.reviewer}' already voted on job '{p.jobId}'"
  let votes := stored.getD [] ++ [⟨p.reviewer, p.approved, p.epoch⟩]
  stateSet .inferVotes p.jobId votes
  when (minReviewVotes ≤ votes.length) do
    let approvals := (votes.filter (·.approved)).length
    let status : InferenceStatus := if votes.length - approvals < approvals then .reviewed
      else .rejected
    setJob { job with status := status }

/-! ## Settlement -/

def payEach {W : Footprint} : List (String × ℕ) → Prog W Unit
  | [] => pure ()
  | (account, amount) :: rest => do
    credit account nativeToken amount
    payEach rest

/-- Sum of the amounts as unchecked additions leave it. -/
def wrapSum (l : List (String × ℕ)) : ℕ := (l.map (·.2)).sum % 2 ^ 64

/-- Take from each dissenter's stake as much as is there. -/
def slashDissenters {W : Footprint} :
    (l : List (String × ℕ)) → (∀ d ∈ l, d.1 ∈ W.unstakes) → Prog W Unit
  | [], _ => pure ()
  | (dissenter, amount) :: rest, h => do
    let stake ← inspect (·.getStake dissenter)
    when (0 < min amount stake) do
      setStake dissenter (stake - min amount stake) (h (dissenter, amount) (by simp))
      ignoreErr (credit recycleFund nativeToken (min amount stake))
    slashDissenters rest fun d hd => h d (by simp [hd])

def applyInferenceJobPay (p : InferenceJobPay) :
    Prog { pays := {balanceKey recycleFund nativeToken},
           unstakes := { a | ∃ n, (a, n) ∈ p.dissenterSlashes } } Unit := do
  let job ← getJob p.jobId
  ensure (job.status ∈ [.verified, .reviewed, .noFee, .rejected, .completed])
    s!"job '{p.jobId}' not ready for payment (status: {job.status.name})"
  let totalOut := wrapAdd (wrapAdd (wrapAdd (wrapAdd p.workerAmount (wrapSum p.verifierPayments))
    (wrapSum p.reviewerPayments)) p.recycleAmount) p.refundAmount
  debit recycleFund nativeToken totalOut
  when (0 < p.workerAmount) (credit p.worker nativeToken p.workerAmount)
  payEach p.verifierPayments
  payEach p.reviewerPayments
  credit recycleFund nativeToken p.recycleAmount
  when (0 < p.refundAmount) (credit job.requester nativeToken p.refundAmount)
  slashDissenters p.dissenterSlashes fun d hd => ⟨d.2, hd⟩
  setJob { job with settledEpoch := some p.epoch, status := .paid }
  when (¬ job.persistOnFs)
    (stateSet .pruneReady s!"{wrapAdd p.epoch inferencePruneWindowEpochs}:{p.jobId}" p.jobId)
  when (0 < p.workerAmount)
    (stateSet .feeFlow s!"{p.epoch}:{p.jobId}" ⟨job.requester, p.worker, p.workerAmount⟩)

/-- The escrow returns from the recycle fund to the requester. -/
def applyInferenceJobCancel (p : InferenceJobCancel) :
    Prog { pays := {balanceKey recycleFund nativeToken} } Unit := do
  let job ← getJob p.jobId
  ensure (job.status = .posted ∨ job.status = .awarded)
    s!"job '{p.jobId}' cannot be cancelled (status: {job.status.name})"
  when (p.cancelledBy ≠ "system") do
    ensure (p.cancelledBy = job.requester)
      s!"only the requester or system can cancel job '{p.jobId}'"
    ensure (job.status ≠ .awarded)
      s!"requester cannot cancel job '{p.jobId}' after it has been awarded — wait for deadline"
  debit recycleFund nativeToken job.maxFee
  credit job.requester nativeToken job.maxFee
  match job.winner with
  | some winner => rerate winner NodeReputation.fail
  | none => pure ()
  setJob { job with status := .cancelled }

end HoneNode
