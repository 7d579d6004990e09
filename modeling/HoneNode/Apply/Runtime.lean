import HoneNode.Env

/-!
# Apply.Runtime — hosted runtimes and LinkGit

Runtimes post a bond, are deployed on hosts, and execute queued jobs whose fee
waits in an escrow account named after the job. LinkGit keeps repositories,
issues and pull requests as chain records.
-/

namespace HoneNode

open Entry Prog Within

/-! ## Runtimes -/

def bondAccount (runtimeId : String) : String := s!"__runtime_bond_{runtimeId}__"

def jobEscrowAccount (jobId : String) : String := s!"__runtime_job_escrow_{jobId}__"

def applyRuntimeRegister (p : RuntimeRegister) :
    Prog { pays := {balanceKey p.owner nativeToken} } Unit := do
  let existing ← stateGet .runtime p.runtimeId
  ensure existing.isNone s!"runtime '{p.runtimeId}' already registered"
  debit p.owner nativeToken p.bond
  credit (bondAccount p.runtimeId) nativeToken p.bond
  stateSet .runtime p.runtimeId
    { runtimeId := p.runtimeId, owner := p.owner, manifestCid := p.manifestCid,
      runtimeClass := p.runtimeClass, nonce := p.nonce, bond := p.bond, status := "registered",
      deployHost := none, createdEpoch := p.epoch, deployedEpoch := none, undeployedEpoch := none,
      updatedEpoch := p.epoch, lastSlashEpoch := none, lastSlashAmount := none }

def applyRuntimeDeploy (p : RuntimeDeploy) : Prog {} Unit := do
  let found ← stateGet .runtime p.runtimeId
  let prev ← orBail found s!"runtime '{p.runtimeId}' not found"
  ensure (prev.owner = p.owner) "only the runtime owner can deploy"
  ensure (prev.status = "registered" ∨ prev.status = "undeployed")
    s!"runtime '{p.runtimeId}' must be registered or undeployed to deploy (status: {prev.status})"
  stateSet .runtime p.runtimeId
    { prev with
      manifestCid := p.manifestCid.getD prev.manifestCid, deployHost := some p.hostId,
      status := "deployed", deployedEpoch := some p.epoch, undeployedEpoch := none,
      updatedEpoch := p.epoch, lastSlashEpoch := none, lastSlashAmount := none }
  stateSet .runtimeHost p.hostId ⟨p.hostId, "active", some p.epoch, none, p.epoch⟩

def applyRuntimeUndeploy (p : RuntimeUndeploy) : Prog {} Unit := do
  let found ← stateGet .runtime p.runtimeId
  let prev ← orBail found s!"runtime '{p.runtimeId}' not found"
  ensure (prev.owner = p.owner) "only the runtime owner can undeploy"
  stateSet .runtime p.runtimeId
    { prev with status := "undeployed", undeployedEpoch := some p.epoch, updatedEpoch := p.epoch }

/-- The fee is taken from the signer and held under the job's escrow account. -/
def applyRuntimeJobEnqueue (p : RuntimeJobEnqueue) :
    Prog { pays := {balanceKey p.signedBy nativeToken} } Unit := do
  let found ← stateGet .runtime p.runtimeId
  let rt ← orBail found s!"runtime '{p.runtimeId}' not found"
  ensure (rt.status = "deployed")
    s!"runtime '{p.runtimeId}' is not deployed (status: \"{rt.status}\")"
  debit p.signedBy nativeToken p.fee
  credit (jobEscrowAccount p.jobId) nativeToken p.fee
  stateSet .runtimeJob p.jobId
    { jobId := p.jobId, runtimeId := p.runtimeId, jobClass := p.jobClass, dueEpoch := p.dueEpoch,
      payloadCid := p.payloadCid, fee := p.fee, status := "queued", enqueuedBy := p.signedBy,
      enqueuedEpoch := p.epoch, updatedEpoch := p.epoch, leaseId := none, claimedBy := none,
      attestedBy := none, attestationId := none }

def applyRuntimeClaim (p : RuntimeClaim) : Prog {} Unit := do
  let found ← stateGet .runtimeJob p.jobId
  let job ← orBail found s!"job '{p.jobId}' not found"
  ensure (job.status = "queued") s!"job '{p.jobId}' is not queued (status: \"{job.status}\")"
  ensure (job.runtimeId = p.runtimeId) s!"job '{p.jobId}' belongs to a different runtime"
  stateSet .runtimeLease p.leaseId
    ⟨p.leaseId, p.runtimeId, p.jobId, p.hostId, "active", p.epoch, p.expiresEpoch, p.epoch⟩
  stateSet .runtimeHost p.hostId ⟨p.hostId, "active", none, some p.epoch, p.epoch⟩
  stateSet .runtimeJob p.jobId
    { job with status := "claimed", leaseId := some p.leaseId, claimedBy := some p.hostId,
               updatedEpoch := p.epoch }

/-- Four fifths of the escrowed fee to the host, one fifth to the recycle fund. -/
def releaseJobFee (jobId hostId : String) (fee : ℕ) :
    Prog { pays := {balanceKey (jobEscrowAccount jobId) nativeToken} } Unit :=
  when (0 < fee) do
    let hostShare := wrapMul fee 8000 / 10000
    let recycleShare := wrapMul fee 2000 / 10000
    debit (jobEscrowAccount jobId) nativeToken fee
    credit hostId nativeToken hostShare
    when (0 < recycleShare) (credit recycleFund nativeToken recycleShare)

/-- The host that holds the lease reports the output and is paid. -/
def applyRuntimeAttest (p : RuntimeAttest) :
    Prog { pays := {balanceKey (jobEscrowAccount p.jobId) nativeToken} } Unit := do
  let foundJob ← stateGet .runtimeJob p.jobId
  let job ← orBail foundJob s!"job '{p.jobId}' not found"
  let leaseId ← orBail job.leaseId s!"job '{p.jobId}' has no active lease"
  let foundLease ← stateGet .runtimeLease leaseId
  let lease ← orBail foundLease s!"lease '{leaseId}' not found"
  ensure (lease.hostId = p.hostId) s!"host '{p.hostId}' did not claim job '{p.jobId}'"
  ensure (lease.status = "active") s!"lease '{leaseId}' is not active"
  ensure (job.status = "claimed") s!"job '{p.jobId}' is not claimed (status: \"{job.status}\")"
  let rt ← stateGet .runtime p.runtimeId
  match p.runtimeSha, rt with
  | some sha, some r =>
    ensure (sha = r.manifestCid)
      s!"runtime_sha '{sha}' does not match manifest_cid '{r.manifestCid}'"
  | _, _ => pure ()
  releaseJobFee p.jobId p.hostId job.fee
  stateSet .runtimeJob p.jobId
    { job with status := "completed", attestedBy := some p.hostId,
               attestationId := some p.attestationId, updatedEpoch := p.epoch }
  stateSet .runtimeLease leaseId { lease with status := "completed", updatedEpoch := p.epoch }
  stateSet .runtimeAttest p.attestationId
    ⟨p.attestationId, p.runtimeId, p.jobId, p.hostId, p.outputCommitment, p.epoch⟩

def applyRuntimeChallenge (p : RuntimeChallenge) : Prog {} Unit := do
  let attest ← stateGet .runtimeAttest p.attestationId
  ensure attest.isSome s!"attestation '{p.attestationId}' not found"
  stateSet .runtimeChallenge p.challengeId
    ⟨p.challengeId, p.attestationId, p.runtimeId, p.challenger, p.reason, p.evidenceCid, p.epoch⟩

/-- Move at most what the bond still holds to the recycle fund. -/
def applyRuntimeSlash (p : RuntimeSlash) :
    Prog { pays := {balanceKey (bondAccount p.runtimeId) nativeToken} } Unit := do
  let available ← inspect (·.getBalance (bondAccount p.runtimeId) nativeToken)
  let slashed := min p.amount available
  when (0 < slashed) do
    debit (bondAccount p.runtimeId) nativeToken slashed
    credit recycleFund nativeToken slashed
  stateSet .runtimeSlash p.slashId
    ⟨p.slashId, p.runtimeId, p.hostId, p.amount, slashed, p.reason, p.epoch⟩
  stateModify .runtime p.runtimeId fun rt =>
    { rt with lastSlashEpoch := some p.epoch, lastSlashAmount := some slashed }

/-! ## LinkGit repositories -/

/-- Append to an index list unless present. -/
def appendOnce (items : List String) (item : String) : List String :=
  if item ∈ items then items else items ++ [item]

def applyLinkGitRepoCreate (p : LinkGitRepoCreate) : Prog {} Unit := do
  stateSet .linkGitRepo p.repoId
    ⟨p.repoId, p.owner, p.name, p.visibility, p.hideKey, ∅, p.epoch⟩
  stateSet .linkGitByName s!"{p.owner}:{p.name}" p.repoId

def applyLinkGitRefUpdate (p : LinkGitRefUpdate) : Prog {} Unit := do
  stateModify .linkGitRepo p.repoId fun repo =>
    { repo with refs := repo.refs.put p.refName p.commitHash }
  let prev ← stateGet .linkGitBuild s!"{p.epoch}:{p.signedBy}"
  stateSet .linkGitBuild s!"{p.epoch}:{p.signedBy}" (wrapAdd (prev.getD 0) 1)
  let builders ← stateGet .linkGitBuilders s!"{p.epoch}"
  stateSet .linkGitBuilders s!"{p.epoch}" (appendOnce (builders.getD []) p.signedBy)

def applyLinkGitAccessGrant (p : LinkGitAccessGrant) : Prog {} Unit :=
  stateSet .linkGitAccess s!"{p.repoId}:{p.grantee}" p.encryptedKey

def applyLinkGitAccessRevoke (p : LinkGitAccessRevoke) : Prog {} Unit :=
  stateDelete .linkGitAccess s!"{p.repoId}:{p.grantee}"

/-- A fetch counts once per requester and epoch. -/
def applyLinkGitServeHeartbeat (p : LinkGitServeHeartbeat) : Prog {} Unit := do
  let key := s!"{p.epoch}:{p.repoId}:{p.requesterHash}"
  let seen ← stateGet .linkGitServeDedup key
  when seen.isNone do
    stateSet .linkGitServeDedup key ()
    let count ← stateGet .linkGitServeCount s!"{p.epoch}:{p.repoId}"
    stateSet .linkGitServeCount s!"{p.epoch}:{p.repoId}" (wrapAdd (count.getD 0) 1)
    let repos ← stateGet .linkGitServedRepos s!"{p.epoch}"
    stateSet .linkGitServedRepos s!"{p.epoch}" (appendOnce (repos.getD []) p.repoId)

def applyLinkGitServeReward (p : LinkGitServeReward) : Prog {} Unit :=
  credit p.owner nativeToken p.amount

def applyLinkGitBuildReward (p : LinkGitBuildReward) : Prog {} Unit :=
  credit p.builder nativeToken p.amount

/-! ## LinkGit issues and pull requests -/

def applyLinkGitIssueCreate (p : LinkGitIssueCreate) : Prog {} Unit := do
  stateSet .linkGitIssue s!"{p.repoId}:{p.issueId}"
    ⟨p.issueId, p.repoId, p.title, p.body, p.labels, p.author, "open", [], p.epoch, p.epoch, none,
      none⟩
  let ids ← stateGet .linkGitIssues p.repoId
  stateSet .linkGitIssues p.repoId (appendOnce (ids.getD []) p.issueId)

def applyLinkGitIssueComment (p : LinkGitIssueComment) : Prog {} Unit :=
  stateModify .linkGitIssue s!"{p.repoId}:{p.issueId}" fun i =>
    { i with comments := i.comments ++ [⟨p.commentId, p.body, p.author, p.epoch⟩],
             updatedEpoch := p.epoch }

def applyLinkGitIssueClose (p : LinkGitIssueClose) : Prog {} Unit :=
  stateModify .linkGitIssue s!"{p.repoId}:{p.issueId}" fun i =>
    { i with status := "closed", resolution := p.resolution.or i.resolution,
             closedEpoch := some p.epoch, updatedEpoch := p.epoch }

def applyLinkGitIssueReopen (p : LinkGitIssueReopen) : Prog {} Unit :=
  stateModify .linkGitIssue s!"{p.repoId}:{p.issueId}" fun i =>
    { i with status := "open", updatedEpoch := p.epoch }

def applyLinkGitPrCreate (p : LinkGitPrCreate) : Prog {} Unit := do
  stateSet .linkGitPr s!"{p.repoId}:{p.prId}"
    ⟨p.prId, p.repoId, p.title, p.body, p.sourceBranch, p.targetBranch, p.headCommit, p.author,
      "open", [], p.epoch, p.epoch, none, none, none⟩
  let ids ← stateGet .linkGitPrs p.repoId
  stateSet .linkGitPrs p.repoId (appendOnce (ids.getD []) p.prId)

def applyLinkGitPrComment (p : LinkGitPrComment) : Prog {} Unit :=
  stateModify .linkGitPr s!"{p.repoId}:{p.prId}" fun i =>
    { i with comments := i.comments ++ [⟨p.commentId, p.body, p.author, p.epoch⟩],
             updatedEpoch := p.epoch }

def applyLinkGitPrMerge (p : LinkGitPrMerge) : Prog {} Unit :=
  stateModify .linkGitPr s!"{p.repoId}:{p.prId}" fun i =>
    { i with status := "merged", mergeCommit := some p.mergeCommit, mergedEpoch := some p.epoch,
             updatedEpoch := p.epoch }

def applyLinkGitPrClose (p : LinkGitPrClose) : Prog {} Unit :=
  stateModify .linkGitPr s!"{p.repoId}:{p.prId}" fun i =>
    { i with status := "closed", closedEpoch := some p.epoch, updatedEpoch := p.epoch }

end HoneNode
