import HoneNode.ClockNodes.Registered
import HoneNode.Lib.Trace
import HoneNode.Rewards.Holdings

/-!
# Runtimes — fees and bonds of hosted runtimes

The fee of a job waits in an account of its own from the enqueueing to the
attestation, and the bond of a runtime in another. Nothing ties the two to the
records beyond the arms themselves: a second job of the same id overwrites the
record and adds to the escrow, a second claim under a lease id overwrites the
lease of the first, a fee is split in two shares that are rounded down one by
one, no arm looks at the end of a lease, and anybody may slash.
-/

namespace HoneNode.Runtimes

open Entry Prog Within Trace

/-! ## Accounts -/

theorem jobEscrowAccount_inj {i j : String} :
    jobEscrowAccount i = jobEscrowAccount j ↔ i = j := by
  constructor
  · intro h
    have hfront := (String.append_left_inj "__").1 h
    exact (String.append_right_inj _).1 hfront
  · rintro rfl
    rfl

theorem bondAccount_inj {i j : String} : bondAccount i = bondAccount j ↔ i = j := by
  constructor
  · intro h
    have hfront := (String.append_left_inj "__").1 h
    exact (String.append_right_inj _).1 hfront
  · rintro rfl
    rfl

theorem getElem?_wrapped {front id : String} {n : ℕ} (h : n < front.toList.length) :
    (front ++ id ++ "__").toList[n]? = front.toList[n]? := by
  rw [String.toList_append, String.toList_append, List.append_assoc, List.getElem?_append_left h]

/-- The letter behind `__runtime_` tells them apart. -/
theorem bondAccount_ne_jobEscrowAccount (i j : String) : bondAccount i ≠ jobEscrowAccount j := by
  intro h
  have hwrapped : "__runtime_bond_" ++ i ++ "__" = "__runtime_job_escrow_" ++ j ++ "__" := h
  have hletter := congrArg (fun text : String => text.toList[10]?) hwrapped
  rw [getElem?_wrapped (by decide), getElem?_wrapped (by decide)] at hletter
  exact absurd hletter (by decide)

theorem recycleFund_ne_jobEscrowAccount (j : String) : recycleFund ≠ jobEscrowAccount j := by
  intro h
  have hwrapped : recycleFund = "__runtime_job_escrow_" ++ j ++ "__" := h
  have hletter := congrArg (fun text : String => text.toList[3]?) hwrapped
  rw [getElem?_wrapped (by decide)] at hletter
  exact absurd hletter (by decide)

/-- The account is none of the escrows. -/
structure Outsider (a : String) : Prop where
  job : ∀ id, a ≠ jobEscrowAccount id
  bond : ∀ id, a ≠ bondAccount id

/-! ## What a job is owed -/

/-- What the escrow of the job has to hold. -/
def due (job : RuntimeJob) : ℕ := if job.status = "completed" then 0 else job.fee

/-- What the escrow account of an id has to hold. -/
def owed (s : Chain) (id : String) : ℕ := (s.stateGet .runtimeJob id).elim 0 due

section Owed

variable {s t : Chain} {id key : String} {job : RuntimeJob}

theorem owed_of_get (h : s.stateGet .runtimeJob id = some job) : owed s id = due job := by
  unfold owed
  rw [h, Option.elim_some]

theorem due_of_open (h : job.status ≠ "completed") : due job = job.fee := if_neg h

theorem owed_congr (h : t.state .runtimeJob = s.state .runtimeJob) (id : String) :
    owed t id = owed s id := by
  unfold owed
  rw [stateGet_of_state h]

theorem owed_stateSet :
    owed (s.stateSet .runtimeJob key job) id = if key = id then due job else owed s id := by
  unfold owed
  rw [stateGet_stateSet]
  split <;> rfl

end Owed

/-- `t` comes from `s` without any change to the jobs, their leases and their escrows. -/
structure Quiet (s t : Chain) : Prop where
  held : ∀ id, native t (jobEscrowAccount id) = native s (jobEscrowAccount id)
  jobs : t.state .runtimeJob = s.state .runtimeJob
  leases : t.state .runtimeLease = s.state .runtimeLease

instance : IsPreorder Chain Quiet where
  refl := fun _ => ⟨fun _ => rfl, rfl, rfl⟩
  trans := fun _ _ _ h h' => ⟨fun id => (h'.held id).trans (h.held id), h'.jobs.trans h.jobs,
    h'.leases.trans h.leases⟩

theorem Quiet.owed {s t : Chain} (h : Quiet s t) (id : String) : owed t id = owed s id :=
  owed_congr h.jobs id

section Quiet

variable {s : Chain} {F : Footprint} {a : String} {n : ℕ}

theorem quiet_credited (h : ∀ id, a ≠ jobEscrowAccount id) :
    Quiet s (s.credited a nativeToken n) where
  held := by
    intro id
    rw [native_credited, if_neg (h id), Nat.add_zero]
  jobs := rfl
  leases := rfl

theorem quiet_debited (h : ∀ id, a ≠ jobEscrowAccount id) :
    Quiet s (s.debited a nativeToken n) where
  held := by
    intro id
    rw [native_debited, if_neg (h id), Nat.sub_zero]
  jobs := rfl
  leases := rfl

theorem quiet_stateSet {f : Family} (hf : f ≠ .runtimeJob) (hl : f ≠ .runtimeLease)
    (key : String) (v : f.Val) : Quiet s (s.stateSet f key v) where
  held := fun _ => rfl
  jobs := s.state_stateSet_of_ne hf.symm key v
  leases := s.state_stateSet_of_ne hl.symm key v

theorem along_credit (h : ∀ id, a ≠ jobEscrowAccount id) :
    Along Quiet (credit a nativeToken n : Prog F Unit) := by
  intro s
  rw [run_credit]
  split
  · exact quiet_credited h
  · exact refl_of Quiet s

theorem along_debit (h : ∀ id, a ≠ jobEscrowAccount id) (hp : balanceKey a nativeToken ∈ F.pays) :
    Along Quiet (debit a nativeToken n hp) := by
  intro s
  rw [run_debit]
  split
  · exact quiet_debited h
  · exact refl_of Quiet s

theorem along_stateSet {f : Family} (hf : f ≠ .runtimeJob) (hl : f ≠ .runtimeLease)
    (key : String) (v : f.Val) (h : f.guarded = false ∨ f ∈ F.grants) :
    Along Quiet (Prog.stateSet f key v h) := fun _ => quiet_stateSet hf hl key v

theorem along_ensure {c : Prop} [Decidable c] {msg : String} :
    Along Quiet (ensure c msg : Prog F Unit) := (along_pure ()).ite along_fail

theorem along_orBail {α : Type} {o : Option α} {msg : String} :
    Along Quiet (orBail o msg : Prog F α) := by
  cases o with
  | none => exact along_fail
  | some v => exact along_pure v

theorem along_when {c : Prop} [Decidable c] {m : Prog F Unit} (h : Along Quiet m) :
    Along Quiet (when c m) := h.ite (along_pure ())

/-! ### Arms that are no job's business -/

theorem along_register {p : RuntimeRegister} (h : Outsider p.owner) :
    Along Quiet (applyRuntimeRegister p) := by
  refine along_inspect.bind fun _ => along_ensure.bind fun _ => ?_
  refine (along_debit h.job _).bind fun _ => ?_
  refine (along_credit (bondAccount_ne_jobEscrowAccount p.runtimeId)).bind fun _ => ?_
  exact along_stateSet (by decide) (by decide) _ _ _

theorem along_deploy (p : RuntimeDeploy) : Along Quiet (applyRuntimeDeploy p) := by
  refine along_inspect.bind fun _ => along_orBail.bind fun _ => ?_
  refine along_ensure.bind fun _ => along_ensure.bind fun _ => ?_
  exact (along_stateSet (by decide) (by decide) _ _ _).bind fun _ =>
    along_stateSet (by decide) (by decide) _ _ _

theorem along_undeploy (p : RuntimeUndeploy) : Along Quiet (applyRuntimeUndeploy p) := by
  refine along_inspect.bind fun _ => along_orBail.bind fun _ => ?_
  exact along_ensure.bind fun _ => along_stateSet (by decide) (by decide) _ _ _

theorem along_slash (p : RuntimeSlash) : Along Quiet (applyRuntimeSlash p) := by
  refine along_inspect.bind fun _ => ?_
  refine Along.bind (along_when ?_) fun _ => ?_
  · refine (along_debit (bondAccount_ne_jobEscrowAccount p.runtimeId) _).bind fun _ => ?_
    exact along_credit recycleFund_ne_jobEscrowAccount
  · refine (along_stateSet (by decide) (by decide) _ _ _).bind fun _ => along_inspect.bind fun found => ?_
    cases found with
    | none => exact along_pure ()
    | some rt => exact along_stateSet (by decide) (by decide) _ _ _

end Quiet

/-! ## Enqueueing -/

/-- The job is taken: its runtime is deployed, and the signer can pay into the escrow. -/
structure Enqueues (s : Chain) (p : RuntimeJobEnqueue) : Prop where
  deployed : ∃ rt, s.stateGet .runtime p.runtimeId = some rt ∧ rt.status = "deployed"
  covered : p.fee ≤ native s p.signedBy
  fits : native (s.debited p.signedBy nativeToken p.fee) (jobEscrowAccount p.jobId) + p.fee < 2 ^ 64

/-- The record of a new job. -/
def queuedJob (p : RuntimeJobEnqueue) : RuntimeJob :=
  { jobId := p.jobId, runtimeId := p.runtimeId, jobClass := p.jobClass, dueEpoch := p.dueEpoch,
    payloadCid := p.payloadCid, fee := p.fee, status := "queued", enqueuedBy := p.signedBy,
    enqueuedEpoch := p.epoch, updatedEpoch := p.epoch, leaseId := none, claimedBy := none,
    attestedBy := none, attestationId := none }

section Enqueue

variable {s : Chain} {p : RuntimeJobEnqueue}

theorem run_enqueue (h : ∀ id, p.signedBy ≠ jobEscrowAccount id) :
    (¬ Enqueues s p ∧ Quiet s ((applyRuntimeJobEnqueue p).run s).2) ∨
      Enqueues s p ∧ (applyRuntimeJobEnqueue p).run s =
        (.ok (), ((s.debited p.signedBy nativeToken p.fee).credited (jobEscrowAccount p.jobId)
          nativeToken p.fee).stateSet .runtimeJob p.jobId (queuedJob p)) := by
  unfold applyRuntimeJobEnqueue
  rw [run_stateGet_bind]
  cases hrt : s.stateGet .runtime p.runtimeId with
  | none =>
    refine .inl ⟨?_, refl_of Quiet s⟩
    rintro ⟨⟨rt, hget, -⟩, -, -⟩
    rw [hrt] at hget
    cases hget
  | some rt =>
    rw [run_bind_ok (run_orBail_some _ _ _)]
    by_cases hdeployed : rt.status = "deployed"
    case neg =>
      rw [run_bind_error (by rw [run_ensure, if_neg hdeployed])]
      refine .inl ⟨?_, refl_of Quiet s⟩
      rintro ⟨⟨rt', hget, hstatus⟩, -, -⟩
      rw [hrt] at hget
      cases hget
      exact hdeployed hstatus
    rw [run_ensure_bind hdeployed]
    by_cases hcovered : p.fee ≤ native s p.signedBy
    case neg =>
      rw [run_bind_error (by rw [run_debit, if_neg hcovered])]
      exact .inl ⟨fun h => hcovered h.covered, refl_of Quiet s⟩
    rw [run_debit_bind hcovered]
    by_cases hfits : native (s.debited p.signedBy nativeToken p.fee) (jobEscrowAccount p.jobId) +
        p.fee < 2 ^ 64
    case neg =>
      rw [run_bind_error (by rw [run_credit, if_neg hfits])]
      exact .inl ⟨fun h => hfits h.fits, quiet_debited h⟩
    rw [run_credit_bind hfits]
    exact .inr ⟨⟨⟨rt, hrt, hdeployed⟩, hcovered, hfits⟩, rfl⟩

end Enqueue

/-! ## Claiming -/

/-- The claim passes the checks of the arm. -/
structure Claims (s : Chain) (p : RuntimeClaim) (job : RuntimeJob) : Prop where
  found : s.stateGet .runtimeJob p.jobId = some job
  queued : job.status = "queued"
  runtime : job.runtimeId = p.runtimeId

def claimedJob (p : RuntimeClaim) (job : RuntimeJob) : RuntimeJob :=
  { job with status := "claimed", leaseId := some p.leaseId, claimedBy := some p.hostId,
             updatedEpoch := p.epoch }

/-- The records a claim leaves. -/
def claimed (s : Chain) (p : RuntimeClaim) (job : RuntimeJob) : Chain :=
  ((s.stateSet .runtimeLease p.leaseId
    ⟨p.leaseId, p.runtimeId, p.jobId, p.hostId, "active", p.epoch, p.expiresEpoch,
      p.epoch⟩).stateSet .runtimeHost p.hostId
    ⟨p.hostId, "active", none, some p.epoch, p.epoch⟩).stateSet .runtimeJob p.jobId
    (claimedJob p job)

section Claim

variable {s : Chain} {p : RuntimeClaim} {job : RuntimeJob}

theorem run_claim : Refused s ((applyRuntimeClaim p).run s) ∨
    ∃ job, Claims s p job ∧ (applyRuntimeClaim p).run s = (.ok (), claimed s p job) := by
  unfold applyRuntimeClaim
  rw [run_stateGet_bind]
  cases hjob : s.stateGet .runtimeJob p.jobId with
  | none => exact .inl ⟨_, rfl⟩
  | some job =>
  rw [run_bind_ok (run_orBail_some _ _ _)]
  by_cases hqueued : job.status = "queued"
  case neg => exact .inl ⟨_, run_bind_error (by rw [run_ensure, if_neg hqueued])⟩
  rw [run_ensure_bind hqueued]
  by_cases hruntime : job.runtimeId = p.runtimeId
  case neg => exact .inl ⟨_, run_bind_error (by rw [run_ensure, if_neg hruntime])⟩
  rw [run_ensure_bind hruntime]
  exact .inr ⟨job, ⟨hjob, hqueued, hruntime⟩, rfl⟩

/-- A claim keeps the fee and does not complete the job. -/
theorem owed_claimed (h : Claims s p job) (id : String) :
    owed (claimed s p job) id = owed s id := by
  rw [claimed, owed_stateSet]
  split
  · next hid =>
    have hclaimed : ("claimed" : String) ≠ "completed" := by decide
    have hopen : job.status ≠ "completed" := by
      rw [h.queued]
      decide
    rw [← hid, owed_of_get h.found, due_of_open hopen]
    exact due_of_open hclaimed
  · exact owed_congr ((state_stateSet_of_ne _ (by decide) _ _).trans
      (state_stateSet_of_ne _ (by decide) _ _)) id

end Claim

/-! ## Attesting -/

def hostShare (fee : ℕ) : ℕ := wrapMul fee 8000 / 10000
def recycleShare (fee : ℕ) : ℕ := wrapMul fee 2000 / 10000

/-- The two shares make up the fee exactly where it splits in five and the product fits. -/
theorem shares_eq_iff {fee : ℕ} (h : fee < 2 ^ 64) :
    hostShare fee + recycleShare fee = fee ↔ fee % 5 = 0 ∧ fee * 8000 < 2 ^ 64 := by
  unfold hostShare recycleShare wrapMul
  by_cases hbound : fee * 8000 < 2 ^ 64
  · have hle : fee * 2000 ≤ fee * 8000 := Nat.mul_le_mul_left fee (by decide)
    have hsmall : fee * 2000 < 2 ^ 64 := hle.trans_lt hbound
    rw [Nat.mod_eq_of_lt hbound, Nat.mod_eq_of_lt hsmall]
    omega
  · -- what wraps around is lost
    have hhost : fee * 8000 % 2 ^ 64 + 2 ^ 64 ≤ fee * 8000 := by
      have hsplit := Nat.mod_add_div (fee * 8000) (2 ^ 64)
      have hquot : 1 ≤ fee * 8000 / 2 ^ 64 := Nat.div_pos (not_lt.1 hbound) (by decide)
      omega
    have hrecycle := Nat.mod_le (fee * 2000) (2 ^ 64)
    refine iff_of_false ?_ fun h => hbound h.2
    omega

/-- The attestation passes the checks of the arm. -/
structure Attests (s : Chain) (p : RuntimeAttest) (job : RuntimeJob) (leaseId : String)
    (lease : RuntimeLease) : Prop where
  found : s.stateGet .runtimeJob p.jobId = some job
  named : job.leaseId = some leaseId
  leased : s.stateGet .runtimeLease leaseId = some lease
  host : lease.hostId = p.hostId
  active : lease.status = "active"
  claimed : job.status = "claimed"
  sha : ∀ sha rt, p.runtimeSha = some sha → s.stateGet .runtime p.runtimeId = some rt →
    sha = rt.manifestCid

/-- The records an attestation leaves. -/
def attested (s : Chain) (p : RuntimeAttest) (job : RuntimeJob) (leaseId : String)
    (lease : RuntimeLease) : Chain :=
  ((s.stateSet .runtimeJob p.jobId
    { job with status := "completed", attestedBy := some p.hostId,
               attestationId := some p.attestationId, updatedEpoch := p.epoch }).stateSet
    .runtimeLease leaseId { lease with status := "completed", updatedEpoch := p.epoch }).stateSet
    .runtimeAttest p.attestationId
      ⟨p.attestationId, p.runtimeId, p.jobId, p.hostId, p.outputCommitment, p.epoch⟩

section Attest

variable {s : Chain} {p : RuntimeAttest}

/-- An attestation that passes its checks pays the fee out, and on success leaves its records. -/
theorem run_attest : Refused s ((applyRuntimeAttest p).run s) ∨
    ∃ job leaseId lease, Attests s p job leaseId lease ∧ (applyRuntimeAttest p).run s =
      match (releaseJobFee p.jobId p.hostId job.fee).run s with
      | (.ok (), t) => (.ok (), attested t p job leaseId lease)
      | (.error e, t) => (.error e, t) := by
  unfold applyRuntimeAttest
  rw [run_stateGet_bind]
  cases hjob : s.stateGet .runtimeJob p.jobId with
  | none => exact .inl ⟨_, rfl⟩
  | some job =>
  rw [run_bind_ok (run_orBail_some _ _ _)]
  rcases Option.eq_none_or_eq_some job.leaseId with hnone | ⟨leaseId, hnamed⟩
  · exact .inl ⟨_, run_bind_error (by rw [hnone, run_orBail_none])⟩
  rw [run_bind_ok (by rw [hnamed, run_orBail_some]), run_stateGet_bind]
  cases hleased : s.stateGet .runtimeLease leaseId with
  | none => exact .inl ⟨_, rfl⟩
  | some lease =>
  rw [run_bind_ok (run_orBail_some _ _ _)]
  by_cases hhost : lease.hostId = p.hostId
  case neg => exact .inl ⟨_, run_bind_error (by rw [run_ensure, if_neg hhost])⟩
  rw [run_ensure_bind hhost]
  by_cases hactive : lease.status = "active"
  case neg => exact .inl ⟨_, run_bind_error (by rw [run_ensure, if_neg hactive])⟩
  rw [run_ensure_bind hactive]
  by_cases hclaimed : job.status = "claimed"
  case neg => exact .inl ⟨_, run_bind_error (by rw [run_ensure, if_neg hclaimed])⟩
  rw [run_ensure_bind hclaimed, run_stateGet_bind]
  have hpasses : (∀ sha rt, p.runtimeSha = some sha → s.stateGet .runtime p.runtimeId = some rt →
      sha = rt.manifestCid) → Attests s p job leaseId lease :=
    fun hsha => ⟨hjob, hnamed, hleased, hhost, hactive, hclaimed, hsha⟩
  have hpays : ((releaseJobFee p.jobId p.hostId job.fee >>= fun _ => do
      stateSet .runtimeJob p.jobId
        { job with status := "completed", attestedBy := some p.hostId,
                   attestationId := some p.attestationId, updatedEpoch := p.epoch }
      stateSet .runtimeLease leaseId { lease with status := "completed", updatedEpoch := p.epoch }
      stateSet .runtimeAttest p.attestationId
        ⟨p.attestationId, p.runtimeId, p.jobId, p.hostId, p.outputCommitment, p.epoch⟩).run s) =
      match (releaseJobFee p.jobId p.hostId job.fee).run s with
      | (.ok (), t) => (.ok (), attested t p job leaseId lease)
      | (.error e, t) => (.error e, t) := by
    rw [run_bind]
    rcases (releaseJobFee p.jobId p.hostId job.fee).run s with ⟨_ | _, t⟩ <;> rfl
  cases hsha : p.runtimeSha with
  | none =>
    refine .inr ⟨job, leaseId, lease, hpasses fun sha rt h => ?_, hpays⟩
    rw [hsha] at h
    cases h
  | some sha =>
    cases hrt : s.stateGet .runtime p.runtimeId with
    | none =>
      refine .inr ⟨job, leaseId, lease, hpasses fun sha rt _ h => ?_, hpays⟩
      rw [hrt] at h
      cases h
    | some rt =>
      dsimp only
      by_cases hmatch : sha = rt.manifestCid
      · rw [run_ensure_bind hmatch]
        refine .inr ⟨job, leaseId, lease, hpasses fun sha' rt' hs hr => ?_, hpays⟩
        rw [hsha] at hs
        rw [hrt] at hr
        cases hs
        cases hr
        exact hmatch
      · exact .inl ⟨_, run_bind_error (by rw [run_ensure, if_neg hmatch])⟩

/-- The attestation can be paid in full, and its lease still runs. -/
structure PaysOut (s : Chain) (p : RuntimeAttest) (job : RuntimeJob) (lease : RuntimeLease) :
    Prop where
  fifths : job.fee % 5 = 0 ∧ job.fee * 8000 < 2 ^ 64
  host : ∀ id, p.hostId ≠ jobEscrowAccount id
  hostFits : native s p.hostId + hostShare job.fee < 2 ^ 64
  recycleFits : native s recycleFund + (if p.hostId = recycleFund then hostShare job.fee else 0) +
    recycleShare job.fee < 2 ^ 64
  unexpired : s.currentEpoch ≤ lease.expiresEpoch

/-- The fee leaves the escrow, in a share for the host and one for the recycle fund. -/
structure PaidOut (s t : Chain) (p : RuntimeAttest) (fee : ℕ) : Prop where
  whole : hostShare fee + recycleShare fee = fee
  moved : ∀ a, native t a = native s a - (if jobEscrowAccount p.jobId = a then fee else 0) +
    (if p.hostId = a then hostShare fee else 0) + (if recycleFund = a then recycleShare fee else 0)

theorem run_release {job : RuntimeJob} {lease : RuntimeLease} (h : PaysOut s p job lease)
    (hheld : job.fee ≤ native s (jobEscrowAccount p.jobId)) :
    ∃ t, (releaseJobFee p.jobId p.hostId job.fee).run s = (.ok (), t) ∧ t.state = s.state ∧
      PaidOut s t p job.fee := by
  obtain ⟨hfifths, hhost, hhostFits, hrecycleFits, -⟩ := h
  have hwhole : hostShare job.fee + recycleShare job.fee = job.fee :=
    (shares_eq_iff (by omega)).2 hfifths
  unfold releaseJobFee
  rw [run_when]
  by_cases hpos : 0 < job.fee
  case neg =>
    rw [if_neg hpos]
    refine ⟨s, rfl, rfl, hwhole, fun a => ?_⟩
    have hzero : job.fee = 0 := Nat.eq_zero_of_not_pos hpos
    have hshares : hostShare job.fee = 0 ∧ recycleShare job.fee = 0 := by omega
    rw [hshares.1, hshares.2, hzero]
    simp only [ite_self, Nat.sub_zero, Nat.add_zero]
  rw [if_pos hpos]
  have hne := hhost p.jobId
  have hnr := recycleFund_ne_jobEscrowAccount p.jobId
  have hcredit : native (s.debited (jobEscrowAccount p.jobId) nativeToken job.fee) p.hostId +
      hostShare job.fee < 2 ^ 64 := by
    rw [native_debited, if_neg hne.symm]
    exact hhostFits
  rw [run_debit_bind hheld,
    run_bind_ok (by rw [run_credit]; exact if_pos hcredit), run_when]
  by_cases hshare : 0 < recycleShare job.fee
  · have hroom : native ((s.debited (jobEscrowAccount p.jobId) nativeToken job.fee).credited
        p.hostId nativeToken (hostShare job.fee)) recycleFund + recycleShare job.fee < 2 ^ 64 := by
      rw [native_credited, native_debited, if_neg hnr.symm]
      exact hrecycleFits
    refine ⟨((s.debited (jobEscrowAccount p.jobId) nativeToken job.fee).credited p.hostId
      nativeToken (hostShare job.fee)).credited recycleFund nativeToken (recycleShare job.fee),
      (if_pos hshare).trans (by rw [run_credit]; exact if_pos hroom), rfl, hwhole, fun a => ?_⟩
    rw [native_credited, native_credited, native_debited]
  · refine ⟨(s.debited (jobEscrowAccount p.jobId) nativeToken job.fee).credited p.hostId
      nativeToken (hostShare job.fee), if_neg hshare, rfl, hwhole, fun a => ?_⟩
    have hzero : recycleShare job.fee = 0 := Nat.eq_zero_of_not_pos hshare
    rw [native_credited, native_debited, hzero, ite_self, Nat.add_zero]

end Attest

/-! ## The system -/

inductive Op where
  | register (p : RuntimeRegister)
  | deploy (p : RuntimeDeploy)
  | undeploy (p : RuntimeUndeploy)
  | enqueue (p : RuntimeJobEnqueue)
  | claim (p : RuntimeClaim)
  | attest (p : RuntimeAttest)
  | slash (p : RuntimeSlash)

def Op.entry : Op → LedgerEntry
  | .register p => .runtimeRegister p
  | .deploy p => .runtimeDeploy p
  | .undeploy p => .runtimeUndeploy p
  | .enqueue p => .runtimeJobEnqueue p
  | .claim p => .runtimeClaim p
  | .attest p => .runtimeAttest p
  | .slash p => .runtimeSlash p

/-- What the arm of the entry does; none of them reads the clock. -/
def Op.run (env : Env) (s : Chain) (op : Op) : Except Fault Unit × Chain :=
  applyEntry env 0 op.entry s

/-- The lease that a claimed job names is a lease of that job. -/
def Tied (s : Chain) : Prop :=
  ∀ id job leaseId lease, s.stateGet .runtimeJob id = some job → job.status = "claimed" →
    job.leaseId = some leaseId → s.stateGet .runtimeLease leaseId = some lease → lease.jobId = id

/-- What every step has to keep. -/
structure Kept (s : Chain) : Prop where
  held : ∀ id, native s (jobEscrowAccount id) = owed s id
  tied : Tied s

/-- From a state in which the escrows hold what they have to and the leases are those of their
jobs: the entries in any order, and in between whatever leaves these alone. -/
def hosting (env : Env) : Component Chain Op where
  init := Kept
  step := fun s op => (op.run env s).2
  other := Quiet

/-- A clock node of the current epoch, or a member of the council. -/
def MaySlash (env : Env) (s : Chain) (a : String) : Prop :=
  a ∈ ClockNodes.registeredClockNodes env s s.currentEpoch ∨ a ∈ governanceKeys env s

/-- No escrow acts as a party, a job id is used again only once its escrow is empty, and a lease
id only once no claimed job names it; attestations are paid in full and in time, and bonds are
slashed by those who may. -/
def Lawful (env : Env) (s : Chain) : Op → Prop
  | .register p => Outsider p.owner
  | .deploy _ => True
  | .undeploy _ => True
  | .enqueue p => Outsider p.signedBy ∧ (Enqueues s p → owed s p.jobId = 0)
  | .claim p => (∃ job, Claims s p job) → ∀ id job, s.stateGet .runtimeJob id = some job →
      job.status = "claimed" → job.leaseId ≠ some p.leaseId
  | .attest p => ∀ job leaseId lease, Attests s p job leaseId lease → PaysOut s p job lease
  | .slash p => 0 < min p.amount (native s (bondAccount p.runtimeId)) → MaySlash env s p.signedBy

/-- The escrows hold what they have to, every accepted attestation was paid in full under a
running lease of its job, and only who may slash has lowered a bond. -/
structure InOrder (env : Env) (hist : List (Chain × Op)) (s : Chain) : Prop where
  held : ∀ id, native s (jobEscrowAccount id) = owed s id
  paid : ∀ t p, (t, Op.attest p) ∈ hist → ((Op.attest p).run env t).1 = .ok () →
    ∃ job leaseId lease, Attests t p job leaseId lease ∧ lease.jobId = p.jobId ∧
      t.currentEpoch ≤ lease.expiresEpoch ∧ PaidOut t ((Op.attest p).run env t).2 p job.fee
  bonds : ∀ t op, (t, op) ∈ hist → ∀ id,
    native (op.run env t).2 (bondAccount id) < native t (bondAccount id) →
      ∃ p, op = .slash p ∧ p.runtimeId = id ∧ MaySlash env t p.signedBy

section Runs

variable {env : Env} {s t : Chain} {hist : List (Chain × Op)}

/-- A row that an entry does not pay from is not lowered. -/
theorem native_le_of_pays {W : Footprint} {m : Prog W Unit} {a : String}
    (h : balanceKey a nativeToken ∉ W.pays) : native s a ≤ native (m.run s).2 a :=
  (m.within s).balance _ h

theorem native_le_of_ne {P : Set String} {m : Prog { pays := P } Unit} {a b : String}
    (hP : P = {balanceKey b nativeToken}) (h : a ≠ b) : native s a ≤ native (m.run s).2 a := by
  refine native_le_of_pays ?_
  change balanceKey a nativeToken ∉ P
  rw [hP, Set.mem_singleton_iff]
  exact fun heq => h (balanceKey_native_inj.1 heq)

/-- A slash of nothing only leaves its records. -/
theorem native_slash_of_nothing {p : RuntimeSlash} {a : String}
    (h : ¬ 0 < min p.amount (native s (bondAccount p.runtimeId))) :
    native ((applyRuntimeSlash p).run s).2 a = native s a := by
  unfold applyRuntimeSlash
  rw [run_inspect_bind]
  dsimp only
  rw [run_bind_ok (by rw [run_when]; exact if_neg h), run_stateSet_bind]
  unfold stateModify
  rw [run_stateGet_bind]
  split <;> rfl

theorem held_of_enqueue {p : RuntimeJobEnqueue} (hop : Lawful env s (.enqueue p))
    (h : ∀ id, native s (jobEscrowAccount id) = owed s id) (id : String) :
    native ((Op.enqueue p).run env s).2 (jobEscrowAccount id) =
      owed ((Op.enqueue p).run env s).2 id := by
  have hrun : (Op.enqueue p).run env s = (applyRuntimeJobEnqueue p).run s := rfl
  rw [hrun]
  rcases run_enqueue (s := s) hop.1.job with ⟨-, hquiet⟩ | ⟨henqueues, hdone⟩
  · rw [hquiet.held, hquiet.owed, h]
  · rw [hdone]
    change native ((s.debited p.signedBy nativeToken p.fee).credited (jobEscrowAccount p.jobId)
      nativeToken p.fee) (jobEscrowAccount id) = _
    rw [native_credited, native_debited, if_neg (hop.1.job id), owed_stateSet, h]
    simp only [jobEscrowAccount_inj]
    split
    · next hid =>
      have hopen : (queuedJob p).status ≠ "completed" := by
        change ("queued" : String) ≠ "completed"
        decide
      rw [← hid, hop.2 henqueues, due_of_open hopen]
      exact Nat.zero_add _
    · rfl

variable {p : RuntimeAttest}

/-- A lawful attestation is refused, or pays the whole fee of its job. -/
theorem attest_lawful (hop : Lawful env s (.attest p))
    (h : ∀ id, native s (jobEscrowAccount id) = owed s id) :
    Refused s ((Op.attest p).run env s) ∨ ∃ job leaseId lease u,
      Attests s p job leaseId lease ∧ PaysOut s p job lease ∧ u.state = s.state ∧
        PaidOut s u p job.fee ∧
        (Op.attest p).run env s = (.ok (), attested u p job leaseId lease) := by
  have hrun : (Op.attest p).run env s = (applyRuntimeAttest p).run s := rfl
  rw [hrun]
  rcases run_attest (s := s) (p := p) with hrefused | ⟨job, leaseId, lease, hattests, hdone⟩
  · exact .inl hrefused
  · have hpays := hop job leaseId lease hattests
    have hopen : job.status ≠ "completed" := by
      rw [hattests.claimed]
      decide
    have hheld : job.fee ≤ native s (jobEscrowAccount p.jobId) := by
      rw [h, owed_of_get hattests.found, due_of_open hopen]
    obtain ⟨u, hrelease, hstate, hpaid⟩ := run_release hpays hheld
    rw [hrelease] at hdone
    exact .inr ⟨job, leaseId, lease, u, hattests, hpays, hstate, hpaid, hdone⟩

theorem held_of_attest (hop : Lawful env s (.attest p))
    (h : ∀ id, native s (jobEscrowAccount id) = owed s id) (id : String) :
    native ((Op.attest p).run env s).2 (jobEscrowAccount id) =
      owed ((Op.attest p).run env s).2 id := by
  rcases attest_lawful hop h with ⟨msg, hrefused⟩ |
    ⟨job, leaseId, lease, u, hattests, hpays, hstate, hpaid, hdone⟩
  · rw [hrefused]
    exact h id
  · rw [hdone]
    have howed : owed (attested u p job leaseId lease) id =
        if p.jobId = id then 0 else owed s id := by
      unfold attested
      rw [owed_congr ((state_stateSet_of_ne _ (by decide) _ _).trans
        (state_stateSet_of_ne _ (by decide) _ _)), owed_stateSet,
        owed_congr (congrFun hstate _)]
      rfl
    have hnative : native (attested u p job leaseId lease) (jobEscrowAccount id) =
      native u (jobEscrowAccount id) := rfl
    have hopen : job.status ≠ "completed" := by
      rw [hattests.claimed]
      decide
    have hfee := (owed_of_get hattests.found).trans (due_of_open hopen)
    rw [howed, hnative, hpaid.moved, if_neg (hpays.host id),
      if_neg (recycleFund_ne_jobEscrowAccount id), h]
    simp only [jobEscrowAccount_inj]
    split
    · next hid =>
      rw [← hid, hfee]
      omega
    · rfl

theorem held_of_claim {p : RuntimeClaim}
    (h : ∀ id, native s (jobEscrowAccount id) = owed s id) (id : String) :
    native ((Op.claim p).run env s).2 (jobEscrowAccount id) =
      owed ((Op.claim p).run env s).2 id := by
  have hrun : (Op.claim p).run env s = (applyRuntimeClaim p).run s := rfl
  rw [hrun]
  rcases run_claim (s := s) (p := p) with ⟨msg, hrefused⟩ | ⟨job, hclaims, hdone⟩
  · rw [hrefused]
    exact h id
  · rw [hdone, owed_claimed hclaims]
    exact h id

/-! ### Leases -/

theorem Tied.congr (hs : Tied s) (hjobs : t.state .runtimeJob = s.state .runtimeJob)
    (hleases : t.state .runtimeLease = s.state .runtimeLease) : Tied t := by
  intro id job leaseId lease hjob hstatus hnamed hlease
  rw [stateGet_of_state hjobs] at hjob
  rw [stateGet_of_state hleases] at hlease
  exact hs id job leaseId lease hjob hstatus hnamed hlease

theorem Quiet.tied (h : Quiet s t) (hs : Tied s) : Tied t := hs.congr h.jobs h.leases

/-- A job that is not claimed may be recorded at any time. -/
theorem Tied.stateSet_job {key : String} {job : RuntimeJob} (hs : Tied s)
    (hjob : job.status ≠ "claimed") : Tied (s.stateSet .runtimeJob key job) := by
  intro id found leaseId lease hfound hstatus hnamed hlease
  rw [stateGet_stateSet] at hfound
  split at hfound
  · cases hfound
    exact absurd hstatus hjob
  · have hne : Family.runtimeLease ≠ .runtimeJob := by decide
    rw [stateGet_of_state (s.state_stateSet_of_ne hne key job)] at hlease
    exact hs id found leaseId lease hfound hstatus hnamed hlease

/-- So may any change of a lease that keeps its job. -/
theorem Tied.stateSet_lease {key : String} {old new : RuntimeLease} (hs : Tied s)
    (hold : s.stateGet .runtimeLease key = some old) (hnew : new.jobId = old.jobId) :
    Tied (s.stateSet .runtimeLease key new) := by
  intro id job leaseId lease hjob hstatus hnamed hlease
  have hne : Family.runtimeJob ≠ .runtimeLease := by decide
  rw [stateGet_of_state (s.state_stateSet_of_ne hne key new)] at hjob
  rw [stateGet_stateSet] at hlease
  split at hlease
  · next hkey =>
    cases hlease
    subst hkey
    exact hnew.trans (hs id job key old hjob hstatus hnamed hold)
  · exact hs id job leaseId lease hjob hstatus hnamed hlease

theorem tied_claimed {p : RuntimeClaim} {job : RuntimeJob} (hs : Tied s)
    (hfree : ∀ id job, s.stateGet .runtimeJob id = some job → job.status = "claimed" →
      job.leaseId ≠ some p.leaseId) : Tied (claimed s p job) := by
  intro id found leaseId lease hfound hstatus hnamed hlease
  have hleases : (claimed s p job).stateGet .runtimeLease leaseId =
      (s.stateSet .runtimeLease p.leaseId ⟨p.leaseId, p.runtimeId, p.jobId, p.hostId, "active",
        p.epoch, p.expiresEpoch, p.epoch⟩).stateGet .runtimeLease leaseId :=
    stateGet_of_state ((state_stateSet_of_ne _ (by decide) _ _).trans
      (state_stateSet_of_ne _ (by decide) _ _)) _
  rw [hleases, stateGet_stateSet] at hlease
  rw [claimed, stateGet_stateSet] at hfound
  split at hfound
  · -- the job that is claimed names the new lease
    next hid =>
    cases hfound
    cases hnamed
    rw [if_pos rfl] at hlease
    cases hlease
    exact hid
  · -- any other claimed job names another one
    rw [stateGet_of_state ((state_stateSet_of_ne _ (by decide) _ _).trans
      (state_stateSet_of_ne _ (by decide) _ _))] at hfound
    split at hlease
    · next hkey =>
      rw [← hkey] at hnamed
      exact absurd hnamed (hfree id found hfound hstatus)
    · exact hs id found leaseId lease hfound hstatus hnamed hlease

theorem tied_of_enqueue {p : RuntimeJobEnqueue} (hop : Lawful env s (.enqueue p))
    (hs : Tied s) : Tied ((Op.enqueue p).run env s).2 := by
  have hrun : (Op.enqueue p).run env s = (applyRuntimeJobEnqueue p).run s := rfl
  rw [hrun]
  rcases run_enqueue (s := s) hop.1.job with ⟨-, hquiet⟩ | ⟨-, hdone⟩
  · exact hquiet.tied hs
  · rw [hdone]
    have hqueued : ("queued" : String) ≠ "claimed" := by decide
    have hpaid : Tied ((s.debited p.signedBy nativeToken p.fee).credited
      (jobEscrowAccount p.jobId) nativeToken p.fee) := hs.congr rfl rfl
    exact hpaid.stateSet_job hqueued

theorem tied_of_claim {p : RuntimeClaim} (hop : Lawful env s (.claim p)) (hs : Tied s) :
    Tied ((Op.claim p).run env s).2 := by
  have hrun : (Op.claim p).run env s = (applyRuntimeClaim p).run s := rfl
  rw [hrun]
  rcases run_claim (s := s) (p := p) with ⟨msg, hrefused⟩ | ⟨job, hclaims, hdone⟩
  · rw [hrefused]
    exact hs
  · rw [hdone]
    exact tied_claimed hs (hop ⟨job, hclaims⟩)

theorem tied_of_attest (hop : Lawful env s (.attest p)) (h : Kept s) :
    Tied ((Op.attest p).run env s).2 := by
  rcases attest_lawful hop h.held with ⟨msg, hrefused⟩ |
    ⟨job, leaseId, lease, u, hattests, -, hstate, -, hdone⟩
  · rw [hrefused]
    exact h.tied
  · rw [hdone]
    have hu : Tied u := h.tied.congr (congrFun hstate _) (congrFun hstate _)
    have hcompleted : ("completed" : String) ≠ "claimed" := by decide
    have hne : Family.runtimeLease ≠ .runtimeJob := by decide
    have hleased := hattests.leased
    rw [← stateGet_of_state (congrFun hstate .runtimeLease),
      ← stateGet_of_state (u.state_stateSet_of_ne hne p.jobId
        { job with status := "completed", attestedBy := some p.hostId,
                   attestationId := some p.attestationId, updatedEpoch := p.epoch })] at hleased
    exact (quiet_stateSet (by decide) (by decide) _ _).tied
      ((hu.stateSet_job hcompleted).stateSet_lease hleased rfl)

theorem kept_step {op : Op} (hop : Lawful env s op) (h : Kept s) : Kept (op.run env s).2 := by
  have hquiet : Quiet s (op.run env s).2 → Kept (op.run env s).2 := fun hq =>
    ⟨fun id => by rw [hq.held, hq.owed, h.held], hq.tied h.tied⟩
  cases op with
  | register p => exact hquiet (along_register hop s)
  | deploy p => exact hquiet (along_deploy p s)
  | undeploy p => exact hquiet (along_undeploy p s)
  | enqueue p => exact ⟨held_of_enqueue hop h.held, tied_of_enqueue hop h.tied⟩
  | claim p => exact ⟨held_of_claim h.held, tied_of_claim hop h.tied⟩
  | attest p => exact ⟨held_of_attest hop h.held, tied_of_attest hop h⟩
  | slash p => exact hquiet (along_slash p s)

theorem kept_of_run (h : Trace.Run (hosting env) (Lawful env) hist s) : Kept s := by
  refine h.invariant (I := Kept) (fun _ hinit => hinit) (fun _ _ hop hs => kept_step hop hs) ?_
  intro s t hq hs
  exact ⟨fun id => by rw [hq.held, hq.owed, hs.held], hq.tied hs.tied⟩

/-! ### Bonds -/

/-- A bond is lowered by nothing but a slash of its runtime. -/
theorem bond_lowered {op : Op} {id : String} (hop : Lawful env s op)
    (hlow : native (op.run env s).2 (bondAccount id) < native s (bondAccount id)) :
    ∃ p, op = .slash p ∧ p.runtimeId = id ∧ MaySlash env s p.signedBy := by
  cases op with
  | register p =>
    have hle : native s (bondAccount id) ≤
        native ((applyRuntimeRegister p).run s).2 (bondAccount id) :=
      native_le_of_ne rfl (hop.bond id).symm
    exact absurd hlow hle.not_gt
  | deploy p =>
    have hle : native s (bondAccount id) ≤
        native ((applyRuntimeDeploy p).run s).2 (bondAccount id) :=
      native_le_of_pays (Set.notMem_empty _)
    exact absurd hlow hle.not_gt
  | undeploy p =>
    have hle : native s (bondAccount id) ≤
        native ((applyRuntimeUndeploy p).run s).2 (bondAccount id) :=
      native_le_of_pays (Set.notMem_empty _)
    exact absurd hlow hle.not_gt
  | enqueue p =>
    have hle : native s (bondAccount id) ≤
        native ((applyRuntimeJobEnqueue p).run s).2 (bondAccount id) :=
      native_le_of_ne rfl (hop.1.bond id).symm
    exact absurd hlow hle.not_gt
  | claim p =>
    have hle : native s (bondAccount id) ≤
        native ((applyRuntimeClaim p).run s).2 (bondAccount id) :=
      native_le_of_pays (Set.notMem_empty _)
    exact absurd hlow hle.not_gt
  | attest p =>
    have hle : native s (bondAccount id) ≤
        native ((applyRuntimeAttest p).run s).2 (bondAccount id) :=
      native_le_of_ne rfl (bondAccount_ne_jobEscrowAccount id p.jobId)
    exact absurd hlow hle.not_gt
  | slash p =>
    have hrun : (Op.slash p).run env s = (applyRuntimeSlash p).run s := rfl
    by_cases hid : id = p.runtimeId
    · refine ⟨p, rfl, hid.symm, hop ?_⟩
      by_contra hnothing
      rw [hrun, native_slash_of_nothing hnothing] at hlow
      exact lt_irrefl _ hlow
    · have hle : native s (bondAccount id) ≤
          native ((applyRuntimeSlash p).run s).2 (bondAccount id) :=
        native_le_of_ne rfl fun heq => hid (bondAccount_inj.1 heq)
      exact absurd hlow hle.not_gt

/-- Where every entry is lawful, the fees and the bonds are in order. -/
theorem runtimes_in_order (h : Trace.Run (hosting env) (Lawful env) hist s) :
    InOrder env hist s where
  held := (kept_of_run h).held
  paid := by
    intro t p hmem hok
    obtain ⟨hop, before, hbefore⟩ := h.of_mem hmem
    rcases attest_lawful hop ((kept_of_run hbefore).held) with ⟨msg, hrefused⟩ |
      ⟨job, leaseId, lease, u, hattests, hpays, -, hpaid, hdone⟩
    · rw [hrefused] at hok
      cases hok
    · have hlease : lease.jobId = p.jobId := (kept_of_run hbefore).tied _ _ _ _ hattests.found
        hattests.claimed hattests.named hattests.leased
      refine ⟨job, leaseId, lease, hattests, hlease, hpays.unexpired, hpaid.whole, fun a => ?_⟩
      rw [hdone]
      exact hpaid.moved a
  bonds := fun _ _ hmem _ hlow => bond_lowered (h.of_mem hmem).1 hlow

end Runs

/-! ### A day of `olga`'s runtime -/

section Samples

/-- The names of the escrows start with an underscore. -/
theorem outsider_of_head {a : String} (h : a.toList[0]? ≠ some '_') : Outsider a := by
  constructor
  · rintro id rfl
    refine h ?_
    change ("__runtime_job_escrow_" ++ id ++ "__").toList[0]? = _
    rw [getElem?_wrapped (by decide)]
    rfl
  · rintro id rfl
    refine h ?_
    change ("__runtime_bond_" ++ id ++ "__").toList[0]? = _
    rw [getElem?_wrapped (by decide)]
    rfl

def olgasChain : Chain := ({} : Chain).setBalance "olga" nativeToken hunitsPerHone

def olgaRegisters : RuntimeRegister :=
  { runtimeId := "r", owner := "olga", manifestCid := "cid", runtimeClass := "wasm", nonce := "n",
    bond := 100, epoch := 1, signedBy := "olga" }

def olgaDeploys : RuntimeDeploy :=
  { runtimeId := "r", owner := "olga", hostId := "hal", manifestCid := none, epoch := 1,
    signedBy := "olga" }

def olgaEnqueues (fee : ℕ) : RuntimeJobEnqueue :=
  { jobId := "j", runtimeId := "r", jobClass := "batch", dueEpoch := 4, payloadCid := none,
    fee := fee, epoch := 1, signedBy := "olga" }

def halClaims : RuntimeClaim :=
  { leaseId := "l", runtimeId := "r", jobId := "j", hostId := "hal", expiresEpoch := 5, epoch := 2,
    signedBy := "hal" }

def halAttests : RuntimeAttest :=
  { attestationId := "a", runtimeId := "r", jobId := "j", hostId := "hal",
    outputCommitment := "out", runtimeSha := none, epoch := 3, signedBy := "hal" }

def mallorySlashes : RuntimeSlash :=
  { slashId := "x", runtimeId := "r", hostId := "hal", amount := 60, reason := "spite", epoch := 2,
    signedBy := "mallory" }

def olgasDay : List Op :=
  [.register olgaRegisters, .deploy olgaDeploys, .enqueue (olgaEnqueues 10), .claim halClaims,
    .attest halAttests]

theorem olgasChain_held (id : String) :
    native olgasChain (jobEscrowAccount id) = owed olgasChain id := by
  have hne : "olga" ≠ jobEscrowAccount id :=
    (outsider_of_head (by decide)).job id
  have hrow : native olgasChain (jobEscrowAccount id) = 0 := by
    unfold native olgasChain
    rw [getBalance_eq_row, Chain.row_setBalance,
      if_neg fun h => hne (balanceKey_native_inj.1 h).symm]
    rfl
  rw [hrow]
  rfl

theorem olgasChain_kept : Kept olgasChain := by
  refine ⟨olgasChain_held, fun id job leaseId lease hjob => ?_⟩
  cases hjob

/-- The same in epoch 9. -/
def lateChain : Chain := { olgasChain with currentEpoch := 9 }

theorem lateChain_kept : Kept lateChain := by
  refine ⟨olgasChain_held, fun id job leaseId lease hjob => ?_⟩
  cases hjob

/-- A job whose fee splits in five, done before its lease ends. -/
theorem runtimes_in_order_olga : InOrder .bare ((hosting .bare).record olgasChain olgasDay [])
    ((hosting .bare).exec olgasChain olgasDay) := by
  refine runtimes_in_order (.exec (.start olgasChain_kept) ⟨outsider_of_head (by decide), trivial,
    ⟨outsider_of_head (by decide), fun _ => by decide⟩, ?_, ?_, trivial⟩)
  · -- the only job there is waits
    intro _ id job hjob hclaimed
    let s := (hosting .bare).exec olgasChain (olgasDay.take 3)
    have hwaits : ∀ b ∈ (s.state .runtimeJob).bindings, b.2.status ≠ "claimed" := by
      decide +kernel
    have hbound := (Kv.lookup_eq_some_iff (s.state .runtimeJob).sorted).1 hjob
    exact absurd hclaimed (hwaits _ hbound)
  intro job leaseId lease h
  have hopen : job.status ≠ "completed" := by
    rw [h.claimed]
    decide
  have hfee : job.fee = 10 := by
    rw [← due_of_open hopen, ← owed_of_get h.found]
    decide
  refine ⟨?_, (outsider_of_head (by decide)).job, ?_, ?_, Nat.zero_le _⟩
  · rw [hfee]
    decide
  · rw [hfee]
    decide
  · rw [hfee]
    decide

/-- A second job of the same id adds to the escrow of the first, a job is paid under a lease that
has become another job's, a lease that ended in epoch 5 is as good in epoch 9, and anybody lowers a
bond. -/
theorem runtimes_out_of_order :
    (∃ hist s, Trace.Run (hosting .bare) (fun _ _ => True) hist s ∧
      native s (jobEscrowAccount "j") ≠ owed s "j") ∧
    (∃ hist s t, Trace.Run (hosting .bare) (fun _ _ => True) hist s ∧
      (t, Op.attest halAttests) ∈ hist ∧ ((Op.attest halAttests).run .bare t).1 = .ok () ∧
      ((t.stateGet .runtimeJob "j").bind (·.leaseId)) = some "l" ∧
      (t.stateGet .runtimeLease "l").map (·.jobId) = some "k") ∧
    (∃ hist s t, Trace.Run (hosting .bare) (fun _ _ => True) hist s ∧
      (t, Op.attest halAttests) ∈ hist ∧ ((Op.attest halAttests).run .bare t).1 = .ok () ∧
      (t.stateGet .runtimeLease "l").map (·.expiresEpoch) = some 5 ∧ t.currentEpoch = 9) ∧
    ∃ hist s t, Trace.Run (hosting .bare) (fun _ _ => True) hist s ∧
      (t, Op.slash mallorySlashes) ∈ hist ∧ ¬ MaySlash .bare t "mallory" ∧
      native ((Op.slash mallorySlashes).run .bare t).2 (bondAccount "r") <
        native t (bondAccount "r") := by
  refine ⟨?_, ?_, ?_, ?_⟩
  · let ops : List Op := [.register olgaRegisters, .deploy olgaDeploys,
      .enqueue (olgaEnqueues 10), .enqueue (olgaEnqueues 7)]
    refine ⟨_, _, .exec (.start olgasChain_kept) (legal_true _ ops), ?_⟩
    decide
  · let ops : List Op := olgasDay.take 4 ++
      [.enqueue { olgaEnqueues 10 with jobId := "k" }, .claim { halClaims with jobId := "k" },
        .attest halAttests]
    refine ⟨_, _, (hosting .bare).exec olgasChain (ops.take 6),
      .exec (.start olgasChain_kept) (legal_true _ ops), List.mem_cons_self, ?_, ?_, ?_⟩
    · decide
    · decide
    · decide
  · refine ⟨_, _, (hosting .bare).exec lateChain (olgasDay.take 4),
      .exec (.start lateChain_kept) (legal_true _ olgasDay), List.mem_cons_self, ?_, ?_, ?_⟩
    · decide
    · decide
    · decide
  · let ops : List Op := [.register olgaRegisters, .slash mallorySlashes]
    refine ⟨_, _, (hosting .bare).exec olgasChain (ops.take 1),
      .exec (.start olgasChain_kept) (legal_true _ ops), List.mem_cons_self, ?_, ?_⟩
    · unfold MaySlash
      decide +kernel
    · decide

end Samples

end HoneNode.Runtimes
