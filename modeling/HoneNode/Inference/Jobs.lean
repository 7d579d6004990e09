import HoneNode.Inference.Board

/-!
# Inference.Jobs — the life of an inference job

1. **Moves**: what each entry can do to the job it names (`Moves`).
2. **Steps**: every call makes one of these moves or leaves the jobs alone
   (`step_cases`); a failing one always leaves them alone.
3. **Runs**: the entries in any order, with whatever else the node does between
   them, and the rule by which a property of jobs holds in every run.
4. **Full boards** (`full_board_resolves`): when a job whose assigned verifiers
   have all voted is decided.
-/

namespace HoneNode.Jobs

open Entry Prog Within

inductive Op where
  | post (p : InferenceJobPost)
  | bid (p : InferenceJobBid)
  | award (p : InferenceJobAward)
  | complete (p : InferenceJobComplete)
  | commit (p : InferenceJobCommit)
  | verify (p : InferenceJobVerify)
  | claim (p : InferenceJobClaim)
  | reviewVote (p : InferenceReviewVote)
  | pay (p : InferenceJobPay)
  | cancel (p : InferenceJobCancel)

/-- Apply the entry; what a failing call wrote before it failed stays. -/
def Op.run (env : Env) (s : Chain) : Op → Except Fault Unit × Chain
  | .post p => (applyInferenceJobPost p).run s
  | .bid p => (applyInferenceJobBid p).run s
  | .award p => (applyInferenceJobAward p).run s
  | .complete p => (applyInferenceJobComplete p).run s
  | .commit p => (applyInferenceJobCommit p).run s
  | .verify p => (applyInferenceJobVerify env p).run s
  | .claim p => (applyInferenceJobClaim p).run s
  | .reviewVote p => (applyInferenceReviewVote p).run s
  | .pay p => (applyInferenceJobPay p).run s
  | .cancel p => (applyInferenceJobCancel p).run s

/-- The job under an id. -/
def jobAt (s : Chain) (id : String) : Option InferenceJob := s.stateGet .inferJob id

/-! ## Moves -/

/-- A job as posted, with the board size the network asks for. -/
def fresh (p : InferenceJobPost) (autoMin : ℕ) : InferenceJob :=
  { jobId := p.jobId, requester := p.requester, model := p.model, mode := p.mode,
    inputHash := p.inputHash, maxFee := p.maxFee, minReputation := p.minReputation,
    bidWindowEpochs := p.bidWindowEpochs, deadlineEpoch := p.deadlineEpoch,
    postedEpoch := p.epoch, status := .posted, winner := none, awardedFee := none,
    verifiers := [], resultHash := none, latencyMs := none, disputedEpoch := none,
    claimedEpoch := none, settledEpoch := none, completedEpoch := none,
    persistOnFs := p.persistOnFs.getD false, verdicts := [], commits := [],
    minVerifiers := max autoMin (p.minVerifiers.getD 0), nodeFingerprint := p.nodeFingerprint }

/-- What the board's verdict makes of a job. -/
def closed (epoch : ℕ) (job : InferenceJob) : InferenceJob :=
  match resolveQuorumVerdict job.verdicts job.minVerifiers with
  | some "approved" => { job with status := .verified }
  | some "rejected" => { job with status := .rejected }
  | some "review_required" => { job with status := .disputed, disputedEpoch := some epoch }
  | _ => job

@[simp] theorem jobId_closed (epoch : ℕ) (job : InferenceJob) :
    (closed epoch job).jobId = job.jobId := by
  unfold closed
  split <;> rfl

/-- How an entry changes the job it names. -/
inductive Moves : Op → InferenceJob → InferenceJob → Prop where
  | awarded {p : InferenceJobAward} {job : InferenceJob} (h : job.status = .posted) :
      Moves (.award p) job
        { job with winner := some p.winner, awardedFee := some p.fee, status := .awarded }
  | assigned {p : InferenceJobAward} {job : InferenceJob} (h : job.status = .posted)
      (hlen : job.verifiers.length < 3) (hnew : p.winner ∉ job.verifiers) :
      Moves (.award p) job { job with verifiers := job.verifiers ++ [p.winner] }
  | completed {p : InferenceJobComplete} {job : InferenceJob} (h : job.status = .awarded)
      (hworker : job.winner = some p.worker) :
      Moves (.complete p) job
        { job with resultHash := some p.resultHash, latencyMs := some p.latencyMs,
                   status := .completed, completedEpoch := some p.epoch }
  | committed {p : InferenceJobCommit} {job : InferenceJob} (h : job.status = .completed) :
      Moves (.commit p) job { job with commits := job.commits ++ [(p.verifier, p.commitHash)] }
  | judged {p : InferenceJobVerify} {job : InferenceJob} (h : job.status = .completed)
      (hassigned : job.verifiers = [] ∨ p.verifier ∈ job.verifiers)
      (hnew : ∀ v ∈ job.verdicts, v.1 ≠ p.verifier)
      (hknown : p.verdict ∈ ["approved", "rejected", "review_required"]) :
      Moves (.verify p) job
        (closed p.epoch { job with verdicts := job.verdicts ++ [(p.verifier, p.verdict)] })
  | claimed {p : InferenceJobClaim} {job : InferenceJob} (h : job.status = .disputed) :
      Moves (.claim p) job { job with status := .claimed, claimedEpoch := some p.epoch }
  | reviewed {p : InferenceReviewVote} {job : InferenceJob} (status : InferenceStatus)
      (h : job.status = .claimed) (hstatus : status = .reviewed ∨ status = .rejected) :
      Moves (.reviewVote p) job { job with status := status }
  | paid {p : InferenceJobPay} {job : InferenceJob}
      (h : job.status ∈ [.verified, .reviewed, .noFee, .rejected, .completed]) :
      Moves (.pay p) job { job with settledEpoch := some p.epoch, status := .paid }
  | cancelled {p : InferenceJobCancel} {job : InferenceJob}
      (h : job.status = .posted ∨ job.status = .awarded) :
      Moves (.cancel p) job { job with status := .cancelled }

/-- The id an entry names. -/
def Op.jobId : Op → String
  | .post p => p.jobId
  | .bid p => p.jobId
  | .award p => p.jobId
  | .complete p => p.jobId
  | .commit p => p.jobId
  | .verify p => p.jobId
  | .claim p => p.jobId
  | .reviewVote p => p.jobId
  | .pay p => p.jobId
  | .cancel p => p.jobId

/-- What a call that returns `Ok` did to the jobs. -/
inductive Change (s : Chain) : Op → Chain → Prop where
  | bid {p : InferenceJobBid} {s' : Chain} (h : s'.state .inferJob = s.state .inferJob) :
      Change s (.bid p) s'
  | voted {p : InferenceReviewVote} {s' : Chain}
      (h : s'.state .inferJob = s.state .inferJob) : Change s (.reviewVote p) s'
  | posted {p : InferenceJobPost} {s' : Chain} (hnew : jobAt s p.jobId = none)
      (h : s'.state .inferJob =
        (s.state .inferJob).put p.jobId (fresh p (autoScaleMinVerifiers s))) :
      Change s (.post p) s'
  | moved {op : Op} {s' : Chain} {job job' : InferenceJob} (hjob : jobAt s op.jobId = some job)
      (hmove : Moves op job job')
      (h : s'.state .inferJob = (s.state .inferJob).put job.jobId job') : Change s op s'

/-! ## Steps -/

section Steps

variable {W : Footprint} {β : Type} {b : β} {env : Env} {s s' : Chain}

theorem ok_getJob_bind {id : String} {f : InferenceJob → Prog W β} :
    (getJob id >>= f).run s = (.ok b, s') ↔
      ∃ job, jobAt s id = some job ∧ (f job).run s = (.ok b, s') := by
  unfold getJob jobAt
  cases h : s.stateGet .inferJob id <;> simp [run_bind, h]

variable {f : Family}

theorem keeps_getJob {id : String} :
    Keeps (·.state f) (getJob id : Prog W InferenceJob) :=
  keeps_stateGet.bind fun _ => keeps_orBail

theorem keeps_rerate (h : f ≠ .nodeRep) (id : String)
    (g : NodeReputation → NodeReputation) : Keeps (·.state f) (rerate id g : Prog W Unit) :=
  keeps_inspect.bind fun _ => keeps_stateSet h _ _ _

theorem keeps_payEach :
    ∀ l, Keeps (·.state f) (payEach l : Prog W Unit)
  | [] => keeps_pure ()
  | _ :: rest => keeps_credit.bind fun _ => keeps_payEach rest

theorem keeps_slashDissenters :
    ∀ l h, Keeps (·.state f) (slashDissenters l h : Prog W Unit)
  | [], _ => keeps_pure ()
  | _ :: rest, _ => keeps_inspect.bind fun _ => (keeps_when ((keeps_setStake _).bind fun _ =>
      keeps_credit.ignoreErr)).bind fun _ => keeps_slashDissenters rest _

theorem keeps_tallyVerify (h : f ≠ .inferVerify) (verifier : String)
    (epoch score : ℕ) : Keeps (·.state f) (tallyVerify verifier epoch score) :=
  keeps_stateGet.bind fun _ => keeps_stateSet h _ _ _

theorem keeps_checkReveal (p : InferenceJobVerify) (job : InferenceJob) :
    Keeps (·.state f) (checkReveal env p job) := by
  unfold checkReveal
  split
  · exact keeps_bail _
  · exact keeps_ensure

theorem keeps_awardRole (h : f ≠ .mineQueue) (p : InferenceJobAward)
    (job : InferenceJob) : Keeps (·.state f) (awardRole p job) := by
  unfold awardRole
  split
  · exact (keeps_stateSet h _ _ _).bind fun _ => keeps_pure _
  · exact keeps_ensure.bind fun _ => keeps_ensure.bind fun _ => keeps_pure _
  · exact keeps_bail _

/-- The board's verdict always goes through. -/
theorem run_closeBoard (epoch : ℕ) (job : InferenceJob) : ∃ t,
    (closeBoard epoch job).run s = (.ok (closed epoch job), t) ∧
      ∀ f, f ≠ .nodeRep → t.state f = s.state f := by
  unfold closeBoard closed
  rcases Board.resolve_cases job.verdicts job.minVerifiers with h | h | h | h
  · exact ⟨s, by rw [h]; rfl, fun _ _ => rfl⟩
  · exact ⟨s, by rw [h]; rfl, fun _ _ => rfl⟩
  · rw [h]
    cases hw : job.winner with
    | none => exact ⟨s, rfl, fun _ _ => rfl⟩
    | some winner => exact ⟨_, rfl, fun f hf => @keeps_rerate {} f hf winner _ s⟩
  · exact ⟨s, by rw [h]; rfl, fun _ _ => rfl⟩

/-- Saving a job, and what follows on other families. -/
theorem state_setJob (job : InferenceJob) :
    (s.stateSet .inferJob job.jobId job).state .inferJob = (s.state .inferJob).put job.jobId job := by
  simp

theorem change_post {p : InferenceJobPost} (h : (applyInferenceJobPost p).run s = (.ok (), s')) :
    Change s (.post p) s' := by
  unfold applyInferenceJobPost at h
  rw [run_stateGet_bind, ok_ensure_bind, ok_debit_bind, ok_credit_bind,
    run_inspect_bind] at h
  obtain ⟨hnew, -, -, h⟩ := h
  cases h
  exact .posted (Option.isNone_iff_eq_none.1 hnew) (state_setJob _)

theorem change_award {p : InferenceJobAward} (h : (applyInferenceJobAward p).run s = (.ok (), s')) :
    Change s (.award p) s' := by
  unfold applyInferenceJobAward at h
  rw [ok_getJob_bind] at h
  obtain ⟨job, hjob, h⟩ := h
  rw [ok_ensure_bind] at h
  obtain ⟨hstatus, h⟩ := h
  obtain ⟨job', t, hrole, h⟩ := run_bind_eq_ok.1 h
  obtain ⟨⟨⟩, u, hrate, h⟩ := run_bind_eq_ok.1 h
  cases h
  have hstate : u.state .inferJob = s.state .inferJob :=
    ((keeps_rerate (by decide) _ _).of_run hrate).trans
      ((keeps_awardRole (by decide) _ _).of_run hrole)
  have hmove : Moves (.award p) job job' ∧ job'.jobId = job.jobId := by
    unfold awardRole at hrole
    split at hrole
    · rw [run_stateSet_bind] at hrole
      cases hrole
      exact ⟨.awarded hstatus, rfl⟩
    · rw [ok_ensure_bind, ok_ensure_bind] at hrole
      obtain ⟨hlen, hnew, hrole⟩ := hrole
      cases hrole
      exact ⟨.assigned hstatus hlen hnew, rfl⟩
    · cases hrole
  refine .moved hjob hmove.1 ?_
  rw [state_setJob, hstate, hmove.2]

theorem change_complete {p : InferenceJobComplete}
    (h : (applyInferenceJobComplete p).run s = (.ok (), s')) : Change s (.complete p) s' := by
  unfold applyInferenceJobComplete at h
  rw [ok_getJob_bind] at h
  obtain ⟨job, hjob, h⟩ := h
  rw [ok_ensure_bind, ok_ensure_bind, run_inspect_bind, ok_ensure_bind] at h
  obtain ⟨hstatus, hworker, -, h⟩ := h
  obtain ⟨⟨⟩, t, hrate, h⟩ := run_bind_eq_ok.1 h
  rw [run_bind_ok rfl] at h
  cases h
  refine .moved hjob (.completed hstatus hworker) ?_
  rw [state_stateSet_of_ne _ (by decide), state_setJob,
    (keeps_rerate (by decide) _ _).of_run hrate]

theorem change_commit {p : InferenceJobCommit}
    (h : (applyInferenceJobCommit p).run s = (.ok (), s')) : Change s (.commit p) s' := by
  unfold applyInferenceJobCommit at h
  rw [ok_getJob_bind] at h
  obtain ⟨job, hjob, h⟩ := h
  rw [ok_ensure_bind, ok_ensure_bind, ok_ensure_bind, ok_ensure_bind, run_bind_ok rfl] at h
  obtain ⟨hstatus, -, -, -, h⟩ := h
  refine .moved hjob (.committed hstatus) ?_
  rw [(keeps_tallyVerify (by decide) _ _ _).of_run h, state_setJob]

theorem change_verify {p : InferenceJobVerify}
    (h : (applyInferenceJobVerify env p).run s = (.ok (), s')) : Change s (.verify p) s' := by
  unfold applyInferenceJobVerify at h
  rw [ok_getJob_bind] at h
  obtain ⟨job, hjob, h⟩ := h
  rw [ok_ensure_bind, ok_ensure_bind] at h
  obtain ⟨hstatus, -, h⟩ := h
  obtain ⟨⟨⟩, t, hreveal, h⟩ := run_bind_eq_ok.1 h
  rw [run_inspect_bind, ok_ensure_bind, run_inspect_bind,
    ok_ensure_bind, ok_ensure_bind, ok_ensure_bind, ok_ensure_bind] at h
  obtain ⟨-, -, hassigned, hnew, hknown, h⟩ := h
  obtain ⟨u, hclose, hu⟩ := @run_closeBoard t p.epoch
    { job with verdicts := job.verdicts ++ [(p.verifier, p.verdict)] }
  rw [run_bind_ok hclose, run_bind_ok rfl] at h
  obtain ⟨⟨⟩, v, htally, h⟩ := run_bind_eq_ok.1 h
  cases h
  refine .moved hjob (.judged hstatus hassigned hnew hknown) ?_
  rw [state_stateSet_of_ne _ (by decide), (keeps_tallyVerify (by decide) _ _ _).of_run htally,
    state_setJob, hu _ (by decide),
    (keeps_when (keeps_checkReveal p job)).of_run hreveal, jobId_closed]

theorem change_claim {p : InferenceJobClaim}
    (h : (applyInferenceJobClaim p).run s = (.ok (), s')) : Change s (.claim p) s' := by
  unfold applyInferenceJobClaim at h
  rw [ok_getJob_bind] at h
  obtain ⟨job, hjob, h⟩ := h
  rw [ok_ensure_bind, ok_ensure_bind, ok_ensure_bind] at h
  obtain ⟨hstatus, -, -, h⟩ := h
  cases h
  exact .moved hjob (.claimed hstatus) (state_setJob _)

theorem change_reviewVote {p : InferenceReviewVote}
    (h : (applyInferenceReviewVote p).run s = (.ok (), s')) : Change s (.reviewVote p) s' := by
  unfold applyInferenceReviewVote at h
  rw [ok_getJob_bind] at h
  obtain ⟨job, hjob, h⟩ := h
  rw [ok_ensure_bind, run_stateGet_bind, ok_ensure_bind,
    run_stateSet_bind, run_when] at h
  obtain ⟨hstatus, -, h⟩ := h
  split at h
  · obtain ⟨status, hend, h⟩ : ∃ status : InferenceStatus,
        (status = .reviewed ∨ status = .rejected) ∧
          (setJob { job with status := status } : Prog {} Unit).run _ = (.ok (), s') :=
      ⟨_, by split <;> simp, h⟩
    cases h
    refine .moved hjob (.reviewed status hstatus hend) ?_
    rw [state_setJob, state_stateSet_of_ne _ (by decide)]
  · cases h
    exact .voted (state_stateSet_of_ne _ (by decide) _ _)

theorem change_pay {p : InferenceJobPay}
    (h : (applyInferenceJobPay p).run s = (.ok (), s')) : Change s (.pay p) s' := by
  unfold applyInferenceJobPay at h
  rw [ok_getJob_bind] at h
  obtain ⟨job, hjob, h⟩ := h
  rw [ok_ensure_bind] at h
  obtain ⟨hstatus, h⟩ := h
  obtain ⟨⟨⟩, t₁, h₁, h⟩ := run_bind_eq_ok.1 h
  obtain ⟨⟨⟩, t₂, h₂, h⟩ := run_bind_eq_ok.1 h
  obtain ⟨⟨⟩, t₃, h₃, h⟩ := run_bind_eq_ok.1 h
  obtain ⟨⟨⟩, t₄, h₄, h⟩ := run_bind_eq_ok.1 h
  obtain ⟨⟨⟩, t₅, h₅, h⟩ := run_bind_eq_ok.1 h
  obtain ⟨⟨⟩, t₆, h₆, h⟩ := run_bind_eq_ok.1 h
  obtain ⟨⟨⟩, t₇, h₇, h⟩ := run_bind_eq_ok.1 h
  rw [run_bind_ok rfl] at h
  obtain ⟨⟨⟩, t₈, h₈, h⟩ := run_bind_eq_ok.1 h
  refine .moved hjob (.paid hstatus) ?_
  rw [(keeps_when (keeps_stateSet (by decide) _ _ _)).of_run h,
    (keeps_when (keeps_stateSet (by decide) _ _ _)).of_run h₈, state_setJob,
    (keeps_slashDissenters _ _).of_run h₇, (keeps_when keeps_credit).of_run h₆,
    keeps_credit.of_run h₅, (keeps_payEach _).of_run h₄, (keeps_payEach _).of_run h₃,
    (keeps_when keeps_credit).of_run h₂, keeps_debit.of_run h₁]

theorem change_cancel {p : InferenceJobCancel}
    (h : (applyInferenceJobCancel p).run s = (.ok (), s')) : Change s (.cancel p) s' := by
  unfold applyInferenceJobCancel at h
  rw [ok_getJob_bind] at h
  obtain ⟨job, hjob, h⟩ := h
  rw [ok_ensure_bind] at h
  obtain ⟨hstatus, h⟩ := h
  obtain ⟨⟨⟩, t, hby, h⟩ := run_bind_eq_ok.1 h
  rw [ok_debit_bind, ok_credit_bind] at h
  obtain ⟨-, -, h⟩ := h
  have ht : t.state .inferJob = s.state .inferJob :=
    (keeps_when (keeps_ensure.bind fun _ => keeps_ensure)).of_run hby
  refine .moved hjob (.cancelled hstatus) ?_
  cases hw : job.winner with
  | none =>
    simp only [hw] at h
    cases h
    rw [state_setJob, Chain.state_credited, Chain.state_debited, ht]
  | some winner =>
    simp only [hw] at h
    obtain ⟨⟨⟩, u, hrate, h⟩ := run_bind_eq_ok.1 h
    cases h
    rw [state_setJob, (keeps_rerate (by decide) _ _).of_run hrate, Chain.state_credited,
      Chain.state_debited, ht]

theorem keeps_bid (p : InferenceJobBid) :
    Keeps (·.state .inferJob) (applyInferenceJobBid p) := by
  unfold applyInferenceJobBid
  refine keeps_getJob.bind fun job => keeps_ensure.bind fun _ =>
    keeps_inspect.bind fun _ => keeps_ensure.bind fun _ =>
    keeps_ensure.bind fun _ => keeps_ensure.bind fun _ =>
    keeps_ensure.bind fun _ => keeps_inspect.bind fun _ =>
    keeps_ensure.bind fun _ => keeps_stateGet.bind fun _ =>
    keeps_ensure.bind fun _ => keeps_stateSet (by decide) _ _ _

/-- Saving the job is the last thing that could go wrong, and does not. -/
theorem failsIn_setJob {P : Chain → Prop} {job : InferenceJob} :
    FailsIn P (setJob job : Prog W Unit) s := failsIn_of_ok rfl

/-- A failing call leaves the jobs alone. -/
theorem keeps_of_error {op : Op} {e : Fault} (h : op.run env s = (.error e, s')) :
    s'.state .inferJob = s.state .inferJob := by
  suffices hfail : ∀ v, s.state .inferJob = v →
      ∀ e s', op.run env s = (.error e, s') → s'.state .inferJob = v from hfail _ rfl e s' h
  intro v hv
  cases op with
  | post p =>
    refine keeps_stateGet.failsIn_bind hv fun found t ht => ?_
    refine keeps_ensure.failsIn_bind ht fun _ t ht => ?_
    refine keeps_debit.failsIn_bind ht fun _ t ht => ?_
    refine keeps_credit.failsIn_bind ht fun _ t ht => ?_
    exact keeps_inspect.failsIn_bind ht fun _ t _ => failsIn_setJob
  | bid p => exact (keeps_bid p).failsIn hv
  | award p =>
    refine keeps_getJob.failsIn_bind hv fun job t ht => ?_
    refine keeps_ensure.failsIn_bind ht fun _ t ht => ?_
    refine (keeps_awardRole (by decide) _ _).failsIn_bind ht fun _ t ht => ?_
    exact (keeps_rerate (by decide) _ _).failsIn_bind ht fun _ t _ => failsIn_setJob
  | complete p =>
    refine keeps_getJob.failsIn_bind hv fun job t ht => ?_
    refine keeps_ensure.failsIn_bind ht fun _ t ht => ?_
    refine keeps_ensure.failsIn_bind ht fun _ t ht => ?_
    refine keeps_inspect.failsIn_bind ht fun _ t ht => ?_
    refine keeps_ensure.failsIn_bind ht fun _ t ht => ?_
    exact (keeps_rerate (by decide) _ _).failsIn_bind ht fun _ t _ => failsIn_of_ok rfl
  | commit p =>
    refine keeps_getJob.failsIn_bind hv fun job t ht => ?_
    refine keeps_ensure.failsIn_bind ht fun _ t ht => ?_
    refine keeps_ensure.failsIn_bind ht fun _ t ht => ?_
    refine keeps_ensure.failsIn_bind ht fun _ t ht => ?_
    exact keeps_ensure.failsIn_bind ht fun _ t _ => failsIn_of_ok rfl
  | verify p =>
    refine keeps_getJob.failsIn_bind hv fun job t ht => ?_
    refine keeps_ensure.failsIn_bind ht fun _ t ht => ?_
    refine keeps_ensure.failsIn_bind ht fun _ t ht => ?_
    refine (keeps_when (keeps_checkReveal p job)).failsIn_bind ht fun _ t ht => ?_
    refine keeps_inspect.failsIn_bind ht fun _ t ht => ?_
    refine keeps_ensure.failsIn_bind ht fun _ t ht => ?_
    refine keeps_inspect.failsIn_bind ht fun _ t ht => ?_
    refine keeps_ensure.failsIn_bind ht fun _ t ht => ?_
    refine keeps_ensure.failsIn_bind ht fun _ t ht => ?_
    refine keeps_ensure.failsIn_bind ht fun _ t ht => ?_
    refine keeps_ensure.failsIn_bind ht fun _ t _ => ?_
    obtain ⟨u, hclose, -⟩ := run_closeBoard (s := t) p.epoch
      { job with verdicts := job.verdicts ++ [(p.verifier, p.verdict)] }
    rw [failsIn_bind_of_ok hclose]
    exact failsIn_of_ok rfl
  | claim p =>
    refine keeps_getJob.failsIn_bind hv fun job t ht => ?_
    refine keeps_ensure.failsIn_bind ht fun _ t ht => ?_
    refine keeps_ensure.failsIn_bind ht fun _ t ht => ?_
    exact keeps_ensure.failsIn_bind ht fun _ t _ => failsIn_setJob
  | reviewVote p =>
    refine keeps_getJob.failsIn_bind hv fun job t ht => ?_
    refine keeps_ensure.failsIn_bind ht fun _ t ht => ?_
    refine keeps_stateGet.failsIn_bind ht fun found t ht => ?_
    refine keeps_ensure.failsIn_bind ht fun _ t ht => ?_
    refine (keeps_stateSet (by decide) _ _ _).failsIn_bind ht fun _ t _ => ?_
    unfold when
    split
    · exact failsIn_setJob
    · exact failsIn_of_ok rfl
  | pay p =>
    refine keeps_getJob.failsIn_bind hv fun job t ht => ?_
    refine keeps_ensure.failsIn_bind ht fun _ t ht => ?_
    refine keeps_debit.failsIn_bind ht fun _ t ht => ?_
    refine (keeps_when keeps_credit).failsIn_bind ht fun _ t ht => ?_
    refine (keeps_payEach _).failsIn_bind ht fun _ t ht => ?_
    refine (keeps_payEach _).failsIn_bind ht fun _ t ht => ?_
    refine keeps_credit.failsIn_bind ht fun _ t ht => ?_
    refine (keeps_when keeps_credit).failsIn_bind ht fun _ t ht => ?_
    refine (keeps_slashDissenters _ _).failsIn_bind ht fun _ t _ => ?_
    rw [failsIn_bind_of_ok rfl]
    unfold when
    split <;> split <;> exact failsIn_of_ok rfl
  | cancel p =>
    refine keeps_getJob.failsIn_bind hv fun job t ht => ?_
    refine keeps_ensure.failsIn_bind ht fun _ t ht => ?_
    refine (keeps_when (keeps_ensure.bind fun _ => keeps_ensure)).failsIn_bind ht
      fun _ t ht => ?_
    refine keeps_debit.failsIn_bind ht fun _ t ht => ?_
    refine keeps_credit.failsIn_bind ht fun _ t _ => ?_
    cases job.winner with
    | none => exact failsIn_setJob
    | some winner => exact failsIn_of_ok rfl

/-- Every call fails and leaves the jobs alone, or makes the change of its entry. -/
theorem step_cases {op : Op} {r : Except Fault Unit} (h : op.run env s = (r, s')) :
    (∃ e, r = .error e ∧ s'.state .inferJob = s.state .inferJob) ∨
      (r = .ok () ∧ Change s op s') := by
  cases r with
  | error e => exact .inl ⟨e, rfl, keeps_of_error h⟩
  | ok u =>
    refine .inr ⟨rfl, ?_⟩
    cases op with
    | post p => exact change_post h
    | bid p => exact .bid ((keeps_bid p).of_run h)
    | award p => exact change_award h
    | complete p => exact change_complete h
    | commit p => exact change_commit h
    | verify p => exact change_verify h
    | claim p => exact change_claim h
    | reviewVote p => exact change_reviewVote h
    | pay p => exact change_pay h
    | cancel p => exact change_cancel h

end Steps

/-! ## Runs -/

/-- The states a node without jobs reaches by steps that meet `P`, with the calls on the
way, latest first. Whatever else the node does leaves jobs and verifier records alone. -/
inductive Run (env : Env) (P : Chain → Op → Prop) : List (Chain × Op) → Chain → Prop where
  | start {s : Chain} (hjobs : ∀ id, jobAt s id = none)
      (hreps : ∀ v, s.stateGet .verifierRep v = none) : Run env P [] s
  | step {hist : List (Chain × Op)} {s : Chain} (op : Op) (h : Run env P hist s) (hop : P s op) :
      Run env P ((s, op) :: hist) (op.run env s).2
  | other {hist : List (Chain × Op)} {s s' : Chain} (h : Run env P hist s)
      (hjobs : s'.state .inferJob = s.state .inferJob)
      (hreps : s'.state .verifierRep = s.state .verifierRep) : Run env P hist s'

section Runs

variable {env : Env} {P : Chain → Op → Prop} {hist : List (Chain × Op)} {s s' : Chain}
  {op : Op} {job job' : InferenceJob}

theorem jobAt_of_state (h : s'.state .inferJob = s.state .inferJob) (id : String) :
    jobAt s' id = jobAt s id := by
  unfold jobAt Chain.stateGet
  rw [h]

theorem jobAt_of_put {k : String} (h : s'.state .inferJob = (s.state .inferJob).put k job)
    (id : String) : jobAt s' id = if k = id then some job else jobAt s id := by
  unfold jobAt Chain.stateGet
  rw [h, Kv.get_put]

theorem Moves.jobId_eq (h : Moves op job job') : job'.jobId = job.jobId := by
  cases h <;> first | rfl | exact jobId_closed _ _

/-- A property of fresh jobs that no move breaks holds of every job in every run, and each
job stands under its own id. -/
theorem Run.jobs_keep {I : InferenceJob → Prop}
    (hfresh : ∀ p s, I (fresh p (autoScaleMinVerifiers s)))
    (hmove : ∀ s op job job', P s op → jobAt s op.jobId = some job → Moves op job job' →
      I job → I job')
    (h : Run env P hist s) : ∀ id job, jobAt s id = some job → job.jobId = id ∧ I job := by
  induction h with
  | start hjobs _ =>
    intro id job hjob
    rw [hjobs] at hjob
    cases hjob
  | other _ hjobs _ ih =>
    intro id job hjob
    rw [jobAt_of_state hjobs] at hjob
    exact ih id job hjob
  | @step hist s op _ hop ih =>
    intro id job hjob
    rcases hrun : op.run env s with ⟨r, s'⟩
    rw [hrun] at hjob
    rcases step_cases hrun with ⟨_, -, hsame⟩ | ⟨-, hchange⟩
    · rw [jobAt_of_state hsame] at hjob
      exact ih id job hjob
    · cases hchange with
      | bid hsame =>
        rw [jobAt_of_state hsame] at hjob
        exact ih id job hjob
      | voted hsame =>
        rw [jobAt_of_state hsame] at hjob
        exact ih id job hjob
      | @posted p _ _ hput =>
        rw [jobAt_of_put hput] at hjob
        split at hjob
        · next hid =>
          cases hjob
          exact ⟨hid, hfresh p s⟩
        · exact ih id job hjob
      | @moved _ _ before after hbefore hmoves hput =>
        rw [jobAt_of_put hput] at hjob
        split at hjob
        · next hid =>
          cases hjob
          exact ⟨hmoves.jobId_eq.trans hid,
            hmove s op before _ hop hbefore hmoves (ih _ _ hbefore).2⟩
        · exact ih id job hjob

/-- The steps of a list all meet `P`. -/
def Legal (env : Env) (P : Chain → Op → Prop) : Chain → List Op → Prop
  | _, [] => True
  | s, op :: ops => P s op ∧ Legal env P (op.run env s).2 ops

theorem legal_true (s : Chain) (ops : List Op) : Legal env (fun _ _ => True) s ops := by
  induction ops generalizing s with
  | nil => trivial
  | cons op ops ih => exact ⟨trivial, ih _⟩

instance decidableLegal [∀ s op, Decidable (P s op)] :
    ∀ (s : Chain) (ops : List Op), Decidable (Legal env P s ops)
  | _, [] => .isTrue trivial
  | s, op :: ops =>
    have := decidableLegal (op.run env s).2 ops
    inferInstanceAs (Decidable (P s op ∧ Legal env P (op.run env s).2 ops))

/-- The node after a list of steps. -/
def exec (env : Env) (s : Chain) (ops : List Op) : Chain :=
  ops.foldl (fun s op => (op.run env s).2) s

/-- The calls of a list of steps on top of a history. -/
def trace (env : Env) : Chain → List Op → List (Chain × Op) → List (Chain × Op)
  | _, [], hist => hist
  | s, op :: ops, hist => trace env (op.run env s).2 ops ((s, op) :: hist)

theorem Run.exec {ops : List Op} (h : Run env P hist s) (hops : Legal env P s ops) :
    Run env P (trace env s ops hist) (exec env s ops) := by
  induction ops generalizing hist s with
  | nil => exact h
  | cons op ops ih => exact ih (.step op h hops.1) hops.2

end Runs

/-! ## Full boards -/

/-- A job is completed only when it has no assigned verifiers, or as many as its board. -/
def BoardFilled (s : Chain) : Op → Prop
  | .complete p => ∀ job ∈ jobAt s p.jobId, job.verifiers ≠ [] →
      job.minVerifiers ≤ job.verifiers.length
  | _ => True

instance (s : Chain) (op : Op) : Decidable (BoardFilled s op) := by
  unfold BoardFilled
  split <;> infer_instance

section FullBoards

variable {env : Env} {hist : List (Chain × Op)} {s : Chain} {op : Op} {id : String}
  {job job' : InferenceJob}

/-- What keeps a board sound: a vote falls on a completed job only, which has its verifiers
assigned and is still undecided. -/
structure SoundBoard (job : InferenceJob) : Prop where
  size : 1 ≤ job.minVerifiers
  distinct : job.verifiers.Nodup
  early : job.status = .posted ∨ job.status = .awarded → job.verdicts = []
  filled : job.verdicts ≠ [] ∨ job.status = .completed → job.verifiers ≠ [] →
    job.minVerifiers ≤ job.verifiers.length
  undecided : job.status = .completed → resolveQuorumVerdict job.verdicts job.minVerifiers = none

theorem soundBoard_fresh (p : InferenceJobPost) (s : Chain) :
    SoundBoard (fresh p (autoScaleMinVerifiers s)) where
  size := by
    refine le_trans ?_ (le_max_left _ _)
    simp only [autoScaleMinVerifiers]
    split_ifs <;> omega
  distinct := List.nodup_nil
  early := fun _ => rfl
  filled := by simp [fresh]
  undecided := by simp [fresh]

/-- The board closes exactly with a verdict. -/
theorem soundBoard_closed {epoch : ℕ} (hstatus : job.status = .completed)
    (hsize : 1 ≤ job.minVerifiers) (hdistinct : job.verifiers.Nodup)
    (hfilled : job.verifiers ≠ [] → job.minVerifiers ≤ job.verifiers.length) :
    SoundBoard (closed epoch job) := by
  unfold closed
  rcases Board.resolve_cases job.verdicts job.minVerifiers with h | h | h | h <;> rw [h]
  · exact ⟨hsize, hdistinct, by simp [hstatus], fun _ => hfilled, fun _ => h⟩
  · exact ⟨hsize, hdistinct, by simp, fun _ => hfilled, by simp⟩
  · exact ⟨hsize, hdistinct, by simp, fun _ => hfilled, by simp⟩
  · exact ⟨hsize, hdistinct, by simp, fun _ => hfilled, by simp⟩

theorem soundBoard_move (hop : BoardFilled s op) (hjob : jobAt s op.jobId = some job)
    (hmove : Moves op job job') (h : SoundBoard job) : SoundBoard job' := by
  cases hmove with
  | awarded hs =>
    exact ⟨h.size, h.distinct, fun _ => h.early (.inl hs), by simp [h.early (.inl hs)], by simp⟩
  | assigned hs hlen hnew =>
    refine ⟨h.size, ?_, h.early, ?_, ?_⟩
    · rw [List.nodup_append]
      refine ⟨h.distinct, List.nodup_singleton _, ?_⟩
      rintro a ha b hb rfl
      exact hnew (List.mem_singleton.1 hb ▸ ha)
    · simp [h.early (.inl hs), hs]
    · simp [hs]
  | completed hs hworker =>
    refine ⟨h.size, h.distinct, by simp, fun _ => hop job hjob, fun _ => ?_⟩
    rw [show job.verdicts = [] from h.early (.inr hs)]
    exact Board.resolve_nil h.size
  | committed hs => exact ⟨h.size, h.distinct, h.early, h.filled, h.undecided⟩
  | judged hs hassigned hnew hknown =>
    exact soundBoard_closed hs h.size h.distinct (h.filled (.inr hs))
  | claimed hs => exact ⟨h.size, h.distinct, by simp, by simpa using fun hv => h.filled (.inl hv), by simp⟩
  | reviewed status hs hstatus =>
    rcases hstatus with rfl | rfl
    · exact ⟨h.size, h.distinct, by simp, by simpa using fun hv => h.filled (.inl hv), by simp⟩
    · exact ⟨h.size, h.distinct, by simp, by simpa using fun hv => h.filled (.inl hv), by simp⟩
  | paid hs => exact ⟨h.size, h.distinct, by simp, by simpa using fun hv => h.filled (.inl hv), by simp⟩
  | cancelled hs => exact ⟨h.size, h.distinct, by simp, by simp [h.early hs], by simp⟩

/-- In every run that completes jobs with filled boards, a job whose assigned verifiers
have all voted is decided. -/
theorem full_board_resolves (h : Run env BoardFilled hist s) (hjob : jobAt s id = some job)
    (hassigned : job.verifiers ≠ []) (hvoted : job.verifiers ⊆ job.verdicts.map (·.1)) :
    (∃ verdict, resolveQuorumVerdict job.verdicts job.minVerifiers = some verdict) ∧
      job.status ≠ .completed := by
  obtain ⟨-, hsound⟩ := h.jobs_keep soundBoard_fresh
    (fun _ _ _ _ hop hjob hmove hs => soundBoard_move hop hjob hmove hs) id job hjob
  have hlen : job.verifiers.length ≤ job.verdicts.length := by
    have := (List.subperm_of_subset hsound.distinct hvoted).length_le
    rwa [List.length_map] at this
  have hne : job.verdicts ≠ [] := by
    intro hnil
    rw [hnil, List.length_nil, Nat.le_zero, List.length_eq_zero_iff] at hlen
    exact hassigned hlen
  have hsome := Board.resolve_of_le ((hsound.filled (.inl hne) hassigned).trans hlen)
  refine ⟨hsome, fun hstatus => ?_⟩
  obtain ⟨verdict, hverdict⟩ := hsome
  rw [hsound.undecided hstatus] at hverdict
  cases hverdict

end FullBoards

/-! ### A board larger than its verifiers -/

/-- Alice posts a job that asks for `board` verifiers. -/
def samplePost (id : String) (board : ℕ) : InferenceJobPost :=
  ⟨id, "alice", "llama3", "solo", "h", 10, 0, 2, 10, 0, 1, "alice", none, none, some board, none⟩

def sampleAward (id winner role : String) : Op := .award ⟨id, winner, role, 10, 0⟩

def sampleComplete (id : String) : Op := .complete ⟨id, "bob", "r", 100, 0, "bob"⟩

def sampleVerify (id verifier verdict : String) (epoch : ℕ) : Op :=
  .verify ⟨id, verifier, verdict, 1, none, none, epoch, verifier⟩

/-- Alice has what the sample jobs cost. -/
def funded : Chain := ({} : Chain).setBalance "alice" "HONE" 1000

theorem run_funded (env : Env) (P : Chain → Op → Prop) : Run env P [] funded :=
  .start (fun _ => rfl) fun _ => rfl

/-- One verifier is assigned and approves. -/
def oneVerifier : List Op :=
  [.post (samplePost "j" 1), sampleAward "j" "v" "verifier", sampleAward "j" "bob" "worker",
    sampleComplete "j", sampleVerify "j" "v" "approved" 0]

theorem full_board_resolves_one : ∃ hist job, Run .bare BoardFilled hist (exec .bare funded oneVerifier) ∧
    jobAt (exec .bare funded oneVerifier) "j" = some job ∧ job.status ≠ .completed := by
  have hrun := (run_funded .bare BoardFilled).exec
    (show Legal .bare BoardFilled funded oneVerifier by decide)
  have hassigned : (jobAt (exec .bare funded oneVerifier) "j").map (·.verifiers) = some ["v"] := by
    decide
  have hvoted : (jobAt (exec .bare funded oneVerifier) "j").map (·.verdicts.map (·.1)) =
      some ["v"] := by decide
  obtain ⟨job, hjob, hv⟩ := Option.map_eq_some_iff.1 hassigned
  rw [hjob, Option.map_some, Option.some_inj] at hvoted
  exact ⟨_, job, hrun, hjob, (full_board_resolves hrun hjob (by simp [hv])
    (by rw [hv, hvoted]; exact List.Subset.refl _)).2⟩

/-- The requester asks for five verifiers, three can be assigned, and they disagree. -/
def threeOfFive : List Op :=
  [.post (samplePost "j" 5), sampleAward "j" "u" "verifier", sampleAward "j" "v" "verifier",
    sampleAward "j" "w" "verifier", sampleAward "j" "bob" "worker", sampleComplete "j",
    sampleVerify "j" "u" "approved" 0, sampleVerify "j" "v" "rejected" 0,
    sampleVerify "j" "w" "review_required" 0]

/-- The full board of three is undecided and stays so. -/
theorem full_board_stuck : ∃ hist job,
    Run .bare (fun _ _ => True) hist (exec .bare funded threeOfFive) ∧
    jobAt (exec .bare funded threeOfFive) "j" = some job ∧ job.status = .completed ∧
    job.verifiers = ["u", "v", "w"] ∧ job.verdicts.map (·.1) = ["u", "v", "w"] ∧
    resolveQuorumVerdict job.verdicts job.minVerifiers = none := by
  have hrun := (run_funded .bare fun _ _ => True).exec (legal_true funded threeOfFive)
  have hend : (jobAt (exec .bare funded threeOfFive) "j").map (fun job =>
      (job.status, job.verifiers, job.verdicts.map (·.1),
        resolveQuorumVerdict job.verdicts job.minVerifiers)) =
      some (.completed, ["u", "v", "w"], ["u", "v", "w"], none) := by decide
  obtain ⟨job, hjob, heq⟩ := Option.map_eq_some_iff.1 hend
  simp only [Prod.mk.injEq] at heq
  exact ⟨_, job, hrun, hjob, heq⟩

end HoneNode.Jobs
