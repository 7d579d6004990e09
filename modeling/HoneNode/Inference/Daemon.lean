import HoneNode.Inference.Escrow
import HoneNode.Inference.Settlement
import HoneNode.Rewards.Holdings

/-!
# Inference.Daemon — what an epoch of the daemon leaves undone

`inference_daemon.rs` goes over the jobs six times each epoch and proposes entries
for them; a refused entry is logged and forgotten. Two of the entries are refused
whatever the state: a worker's award closes the job before its verifiers are
awarded, and a disputed job is not in a status that can be paid.

1. **The passes** as the source has them.
2. **One pass**: every job it selects goes through one round, and no round touches
   another job (`pass_rule`).
3. **Money**: in a sound state every pay and cancel entry of the daemon is covered.
4. **The epoch** (`epoch_progress_iff`).
-/

namespace HoneNode.Daemon

open Entry Prog Within Jobs Escrow Settlement

/-! ## The passes -/

def verificationGraceEpochs : ℕ := 20

def getBids (jobId : String) (s : Chain) : List InferenceBid :=
  ((s.state .inferBid).scan (hasPrefix s!"{jobId}:")).map (·.2)

def getVotes (jobId : String) (s : Chain) : List ReviewVote :=
  (s.stateGet .inferVotes jobId).getD []

/-- Reputation per fee. -/
def bidScore (s : Chain) (b : InferenceBid) : ℕ :=
  satMul (getReputation b.bidder s).score 10000 / max b.fee 1

/-- The best bid for a role; of equal ones the last. -/
def selectBestBid (bids : List InferenceBid) (s : Chain) (role : String) : Option InferenceBid :=
  (bids.filter (·.role = role)).foldl (fun best b => match best with
    | none => some b
    | some c => if bidScore s b < bidScore s c then some c else some b) none

def jobsOf (s : Chain) : List InferenceJob := (s.state .inferJob).bindings.map (·.2)

/-- The bid window has closed. -/
def readyToAward (epoch : ℕ) (job : InferenceJob) : Bool :=
  job.status = .posted && wrapAdd job.postedEpoch job.bidWindowEpochs ≤ epoch

/-- Disputed, and nobody claimed in time. -/
def claimExpired (epoch : ℕ) (job : InferenceJob) : Bool :=
  job.status = .disputed &&
    job.disputedEpoch.any fun disputed => wrapAdd disputed claimWindowEpochs < epoch

def pastDeadline (epoch : ℕ) (job : InferenceJob) : Bool :=
  (job.status = .posted || job.status = .awarded) && job.deadlineEpoch < epoch

def unverified (job : InferenceJob) : Bool :=
  job.status = .completed && job.verifiers = [] && job.latencyMs.isSome

section Passes

variable (env : Env) (now epoch : ℕ)

/-- The daemon goes on whatever an entry returns. -/
def propose (e : LedgerEntry) (s : Chain) : Chain := (applyEntry env now e s).2

def awardOf (job : InferenceJob) (bid : InferenceBid) (role : String) : InferenceJobAward :=
  ⟨job.jobId, bid.bidder, role, bid.fee, epoch⟩

def cancelOf (job : InferenceJob) (reason : String) : InferenceJobCancel :=
  ⟨job.jobId, "system", reason, epoch, 0, "system"⟩

/-- The best worker's bid and then the first three verifiers' are awarded; without a worker the
job is cancelled. -/
def awardJob (s : Chain) (job : InferenceJob) : Chain :=
  let bids := getBids job.jobId s
  match selectBestBid bids s "worker" with
  | some bid => match applyEntry env now (.inferenceJobAward (awardOf epoch job bid "worker")) s with
    | (.error _, s') => s'
    | (.ok (), s') => ((bids.filter (·.role = "verifier")).take 3).foldl
      (fun s bid => propose env now (.inferenceJobAward (awardOf epoch job bid "verifier")) s) s'
  | none => propose env now (.inferenceJobCancel (cancelOf epoch job "no bids received")) s

def payNofee (s : Chain) (job : InferenceJob) : Chain :=
  propose env now (.inferenceJobPay (buildPayEntryNofee s job [] epoch)) s

def cancelLate (s : Chain) (job : InferenceJob) : Chain :=
  propose env now (.inferenceJobCancel (cancelOf epoch job "deadline exceeded")) s

/-- Propose a pay entry, if one could be built. -/
def proposePay (pay : Option InferenceJobPay) (s : Chain) : Chain :=
  match pay with
  | some p => propose env now (.inferenceJobPay p) s
  | none => s

def payVerified (s : Chain) (job : InferenceJob) : Chain :=
  proposePay env now (buildPayEntryHappy s job epoch) s

def payResolved (s : Chain) (job : InferenceJob) : Chain :=
  let reviewers := (getVotes job.jobId s).map (·.reviewer)
  proposePay env now (if job.status = .reviewed then buildPayEntryDisputed s job reviewers epoch
    else some (buildPayEntryNofee s job reviewers epoch)) s

def autoSettle (s : Chain) (job : InferenceJob) : Chain :=
  if epoch < wrapAdd job.deadlineEpoch verificationGraceEpochs then s
  else proposePay env now (buildPayEntryHappy s job epoch) s

/-- The jobs are selected once, and then each goes through a round. -/
def pass (sel : InferenceJob → Bool) (round : Chain → InferenceJob → Chain) (s : Chain) : Chain :=
  ((jobsOf s).filter sel).foldl round s

def awardPendingJobs : Chain → Chain := pass (readyToAward epoch) (awardJob env now epoch)

def expireStaleClaims : Chain → Chain := pass (claimExpired epoch) (payNofee env now epoch)

def expireStaleJobs : Chain → Chain := pass (pastDeadline epoch) (cancelLate env now epoch)

def payVerifiedJobs : Chain → Chain := pass (·.status = .verified) (payVerified env now epoch)

def payResolvedDisputes : Chain → Chain :=
  pass (fun job => job.status = .reviewed || job.status = .rejected) (payResolved env now epoch)

def autoSettleUnverified : Chain → Chain := pass unverified (autoSettle env now epoch)

def processEpoch (s : Chain) : Chain :=
  autoSettleUnverified env now epoch (payResolvedDisputes env now epoch
    (payVerifiedJobs env now epoch (expireStaleJobs env now epoch
      (expireStaleClaims env now epoch (awardPendingJobs env now epoch s)))))

end Passes

/-! ## One pass -/

/-- Every job is stored under the id it carries. -/
def Keyed (s : Chain) : Prop := ∀ id job, jobAt s id = some job → job.jobId = id

section OnePass

variable {env : Env} {now epoch : ℕ} {s t : Chain} {job : InferenceJob}

theorem mem_jobsOf (hkeyed : Keyed s) (h : job ∈ jobsOf s) : jobAt s job.jobId = some job := by
  obtain ⟨⟨id, job⟩, hmem, rfl⟩ := List.mem_map.1 h
  have hget : jobAt s id = some job := (Kv.lookup_eq_some_iff (s.state .inferJob).sorted).2 hmem
  rw [hkeyed id job hget]
  exact hget

theorem mem_jobsOf_of_jobAt {id : String} (h : jobAt s id = some job) : job ∈ jobsOf s :=
  List.mem_map.2 ⟨(id, job), (Kv.lookup_eq_some_iff (s.state .inferJob).sorted).1 h, rfl⟩

theorem nodup_jobsOf (hkeyed : Keyed s) : ((jobsOf s).map (·.jobId)).Nodup := by
  have hkeys : (jobsOf s).map (·.jobId) = (s.state .inferJob).bindings.map Prod.fst := by
    unfold jobsOf
    rw [List.map_map]
    refine List.map_congr_left fun row hrow => ?_
    exact hkeyed row.1 row.2 ((Kv.lookup_eq_some_iff (s.state .inferJob).sorted).2 hrow)
  have hdistinct : (s.state .inferJob).bindings.Pairwise fun a b => a.1 ≠ b.1 :=
    List.Pairwise.imp (fun hlt => ne_of_lt hlt) (s.state .inferJob).sorted
  rw [hkeys]
  exact List.pairwise_map.2 hdistinct

/-- What a round does: it keeps `I`, leaves the other jobs, and takes its job where `Q` says. -/
def Round (I : Chain → Prop) (Q : InferenceJob → InferenceJob → Prop) (sel : InferenceJob → Bool)
    (round : Chain → InferenceJob → Chain) : Prop :=
  ∀ t job, I t → jobAt t job.jobId = some job → sel job = true → I (round t job) ∧
    (∀ id, id ≠ job.jobId → jobAt (round t job) id = jobAt t id) ∧
      ∃ job', jobAt (round t job) job.jobId = some job' ∧ Q job job'

variable {I : Chain → Prop} {Q : InferenceJob → InferenceJob → Prop} {sel : InferenceJob → Bool}
  {round : Chain → InferenceJob → Chain}

theorem rounds_rule (hround : Round I Q sel round) {l : List InferenceJob}
    (hnodup : (l.map (·.jobId)).Nodup)
    (hl : ∀ job ∈ l, jobAt t job.jobId = some job ∧ sel job = true) (hI : I t) :
    I (l.foldl round t) ∧
      (∀ id, id ∉ l.map (·.jobId) → jobAt (l.foldl round t) id = jobAt t id) ∧
        ∀ job ∈ l, ∃ job', jobAt (l.foldl round t) job.jobId = some job' ∧ Q job job' := by
  induction l generalizing t with
  | nil => exact ⟨hI, fun _ _ => rfl, fun _ hjob => absurd hjob List.not_mem_nil⟩
  | cons first rest ih =>
    rw [List.map_cons, List.nodup_cons] at hnodup
    obtain ⟨hget, hsel⟩ := hl first List.mem_cons_self
    obtain ⟨hI', hothers, first', hfirst, hQ⟩ := hround t first hI hget hsel
    have hrest : ∀ job ∈ rest, jobAt (round t first) job.jobId = some job ∧ sel job = true := by
      intro job hjob
      obtain ⟨hget, hsel⟩ := hl job (List.mem_cons_of_mem _ hjob)
      rw [hothers]
      · exact ⟨hget, hsel⟩
      · intro heq
        exact hnodup.1 (List.mem_map.2 ⟨job, hjob, heq⟩)
    obtain ⟨hI'', hkept, hdone⟩ := ih hnodup.2 hrest hI'
    refine ⟨hI'', fun id hid => ?_, fun job hjob => ?_⟩
    · rw [List.map_cons, List.mem_cons, not_or] at hid
      exact (hkept id hid.2).trans (hothers id hid.1)
    · rcases List.mem_cons.1 hjob with rfl | hjob
      · exact ⟨first', (hkept _ hnodup.1).trans hfirst, hQ⟩
      · exact hdone job hjob

/-- Every job a pass selects goes through one round, and the others stay as they are. -/
theorem pass_rule (hround : Round I Q sel round) (hkeyed : Keyed s) (hI : I s) :
    I (pass sel round s) ∧
      (∀ id, jobAt s id = none → jobAt (pass sel round s) id = none) ∧
        ∀ id job, jobAt s id = some job → ∃ job', jobAt (pass sel round s) id = some job' ∧
          if sel job then Q job job' else job' = job := by
  have hnodup : (((jobsOf s).filter sel).map (·.jobId)).Nodup :=
    (nodup_jobsOf hkeyed).sublist (List.filter_sublist.map _)
  obtain ⟨hI', hkept, hdone⟩ := rounds_rule hround hnodup (fun job hjob => by
    obtain ⟨hmem, hsel⟩ := List.mem_filter.1 hjob
    exact ⟨mem_jobsOf hkeyed hmem, hsel⟩) hI
  have hselected : ∀ id ∈ ((jobsOf s).filter sel).map (·.jobId), ∃ job,
      jobAt s id = some job ∧ sel job = true := by
    intro id hid
    obtain ⟨job, hjob, rfl⟩ := List.mem_map.1 hid
    obtain ⟨hmem, hsel⟩ := List.mem_filter.1 hjob
    exact ⟨job, mem_jobsOf hkeyed hmem, hsel⟩
  refine ⟨hI', fun id hnone => ?_, fun id job hjob => ?_⟩
  · refine (hkept id fun hid => ?_).trans hnone
    obtain ⟨job, hjob, -⟩ := hselected id hid
    rw [hnone] at hjob
    cases hjob
  · by_cases hsel : sel job = true
    · obtain ⟨job', hget, hQ⟩ := hdone job (List.mem_filter.2 ⟨mem_jobsOf_of_jobAt hjob, hsel⟩)
      rw [hkeyed id job hjob] at hget
      refine ⟨job', hget, ?_⟩
      rw [if_pos hsel]
      exact hQ
    · refine ⟨job, (hkept id fun hid => ?_).trans hjob, if_neg hsel ▸ rfl⟩
      obtain ⟨other, hother, hsel'⟩ := hselected id hid
      rw [hjob] at hother
      cases hother
      exact hsel hsel'

/-! ## One entry -/

/-- What an entry for a job does to the jobs: nothing if it is refused, else a move of its own. -/
theorem jobs_of_op (hkeyed : Keyed s) {op : Op} (hop : ∀ t, Change s op t →
      ∃ job job', jobAt s op.jobId = some job ∧ Moves op job job' ∧
        t.state .inferJob = (s.state .inferJob).put job.jobId job') :
    Keyed (op.run env s).2 ∧ (∀ id, id ≠ op.jobId → jobAt (op.run env s).2 id = jobAt s id) ∧
      ((∃ f, (op.run env s).1 = .error f ∧
          jobAt (op.run env s).2 op.jobId = jobAt s op.jobId) ∨
        ∃ job job', (op.run env s).1 = .ok () ∧ jobAt s op.jobId = some job ∧ Moves op job job' ∧
          jobAt (op.run env s).2 op.jobId = some job') := by
  rcases hrun : op.run env s with ⟨r, t⟩
  rcases step_cases hrun with ⟨f, rfl, hsame⟩ | ⟨rfl, hchange⟩
  · have hall : ∀ id, jobAt t id = jobAt s id := jobAt_of_state hsame
    refine ⟨fun id job hjob => hkeyed id job ((hall id).symm.trans hjob), fun id _ => hall id, ?_⟩
    exact .inl ⟨f, rfl, hall _⟩
  · obtain ⟨job, job', hjob, hmove, hput⟩ := hop t hchange
    have hid : job.jobId = op.jobId := hkeyed _ _ hjob
    have hall : ∀ id, jobAt t id = if op.jobId = id then some job' else jobAt s id := by
      intro id
      rw [jobAt_of_put hput, hid]
    refine ⟨fun id after hafter => ?_, fun id hne => ?_, .inr ⟨job, job', rfl, hjob, hmove, ?_⟩⟩
    · rw [hall] at hafter
      split at hafter
      · rename_i heq
        cases hafter
        exact hmove.jobId_eq.trans (hid.trans heq)
      · exact hkeyed id after hafter
    · rw [hall, if_neg hne.symm]
    · exact (hall _).trans (if_pos rfl)

end OnePass

/-! ## Money -/

/-- A balance row that does not shrink. -/
def Grows (k : String) (s t : Chain) : Prop := s.row k ≤ t.row k

instance (k : String) : IsPreorder Chain (Grows k) where
  refl _ := Nat.le_refl _
  trans _ _ _ h h' := Nat.le_trans h h'

section Money

variable {W : Footprint} {α : Type} {k : String} {s t : Chain}

theorem grows_credit (account token : String) (n : ℕ) :
    Along (Grows k) (credit account token n : Prog W Unit) := by
  intro s
  rw [run_credit]
  split
  · unfold Grows
    rw [row_credited]
    exact Nat.le_add_right _ _
  · exact Nat.le_refl _

theorem grows_when {c : Prop} [Decidable c] {m : Prog W Unit} (h : Along (Grows k) m) :
    Along (Grows k) (when c m) := h.ite (along_pure ())

variable (l : List (String × ℕ))

theorem grows_payEach : Along (Grows k) (payEach l : Prog W Unit) := by
  induction l with
  | nil => exact along_pure ()
  | cons c rest ih =>
    obtain ⟨account, n⟩ := c
    exact (grows_credit account nativeToken n).bind fun _ => ih

theorem grows_slashDissenters (h : ∀ d ∈ l, d.1 ∈ W.unstakes) :
    Along (Grows k) (slashDissenters l h : Prog W Unit) := by
  induction l with
  | nil => exact along_pure ()
  | cons d rest ih =>
    obtain ⟨dissenter, amount⟩ := d
    refine along_inspect.bind fun stake => Along.bind (grows_when ?_) fun _ => ih _
    have hstake : Along (Grows k) (setStake dissenter (stake - min amount stake)
        (h (dissenter, amount) (by simp)) : Prog W Unit) := fun _ => Nat.le_refl _
    exact hstake.bind fun _ => (grows_credit _ _ _).ignoreErr

theorem grows_stateSet (f : Family) (key : String) (v : f.Val)
    (h : f.guarded = false ∨ f ∈ W.grants) : Along (Grows k) (Prog.stateSet f key v h) :=
  fun _ => Nat.le_refl _

theorem mints_payEach :
    Mints (l.map (·.2)).sum (payEach l : Prog W Unit) := by
  induction l with
  | nil => exact raises_pure ()
  | cons c rest ih =>
    obtain ⟨account, n⟩ := c
    rw [List.map_cons, List.sum_cons]
    exact mints_credit.bind fun _ => ih

/-- What is slashed goes to the recycle fund, or is lost. -/
theorem mints_slashDissenters (h : ∀ d ∈ l, d.1 ∈ W.unstakes) :
    Mints 0 (slashDissenters l h : Prog W Unit) := by
  induction l with
  | nil => exact raises_pure ()
  | cons d rest ih =>
    obtain ⟨dissenter, amount⟩ := d
    intro s
    unfold slashDissenters
    refine raisesAt_inspect_bind.2 ?_
    have hfirst : RaisesAt (2 ^ 64) Chain.holdings 0 (when (0 < min amount (s.getStake dissenter)) (do
        setStake dissenter (s.getStake dissenter - min amount (s.getStake dissenter))
          (h (dissenter, amount) (by simp))
        ignoreErr (credit recycleFund nativeToken (min amount (s.getStake dissenter)))) :
          Prog W Unit) s := by
      intro _
      rw [run_when]
      split
      · rw [run_bind_ok (run_setStake _ _ _ _), run_ignoreErr, run_credit]
        have hset := holdings_setStake s dissenter
          (s.getStake dissenter - min amount (s.getStake dissenter))
        have hle : min amount (s.getStake dissenter) ≤ s.getStake dissenter := Nat.min_le_right _ _
        split
        · dsimp only
          rw [holdings_credited_native]
          omega
        · dsimp only
          omega
      · exact Nat.le_refl _
    exact (hfirst.bind fun _ t _ => ih _ t).mono (Nat.le_refl 0)

theorem mints_ensure {c : Prop} [Decidable c] {msg : String} :
    Mints 0 (ensure c msg : Prog W Unit) := (raises_pure ()).ite (raises_fail _)

theorem mints_rerate (nodeId : String) (g : NodeReputation → NodeReputation) :
    Mints 0 (rerate nodeId g : Prog W Unit) :=
  (raises_inspect _).andThen fun _ => mints_stateSet_other (by decide) _ _ _

theorem mints_setJob (job : InferenceJob) : Mints 0 (setJob job : Prog W Unit) :=
  mints_stateSet_other (by decide) _ _ _

/-- A pay entry that debits what it pays mints nothing. -/
theorem mints_pay {p : InferenceJobPay} (h : payTotal p = totalOut p) :
    Mints 0 (applyInferenceJobPay p) := by
  unfold applyInferenceJobPay
  have hget : Mints 0 (getJob p.jobId : Prog (payFootprint p) InferenceJob) := by
    refine (raises_inspect _).andThen fun found => ?_
    cases found with
    | none => exact raises_fail _
    | some job => exact raises_pure job
  refine hget.andThen fun job => mints_ensure.andThen fun _ => mints_debit_bind _ ?_
  change Mints (totalOut p) _
  rw [← h]
  have hworker : Mints p.workerAmount (when (0 < p.workerAmount)
      (credit p.worker nativeToken p.workerAmount) : Prog (payFootprint p) Unit) :=
    mints_when mints_credit
  have hrefund : Mints p.refundAmount (when (0 < p.refundAmount)
      (credit job.requester nativeToken p.refundAmount) : Prog (payFootprint p) Unit) :=
    mints_when mints_credit
  refine Raises.mono (hworker.bind fun _ => (mints_payEach p.verifierPayments).bind fun _ =>
    (mints_payEach p.reviewerPayments).bind fun _ => mints_credit.bind fun _ =>
      hrefund.bind fun _ => (mints_slashDissenters _ _).andThen fun _ =>
        (mints_setJob _).andThen fun _ => Raises.andThen (b := 0) ?_ fun _ => ?_) ?_
  · exact mints_when (mints_stateSet_other (by decide) _ _ _)
  · exact mints_when (mints_stateSet_other (by decide) _ _ _)
  · unfold payTotal
    omega

theorem mints_cancel (p : InferenceJobCancel) : Mints 0 (applyInferenceJobCancel p) := by
  unfold applyInferenceJobCancel
  have hget : Mints 0 (getJob p.jobId : Prog { pays := {balanceKey recycleFund nativeToken} }
      InferenceJob) := by
    refine (raises_inspect _).andThen fun found => ?_
    cases found with
    | none => exact raises_fail _
    | some job => exact raises_pure job
  refine hget.andThen fun job => mints_ensure.andThen fun _ => Raises.andThen ?_ fun _ =>
    mints_debit_bind _ ?_
  · exact mints_when (mints_ensure.andThen fun _ => mints_ensure)
  · refine (mints_credit.bind (b := 0) fun _ => ?_).mono (Nat.le_refl _)
    cases job.winner with
    | none => exact mints_setJob _
    | some winner => exact (mints_rerate _ _).andThen fun _ => mints_setJob _

/-- A pay entry takes its total from a row and nothing more. -/
theorem row_pay {p : InferenceJobPay} {job : InferenceJob}
    (hjob : jobAt s p.jobId = some job) (hstatus : job.status ∈ payable)
    (hcover : totalOut p ≤ s.getBalance recycleFund nativeToken) :
    s.row k - totalOut p ≤ ((applyInferenceJobPay p).run s).2.row k := by
  have hdebited : s.row k - totalOut p ≤ (s.debited recycleFund nativeToken (totalOut p)).row k := by
    rw [row_debited]
    split <;> omega
  refine hdebited.trans ?_
  unfold applyInferenceJobPay
  rw [run_bind_ok (run_getJob hjob), run_ensure_bind (by exact hstatus),
    run_debit_bind (by exact hcover)]
  refine (((grows_when (grows_credit _ _ _)).bind fun _ => (grows_payEach _).bind fun _ =>
    (grows_payEach _).bind fun _ => (grows_credit _ _ _).bind fun _ =>
      (grows_when (grows_credit _ _ _)).bind fun _ => (grows_slashDissenters _ _).bind fun _ =>
        (grows_stateSet _ _ _ _).bind fun _ => (grows_when (grows_stateSet _ _ _ _)).bind fun _ =>
          grows_when (grows_stateSet _ _ _ _)) :
            Along (Grows k) _) (s.debited recycleFund nativeToken (totalOut p))

theorem row_cancel {p : InferenceJobCancel} {job : InferenceJob}
    (hjob : jobAt s p.jobId = some job) (hmay : MayCancel p job)
    (hcover : job.maxFee ≤ s.getBalance recycleFund nativeToken) :
    s.row k - job.maxFee ≤ ((applyInferenceJobCancel p).run s).2.row k := by
  have hdebited : s.row k - job.maxFee ≤ (s.debited recycleFund nativeToken job.maxFee).row k := by
    rw [row_debited]
    split <;> omega
  refine hdebited.trans ?_
  unfold applyInferenceJobCancel
  rw [run_bind_ok (run_getJob hjob), run_ensure_bind hmay.1,
    run_bind_ok (run_mayCancel hmay), run_debit_bind hcover]
  refine ((grows_credit _ _ _).bind fun _ => ?_ : Along (Grows k) _)
    (s.debited recycleFund nativeToken job.maxFee)
  cases job.winner with
  | none => exact grows_stateSet _ _ _ _
  | some winner =>
    have hrate : Along (Grows k) (rerate winner NodeReputation.fail :
        Prog { pays := {balanceKey recycleFund nativeToken} } Unit) :=
      along_inspect.bind fun _ => grows_stateSet _ _ _ _
    exact hrate.bind fun _ => grows_stateSet _ _ _ _

/-- Where the holdings fit a word, credits out of a debit fit too. -/
theorem fits_of_capped {account : String} {l : List (String × ℕ)} {n : ℕ}
    (hcap : s.holdings < 2 ^ 64) (hcover : n ≤ s.getBalance account nativeToken)
    (hsum : (l.map (·.2)).sum ≤ n) : Fits (s.debited account nativeToken n) l := by
  intro c hc
  have hle : ∀ (k : String) (l : List (String × ℕ)), creditsTo k l ≤ (l.map (·.2)).sum := by
    intro k l
    induction l with
    | nil => exact Nat.le_refl 0
    | cons d rest ih =>
      obtain ⟨other, m⟩ := d
      rw [List.map_cons, List.sum_cons]
      unfold creditsTo
      split <;> omega
  have hdebited := holdings_debited_native hcover
  have hrow := getBalance_le_holdings (s.debited account nativeToken n)
    (nativeRow_balanceKey c.1)
  rw [getBalance_eq_row] at hrow
  have hall := hle (balanceKey c.1 nativeToken) l
  omega

end Money

/-! ## Sound states -/

def isOpen (job : InferenceJob) : Bool :=
  job.status ≠ .paid && job.status ≠ .cancelled && job.status ≠ .expired

/-- What was posted for the jobs that are still open. -/
def openEscrow (s : Chain) : ℕ :=
  (s.state .inferJob).sumBy fun _ job => if isOpen job then job.maxFee else 0

/-- The statuses that a pay pass settles. -/
def isDue (job : InferenceJob) : Bool :=
  job.status = .verified || job.status = .reviewed || job.status = .rejected

/-- The awarded fee is within the posted one, and the board fits into memory. -/
structure Priced (job : InferenceJob) : Prop where
  fee : ∀ fee ∈ job.awardedFee, fee ≤ job.maxFee
  verifiers : job.verifiers.length < 2 ^ 57
  verdicts : job.verdicts.length < 2 ^ 57

/-- The recycle fund covers the open escrows, and the supply fits a word. -/
structure Sound (s : Chain) : Prop where
  keyed : Keyed s
  priced : ∀ id job, jobAt s id = some job → isDue job = true → Priced job
  covered : openEscrow s ≤ s.getBalance recycleFund nativeToken
  capped : s.holdings < 2 ^ 64

instance (job : InferenceJob) : Decidable (Priced job) :=
  decidable_of_iff ((∀ fee ∈ job.awardedFee, fee ≤ job.maxFee) ∧
      job.verifiers.length < 2 ^ 57 ∧ job.verdicts.length < 2 ^ 57)
    ⟨fun h => ⟨h.1, h.2.1, h.2.2⟩, fun h => ⟨h.fee, h.verifiers, h.verdicts⟩⟩

section Settling

variable {env : Env} {now epoch : ℕ} {s t : Chain} {job job' : InferenceJob}

theorem openEscrow_put {id : String} (hget : jobAt s id = some job)
    (hput : t.state .inferJob = (s.state .inferJob).put id job') :
    openEscrow t + (if isOpen job then job.maxFee else 0) =
      openEscrow s + if isOpen job' then job'.maxFee else 0 := by
  have h := Kv.sumBy_put (fun _ job => if isOpen job then job.maxFee else 0) (s.state .inferJob) id
    job'
  have hold : (s.state .inferJob).get id = some job := hget
  rw [hold] at h
  unfold openEscrow
  rw [hput]
  exact h

theorem maxFee_le_openEscrow {id : String} (hget : jobAt s id = some job)
    (hopen : isOpen job = true) : job.maxFee ≤ openEscrow s := by
  have h := Kv.le_sumBy (fun _ job => if isOpen job then job.maxFee else 0) (m := s.state .inferJob)
    (show (s.state .inferJob).get id = some job from hget)
  rwa [if_pos hopen] at h

/-- A sound state stays sound when a job changes to one that is not due, and the fund still
covers what is open. -/
theorem Sound.put (hs : Sound s) (hput : t.state .inferJob = (s.state .inferJob).put job.jobId job')
    (hid : job'.jobId = job.jobId) (hdue : isDue job' = false)
    (hcovered : openEscrow t ≤ t.getBalance recycleFund nativeToken)
    (hhold : t.holdings ≤ s.holdings) : Sound t := by
  have hall : ∀ id, jobAt t id = if job.jobId = id then some job' else jobAt s id :=
    jobAt_of_put hput
  refine ⟨fun id after hafter => ?_, fun id after hafter hafterDue => ?_, hcovered,
    lt_of_le_of_lt hhold hs.capped⟩
  · rw [hall] at hafter
    split at hafter
    · rename_i heq
      cases hafter
      exact hid.trans heq
    · exact hs.keyed id after hafter
  · rw [hall] at hafter
    split at hafter
    · cases hafter
      rw [hdue] at hafterDue
      cases hafterDue
    · exact hs.priced id after hafter hafterDue

/-- A sound state stays sound when an open job is settled for at most its fee. -/
theorem Sound.settle (hs : Sound s) (hget : jobAt s job.jobId = some job)
    (hopen : isOpen job = true)
    (hput : t.state .inferJob = (s.state .inferJob).put job.jobId job')
    (hid : job'.jobId = job.jobId) (hclosed : isOpen job' = false)
    (hrow : s.getBalance recycleFund nativeToken - job.maxFee ≤
      t.getBalance recycleFund nativeToken) (hhold : t.holdings ≤ s.holdings) : Sound t := by
  have hescrow := openEscrow_put hget hput
  rw [if_pos hopen, if_neg (by rw [hclosed]; decide)] at hescrow
  have hdue : isDue job' = false := by
    unfold isOpen at hclosed
    unfold isDue
    cases hstatus : job'.status <;> simp [hstatus] at hclosed <;> rfl
  refine hs.put hput hid hdue ?_ hhold
  have := hs.covered
  omega

/-- Sums that stay within a word do not wrap. -/
theorem totalOut_eq {p : InferenceJobPay} (h : payTotal p < 2 ^ 64) :
    totalOut p = payTotal p := by
  unfold payTotal at h
  unfold totalOut payTotal wrapAdd wrapSum
  omega

theorem cancel_settles (hs : Sound s) {p : InferenceJobCancel} (hid : p.jobId = job.jobId)
    (hsystem : p.cancelledBy = "system") (hget : jobAt s job.jobId = some job)
    (hstatus : job.status = .posted ∨ job.status = .awarded) :
    let t := propose env now (.inferenceJobCancel p) s
    Sound t ∧ (∀ id, id ≠ job.jobId → jobAt t id = jobAt s id) ∧
      jobAt t job.jobId = some { job with status := .cancelled } := by
  have hopen : isOpen job = true := by
    unfold isOpen
    rcases hstatus with h | h <;> rw [h] <;> rfl
  have hmay : MayCancel p job := ⟨hstatus, fun hnot => absurd hsystem hnot⟩
  rw [← hid] at hget
  have hcover : job.maxFee ≤ s.getBalance recycleFund nativeToken :=
    (maxFee_le_openEscrow hget hopen).trans hs.covered
  have hfits : Fits (s.debited recycleFund nativeToken job.maxFee) [(job.requester, job.maxFee)] :=
    fits_of_capped hs.capped hcover (by simp)
  obtain ⟨t, hrun, -⟩ := cancel_succeeds hget hmay hcover hfits
  have hpropose : propose env now (.inferenceJobCancel p) s = t := congrArg Prod.snd hrun
  have hrow := row_cancel (k := balanceKey recycleFund nativeToken) hget hmay hcover
  have hmints := mints_cancel p s hs.capped
  rw [hrun] at hrow hmints
  rw [hpropose]
  cases change_cancel hrun with
  | moved hjob hmove hput =>
    cases hget.symm.trans hjob
    cases hmove with
    | cancelled h =>
      rw [hid] at hget
      have hall := jobAt_of_put hput
      refine ⟨hs.settle hget hopen hput rfl rfl hrow hmints, fun id hne => ?_, ?_⟩
      · rw [hall, if_neg hne.symm]
      · rw [hall, if_pos rfl]

theorem pay_settles (hs : Sound s) {p : InferenceJobPay} (hid : p.jobId = job.jobId)
    (htotal : payTotal p = job.maxFee) (hget : jobAt s job.jobId = some job)
    (hstatus : job.status ∈ payable) :
    let t := propose env now (.inferenceJobPay p) s
    Sound t ∧ (∀ id, id ≠ job.jobId → jobAt t id = jobAt s id) ∧
      jobAt t job.jobId = some { job with settledEpoch := some p.epoch, status := .paid } := by
  have hopen : isOpen job = true := by
    unfold payable at hstatus
    unfold isOpen
    simp only [List.mem_cons, List.not_mem_nil, or_false] at hstatus
    rcases hstatus with h | h | h | h | h <;> rw [h] <;> rfl
  rw [← hid] at hget
  have hcover : job.maxFee ≤ s.getBalance recycleFund nativeToken :=
    (maxFee_le_openEscrow hget hopen).trans hs.covered
  have hword : payTotal p < 2 ^ 64 := by
    have hle := getBalance_le_holdings s (nativeRow_balanceKey recycleFund)
    have hcap := hs.capped
    omega
  have hout : totalOut p = job.maxFee := (totalOut_eq hword).trans htotal
  rw [← hout] at hcover
  obtain ⟨t, hrun, -⟩ := pay_succeeds hget hstatus hcover
    (fits_of_capped hs.capped hcover (by rw [sum_payCredits, hout, htotal]))
  have hpropose : propose env now (.inferenceJobPay p) s = t := congrArg Prod.snd hrun
  have hrow := row_pay (k := balanceKey recycleFund nativeToken) hget hstatus hcover
  have hmints := mints_pay (htotal.trans hout.symm) s hs.capped
  rw [hrun, hout] at hrow
  rw [hrun] at hmints
  rw [hpropose]
  cases change_pay hrun with
  | moved hjob hmove hput =>
    cases hget.symm.trans hjob
    cases hmove with
    | paid h =>
      rw [hid] at hget
      have hall := jobAt_of_put hput
      refine ⟨hs.settle hget hopen hput rfl rfl hrow hmints, fun id hne => ?_, ?_⟩
      · rw [hall, if_neg hne.symm]
      · rw [hall, if_pos rfl]

end Settling

/-! ## What the builders hand out -/

section Totals

variable {s : Chain} {job : InferenceJob} {consensus worker : String} {epoch : ℕ}

theorem share_le (fee bps : ℕ) : share fee bps ≤ fee * bps / 10000 :=
  Nat.div_le_div_right (Nat.mod_le _ _)

theorem length_board_le (h : Priced job) :
    (splitBoardByConsensus job consensus).1.length < 2 ^ 57 := by
  unfold splitBoardByConsensus
  split
  · exact h.verifiers
  · rw [List.length_map]
    exact lt_of_le_of_lt (List.length_filter_le _ _) h.verdicts

/-- The verifiers together get at most their pool. -/
theorem sum_split_le (pool : ℕ) {board dissenters : List String} (h : board.length < 2 ^ 57) :
    ((computeVerifierSplit s board dissenters pool).1.map (·.2)).sum ≤ pool := by
  have hweights : (board.map (verifierWeight s)).sum ≤ 100 * board.length := by
    have hle := List.sum_le_card_nsmul (board.map (verifierWeight s)) 100 fun w hw => by
      obtain ⟨v, -, rfl⟩ := List.mem_map.1 hw
      unfold verifierWeight
      split <;> decide
    rw [List.length_map, nsmul_eq_mul, Nat.cast_id] at hle
    omega
  have htotal : (board.map (verifierWeight s)).sum ≤
      max ((board.map (verifierWeight s)).sum % 2 ^ 64) 1 := by
    rw [Nat.mod_eq_of_lt (by omega)]
    exact Nat.le_max_left _ _
  unfold computeVerifierSplit
  dsimp only
  rw [List.map_map]
  refine (List.sum_le_sum fun v _ => ?_).trans (Shares.sum_mul_div_le pool htotal)
  exact Nat.div_le_div_right (Nat.mod_le _ _)

theorem sum_reviewerShares_le (reviewers : List String) (pool : ℕ) :
    ((reviewerShares reviewers pool).map (·.2)).sum ≤ pool := by
  unfold reviewerShares
  rw [List.map_map]
  cases reviewers with
  | nil => exact Nat.zero_le _
  | cons r rest =>
    rw [Nat.max_eq_left (by simp)]
    exact Shares.sum_div_length_le pool (r :: rest)

/-- What is not paid is refunded, so the whole fee is handed out. -/
theorem payTotal_payEntry (hpriced : Priced job) (hmax : job.maxFee < 2 ^ 64)
    {workerAmount pool recycle : ℕ} {reviewers : List (String × ℕ)}
    (hle : workerAmount + pool + (reviewers.map (·.2)).sum + recycle ≤ job.maxFee) :
    payTotal (payEntry s job consensus worker workerAmount pool recycle reviewers epoch) =
      job.maxFee := by
  have hsplit := @sum_split_le s pool _ (splitBoardByConsensus job consensus).2
    (@length_board_le _ consensus hpriced)
  unfold payEntry payTotal
  dsimp only
  unfold wrapAdd wrapSum
  omega

theorem payTotal_happy (hpriced : Priced job) (hmax : job.maxFee < 2 ^ 64)
    {p : InferenceJobPay} (h : buildPayEntryHappy s job epoch = some p) :
    p.jobId = job.jobId ∧ payTotal p = job.maxFee := by
  unfold buildPayEntryHappy at h
  obtain ⟨worker, -, h⟩ := Option.bind_eq_some_iff.1 h
  obtain ⟨fee, hfee, h⟩ := Option.bind_eq_some_iff.1 h
  cases h
  have hle := hpriced.fee fee hfee
  have hworker := share_le fee inferenceFeeWorkerBps
  have hpool := share_le fee inferenceFeeVerifierBps
  have hrecycle := share_le fee inferenceFeeRecycleBps
  unfold inferenceFeeWorkerBps at hworker
  unfold inferenceFeeVerifierBps at hpool
  unfold inferenceFeeRecycleBps at hrecycle
  refine ⟨rfl, payTotal_payEntry hpriced hmax ?_⟩
  unfold inferenceFeeWorkerBps inferenceFeeVerifierBps inferenceFeeRecycleBps
  rw [List.map_nil, List.sum_nil]
  omega

theorem payTotal_disputed (hpriced : Priced job) (hmax : job.maxFee < 2 ^ 64)
    {reviewers : List String} {p : InferenceJobPay}
    (h : buildPayEntryDisputed s job reviewers epoch = some p) :
    p.jobId = job.jobId ∧ payTotal p = job.maxFee := by
  unfold buildPayEntryDisputed at h
  obtain ⟨worker, -, h⟩ := Option.bind_eq_some_iff.1 h
  obtain ⟨fee, hfee, h⟩ := Option.bind_eq_some_iff.1 h
  cases h
  have hle := hpriced.fee fee hfee
  have hworker := share_le fee inferenceFeeWorkerDisputedBps
  have hpool := share_le fee inferenceFeeVerifierDisputedBps
  have hrecycle := share_le fee inferenceFeeRecycleDisputedBps
  have hreviewer := share_le fee inferenceFeeReviewerBps
  have hshares := sum_reviewerShares_le reviewers (share fee inferenceFeeReviewerBps)
  unfold inferenceFeeWorkerDisputedBps at hworker
  unfold inferenceFeeVerifierDisputedBps at hpool
  unfold inferenceFeeRecycleDisputedBps at hrecycle
  unfold inferenceFeeReviewerBps at hreviewer hshares
  refine ⟨rfl, payTotal_payEntry hpriced hmax ?_⟩
  unfold inferenceFeeWorkerDisputedBps inferenceFeeVerifierDisputedBps
    inferenceFeeRecycleDisputedBps inferenceFeeReviewerBps
  omega

theorem payTotal_nofee (hpriced : Priced job) (hmax : job.maxFee < 2 ^ 64)
    (reviewers : List String) :
    payTotal (buildPayEntryNofee s job reviewers epoch) = job.maxFee := by
  have hle : job.awardedFee.getD job.maxFee ≤ job.maxFee := by
    cases hfee : job.awardedFee with
    | none => exact Nat.le_refl _
    | some fee => exact hpriced.fee fee hfee
  unfold buildPayEntryNofee
  generalize job.awardedFee.getD job.maxFee = fee at hle
  have hpool := share_le fee inferenceFeeVerifierDisputedBps
  have hrecycle := share_le fee inferenceFeeRecycleDisputedBps
  have hreviewer := share_le fee inferenceFeeReviewerBps
  have hshares := sum_reviewerShares_le reviewers
    (if reviewers = [] then 0 else share fee inferenceFeeReviewerBps)
  have hcut : (if reviewers = [] then 0 else share fee inferenceFeeReviewerBps) ≤
      share fee inferenceFeeReviewerBps := by
    split
    · exact Nat.zero_le _
    · exact Nat.le_refl _
  unfold inferenceFeeVerifierDisputedBps at hpool
  unfold inferenceFeeRecycleDisputedBps at hrecycle
  unfold inferenceFeeReviewerBps at hreviewer hshares hcut
  refine payTotal_payEntry hpriced hmax ?_
  unfold inferenceFeeVerifierDisputedBps inferenceFeeRecycleDisputedBps inferenceFeeReviewerBps
  omega

/-- Whichever builder makes the entry of a job, what it pays, recycles and refunds is the posted
fee, also as the code adds it up; a product that wraps only makes a share smaller. -/
theorem payouts_make_up_fee (hpriced : Priced job) (hmax : job.maxFee < 2 ^ 64)
    (reviewers : List String) {p : InferenceJobPay}
    (hp : buildPayEntryHappy s job epoch = some p ∨
      buildPayEntryDisputed s job reviewers epoch = some p ∨
      buildPayEntryNofee s job reviewers epoch = p) :
    payTotal p = job.maxFee ∧ totalOut p = job.maxFee := by
  have htotal : payTotal p = job.maxFee := by
    rcases hp with hp | hp | rfl
    · exact (payTotal_happy hpriced hmax hp).2
    · exact (payTotal_disputed hpriced hmax hp).2
    · exact payTotal_nofee hpriced hmax reviewers
  exact ⟨htotal, (totalOut_eq (htotal ▸ hmax)).trans htotal⟩

/-- A job of the largest fee there is, with a board of three. -/
def dearJob : InferenceJob :=
  { jobId := "j", requester := "alice", model := "m", mode := "open", inputHash := "h",
    maxFee := 2 ^ 64 - 1, minReputation := 0, bidWindowEpochs := 1, deadlineEpoch := 9,
    postedEpoch := 0, status := .verified, winner := some "bob", awardedFee := some (2 ^ 64 - 1),
    verifiers := ["u", "v", "w"], resultHash := none, latencyMs := none, disputedEpoch := none,
    claimedEpoch := none, settledEpoch := none, completedEpoch := none, persistOnFs := false,
    verdicts := [("u", "approved"), ("v", "approved"), ("w", "rejected")], commits := [],
    minVerifiers := 3, nodeFingerprint := none }

theorem payouts_make_up_fee_dear : ∃ p, buildPayEntryHappy {} dearJob 1 = some p ∧
    payTotal p = 2 ^ 64 - 1 ∧ totalOut p = 2 ^ 64 - 1 := by
  have hpriced : Priced dearJob := by decide
  have hbuilt : (buildPayEntryHappy {} dearJob 1).isSome = true := by decide
  obtain ⟨p, hp⟩ := Option.isSome_iff_exists.1 hbuilt
  exact ⟨p, hp, payouts_make_up_fee hpriced (by decide) [] (.inl hp)⟩

end Totals

/-! ## The rounds -/

/-- Nobody to pay, or no fee: no pay entry is built. -/
def Stuck (job : InferenceJob) : Prop :=
  (job.status = .verified ∨ job.status = .reviewed) ∧ (job.winner = none ∨ job.awardedFee = none)

/-- What a pass does to a job: the board stays, and a disputed or stuck job is left alone. -/
structure Evolves (job job' : InferenceJob) : Prop where
  verifiers : job'.verifiers = job.verifiers
  disputed : job.status = .disputed ∨ job'.status = .disputed → job' = job
  stuck : Stuck job → job' = job
  due : isDue job' = true → job' = job

/-- A pay pass pays its job, unless no entry is built. -/
inductive Paid (job : InferenceJob) : InferenceJob → Prop where
  | stuck (h : Stuck job) : Paid job job
  | paid (h : ¬ Stuck job) (epoch : ℕ) :
      Paid job { job with settledEpoch := some epoch, status := .paid }

section Rounds

variable {env : Env} {now epoch : ℕ} {s t u : Chain} {job job' job'' : InferenceJob}

theorem status_of_readyToAward (h : readyToAward epoch job = true) : job.status = .posted :=
  of_decide_eq_true (Bool.and_eq_true_iff.1 h).1

theorem status_of_claimExpired (h : claimExpired epoch job = true) : job.status = .disputed :=
  of_decide_eq_true (Bool.and_eq_true_iff.1 h).1

theorem status_of_pastDeadline (h : pastDeadline epoch job = true) :
    job.status = .posted ∨ job.status = .awarded := by
  rcases Bool.or_eq_true_iff.1 (Bool.and_eq_true_iff.1 h).1 with h | h
  · exact .inl (of_decide_eq_true h)
  · exact .inr (of_decide_eq_true h)

theorem status_of_unverified (h : unverified job = true) : job.status = .completed :=
  of_decide_eq_true (Bool.and_eq_true_iff.1 (Bool.and_eq_true_iff.1 h).1).1

theorem resolved_iff : (job.status = .reviewed || job.status = .rejected) = true ↔
    job.status = .reviewed ∨ job.status = .rejected := by
  simp

theorem isDue_iff : isDue job = true ↔
    job.status = .verified ∨ job.status = .reviewed ∨ job.status = .rejected := by
  unfold isDue
  simp [or_assoc]

theorem Evolves.refl (job : InferenceJob) : Evolves job job :=
  ⟨rfl, fun _ => rfl, fun _ => rfl, fun _ => rfl⟩

theorem Evolves.trans (h : Evolves job job') (h' : Evolves job' job'') : Evolves job job'' where
  verifiers := h'.verifiers.trans h.verifiers
  disputed hor := by
    rcases hor with hfirst | hlast
    · have heq := h.disputed (.inl hfirst)
      rw [heq] at h'
      exact h'.disputed (.inl hfirst)
    · have heq := h'.disputed (.inr hlast)
      rw [heq] at hlast
      exact heq.trans (h.disputed (.inr hlast))
  stuck hstuck := by
    have heq := h.stuck hstuck
    rw [heq] at h'
    exact h'.stuck hstuck
  due hdue := by
    have heq := h'.due hdue
    rw [heq] at hdue
    exact heq.trans (h.due hdue)

/-- A job in none of the statuses the passes care for. -/
theorem evolves_of_status (hverifiers : job'.verifiers = job.verifiers)
    (hdisputed : job.status ≠ .disputed) (hstuck : ¬ Stuck job)
    (hafter : job'.status ≠ .disputed) (hdue : isDue job' = false) : Evolves job job' where
  verifiers := hverifiers
  disputed hor := by
    rcases hor with h | h
    · exact absurd h hdisputed
    · exact absurd h hafter
  stuck h := absurd h hstuck
  due h := by
    rw [hdue] at h
    cases h

theorem Paid.evolves (h : Paid job job') (hstatus : job.status ≠ .disputed) : Evolves job job' := by
  cases h with
  | stuck _ => exact .refl job
  | paid h epoch => exact evolves_of_status rfl hstatus h (fun hafter => by cases hafter) rfl

theorem evolves_cancelled (hstatus : job.status = .posted ∨ job.status = .awarded) :
    Evolves job { job with status := .cancelled } := by
  refine evolves_of_status rfl ?_ ?_ (fun h => by cases h) rfl
  · rcases hstatus with h | h <;> rw [h] <;> decide
  · rintro ⟨h' | h', -⟩ <;> rcases hstatus with h | h <;> rw [h] at h' <;> cases h'

theorem evolves_settled (hstatus : job.status = .completed) (settled : Option ℕ) :
    Evolves job { job with settledEpoch := settled, status := .paid } := by
  refine evolves_of_status rfl (by rw [hstatus]; decide) ?_ (fun h => by cases h) rfl
  rintro ⟨h | h, -⟩ <;> rw [hstatus] at h <;> cases h

/-- A pay pass, seen from one job: whatever it selects afterwards is stuck. -/
theorem evolves_of_pay {sel : InferenceJob → Bool}
    (hsel : ∀ job, sel job = true → job.status ≠ .disputed ∧ job.status ≠ .paid)
    (h : if sel job then Paid job job' else job' = job) :
    Evolves job job' ∧ (sel job' = true → Stuck job') := by
  split at h
  · rename_i hselected
    refine ⟨h.evolves (hsel job hselected).1, fun hafter => ?_⟩
    cases h with
    | stuck hstuck => exact hstuck
    | paid _ _ => exact absurd rfl (hsel _ hafter).2
  · rename_i hselected
    rw [h]
    exact ⟨.refl job, fun hafter => absurd hafter hselected⟩

theorem evolves_of_cancelLate (h : if pastDeadline epoch job then
    job' = { job with status := .cancelled } else job' = job) : Evolves job job' := by
  split at h
  · rename_i hsel
    rw [h]
    exact evolves_cancelled (status_of_pastDeadline hsel)
  · rw [h]
    exact .refl job

theorem evolves_of_autoSettle (h : if unverified job then
    job' = job ∨ ∃ e, job' = { job with settledEpoch := e, status := .paid } else job' = job) :
    Evolves job job' := by
  split at h
  · rename_i hsel
    rcases h with rfl | ⟨e, rfl⟩
    · exact .refl _
    · exact evolves_settled (status_of_unverified hsel) e
  · rw [h]
    exact .refl job

theorem Sound.maxFee_lt (hs : Sound s) {id : String} (hget : jobAt s id = some job)
    (hopen : isOpen job = true) : job.maxFee < 2 ^ 64 := by
  have hle := getBalance_le_holdings s (nativeRow_balanceKey recycleFund)
  have hescrow := maxFee_le_openEscrow hget hopen
  have hcovered := hs.covered
  have hcap := hs.capped
  omega

/-- A pay pass, for an entry that hands out the fee and is there unless the job is stuck. -/
theorem round_pay (hs : Sound t) {pay : Option InferenceJobPay}
    (hpay : ∀ p, pay = some p → p.jobId = job.jobId ∧ payTotal p = job.maxFee)
    (hstuck : pay = none ↔ Stuck job) (hget : jobAt t job.jobId = some job)
    (hstatus : job.status ∈ payable) :
    Sound (proposePay env now pay t) ∧
      (∀ id, id ≠ job.jobId → jobAt (proposePay env now pay t) id = jobAt t id) ∧
        ∃ job', jobAt (proposePay env now pay t) job.jobId = some job' ∧ Paid job job' := by
  unfold proposePay
  cases pay with
  | none => exact ⟨hs, fun _ _ => rfl, job, hget, .stuck (hstuck.1 rfl)⟩
  | some p =>
    obtain ⟨hid, htotal⟩ := hpay p rfl
    obtain ⟨hsound, hothers, hpaid⟩ :=
      @pay_settles env now _ _ hs _ hid htotal hget hstatus
    refine ⟨hsound, hothers, _, hpaid, .paid (fun h => ?_) p.epoch⟩
    cases hstuck.2 h

theorem happy_eq_none : buildPayEntryHappy t job epoch = none ↔
    job.winner = none ∨ job.awardedFee = none := by
  unfold buildPayEntryHappy
  cases job.winner <;> cases job.awardedFee <;> simp

theorem disputed_eq_none {reviewers : List String} :
    buildPayEntryDisputed t job reviewers epoch = none ↔
      job.winner = none ∨ job.awardedFee = none := by
  unfold buildPayEntryDisputed
  cases job.winner <;> cases job.awardedFee <;> simp

theorem round_payVerified : Round Sound Paid (·.status = .verified) (payVerified env now epoch) := by
  intro t job hs hget hsel
  have hstatus : job.status = .verified := of_decide_eq_true hsel
  have hpriced := hs.priced _ _ hget (by unfold isDue; rw [hstatus]; rfl)
  have hmax := hs.maxFee_lt hget (by unfold isOpen; rw [hstatus]; rfl)
  refine round_pay hs (fun p hp => payTotal_happy hpriced hmax hp) ?_ hget
    (by rw [hstatus]; decide)
  rw [happy_eq_none]
  unfold Stuck
  constructor
  · intro h
    exact ⟨.inl hstatus, h⟩
  · intro h
    exact h.2

theorem round_payResolved :
    Round Sound Paid (fun job => job.status = .reviewed || job.status = .rejected)
      (payResolved env now epoch) := by
  intro t job hs hget hsel
  unfold payResolved
  dsimp only
  generalize (getVotes job.jobId t).map (·.reviewer) = reviewers
  rcases resolved_iff.1 hsel with hstatus | hstatus
  · have hpriced := hs.priced _ _ hget (by unfold isDue; rw [hstatus]; rfl)
    have hmax := hs.maxFee_lt hget (by unfold isOpen; rw [hstatus]; rfl)
    rw [if_pos hstatus]
    refine round_pay hs (fun p hp => payTotal_disputed hpriced hmax hp) ?_ hget
      (by rw [hstatus]; decide)
    rw [disputed_eq_none]
    unfold Stuck
    constructor
    · intro h
      exact ⟨.inr hstatus, h⟩
    · intro h
      exact h.2
  · have hpriced := hs.priced _ _ hget (by unfold isDue; rw [hstatus]; rfl)
    have hmax := hs.maxFee_lt hget (by unfold isOpen; rw [hstatus]; rfl)
    rw [if_neg (by rw [hstatus]; decide)]
    refine round_pay hs (fun p hp => ?_) ?_ hget (by rw [hstatus]; decide)
    · cases hp
      exact ⟨rfl, payTotal_nofee hpriced hmax reviewers⟩
    · constructor
      · intro h
        cases h
      · rintro ⟨h | h, -⟩ <;> rw [hstatus] at h <;> cases h

/-- Nobody claimed, but a disputed job cannot be paid: the entry is refused. -/
theorem round_payNofee : Round Sound (fun job job' => job' = job) (claimExpired epoch)
    (payNofee env now epoch) := by
  intro t job hs hget hsel
  have hstatus := status_of_claimExpired hsel
  have hnil : outflow t (.pay (buildPayEntryNofee t job [] epoch)) = [] := by
    have hget' : jobAt t (buildPayEntryNofee t job [] epoch).jobId = some job := hget
    unfold outflow
    dsimp only
    rw [hget']
    dsimp only
    rw [if_neg]
    rintro ⟨h, -⟩
    rw [hstatus] at h
    revert h
    decide
  obtain ⟨e, hrefused⟩ := @unchanged_of_outflow_nil env _ _ (.inl ⟨_, rfl⟩) hnil
  have hround : payNofee env now epoch t job = t := congrArg Prod.snd hrefused
  rw [hround]
  exact ⟨hs, fun _ _ => rfl, job, hget, rfl⟩

theorem round_cancelLate :
    Round Sound (fun job job' => job' = { job with status := .cancelled }) (pastDeadline epoch)
      (cancelLate env now epoch) := by
  intro t job hs hget hsel
  have hstatus := status_of_pastDeadline hsel
  obtain ⟨hsound, hothers, hcancelled⟩ := @cancel_settles env now _ _ hs
    (cancelOf epoch job "deadline exceeded") rfl rfl hget hstatus
  exact ⟨hsound, hothers, _, hcancelled, rfl⟩

/-- Whatever the entry of the last pass is worth, the job is paid or stays. -/
theorem round_autoSettle :
    Round Keyed (fun job job' => job' = job ∨ ∃ e, job' = { job with settledEpoch := e, status := .paid })
      unverified (autoSettle env now epoch) := by
  intro t job hkeyed hget _
  have hsame : Keyed t ∧ (∀ id, id ≠ job.jobId → jobAt t id = jobAt t id) ∧
      ∃ job', jobAt t job.jobId = some job' ∧
        (job' = job ∨ ∃ e, job' = { job with settledEpoch := e, status := .paid }) :=
    ⟨hkeyed, fun _ _ => rfl, job, hget, .inl rfl⟩
  unfold autoSettle
  split
  · exact hsame
  · unfold proposePay
    cases hpay : buildPayEntryHappy t job epoch with
    | none => exact hsame
    | some p =>
      have hid : p.jobId = job.jobId := by
        unfold buildPayEntryHappy at hpay
        obtain ⟨worker, -, hpay⟩ := Option.bind_eq_some_iff.1 hpay
        obtain ⟨fee, -, hpay⟩ := Option.bind_eq_some_iff.1 hpay
        cases hpay
        rfl
      obtain ⟨hkeyed', hothers, heffect⟩ := @jobs_of_op env _ hkeyed (.pay p)
        fun u hchange => by
          cases hchange with
          | moved hjob hmove hput => exact ⟨_, _, hjob, hmove, hput⟩
      have hop : (Op.pay p).jobId = job.jobId := hid
      rw [hop] at hothers heffect
      refine ⟨hkeyed', hothers, ?_⟩
      rcases heffect with ⟨f, -, hkept⟩ | ⟨before, after, -, hbefore, hmove, hafter⟩
      · exact ⟨job, hkept.trans hget, .inl rfl⟩
      · cases hget.symm.trans hbefore
        cases hmove with
        | paid _ => exact ⟨_, hafter, .inr ⟨_, rfl⟩⟩

end Rounds

/-! ## The award pass -/

/-- The first three distinct verifiers among the bidders. -/
def firstVerifiers (jobId : String) (s : Chain) : List String :=
  (((getBids jobId s).filter (·.role = "verifier")).map (·.bidder)).eraseDups.take 3

def HasWorkerBid (jobId : String) (s : Chain) : Prop := ∃ b ∈ getBids jobId s, b.role = "worker"

instance (jobId : String) (s : Chain) : Decidable (HasWorkerBid jobId s) :=
  inferInstanceAs (Decidable (∃ b ∈ _, _))

/-- A job with a worker's bid goes to a worker, with the verifiers it had; another is cancelled. -/
inductive Awarded (s : Chain) (job : InferenceJob) : InferenceJob → Prop where
  | awarded (h : HasWorkerBid job.jobId s) (winner : String) (fee : ℕ) : Awarded s job
      { job with winner := some winner, awardedFee := some fee, status := .awarded }
  | cancelled (h : ¬ HasWorkerBid job.jobId s) : Awarded s job { job with status := .cancelled }

section Award

variable {env : Env} {now epoch : ℕ} {s t u : Chain} {job job' : InferenceJob}

theorem isSome_selectBestBid {bids : List InferenceBid} {role : String} :
    (selectBestBid bids s role).isSome ↔ ∃ b ∈ bids, b.role = role := by
  have hfold : ∀ (l : List InferenceBid) (best : Option InferenceBid),
      (l.foldl (fun best b => match best with
        | none => some b
        | some c => if bidScore s b < bidScore s c then some c else some b) best).isSome ↔
          best.isSome ∨ l ≠ [] := by
    intro l
    induction l with
    | nil => simp
    | cons b rest ih =>
      intro best
      rw [List.foldl_cons, ih]
      cases best with
      | none => simp
      | some c =>
        dsimp only
        split <;> simp
  unfold selectBestBid
  rw [hfold]
  constructor
  · rintro (h | h)
    · cases h
    · obtain ⟨b, hb⟩ := List.exists_mem_of_ne_nil _ h
      obtain ⟨hmem, hrole⟩ := List.mem_filter.1 hb
      exact ⟨b, hmem, of_decide_eq_true hrole⟩
  · rintro ⟨b, hmem, hrole⟩
    exact .inr (List.ne_nil_of_mem (List.mem_filter.2 ⟨hmem, decide_eq_true hrole⟩))

/-- A worker's award of a posted job goes through. -/
theorem award_worker {p : InferenceJobAward} (hs : Sound t) (hid : p.jobId = job.jobId)
    (hrole : p.role = "worker") (hget : jobAt t job.jobId = some job)
    (hstatus : job.status = .posted) : ∃ u, applyEntry env now (.inferenceJobAward p) t = (.ok (), u) ∧
      Sound u ∧ u.state .inferBid = t.state .inferBid ∧
        (∀ id, id ≠ job.jobId → jobAt u id = jobAt t id) ∧ jobAt u job.jobId =
          some { job with winner := some p.winner, awardedFee := some p.fee, status := .awarded } := by
  have hget' : jobAt t p.jobId = some job := by rw [hid, hget]
  obtain ⟨after, hafter⟩ : ∃ after : InferenceJob, after =
      { job with winner := some p.winner, awardedFee := some p.fee, status := .awarded } := ⟨_, rfl⟩
  -- the award writes the queue, the reputation and the job
  have hrun : ∃ key rep, (applyInferenceJobAward p).run t =
      (.ok (), ((t.stateSet .mineQueue key "awarded").stateSet .nodeRep rep.nodeId rep).stateSet
        .inferJob after.jobId after) := by
    unfold applyInferenceJobAward
    rw [run_bind_ok (run_getJob hget'), run_ensure_bind hstatus]
    have hawarded : (awardRole p job).run t =
        (.ok after, t.stateSet .mineQueue s!"{p.winner}:{p.jobId}" "awarded") := by
      unfold awardRole
      rw [hrole, hafter]
      rfl
    rw [run_bind_ok hawarded]
    exact ⟨_, _, rfl⟩
  obtain ⟨key, rep, hrun⟩ := hrun
  have hid' : after.jobId = job.jobId := by rw [hafter]
  have hput : (((t.stateSet .mineQueue key "awarded").stateSet .nodeRep rep.nodeId rep).stateSet
      .inferJob after.jobId after).state .inferJob = (t.state .inferJob).put job.jobId after := by
    rw [state_setJob, state_stateSet_of_ne _ (by decide),
      state_stateSet_of_ne _ (by decide), hid']
  have hhold : (((t.stateSet .mineQueue key "awarded").stateSet .nodeRep rep.nodeId rep).stateSet
      .inferJob after.jobId after).holdings = t.holdings := by
    exact (holdings_stateSet_other _ _ _ (by decide)).trans
      ((holdings_stateSet_other _ _ _ (by decide)).trans
        (holdings_stateSet_other _ _ _ (by decide)))
  have hescrow := openEscrow_put hget hput
  have hopen : isOpen job = true := by unfold isOpen; rw [hstatus]; rfl
  have hopen' : isOpen after = true := by rw [hafter]; rfl
  have hfee : after.maxFee = job.maxFee := by rw [hafter]
  rw [if_pos hopen, if_pos hopen', hfee] at hescrow
  have hall := jobAt_of_put hput
  refine ⟨_, hrun, hs.put hput hid' (by rw [hafter]; rfl) ?_ hhold.le, ?_, fun id hne => ?_, ?_⟩
  · have hcovered := hs.covered
    rw [Chain.getBalance_stateSet, Chain.getBalance_stateSet, Chain.getBalance_stateSet]
    omega
  · rw [state_stateSet_of_ne _ (by decide), state_stateSet_of_ne _ (by decide),
      state_stateSet_of_ne _ (by decide)]
  · rw [hall, if_neg hne.symm]
  · rw [hall, if_pos rfl, hafter]

/-- Once the worker is awarded every further award is refused. -/
theorem award_refused {p : InferenceJobAward} (hget : jobAt t p.jobId = some job)
    (hstatus : job.status ≠ .posted) : propose env now (.inferenceJobAward p) t = t := by
  have hrun : ∃ f, (applyInferenceJobAward p).run t = (.error f, t) := by
    unfold applyInferenceJobAward
    rw [run_bind_ok (run_getJob hget), run_bind_error (by rw [run_ensure, if_neg hstatus])]
    exact ⟨_, rfl⟩
  obtain ⟨f, hrun⟩ := hrun
  exact congrArg Prod.snd hrun

theorem awards_refused (hget : jobAt t job.jobId = some job') (hstatus : job'.status ≠ .posted)
    (l : List InferenceBid) (role : String) : l.foldl (fun s bid =>
      propose env now (.inferenceJobAward (awardOf epoch job bid role)) s) t = t := by
  induction l with
  | nil => rfl
  | cons bid rest ih =>
    rw [List.foldl_cons, award_refused (p := awardOf epoch job bid role) hget hstatus]
    exact ih

theorem keeps_cancel {f : Family} (hjob : f ≠ .inferJob) (hrep : f ≠ .nodeRep)
    (p : InferenceJobCancel) : Keeps (·.state f) (applyInferenceJobCancel p) := by
  unfold applyInferenceJobCancel
  refine keeps_getJob.bind fun job => keeps_ensure.bind fun _ => Keeps.bind ?_ fun _ =>
    keeps_debit.bind fun _ => keeps_credit.bind fun _ => ?_
  · exact keeps_when (keeps_ensure.bind fun _ => keeps_ensure)
  · cases job.winner with
    | none => exact keeps_stateSet hjob _ _ _
    | some winner => exact (keeps_rerate hrep _ _).bind fun _ => keeps_stateSet hjob _ _ _

theorem round_award : Round (fun t => Sound t ∧ t.state .inferBid = s.state .inferBid) (Awarded s)
    (readyToAward epoch) (awardJob env now epoch) := by
  rintro t job ⟨hs, hbids⟩ hget hsel
  have hstatus := status_of_readyToAward hsel
  have hsame : getBids job.jobId t = getBids job.jobId s := by
    unfold getBids
    rw [hbids]
  have hworker := @isSome_selectBestBid t (getBids job.jobId t) "worker"
  rw [show (∃ b ∈ getBids job.jobId t, b.role = "worker") ↔ HasWorkerBid job.jobId s by
    unfold HasWorkerBid
    rw [hsame]] at hworker
  unfold awardJob
  dsimp only
  cases hbest : selectBestBid (getBids job.jobId t) t "worker" with
  | none =>
    have hnone : ¬ HasWorkerBid job.jobId s := by
      rw [hbest] at hworker
      intro h
      cases hworker.2 h
    obtain ⟨hsound, hothers, hcancelled⟩ := @cancel_settles env now _ _ hs
      (cancelOf epoch job "no bids received") rfl rfl hget (.inl hstatus)
    refine ⟨⟨hsound, ?_⟩, hothers, _, hcancelled, .cancelled hnone⟩
    exact (keeps_cancel (by decide) (by decide) (cancelOf epoch job "no bids received") t).trans hbids
  | some bid =>
    have hsome : HasWorkerBid job.jobId s := by
      rw [hbest] at hworker
      exact hworker.1 rfl
    obtain ⟨u, hrun, hsound, hkept, hothers, hawarded⟩ := @award_worker env now _ _
      (awardOf epoch job bid "worker") hs rfl rfl hget hstatus
    dsimp only
    rw [hrun]
    dsimp only
    rw [awards_refused hawarded (fun h => by cases h)]
    exact ⟨⟨hsound, hkept.trans hbids⟩, hothers, _, hawarded, .awarded hsome _ _⟩

end Award

/-! ## The epoch -/

/-- Disputed, and the claim window has passed. -/
def Overdue (epoch : ℕ) (job : InferenceJob) : Prop :=
  job.status = .disputed ∧ ∃ disputed ∈ job.disputedEpoch, disputed + claimWindowEpochs < epoch

/-- About to be awarded, with verifiers among the bidders who are not on the board yet. -/
def Unboarded (epoch : ℕ) (s : Chain) (job : InferenceJob) : Prop :=
  readyToAward epoch job = true ∧ HasWorkerBid job.jobId s ∧
    ¬ firstVerifiers job.jobId s ⊆ job.verifiers

/-- What the epoch is to achieve: no overdue dispute, nothing left to pay, and a board for
every job it awards. -/
structure Progress (env : Env) (now epoch : ℕ) (s : Chain) : Prop where
  overdue : ∀ id job, jobAt (processEpoch env now epoch s) id = some job → ¬ Overdue epoch job
  due : ∀ id job, jobAt (processEpoch env now epoch s) id = some job → isDue job = false
  boards : ∀ id before awarded after, jobAt s id = some before → before.status = .posted →
    jobAt (awardPendingJobs env now epoch s) id = some awarded → awarded.status = .awarded →
      jobAt (processEpoch env now epoch s) id = some after → firstVerifiers id s ⊆ after.verifiers

section Epoch

variable {env : Env} {now epoch : ℕ} {s : Chain} {job : InferenceJob}

/-- What an epoch makes of the jobs: after the award pass each only evolves, and one that is
still due at the end is stuck. -/
theorem epoch_jobs (hs : Sound s) :
    (∀ id, jobAt s id = none → jobAt (processEpoch env now epoch s) id = none) ∧
      ∀ id job, jobAt s id = some job →
        ∃ awarded after, jobAt (awardPendingJobs env now epoch s) id = some awarded ∧
          jobAt (processEpoch env now epoch s) id = some after ∧
            (if readyToAward epoch job then Awarded s job awarded else awarded = job) ∧
              Evolves awarded after ∧ (isDue after = true → Stuck after) := by
  unfold processEpoch autoSettleUnverified payResolvedDisputes payVerifiedJobs expireStaleJobs
    expireStaleClaims awardPendingJobs
  obtain ⟨⟨hs₁, -⟩, hnone₁, hjobs₁⟩ :=
    pass_rule (@round_award env now _ _) hs.keyed ⟨hs, rfl⟩
  generalize pass (readyToAward epoch) (awardJob env now epoch) s = s₁ at hs₁ hnone₁ hjobs₁ ⊢
  obtain ⟨hs₂, hnone₂, hjobs₂⟩ :=
    pass_rule (@round_payNofee env now epoch) hs₁.keyed hs₁
  generalize pass (claimExpired epoch) (payNofee env now epoch) s₁ = s₂ at hs₂ hnone₂ hjobs₂ ⊢
  obtain ⟨hs₃, hnone₃, hjobs₃⟩ :=
    pass_rule (@round_cancelLate env now epoch) hs₂.keyed hs₂
  generalize pass (pastDeadline epoch) (cancelLate env now epoch) s₂ = s₃ at hs₃ hnone₃ hjobs₃ ⊢
  obtain ⟨hs₄, hnone₄, hjobs₄⟩ :=
    pass_rule (@round_payVerified env now epoch) hs₃.keyed hs₃
  generalize pass (·.status = .verified) (payVerified env now epoch) s₃ = s₄
    at hs₄ hnone₄ hjobs₄ ⊢
  obtain ⟨hs₅, hnone₅, hjobs₅⟩ :=
    pass_rule (@round_payResolved env now epoch) hs₄.keyed hs₄
  generalize pass (fun job => job.status = .reviewed || job.status = .rejected)
    (payResolved env now epoch) s₄ = s₅ at hs₅ hnone₅ hjobs₅ ⊢
  obtain ⟨-, hnone₆, hjobs₆⟩ :=
    pass_rule (@round_autoSettle env now epoch) hs₅.keyed hs₅.keyed
  generalize pass unverified (autoSettle env now epoch) s₅ = s₆ at hnone₆ hjobs₆ ⊢
  refine ⟨fun id hnone => hnone₆ id (hnone₅ id (hnone₄ id (hnone₃ id (hnone₂ id
    (hnone₁ id hnone))))), fun id job hget => ?_⟩
  obtain ⟨job₁, hget₁, hQ₁⟩ := hjobs₁ id job hget
  obtain ⟨job₂, hget₂, hQ₂⟩ := hjobs₂ id job₁ hget₁
  obtain ⟨job₃, hget₃, hQ₃⟩ := hjobs₃ id job₂ hget₂
  obtain ⟨job₄, hget₄, hQ₄⟩ := hjobs₄ id job₃ hget₃
  obtain ⟨job₅, hget₅, hQ₅⟩ := hjobs₅ id job₄ hget₄
  obtain ⟨job₆, hget₆, hQ₆⟩ := hjobs₆ id job₅ hget₅
  have heq₂ : job₂ = job₁ := by
    split at hQ₂ <;> exact hQ₂
  have hevolves₃ : Evolves job₂ job₃ := evolves_of_cancelLate hQ₃
  have hpaid₄ := evolves_of_pay (fun job h => by
    rw [show job.status = .verified from of_decide_eq_true h]
    decide) hQ₄
  have hpaid₅ := evolves_of_pay (fun job h => by
    rcases resolved_iff.1 h with h | h <;> rw [h] <;> decide) hQ₅
  have hevolves₆ : Evolves job₅ job₆ := evolves_of_autoSettle hQ₆
  refine ⟨job₁, job₆, hget₁, hget₆, hQ₁, ?_, fun hdue => ?_⟩
  · rw [← heq₂]
    exact hevolves₃.trans (hpaid₄.1.trans (hpaid₅.1.trans hevolves₆))
  · -- what is due at the end was not touched by the pay passes
    have hlast := hevolves₆.due hdue
    rw [hlast] at hdue ⊢
    have hbefore := hpaid₅.1.due hdue
    rcases isDue_iff.1 hdue with hverified | hresolved
    · rw [hbefore] at hverified ⊢
      exact hpaid₄.2 (decide_eq_true hverified)
    · exact hpaid₅.2 (resolved_iff.2 hresolved)

/-- In a state where the fund covers the open escrows, an epoch of the daemon achieves what it
is to exactly if no dispute is overdue, no verified or reviewed job lacks a worker or a fee,
and the first verifiers of each job it awards are on its board already. -/
theorem epoch_progress_iff (env : Env) (now epoch : ℕ) (s : Chain) (hs : Sound s) :
    Progress env now epoch s ↔ ∀ id job, jobAt s id = some job →
      ¬ Overdue epoch job ∧ ¬ Stuck job ∧ ¬ Unboarded epoch s job := by
  obtain ⟨hnone, hjobs⟩ := @epoch_jobs env now epoch _ hs
  constructor
  · intro hprogress id job hget
    obtain ⟨awarded, after, hawarded, hafter, hfirst, hevolves, -⟩ := hjobs id job hget
    refine ⟨fun hoverdue => ?_, fun hstuck => ?_, fun hunboarded => ?_⟩
    · -- a disputed job goes through unchanged
      rw [if_neg (fun h => by cases (status_of_readyToAward h).symm.trans hoverdue.1)] at hfirst
      subst hfirst
      have heq := hevolves.disputed (.inl hoverdue.1)
      rw [heq] at hafter
      exact hprogress.overdue id _ hafter hoverdue
    · rw [if_neg (fun h => by
        rcases hstuck.1 with h' | h' <;> cases (status_of_readyToAward h).symm.trans h')] at hfirst
      subst hfirst
      have heq := hevolves.stuck hstuck
      rw [heq] at hafter
      have hdue := hprogress.due id _ hafter
      rw [isDue_iff.2 (hstuck.1.imp_right .inl)] at hdue
      cases hdue
    · obtain ⟨hready, hworker, hmissing⟩ := hunboarded
      rw [if_pos hready] at hfirst
      have hid : job.jobId = id := hs.keyed id job hget
      cases hfirst with
      | cancelled h => exact h hworker
      | awarded _ winner fee =>
        have hboard := hprogress.boards id job _ after hget (status_of_readyToAward hready)
          hawarded rfl hafter
        rw [hevolves.verifiers] at hboard
        rw [hid] at hmissing
        exact hmissing hboard
  · intro hclear
    have hjob : ∀ id after, jobAt (processEpoch env now epoch s) id = some after →
        ∃ job awarded, jobAt s id = some job ∧
          jobAt (awardPendingJobs env now epoch s) id = some awarded ∧
            (if readyToAward epoch job then Awarded s job awarded else awarded = job) ∧
              Evolves awarded after ∧ (isDue after = true → Stuck after) := by
      intro id after hafter
      cases hget : jobAt s id with
      | none =>
        rw [hnone id hget] at hafter
        cases hafter
      | some job =>
        obtain ⟨awarded, after', hawarded, hafter', hrest⟩ := hjobs id job hget
        cases hafter.symm.trans hafter'
        exact ⟨job, awarded, rfl, hawarded, hrest⟩
    constructor
    · intro id after hafter hoverdue
      obtain ⟨job, awarded, hget, -, hfirst, hevolves, -⟩ := hjob id after hafter
      have heq := hevolves.disputed (.inr hoverdue.1)
      subst heq
      split at hfirst
      · -- an award leaves a job awarded or cancelled
        cases hfirst <;> cases hoverdue.1
      · subst hfirst
        exact (hclear id _ hget).1 hoverdue
    · intro id after hafter
      obtain ⟨job, awarded, hget, -, hfirst, hevolves, hstuck⟩ := hjob id after hafter
      by_contra hnot
      have hdue : isDue after = true := by
        cases h : isDue after
        · exact absurd h hnot
        · rfl
      have heq := hevolves.due hdue
      have hstuck' := hstuck hdue
      subst heq
      split at hfirst
      · cases hfirst <;> cases hdue
      · subst hfirst
        exact (hclear id _ hget).2.1 hstuck'
    · intro id job awarded after hget hposted hawarded hstatus hafter
      obtain ⟨awarded', after', hawarded', hafter', hfirst, hevolves, -⟩ := hjobs id job hget
      cases hawarded.symm.trans hawarded'
      cases hafter.symm.trans hafter'
      rw [hevolves.verifiers]
      split at hfirst
      · rename_i hready
        have hid : job.jobId = id := hs.keyed id job hget
        have hboard := (hclear id job hget).2.2
        cases hfirst with
        | cancelled h => cases hstatus
        | awarded hworker winner fee =>
          by_contra hmissing
          refine hboard ⟨hready, hworker, ?_⟩
          rw [hid]
          exact hmissing
      · subst hfirst
        cases hposted.symm.trans hstatus

end Epoch

/-! ### Two jobs, and three -/

/-- A property of the stored rows, one by one. -/
theorem forall_jobs {s : Chain} {P : String → InferenceJob → Prop}
    (h : ∀ row ∈ (s.state .inferJob).bindings, P row.1 row.2) :
    ∀ id job, jobAt s id = some job → P id job :=
  fun id job hget => h (id, job) ((Kv.lookup_eq_some_iff (s.state .inferJob).sorted).1 hget)

instance (epoch : ℕ) (job : InferenceJob) : Decidable (Overdue epoch job) :=
  inferInstanceAs (Decidable (_ ∧ ∃ disputed ∈ job.disputedEpoch, _))

instance (job : InferenceJob) : Decidable (Stuck job) :=
  inferInstanceAs (Decidable ((_ ∨ _) ∧ (_ ∨ _)))

instance (epoch : ℕ) (s : Chain) (job : InferenceJob) : Decidable (Unboarded epoch s job) :=
  inferInstanceAs (Decidable (_ ∧ _ ∧ ¬ _))

/-- The bids for the sample job: Bob's as worker, and one as verifier. -/
def sampleBids (id : String) : List Op :=
  [.bid ⟨id, "bob", 10, "worker", 0, 0, "bob"⟩, .bid ⟨id, "v", 10, "verifier", 0, 0, "v"⟩]

/-- A verified job, and one with both bids whose verifier is on the board already. -/
def boardedJobs : Chain :=
  exec .bare funded (oneVerifier ++ .post (samplePost "k" 1) :: sampleBids "k" ++
    [sampleAward "k" "v" "verifier"])

theorem epoch_progress_boarded : Progress .bare 0 5 boardedJobs := by
  have hrows : ∀ row ∈ (boardedJobs.state .inferJob).bindings, row.2.jobId = row.1 ∧
      (isDue row.2 = true → Priced row.2) ∧ ¬ Overdue 5 row.2 ∧ ¬ Stuck row.2 ∧
        ¬ Unboarded 5 boardedJobs row.2 := by decide
  have hall := forall_jobs (P := fun id job => job.jobId = id ∧ (isDue job = true → Priced job) ∧
    ¬ Overdue 5 job ∧ ¬ Stuck job ∧ ¬ Unboarded 5 boardedJobs job) hrows
  have hsound : Sound boardedJobs := by
    refine ⟨fun id job h => (hall id job h).1, fun id job h => (hall id job h).2.1, ?_, ?_⟩
    · decide
    · unfold Chain.holdings
      decide
  exact (epoch_progress_iff .bare 0 5 boardedJobs hsound).2 fun id job h => (hall id job h).2.2

/-- A job with both bids. -/
def bidOn : Chain := exec .bare funded (.post (samplePost "k" 1) :: sampleBids "k")

/-- A job whose only verifier called for review, and nobody claimed. -/
def unclaimed : Chain :=
  exec .bare funded [.post (samplePost "j" 1), sampleAward "j" "v" "verifier",
    sampleAward "j" "bob" "worker", sampleComplete "j", sampleVerify "j" "v" "review_required" 0]

/-- The fund covers the escrows, and still the verifier is left out of the one job and the
other stays disputed. -/
theorem epoch_leaves_undone :
    (openEscrow bidOn ≤ bidOn.getBalance recycleFund nativeToken ∧ ¬ Progress .bare 0 5 bidOn) ∧
      openEscrow unclaimed ≤ unclaimed.getBalance recycleFund nativeToken ∧
        ¬ Progress .bare 0 21 unclaimed := by
  refine ⟨⟨by decide, fun hprogress => ?_⟩, by decide, fun hprogress => ?_⟩
  · have hrun : (jobAt bidOn "k").map (·.status) = some .posted ∧
        (jobAt (awardPendingJobs .bare 0 5 bidOn) "k").map (·.status) = some .awarded ∧
          (jobAt (processEpoch .bare 0 5 bidOn) "k").map (·.verifiers) = some [] ∧
            firstVerifiers "k" bidOn = ["v"] := by decide
    obtain ⟨hposted, hawarded, hafter, hfirst⟩ := hrun
    obtain ⟨before, hbefore, hposted⟩ := Option.map_eq_some_iff.1 hposted
    obtain ⟨awarded, hget, hawarded⟩ := Option.map_eq_some_iff.1 hawarded
    obtain ⟨after, hafter, hverifiers⟩ := Option.map_eq_some_iff.1 hafter
    have hsub := hprogress.boards "k" before awarded after hbefore hposted hget hawarded hafter
    rw [hfirst, hverifiers] at hsub
    exact absurd (hsub List.mem_cons_self) List.not_mem_nil
  · have hrun : (jobAt (processEpoch .bare 0 21 unclaimed) "j").map
        (fun job => (job.status, job.disputedEpoch)) = some (.disputed, some 0) := by decide
    obtain ⟨after, hafter, heq⟩ := Option.map_eq_some_iff.1 hrun
    obtain ⟨hstatus, hdisputed⟩ := Prod.mk.inj heq
    refine hprogress.overdue "j" after hafter ⟨hstatus, 0, hdisputed, ?_⟩
    decide

end HoneNode.Daemon
