import HoneNode.Inference.Jobs

/-!
# Inference.Suspension — how long a rubber stamper stays out

`update_verifier_approval_rate` suspends a verifier until `total + 20`, where
`total` counts verdicts and stops at 100; `apply_verify` compares that with the
epoch of the entry. The suspension therefore covers the twenty epochs after a
verdict only while the epochs are no larger than the count (`suspension_holds`).
-/

namespace HoneNode.Suspension

open Entry Prog Within Jobs

/-! ## The record of a verifier -/

/-- The approval rate of a record in basis points. -/
def approvalBps (rep : VerifierReputation) : ℕ :=
  if 0 < rep.total then wrapMul rep.approvedCount 10000 / rep.total else 0

/-- Enough verdicts, and too many of them approvals. -/
def Suspends (rep : VerifierReputation) : Prop :=
  10 ≤ rep.total ∧ verifierSuspendBps ≤ approvalBps rep

instance (rep : VerifierReputation) : Decidable (Suspends rep) :=
  inferInstanceAs (Decidable (_ ∧ _))

variable {rep : VerifierReputation} {approved : Bool}

/-- One verdict: the window moves on, and the deadline with it if the rate is too high. -/
theorem record_eq : ∃ total count bps,
    total = (if rep.total < verifierApprovalWindowEpochs then rep.total + 1 else rep.total) ∧
    bps = (if 0 < total then wrapMul count 10000 / total else 0) ∧
    rep.record approved =
      if 10 ≤ total ∧ verifierSuspendBps ≤ bps then
        ⟨total, count, true, max rep.suspendedUntil (wrapAdd total verifierSuspendEpochs)⟩
      else ⟨total, count, 10 ≤ total ∧ verifierRubberStampBps ≤ bps, rep.suspendedUntil⟩ := by
  unfold VerifierReputation.record
  by_cases hgrow : rep.total < verifierApprovalWindowEpochs
  · simp only [hgrow, if_true]
    exact ⟨_, _, _, rfl, rfl, rfl⟩
  · simp only [hgrow, if_false]
    exact ⟨_, _, _, rfl, rfl, rfl⟩

/-- The count grows up to the window. -/
theorem total_record (h : rep.total ≤ verifierApprovalWindowEpochs) :
    (rep.record approved).total = min (rep.total + 1) verifierApprovalWindowEpochs := by
  obtain ⟨total, count, bps, htotal, -, heq⟩ := @record_eq rep approved
  have hmin : total = min (rep.total + 1) verifierApprovalWindowEpochs := by
    rw [htotal]
    split <;> omega
  rw [heq, ← hmin]
  split <;> rfl

/-- A suspension is never shortened. -/
theorem suspendedUntil_le_record : rep.suspendedUntil ≤ (rep.record approved).suspendedUntil := by
  obtain ⟨total, count, bps, -, -, heq⟩ := @record_eq rep approved
  rw [heq]
  split
  · exact le_max_left _ _
  · exact le_rfl

theorem suspendedUntil_record (h : Suspends (rep.record approved)) :
    wrapAdd (rep.record approved).total verifierSuspendEpochs ≤
      (rep.record approved).suspendedUntil := by
  obtain ⟨total, count, bps, -, rfl, heq⟩ := @record_eq rep approved
  rw [heq] at h ⊢
  by_cases hhigh : 10 ≤ total ∧
      verifierSuspendBps ≤ if 0 < total then wrapMul count 10000 / total else 0
  · rw [if_pos hhigh]
    exact le_max_right _ _
  · rw [if_neg hhigh] at h
    exact absurd h hhigh

/-! ## What a call does to the records -/

section Steps

variable {env : Env} {s s' : Chain} {op : Op} {r : Except Fault Unit} {W : Footprint}

theorem keeps_setJob {job : InferenceJob} :
    Keeps (·.state .verifierRep) (setJob job : Prog W Unit) := keeps_stateSet (by decide) _ _ _

theorem keeps_closeBoard (epoch : ℕ) (job : InferenceJob) :
    Keeps (·.state .verifierRep) (closeBoard epoch job) := by
  intro s
  obtain ⟨t, hrun, hkeep⟩ := @run_closeBoard s epoch job
  rw [hrun]
  exact hkeep _ (by decide)

/-- Only verdicts touch the records. -/
theorem keeps_reps (h : ∀ p, op ≠ .verify p) :
    (op.run env s).2.state .verifierRep = s.state .verifierRep := by
  cases op with
  | post p =>
    exact (keeps_stateGet.bind fun _ => keeps_ensure.bind fun _ =>
      keeps_debit.bind fun _ => keeps_credit.bind fun _ => keeps_inspect.bind fun _ =>
      keeps_setJob) s
  | bid p =>
    exact (keeps_getJob.bind fun _ => keeps_ensure.bind fun _ =>
      keeps_inspect.bind fun _ => keeps_ensure.bind fun _ =>
      keeps_ensure.bind fun _ => keeps_ensure.bind fun _ =>
      keeps_ensure.bind fun _ => keeps_inspect.bind fun _ =>
      keeps_ensure.bind fun _ => keeps_stateGet.bind fun _ =>
      keeps_ensure.bind fun _ => keeps_stateSet (by decide) _ _ _) s
  | award p =>
    exact (keeps_getJob.bind fun _ => keeps_ensure.bind fun _ =>
      (keeps_awardRole (by decide) _ _).bind fun _ => (keeps_rerate (by decide) _ _).bind fun _ =>
      keeps_setJob) s
  | complete p =>
    exact (keeps_getJob.bind fun _ => keeps_ensure.bind fun _ =>
      keeps_ensure.bind fun _ => keeps_inspect.bind fun _ =>
      keeps_ensure.bind fun _ => (keeps_rerate (by decide) _ _).bind fun _ =>
      keeps_setJob.bind fun _ => keeps_stateSet (by decide) _ _ _) s
  | commit p =>
    exact (keeps_getJob.bind fun _ => keeps_ensure.bind fun _ =>
      keeps_ensure.bind fun _ => keeps_ensure.bind fun _ =>
      keeps_ensure.bind fun _ => keeps_setJob.bind fun _ =>
      keeps_tallyVerify (by decide) _ _ _) s
  | verify p => exact absurd rfl (h p)
  | claim p =>
    exact (keeps_getJob.bind fun _ => keeps_ensure.bind fun _ =>
      keeps_ensure.bind fun _ => keeps_ensure.bind fun _ => keeps_setJob) s
  | reviewVote p =>
    exact (keeps_getJob.bind fun _ => keeps_ensure.bind fun _ =>
      keeps_stateGet.bind fun _ => keeps_ensure.bind fun _ =>
      (keeps_stateSet (by decide) _ _ _).bind fun _ => keeps_when keeps_setJob) s
  | pay p =>
    exact (keeps_getJob.bind fun _ => keeps_ensure.bind fun _ =>
      keeps_debit.bind fun _ => (keeps_when keeps_credit).bind fun _ =>
      (keeps_payEach _).bind fun _ => (keeps_payEach _).bind fun _ => keeps_credit.bind fun _ =>
      (keeps_when keeps_credit).bind fun _ => (keeps_slashDissenters _ _).bind fun _ =>
      keeps_setJob.bind fun _ => (keeps_when (keeps_stateSet (by decide) _ _ _)).bind fun _ =>
      keeps_when (keeps_stateSet (by decide) _ _ _)) s
  | cancel p =>
    refine (keeps_getJob.bind fun job => keeps_ensure.bind fun _ =>
      (keeps_when (keeps_ensure.bind fun _ => keeps_ensure)).bind fun _ =>
      keeps_debit.bind fun _ => keeps_credit.bind fun _ => ?_) s
    cases job.winner with
    | none => exact keeps_setJob
    | some winner => exact (keeps_rerate (by decide) _ _).bind fun _ => keeps_setJob

/-- A verdict is recorded when it is accepted, by a verifier whose suspension is over. -/
theorem verify_ok {p : InferenceJobVerify}
    (h : (applyInferenceJobVerify env p).run s = (.ok (), s')) :
    (getVerifierRep p.verifier s).suspendedUntil ≤ p.epoch ∧
      s'.state .verifierRep = (s.state .verifierRep).put p.verifier
        ((getVerifierRep p.verifier s).record (p.verdict = "approved")) := by
  unfold applyInferenceJobVerify at h
  rw [ok_getJob_bind] at h
  obtain ⟨job, -, h⟩ := h
  rw [ok_ensure_bind, ok_ensure_bind] at h
  obtain ⟨-, -, h⟩ := h
  obtain ⟨⟨⟩, t, hreveal, h⟩ := run_bind_eq_ok.1 h
  rw [run_inspect_bind, ok_ensure_bind, run_inspect_bind,
    ok_ensure_bind, ok_ensure_bind, ok_ensure_bind, ok_ensure_bind] at h
  obtain ⟨hsusp, -, -, -, -, h⟩ := h
  obtain ⟨job', u, hclose, h⟩ := run_bind_eq_ok.1 h
  obtain ⟨⟨⟩, v, hset, h⟩ := run_bind_eq_ok.1 h
  obtain ⟨⟨⟩, w, htally, h⟩ := run_bind_eq_ok.1 h
  cases h
  have ht : t.state .verifierRep = s.state .verifierRep :=
    (keeps_when (keeps_checkReveal p job)).of_run hreveal
  have hrep : getVerifierRep p.verifier t = getVerifierRep p.verifier s := by
    unfold getVerifierRep Chain.stateGet
    rw [ht]
  have hw : w.state .verifierRep = s.state .verifierRep := by
    rw [(keeps_tallyVerify (by decide) _ _ _).of_run htally, keeps_setJob.of_run hset,
      (keeps_closeBoard _ _).of_run hclose, ht]
  rw [hrep] at hsusp ⊢
  refine ⟨hsusp, ?_⟩
  rw [← hw]
  simp

theorem keeps_reps_of_error {p : InferenceJobVerify} {e : Fault}
    (h : (applyInferenceJobVerify env p).run s = (.error e, s')) :
    s'.state .verifierRep = s.state .verifierRep := by
  suffices hfail : FailsIn (fun t => t.state .verifierRep = s.state .verifierRep)
      (applyInferenceJobVerify env p) s from hfail e s' h
  refine keeps_getJob.failsIn_bind rfl fun job t ht => ?_
  refine keeps_ensure.failsIn_bind ht fun _ t ht => ?_
  refine keeps_ensure.failsIn_bind ht fun _ t ht => ?_
  refine (keeps_when (keeps_checkReveal p job)).failsIn_bind ht fun _ t ht => ?_
  refine keeps_inspect.failsIn_bind ht fun _ t ht => ?_
  refine keeps_ensure.failsIn_bind ht fun _ t ht => ?_
  refine keeps_inspect.failsIn_bind ht fun _ t ht => ?_
  refine keeps_ensure.failsIn_bind ht fun _ t ht => ?_
  refine keeps_ensure.failsIn_bind ht fun _ t ht => ?_
  refine keeps_ensure.failsIn_bind ht fun _ t ht => ?_
  refine keeps_ensure.failsIn_bind ht fun _ t ht => ?_
  refine (keeps_closeBoard _ _).failsIn_bind ht fun _ t ht => ?_
  refine keeps_setJob.failsIn_bind ht fun _ t ht => ?_
  exact (keeps_tallyVerify (by decide) _ _ _).failsIn_bind ht fun _ t _ => failsIn_of_ok rfl

theorem getVerifierRep_of_state (h : s'.state .verifierRep = s.state .verifierRep) (v : String) :
    getVerifierRep v s' = getVerifierRep v s := by
  unfold getVerifierRep Chain.stateGet
  rw [h]

theorem getVerifierRep_of_put {v : String}
    (h : s'.state .verifierRep = (s.state .verifierRep).put v rep) (u : String) :
    getVerifierRep u s' = if v = u then rep else getVerifierRep u s := by
  unfold getVerifierRep Chain.stateGet
  rw [h, Kv.get_put]
  split <;> rfl

/-- A call leaves a record alone or adds one verdict to it. -/
theorem rep_step (env : Env) (s : Chain) (op : Op) (v : String) :
    getVerifierRep v (op.run env s).2 = getVerifierRep v s ∨
      ∃ approved, getVerifierRep v (op.run env s).2 = (getVerifierRep v s).record approved := by
  by_cases hop : ∃ p, op = .verify p
  · obtain ⟨p, rfl⟩ := hop
    rcases hrun : (applyInferenceJobVerify env p).run s with ⟨e | ⟨⟩, s'⟩
    · left
      rw [show (Op.verify p).run env s = _ from hrun]
      exact getVerifierRep_of_state (keeps_reps_of_error hrun) v
    · rw [show (Op.verify p).run env s = _ from hrun, getVerifierRep_of_put (verify_ok hrun).2]
      split
      · next hv =>
        subst hv
        exact .inr ⟨_, rfl⟩
      · exact .inl rfl
  · left
    exact getVerifierRep_of_state (keeps_reps fun p hp => hop ⟨p, hp⟩) v

end Steps

/-! ## Runs -/

section Runs

variable {env : Env} {P : Chain → Op → Prop} {hist : List (Chain × Op)} {s : Chain}

theorem total_le_window (h : Run env P hist s) (v : String) :
    (getVerifierRep v s).total ≤ verifierApprovalWindowEpochs := by
  induction h with
  | start _ hreps =>
    unfold getVerifierRep
    rw [hreps]
    exact Nat.zero_le _
  | other _ _ hreps ih => rwa [getVerifierRep_of_state hreps]
  | step op _ _ ih =>
    rcases rep_step env _ op v with h | ⟨approved, h⟩
    · rwa [h]
    · rw [h, total_record ih]
      exact min_le_right _ _

/-- What a verdict adds to the record of its verifier. -/
def recorded (s : Chain) (p : InferenceJobVerify) : VerifierReputation :=
  (getVerifierRep p.verifier s).record (p.verdict = "approved")

/-- A suspension once pronounced stays on the record. -/
theorem suspended_of_mem (h : Run env P hist s) {t : Chain} {p : InferenceJobVerify}
    (hmem : (t, Op.verify p) ∈ hist) (hok : ((Op.verify p).run env t).1 = .ok ())
    (hsusp : Suspends (recorded t p)) :
    (recorded t p).total = min ((getVerifierRep p.verifier t).total + 1)
        verifierApprovalWindowEpochs ∧
      (recorded t p).total + verifierSuspendEpochs ≤
        (getVerifierRep p.verifier s).suspendedUntil := by
  induction h with
  | start _ _ => cases hmem
  | other _ _ hreps ih =>
    rw [getVerifierRep_of_state hreps]
    exact ih hmem
  | @step hist u op hrun _ ih =>
    rcases List.mem_cons.1 hmem with heq | hmem
    · cases heq
      have htotal := @total_record _ (p.verdict = "approved") (total_le_window hrun p.verifier)
      refine ⟨htotal, ?_⟩
      rcases hres : (applyInferenceJobVerify env p).run t with ⟨r, t'⟩
      obtain rfl : r = .ok () := by
        rw [show (Op.verify p).run env t = _ from hres] at hok
        exact hok
      rw [show (Op.verify p).run env t = _ from hres, getVerifierRep_of_put (verify_ok hres).2,
        if_pos rfl]
      refine le_trans (le_of_eq ?_) (suspendedUntil_record hsusp)
      -- a count of at most 100 leaves room for the twenty epochs
      unfold recorded
      rw [htotal, wrapAdd, Nat.mod_eq_of_lt]
      unfold verifierApprovalWindowEpochs verifierSuspendEpochs
      omega
    · obtain ⟨htotal, hle⟩ := ih hmem
      refine ⟨htotal, hle.trans ?_⟩
      rcases rep_step env u op p.verifier with h | ⟨approved, h⟩
      · rw [h]
      · rw [h]
        exact suspendedUntil_le_record

/-- In every run, after a verdict that suspends its verifier, at an epoch no larger than the
count of their verdicts, every verdict of theirs for an epoch before the twentieth following
one is rejected. -/
theorem suspension_holds (h : Run env P hist s) {t : Chain} {p q : InferenceJobVerify}
    (hmem : (t, Op.verify p) ∈ hist) (hok : ((Op.verify p).run env t).1 = .ok ())
    (hsusp : Suspends (recorded t p))
    (hearly : p.epoch ≤ min ((getVerifierRep p.verifier t).total + 1)
      verifierApprovalWindowEpochs)
    (hq : q.verifier = p.verifier) (hbefore : q.epoch < p.epoch + verifierSuspendEpochs) :
    ∃ e, ((Op.verify q).run env s).1 = .error e := by
  obtain ⟨htotal, huntil⟩ := suspended_of_mem h hmem hok hsusp
  rcases hres : (applyInferenceJobVerify env q).run s with ⟨e | ⟨⟩, s'⟩
  · exact ⟨e, congrArg Prod.fst hres⟩
  · have hover := (verify_ok hres).1
    rw [hq] at hover
    omega

end Runs

/-- A job awarded to bob and completed. -/
def completedJob (id : String) : List Op :=
  [.post (samplePost id 1), sampleAward id "bob" "worker", sampleComplete id]

def approval (id : String) (epoch : ℕ) : InferenceJobVerify :=
  ⟨id, "v", "approved", 1, none, none, epoch, "v"⟩

/-- Nine approvals of `v` in one epoch, and two jobs more to judge. -/
def nineApprovals (epoch : ℕ) : Chain :=
  exec .bare funded (["a", "b", "c", "d", "e", "f", "g", "h", "i"].flatMap (fun id =>
    completedJob id ++ [.verify (approval id epoch)]) ++ completedJob "j" ++ completedJob "k")

theorem run_nineApprovals (epoch : ℕ) :
    ∃ hist, Run .bare (fun _ _ => True) hist (nineApprovals epoch) :=
  ⟨_, (run_funded .bare _).exec (legal_true _ _)⟩

/-- Ten approvals by epoch 5: out until epoch 30. -/
theorem suspension_holds_early : ∃ e,
    ((Op.verify (approval "k" 24)).run .bare
      ((Op.verify (approval "j" 5)).run .bare (nineApprovals 5)).2).1 = .error e := by
  obtain ⟨hist, hrun⟩ := run_nineApprovals 5
  exact suspension_holds (hrun.step (.verify (approval "j" 5)) trivial) List.mem_cons_self
    (by decide +kernel) (by decide +kernel) (by decide +kernel) rfl (by decide)

/-- Ten approvals in epoch 1000 suspend as well, and the next verdict is accepted at once. -/
theorem suspension_ignored : ∃ hist,
    Run .bare (fun _ _ => True) ((nineApprovals 1000, .verify (approval "j" 1000)) :: hist)
      ((Op.verify (approval "j" 1000)).run .bare (nineApprovals 1000)).2 ∧
    Suspends (recorded (nineApprovals 1000) (approval "j" 1000)) ∧
    ((Op.verify (approval "j" 1000)).run .bare (nineApprovals 1000)).1 = .ok () ∧
    ((Op.verify (approval "k" 1001)).run .bare
      ((Op.verify (approval "j" 1000)).run .bare (nineApprovals 1000)).2).1 = .ok () := by
  obtain ⟨hist, hrun⟩ := run_nineApprovals 1000
  exact ⟨hist, hrun.step _ trivial, by decide +kernel, by decide +kernel, by decide +kernel⟩

end HoneNode.Suspension
