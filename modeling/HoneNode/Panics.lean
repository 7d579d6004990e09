import HoneNode.Agents.Money
import HoneNode.Ensemble.Majority
import HoneNode.Lib.Faults

/-!
# Panics — entries and sweeps that stop the node

Ensemble jobs and agent tasks cut their ids and hashes for log lines, and the
settlement of a task unwraps the winner of its tally. The cuts come after the
record was written, so an id that cannot be cut is met again by every vote and
by the sweep. `Safe` is what a call has to bring along; then no call of a run
panics, and a call that is not safe does.
-/

namespace HoneNode.Panics

open Entry Prog Within Trace Agents

/-! ## The component -/

/-- Ensemble entries, the operations of the agent market, and the sweep over ensemble jobs. -/
inductive ServiceOp where
  | jobPost (p : EnsembleJobPost)
  | vote (p : EnsembleVote)
  | market (op : TaskOp)
  | sweepJobs (epoch : ℕ)

/-- The entries go through `apply_entry`. -/
def ServiceOp.run (env : Env) (now : ℕ) (s : Chain) : ServiceOp → Except Fault Unit × Chain
  | .jobPost p => applyEntry env now (.ensembleJobPost p) s
  | .vote p => applyEntry env now (.ensembleVote p) s
  | .market (.post p) => applyEntry env now (.agentTaskPost p) s
  | .market (.submit p) => applyEntry env now (.agentTaskSubmit p) s
  | .market op => op.run env s
  | .sweepJobs epoch => (sweepExpiredEnsembles env epoch).run s

/-- No jobs and no tasks at first; the rest of the node leaves both alone. -/
def services (env : Env) (now : ℕ) : Component Chain ServiceOp where
  init := fun s => (∀ key, s.stateGet .agentTask key = none) ∧
    ∀ key, s.stateGet .ensembleJob key = none
  step := fun s op => (op.run env now s).2
  other := fun s s' => s'.state .agentTask = s.state .agentTask ∧
    s'.state .ensembleJob = s.state .ensembleJob

def IsPanic (f : Fault) : Prop := ∃ msg, f = .panic msg

/-- The call panicked. -/
def Panicked (r : Except Fault Unit × Chain) : Prop := ∃ f, r.1 = .error f ∧ IsPanic f

/-- With the log level on, a text the log line prints twelve bytes of can be cut there. -/
def Cuttable (env : Env) (text : String) : Prop :=
  env.info = true → isBoundary text 12 = true

instance (env : Env) (text : String) : Decidable (Cuttable env text) :=
  inferInstanceAs (Decidable (_ → _))

/-- An accepted job has an id and an accepted result a hash that can be cut, and whatever is
settled has a reveal. -/
def Safe (env : Env) (s : Chain) : ServiceOp → Prop
  | .jobPost p => s.stateGet .ensembleJob p.jobId = none →
      minEnsembleSize ≤ p.nWorkers ∧ p.nWorkers ≤ maxEnsembleSize →
      p.maxFee ≤ s.getBalance p.requester nativeToken → Cuttable env p.jobId
  | .market (.submit p) => ∀ task, s.stateGet .agentTask p.taskId = some task →
      task.status = .assigned → task.agent = some p.agent → Cuttable env p.resultHash
  | .market (.settle _ taskId) => ∀ task, s.stateGet .agentTask taskId = some task →
      task.settleable = true → task.reveals ≠ []
  | .market (.sweep _ epoch) => ∀ key task, s.stateGet .agentTask key = some task →
      taskDue epoch task = true → task.settleable = true → task.reveals ≠ []
  | _ => True

instance decidablePanicked (r : Except Fault Unit × Chain) : Decidable (Panicked r) :=
  match h : r.1 with
  | .ok _ => .isFalse fun ⟨_, hf, _⟩ => by rw [h] at hf; cases hf
  | .error (.err _) => .isFalse fun ⟨_, hf, _, hp⟩ => by rw [h, hp] at hf; cases hf
  | .error (.panic msg) => .isTrue ⟨.panic msg, h, msg, rfl⟩

instance decidableSafe (env : Env) (s : Chain) : ∀ op, Decidable (Safe env s op)
  | .jobPost _ => inferInstanceAs (Decidable (_ → _ → _ → _))
  | .vote _ => .isTrue trivial
  | .sweepJobs _ => .isTrue trivial
  | .market (.submit p) =>
    inferInstanceAs (Decidable (∀ task ∈ s.stateGet .agentTask p.taskId,
      task.status = .assigned → task.agent = some p.agent → Cuttable env p.resultHash))
  | .market (.settle _ taskId) =>
    inferInstanceAs (Decidable (∀ task ∈ s.stateGet .agentTask taskId,
      task.settleable = true → task.reveals ≠ []))
  | .market (.sweep _ epoch) =>
    -- the rows of a scan with no prefix are all there are
    decidable_of_iff (∀ r ∈ (s.state .agentTask).scan (hasPrefix ""),
        taskDue epoch r.2 = true → r.2.settleable = true → r.2.reveals ≠ [])
      ⟨fun h key task hget => h (key, task) (Kv.mem_scan.2 ⟨hget, rfl⟩),
        fun h r hr => h r.1 r.2 (Kv.mem_scan.1 hr).1⟩
  | .market (.deposit _) => .isTrue trivial
  | .market (.withdraw _) => .isTrue trivial
  | .market (.post _) => .isTrue trivial
  | .market (.bid _) => .isTrue trivial
  | .market (.assign _) => .isTrue trivial
  | .market (.commit _) => .isTrue trivial
  | .market (.reveal _) => .isTrue trivial

/-! ## What cannot panic -/

section Calm

variable {W : Footprint} {α : Type} {env : Env}

theorem not_isPanic_err (msg : String) : ¬ IsPanic (.err msg) := by
  rintro ⟨_, h⟩
  cases h

theorem calm_ensure (c : Prop) [Decidable c] (msg : String) :
    Avoids IsPanic (ensure c msg : Prog W Unit) :=
  Avoids.ite (fun _ => avoids_pure ()) fun _ => avoids_fail (not_isPanic_err msg)

theorem calm_credit (account token : String) (n : ℕ) :
    Avoids IsPanic (credit account token n : Prog W Unit) := by
  intro s e s' h
  rw [run_credit] at h
  split at h
  · cases h
  · cases h
    exact not_isPanic_err _

theorem calm_stateSet (f : Family) (key : String) (v : f.Val)
    (h : f.guarded = false ∨ f ∈ W.grants) : Avoids IsPanic (stateSet f key v h : Prog W Unit) :=
  avoids_of_ok fun _ => ⟨(), _, rfl⟩

theorem calm_when {c : Prop} [Decidable c] {m : Prog W Unit} (h : Avoids IsPanic m) :
    Avoids IsPanic (when c m) :=
  Avoids.ite (fun _ => h) fun _ => avoids_pure ()

theorem calm_logPrefix {text : String} (h : Cuttable env text) :
    Avoids IsPanic (logPrefix env.info text 12 : Prog W Unit) :=
  avoids_of_ok fun s => ⟨(), s, run_logPrefix_of h⟩

theorem calm_orDefault {m : Prog W α} (a : α) (h : Avoids IsPanic m) :
    Avoids IsPanic (orDefault a m) := by
  intro s e s' hrun
  unfold orDefault at hrun
  dsimp only at hrun
  cases hm : m.run s with
  | mk r t =>
    rw [hm] at hrun
    cases r with
    | ok b => cases hrun
    | error f =>
      cases f with
      | err msg => cases hrun
      | panic msg =>
        cases hrun
        exact h s _ _ hm

theorem calm_payWorkers (amount : ℕ) (workers : List String) :
    Avoids IsPanic (payWorkers amount workers) := by
  induction workers with
  | nil => exact avoids_pure ()
  | cons w rest ih => exact (calm_credit _ _ _).bind fun _ => ih

variable {job : EnsembleJob}

theorem calm_finalizeJob (job : EnsembleJob) (h : Cuttable env job.jobId) (hash : String) :
    Avoids IsPanic (finalizeJob env job hash) := by
  refine (calm_payWorkers _ _).bind fun _ => ?_
  refine Avoids.bind (calm_when (calm_credit _ _ _)) fun _ => ?_
  exact (calm_logPrefix h).bind fun _ => avoids_pure _

theorem calm_expireEnsemble (h : Cuttable env job.jobId) (key : String) :
    Avoids IsPanic (expireEnsemble env key job) := by
  have hclose : Avoids IsPanic (closeEnsemble env job) := by
    unfold closeEnsemble
    split
    · exact calm_orDefault job (calm_finalizeJob job h _)
    · refine Avoids.bind (Avoids.ignoreErr _) fun _ => ?_
      exact (calm_logPrefix h).bind fun _ => avoids_pure _
  exact hclose.bind fun closed => calm_stateSet _ _ _ _

end Calm

/-! ## Job records keep their ids -/

/-- Every stored job was there before, under the same id. -/
def SameIds (s s' : Chain) : Prop :=
  ∀ key job', s'.stateGet .ensembleJob key = some job' →
    ∃ job, s.stateGet .ensembleJob key = some job ∧ job'.jobId = job.jobId

instance : IsPreorder Chain SameIds where
  refl := fun _ _ job h => ⟨job, h, rfl⟩
  trans := by
    intro s t u h h' key job hu
    obtain ⟨job₁, ht, hid₁⟩ := h' key job hu
    obtain ⟨job₂, hs, hid₂⟩ := h key job₁ ht
    exact ⟨job₂, hs, hid₁.trans hid₂⟩

section Jobs

variable {env : Env} {s : Chain} {job : EnsembleJob} {key : String}

theorem sameIds_of_state {t : Chain} (h : t.state .ensembleJob = s.state .ensembleJob) :
    SameIds s t := by
  intro k job hget
  unfold Chain.stateGet at hget ⊢
  rw [h] at hget
  exact ⟨job, hget, rfl⟩

/-- Payments, then the job under its own id. -/
theorem sameIds_store {m : Prog {} EnsembleJob} {job₀ : EnsembleJob}
    (htouch : Along (Touch ∅) m)
    (hid : ∀ s job' t, m.run s = (.ok job', t) → job'.jobId = job₀.jobId)
    (hget : s.stateGet .ensembleJob key = some job₀) :
    SameIds s ((m >>= fun closed => stateSet .ensembleJob key closed).run s).2 ∧
      ∀ k, k ≠ key → ((m >>= fun closed => stateSet .ensembleJob key closed).run s).2.stateGet
        .ensembleJob k = s.stateGet .ensembleJob k := by
  have hstate := (htouch s).family .ensembleJob (Set.notMem_empty _)
  rw [run_bind]
  cases hm : m.run s with
  | mk r t =>
    rw [hm] at hstate
    have hsame : ∀ k, t.stateGet .ensembleJob k = s.stateGet .ensembleJob k := by
      intro k
      unfold Chain.stateGet
      rw [hstate]
    cases r with
    | error e => exact ⟨sameIds_of_state hstate, fun k _ => hsame k⟩
    | ok closed =>
      dsimp only [run_stateSet]
      refine ⟨?_, ?_⟩
      · intro k job' hjob'
        rw [stateGet_stateSet] at hjob'
        split at hjob'
        · next hk =>
          subst hk
          obtain rfl : closed = job' := Option.some.inj hjob'
          exact ⟨job₀, hget, hid s _ t hm⟩
        · exact ⟨job', (hsame k).symm.trans hjob', rfl⟩
      · intro k hk
        rw [stateGet_stateSet, if_neg hk.symm, hsame]

theorem jobId_of_finalizeJob (job : EnsembleJob) {hash : String} {job' : EnsembleJob} {t : Chain}
    (h : (finalizeJob env job hash).run s = (.ok job', t)) : job'.jobId = job.jobId := by
  unfold finalizeJob at h
  obtain ⟨_, _, -, h⟩ := run_bind_eq_ok.1 h
  obtain ⟨_, _, -, h⟩ := run_bind_eq_ok.1 h
  obtain ⟨_, _, -, h⟩ := run_bind_eq_ok.1 h
  cases h
  rfl

theorem jobId_of_closeEnsemble {job' : EnsembleJob} {t : Chain}
    (h : (closeEnsemble env job).run s = (.ok job', t)) : job'.jobId = job.jobId := by
  unfold closeEnsemble at h
  split at h
  · next hash _ =>
    unfold orDefault at h
    dsimp only at h
    cases hm : (finalizeJob env job hash).run s with
    | mk r u =>
      rw [hm] at h
      cases r with
      | ok closed =>
        cases h
        exact jobId_of_finalizeJob job hm
      | error f =>
        cases f with
        | err msg =>
          cases h
          rfl
        | panic msg => cases h
  · obtain ⟨_, _, -, h⟩ := run_bind_eq_ok.1 h
    obtain ⟨_, _, -, h⟩ := run_bind_eq_ok.1 h
    cases h
    rfl

theorem sameIds_vote (p : EnsembleVote) :
    SameIds s ((applyEnsembleVote env p).run s).2 := by
  have hrefused : ∀ {r : Except Fault Unit × Chain}, Refused s r → SameIds s r.2 := by
    rintro r ⟨msg, rfl⟩
    exact refl_of SameIds s
  unfold applyEnsembleVote
  rw [run_stateGet_bind]
  rcases refused_or_orBail (s := s) (s.stateGet .ensembleJob p.jobId) _ _ with h | ⟨job, hget, h⟩
  · exact hrefused h
  rw [h]
  rcases refused_or_ensure (s := s) (job.status = .voting) _ _ with h | ⟨-, h⟩
  · exact hrefused h
  rw [h]
  rcases refused_or_ensure (s := s) (p.epoch ≤ job.voteDeadline) _ _ with h | ⟨-, h⟩
  · exact hrefused h
  rw [h]
  rcases refused_or_ensure (s := s) (∀ v ∈ job.votes, v.worker ≠ p.worker) _ _ with h | ⟨-, h⟩
  · exact hrefused h
  rw [h]
  dsimp only
  split
  · next hash _ =>
    have hid : ∀ s' job' t, (finalizeJob env (Ensemble.withVote job p) hash).run s' =
        (.ok job', t) → job'.jobId = job.jobId := fun _ _ _ hrun =>
      jobId_of_finalizeJob (Ensemble.withVote job p) hrun
    exact (sameIds_store (touches_finalizeJob env (Ensemble.withVote job p) hash) hid hget).1
  · refine (sameIds_store (m := pure (Ensemble.withVote job p)) (along_pure _) ?_ hget).1
    intro s' job' t hrun
    cases hrun
    rfl

theorem sameIds_sweep (epoch : ℕ) : SameIds s ((sweepExpiredEnsembles env epoch).run s).2 := by
  unfold sweepExpiredEnsembles
  rw [run_stateScan_bind]
  refine along_forM_of_invariant _ (fun rest t => Supply.Pending rest t) ?_
    (Supply.pending_scan .ensembleJob _ s)
  intro r rest t hpend
  have hget := hpend.bound r List.mem_cons_self
  rw [run_when]
  by_cases hdue : ensembleDue epoch r.2 = true
  · rw [if_pos hdue]
    obtain ⟨hids, hkeep⟩ := sameIds_store (touches_closeEnsemble env r.2)
      (fun _ _ _ hrun => jobId_of_closeEnsemble hrun) hget
    refine ⟨hids, ?_⟩
    intro t' ht'
    refine hpend.tail fun k hk => ?_
    have := hkeep k hk
    unfold expireEnsemble at ht'
    rwa [ht'] at this
  · rw [if_neg hdue]
    refine ⟨refl_of SameIds t, ?_⟩
    intro t' ht'
    cases ht'
    exact hpend.tail fun _ _ => rfl

end Jobs

/-! ## When a call panics -/

section Panicking

variable {env : Env} {now : ℕ} {s : Chain}

theorem not_panicked_of_refused {r : Except Fault Unit × Chain} (h : Refused s r) :
    ¬ Panicked r := by
  obtain ⟨msg, rfl⟩ := h
  rintro ⟨f, hf, hpanic⟩
  cases hf
  exact not_isPanic_err msg hpanic

theorem not_panicked_ok (s : Chain) : ¬ Panicked (.ok (), s) := by
  rintro ⟨f, hf, -⟩
  cases hf

theorem Avoids.not_panicked {W : Footprint} {m : Prog W Unit} (h : Avoids IsPanic m) (s : Chain) :
    ¬ Panicked (m.run s) := by
  rintro ⟨f, hf, hpanic⟩
  exact h s f (m.run s).2 (Prod.ext hf rfl) hpanic

theorem panicked_logPrefix {W : Footprint} (text : String) (s : Chain) :
    Panicked ((logPrefix env.info text 12 : Prog W Unit).run s) ↔ ¬ Cuttable env text := by
  constructor
  · intro h hcut
    rw [run_logPrefix_of hcut] at h
    exact not_panicked_ok s h
  · intro hcut
    unfold Cuttable at hcut
    simp only [Classical.not_imp, Bool.not_eq_true] at hcut
    refine ⟨.panic "byte index is out of bounds", ?_, _, rfl⟩
    unfold logPrefix
    rw [hcut.1, hcut.2]
    rfl

theorem run_jobPost (env : Env) (p : EnsembleJobPost) :
    Refused s ((applyEnsembleJobPost env p).run s) ∧
        ¬ (s.stateGet .ensembleJob p.jobId = none ∧
          (minEnsembleSize ≤ p.nWorkers ∧ p.nWorkers ≤ maxEnsembleSize) ∧
          p.maxFee ≤ s.getBalance p.requester nativeToken) ∨
      (s.stateGet .ensembleJob p.jobId = none ∧
        (minEnsembleSize ≤ p.nWorkers ∧ p.nWorkers ≤ maxEnsembleSize) ∧
        p.maxFee ≤ s.getBalance p.requester nativeToken) ∧
      ∃ job : EnsembleJob, job.jobId = p.jobId ∧ (applyEnsembleJobPost env p).run s =
        (logPrefix env.info p.jobId 12 :
            Prog { pays := {balanceKey p.requester nativeToken} } Unit).run
          ((s.debited p.requester nativeToken p.maxFee).stateSet .ensembleJob p.jobId job) := by
  unfold applyEnsembleJobPost
  rw [run_stateGet_bind]
  by_cases hnone : s.stateGet .ensembleJob p.jobId = none
  · rw [run_ensure_bind (by simp [hnone])]
    by_cases hsize : minEnsembleSize ≤ p.nWorkers ∧ p.nWorkers ≤ maxEnsembleSize
    · rw [run_ensure_bind hsize]
      by_cases hfee : p.maxFee ≤ s.getBalance p.requester nativeToken
      · refine .inr ⟨⟨hnone, hsize, hfee⟩, ?_⟩
        rw [run_debit_bind hfee, run_stateSet_bind]
        exact ⟨⟨p.jobId, p.requester, p.model, p.inputHash, p.maxFee, p.nWorkers, p.epoch,
          wrapAdd p.epoch voteWindowEpochs, [], .voting, none⟩, rfl, rfl⟩
      · exact .inl ⟨⟨_, run_bind_error (by rw [run_debit, if_neg hfee])⟩, fun h => hfee h.2.2⟩
    · exact .inl ⟨⟨_, run_bind_error (by rw [run_ensure, if_neg hsize])⟩, fun h => hsize h.2.1⟩
  · exact .inl ⟨⟨_, run_bind_error (by rw [run_ensure, if_neg (by simpa using hnone)])⟩,
      fun h => hnone h.1⟩

/-- Tasks are stored under their ids, and every job has an id that can be cut. -/
structure Steady (env : Env) (s : Chain) : Prop where
  keyed : Keyed s
  cuttable : ∀ key job, s.stateGet .ensembleJob key = some job → Cuttable env job.jobId

theorem run_market (op : TaskOp) : (ServiceOp.market op).run env now s = op.run env s := by
  cases op <;> rfl

/-- A vote on a job that can be cut does not panic. -/
theorem not_panicked_vote (h : Steady env s) (p : EnsembleVote) :
    ¬ Panicked ((applyEnsembleVote env p).run s) := by
  unfold applyEnsembleVote
  rw [run_stateGet_bind]
  rcases refused_or_orBail (s := s) (s.stateGet .ensembleJob p.jobId) _ _ with
    hr | ⟨job, hget, hrun⟩
  · exact not_panicked_of_refused hr
  rw [hrun]
  have hcut := h.cuttable _ _ hget
  refine Avoids.not_panicked ?_ s
  refine (calm_ensure _ _).bind fun _ => ?_
  refine (calm_ensure _ _).bind fun _ => ?_
  refine (calm_ensure _ _).bind fun _ => ?_
  dsimp only
  split
  · exact (calm_finalizeJob (Ensemble.withVote job p) hcut _).bind fun _ =>
      calm_stateSet _ _ _ _
  · exact (avoids_pure _).bind fun _ => calm_stateSet _ _ _ _

theorem not_panicked_sweepJobs (h : Steady env s) (epoch : ℕ) :
    ¬ Panicked ((sweepExpiredEnsembles env epoch).run s) := by
  unfold sweepExpiredEnsembles
  rw [run_stateScan_bind]
  refine Avoids.not_panicked (avoids_forM fun r hr => ?_) s
  have hget := (Supply.pending_scan .ensembleJob _ s).bound r hr
  exact calm_when (calm_expireEnsemble (h.cuttable _ _ hget) _)

/-- The loop over tasks panics at the first overdue one that is settled without reveals. -/
theorem panicked_rows_iff (order : Tally.HashOrder (String × ℕ)) (epoch : ℕ)
    {rows : List (String × AgentTask)} (hids : ∀ r ∈ rows, r.2.taskId = r.1)
    (hpend : Supply.Pending (f := .agentTask) rows s) :
    Panicked ((rows.forM fun r => when (taskDue epoch r.2) (expireTask order r.1 r.2) :
        Prog {} PUnit).run s) ↔
      ∃ r ∈ rows, taskDue epoch r.2 = true ∧ r.2.settleable = true ∧ r.2.reveals = [] := by
  induction rows generalizing s with
  | nil =>
    constructor
    · exact fun h => absurd h (not_panicked_ok s)
    · rintro ⟨r, hr, -⟩
      cases hr
  | cons r rest ih =>
    have hget := hpend.bound r List.mem_cons_self
    have hid := hids r List.mem_cons_self
    have hcons : ((r :: rest).forM fun r => when (taskDue epoch r.2) (expireTask order r.1 r.2) :
        Prog {} PUnit) = (when (taskDue epoch r.2) (expireTask order r.1 r.2) >>= fun _ =>
          rest.forM fun r => when (taskDue epoch r.2) (expireTask order r.1 r.2)) := rfl
    rw [hcons]
    -- after a row that does not panic the others are as they were
    have hnext : ∀ t, (∀ k, k ≠ r.1 → t.stateGet .agentTask k = s.stateGet .agentTask k) →
        (when (taskDue epoch r.2) (expireTask order r.1 r.2) : Prog {} Unit).run s = (.ok (), t) →
        ¬ (taskDue epoch r.2 = true ∧ r.2.settleable = true ∧ r.2.reveals = []) →
        (Panicked ((when (taskDue epoch r.2) (expireTask order r.1 r.2) >>= fun _ =>
            rest.forM fun r => when (taskDue epoch r.2) (expireTask order r.1 r.2) :
              Prog {} PUnit).run s) ↔
          ∃ q ∈ r :: rest, taskDue epoch q.2 = true ∧ q.2.settleable = true ∧ q.2.reveals = []) := by
      intro t hkeep hrun hnot
      rw [run_bind_ok hrun, ih (fun q hq => hids q (List.mem_cons_of_mem _ hq)) (hpend.tail hkeep)]
      constructor
      · rintro ⟨q, hq, hbad⟩
        exact ⟨q, List.mem_cons_of_mem _ hq, hbad⟩
      · rintro ⟨q, hq, hbad⟩
        rcases List.mem_cons.1 hq with rfl | hq
        · exact absurd hbad hnot
        · exact ⟨q, hq, hbad⟩
    by_cases hdue : taskDue epoch r.2 = true
    · have hrun := run_expireTask order hget hid (not_closed_of_taskDue hdue)
      split at hrun
      · next hbad =>
        refine iff_of_true ?_ ⟨r, List.mem_cons_self, hdue, hbad⟩
        rw [run_bind_error (by rw [run_when, if_pos hdue, hrun])]
        exact ⟨unwrapNone, rfl, _, rfl⟩
      · next hgood =>
        obtain ⟨t, task', hrun, -, hstate⟩ := hrun
        refine hnext _ ?_ (by rw [run_when, if_pos hdue, hrun]) fun hbad => hgood hbad.2
        intro k hk
        rw [stateGet_stateSet, if_neg hk.symm]
        unfold Chain.stateGet
        rw [hstate _ (by decide)]
    · exact hnext s (fun _ _ => rfl) (by rw [run_when, if_neg hdue]) fun hbad => hdue hbad.1

/-- A result that the assigned agent hands in panics when its hash cannot be cut. -/
theorem panicked_submit_iff (p : AgentTaskSubmit) :
    Panicked ((applyAgentTaskSubmit env p).run s) ↔ ¬ Safe env s (.market (.submit p)) := by
  dsimp only [Safe]
  rcases run_submit env (s := s) p with hrefused | ⟨task, hget, hstatus, hagent, hrun⟩
  · refine iff_of_false (not_panicked_of_refused hrefused) (not_not.2 ?_)
    intro task hget hstatus hagent
    -- nothing refuses the result of the assigned agent
    have hload : (loadTask p.taskId : Prog {} AgentTask).run s = (.ok task, s) := by
      unfold loadTask
      rw [run_stateGet_bind, hget]
      rfl
    by_contra hcut
    obtain ⟨msg, hmsg⟩ := hrefused
    unfold applyAgentTaskSubmit at hmsg
    rw [run_bind_ok hload, run_ensure_bind hstatus,
      run_ensure_bind hagent, run_bind_ok rfl] at hmsg
    have hpanic := (panicked_logPrefix (W := {}) p.resultHash
      (s.stateSet .agentTask task.taskId (submitted p task))).2 hcut
    exact not_panicked_of_refused ⟨msg, rfl⟩ (hmsg ▸ hpanic)
  · rw [hrun, panicked_logPrefix, not_iff_not]
    constructor
    · intro hcut _ _ _ _
      exact hcut
    · intro hsafe
      exact hsafe task hget hstatus hagent

theorem panicked_settle_iff (hkeyed : Keyed s) (order : Tally.HashOrder (String × ℕ))
    (taskId : String) : Panicked ((trySettle order taskId : Prog {} Unit).run s) ↔
      ¬ Safe env s (.market (.settle order taskId)) := by
  dsimp only [Safe]
  cases hget : s.stateGet .agentTask taskId with
  | none =>
    refine iff_of_false ?_ (not_not.2 fun task hsome => by cases hsome)
    unfold trySettle
    rcases refused_or_loadTask (W := {}) (s := s) taskId _ with hr | ⟨task, hget', -⟩
    · exact not_panicked_of_refused hr
    · rw [hget] at hget'
      cases hget'
  | some task =>
    obtain rfl := hkeyed _ _ hget
    have hrun := run_settle order hget
    have hsafe : (¬ ∀ t, some task = some t → t.settleable = true → t.reveals ≠ []) ↔
        task.settleable = true ∧ task.reveals = [] := by
      simp
    rw [hsafe]
    split at hrun
    · next hready =>
      rw [hrun]
      exact iff_of_false (not_panicked_ok s) fun h => by rw [hready] at h; cases h.1
    · next hready =>
      rw [Bool.not_eq_false] at hready
      split at hrun
      · next hnil =>
        rw [hrun]
        exact iff_of_true ⟨unwrapNone, rfl, _, rfl⟩ ⟨hready, hnil⟩
      · next hvoted =>
        obtain ⟨t, hrun, -⟩ := hrun
        rw [hrun]
        exact iff_of_false (not_panicked_ok _) fun h => hvoted h.2

theorem panicked_sweep_iff (hkeyed : Keyed s) (order : Tally.HashOrder (String × ℕ)) (epoch : ℕ) :
    Panicked ((sweepExpiredTasks order epoch).run s) ↔
      ¬ Safe env s (.market (.sweep order epoch)) := by
  have hpend := Supply.pending_scan .agentTask (hasPrefix "") s
  have hids : ∀ r ∈ (s.state .agentTask).scan (hasPrefix ""), r.2.taskId = r.1 :=
    fun r hr => hkeyed _ _ (hpend.bound r hr)
  unfold sweepExpiredTasks
  rw [run_stateScan_bind]
  refine (panicked_rows_iff order epoch hids hpend).trans ?_
  dsimp only [Safe]
  constructor
  · rintro ⟨r, hr, hdue, hready, hnil⟩ hsafe
    exact hsafe r.1 r.2 (hpend.bound r hr) hdue hready hnil
  · intro hsafe
    simp only [not_forall, not_not] at hsafe
    obtain ⟨key, task, hget, hdue, hready, hnil⟩ := hsafe
    refine ⟨(key, task), Kv.mem_scan.2 ⟨hget, ?_⟩, hdue, hready, hnil⟩
    rfl

/-- An operation of the market panics exactly when it is not safe. -/
theorem panicked_market_iff (hkeyed : Keyed s) (op : TaskOp) :
    Panicked (op.run env s) ↔ ¬ Safe env s (.market op) := by
  -- most operations are refused or end with a write
  have hcalm : ∀ {r : Except Fault Unit × Chain}, (Refused s r ∨ ∃ t, r = (.ok (), t)) →
      ¬ Panicked r := by
    rintro r (hr | ⟨t, rfl⟩)
    · exact not_panicked_of_refused hr
    · exact not_panicked_ok t
  cases op with
  | deposit p =>
    refine iff_of_false (hcalm ?_) (not_not.2 trivial)
    exact (run_deposit (s := s) p).imp_right fun h => ⟨_, h.2⟩
  | withdraw p =>
    refine iff_of_false ?_ (not_not.2 trivial)
    dsimp only [TaskOp.run]
    rcases run_withdraw (s := s) p with hr | ⟨-, hrun⟩
    · exact not_panicked_of_refused hr
    · rw [hrun]
      exact Avoids.not_panicked (calm_credit _ _ _) _
  | post p =>
    refine iff_of_false (hcalm ?_) (not_not.2 trivial)
    exact (run_post (s := s) p).imp_right fun h => ⟨_, h.2.2⟩
  | bid p =>
    refine iff_of_false (hcalm ?_) (not_not.2 trivial)
    exact (run_bid (s := s) p).imp_right fun h => ⟨_, h⟩
  | assign p =>
    refine iff_of_false (hcalm ?_) (not_not.2 trivial)
    exact (run_assign (s := s) p).imp_right fun ⟨_, _, _, _, h⟩ => ⟨_, h⟩
  | submit p => exact panicked_submit_iff p
  | commit p =>
    refine iff_of_false (hcalm ?_) (not_not.2 trivial)
    exact (run_commit (s := s) p).imp_right fun ⟨_, _, _, _, h⟩ => ⟨_, h⟩
  | reveal p =>
    refine iff_of_false (hcalm ?_) (not_not.2 trivial)
    exact (run_reveal env (s := s) p).imp_right fun ⟨_, _, _, _, _, h⟩ => ⟨_, h⟩
  | settle order taskId => exact panicked_settle_iff hkeyed order taskId
  | sweep order epoch => exact panicked_sweep_iff hkeyed order epoch

/-- A call panics exactly when it is not safe. -/
theorem panicked_iff (h : Steady env s) (op : ServiceOp) :
    Panicked (op.run env now s) ↔ ¬ Safe env s op := by
  cases op with
  | jobPost p =>
    have hrun : (ServiceOp.jobPost p).run env now s = (applyEnsembleJobPost env p).run s := rfl
    rw [hrun]
    rcases run_jobPost env (s := s) p with ⟨hrefused, hnot⟩ | ⟨hok, job, -, hcut⟩
    · refine iff_of_false (not_panicked_of_refused hrefused) ?_
      exact not_not.2 fun hnone hsize hfee => absurd ⟨hnone, hsize, hfee⟩ hnot
    · rw [hcut, panicked_logPrefix, not_iff_not]
      exact ⟨fun h _ _ _ => h, fun h => h hok.1 hok.2.1 hok.2.2⟩
  | vote p => exact iff_of_false (not_panicked_vote h p) (not_not.2 trivial)
  | sweepJobs epoch => exact iff_of_false (not_panicked_sweepJobs h epoch) (not_not.2 trivial)
  | market op =>
    rw [run_market]
    exact panicked_market_iff h.keyed op

/-! ## Runs -/

theorem keyed_of_state {t : Chain} (h : Keyed s) (hs : t.state .agentTask = s.state .agentTask) :
    Keyed t := fun key task hget => h key task ((stateGet_of_state hs key).symm.trans hget)

theorem cuttable_of_sameIds {t : Chain} (h : Steady env s) (hids : SameIds s t) (key : String)
    (job : EnsembleJob) (hget : t.stateGet .ensembleJob key = some job) :
    Cuttable env job.jobId := by
  obtain ⟨job₀, hget₀, hid⟩ := hids key job hget
  rw [hid]
  exact h.cuttable key job₀ hget₀

theorem touches_applyEnsembleVote (env : Env) (p : EnsembleVote) :
    Along (Touch {.ensembleJob}) (applyEnsembleVote env p) := by
  refine along_inspect.bind fun _ => touches_orBail.bind fun job => ?_
  refine touches_ensure.bind fun _ => touches_ensure.bind fun _ => touches_ensure.bind fun _ => ?_
  dsimp only
  split
  · exact (touches_finalizeJob env _ _).bind fun _ => touches_stateSet (Set.mem_singleton _) _ _ _
  · exact (along_pure _).bind fun _ => touches_stateSet (Set.mem_singleton _) _ _ _

/-- A safe call keeps the tasks under their ids and the jobs' ids cuttable. -/
theorem steady_run (h : Steady env s) (op : ServiceOp) (hsafe : Safe env s op) :
    Steady env (op.run env now s).2 := by
  cases op with
  | jobPost p =>
    have hrun : (ServiceOp.jobPost p).run env now s = (applyEnsembleJobPost env p).run s := rfl
    rw [hrun]
    rcases run_jobPost env (s := s) p with ⟨⟨msg, hr⟩, -⟩ | ⟨hok, job, hid, hrun⟩
    · rw [hr]
      exact h
    rw [hrun, run_logPrefix_snd]
    refine ⟨keyed_of_state h.keyed ?_, ?_⟩
    · rw [state_stateSet_of_ne _ (by decide)]
      rfl
    intro key job' hget
    rw [stateGet_stateSet] at hget
    split at hget
    · obtain rfl : job = job' := Option.some.inj hget
      rw [hid]
      exact hsafe hok.1 hok.2.1 hok.2.2
    · exact h.cuttable key job' hget
  | vote p =>
    have hstate := (touches_applyEnsembleVote env p s).family .agentTask (by decide)
    exact ⟨keyed_of_state h.keyed hstate, cuttable_of_sameIds h (sameIds_vote p)⟩
  | sweepJobs epoch =>
    have htouch := touches_sweepExpiredEnsembles env epoch (Set.mem_singleton _) s
    have hstate := htouch.family .agentTask (by decide)
    exact ⟨keyed_of_state h.keyed hstate, cuttable_of_sameIds h (sameIds_sweep epoch)⟩
  | market op =>
    rw [run_market]
    refine ⟨keyed_run h.keyed op, ?_⟩
    have hstate := (touch_run env (s := s) op).family .ensembleJob (by decide)
    intro key job hget
    exact h.cuttable key job ((stateGet_of_state hstate key).symm.trans hget)

theorem steady_reached {hist : List (Chain × ServiceOp)}
    (hrun : Run (services env now) (Safe env) hist s) : Steady env s := by
  refine hrun.invariant ?_ ?_ ?_
  · rintro s ⟨htask, hjob⟩
    constructor
    · intro key task hget
      rw [htask key] at hget
      cases hget
    · intro key job hget
      rw [hjob key] at hget
      cases hget
  · intro s op hsafe h
    exact steady_run h op hsafe
  · rintro s t ⟨htask, hjob⟩ h
    refine ⟨keyed_of_state h.keyed htask, fun key job hget => ?_⟩
    exact h.cuttable key job ((stateGet_of_state hjob key).symm.trans hget)

/-- In a run of safe calls none panicked, and whatever call comes next panics exactly when it
is not safe. -/
theorem panics_exactly_unless_safe {hist : List (Chain × ServiceOp)}
    (hrun : Run (services env now) (Safe env) hist s) :
    (∀ c ∈ hist, ¬ Panicked (c.2.run env now c.1)) ∧
      ∀ op, Panicked (op.run env now s) ↔ ¬ Safe env s op := by
  refine ⟨?_, fun op => panicked_iff (steady_reached hrun) op⟩
  rintro ⟨t, op⟩ hmem hpanic
  obtain ⟨hsafe, before, hbefore⟩ := hrun.of_mem hmem
  exact (panicked_iff (steady_reached hbefore) op).1 hpanic hsafe

end Panicking

/-! ### A node that logs -/

def loggingNode : Env := { agentNode with info := true }

def jobOf (jobId : String) : EnsembleJobPost :=
  ⟨jobId, "req", "qwen2.5:0.5b", "abc123", 1000, 3, 1, 1, "req", none⟩

/-- A job and a task with ids and hashes of the usual length, and the sweeps after them. -/
theorem panics_exactly_unless_safe_usual :
    let ops := [.jobPost (jobOf "job0000000002"),
      .vote ⟨"job0000000002", "w1", "abc", 2, 1, "w1", none⟩] ++
        taskLife.map .market ++ [.sweepJobs 100]
    let M := services loggingNode 0
    (M.record requesterFunded ops []).length = 12 ∧
      ∀ c ∈ M.record requesterFunded ops [], ¬ Panicked (c.2.run loggingNode 0 c.1) := by
  intro ops M
  have hlegal : Legal M (Safe loggingNode) requesterFunded ops := by decide
  refine ⟨by decide, ?_⟩
  have hstart : Run M (Safe loggingNode) [] requesterFunded := .start ⟨fun _ => rfl, fun _ => rfl⟩
  exact (panics_exactly_unless_safe (hstart.exec hlegal)).1

/-- A task of the market up to its result. -/
def taskUpTo (resultHash : String) (minVerifiers : ℕ) : List ServiceOp :=
  [.market (.deposit ⟨"req", 2000, 1, 1, "req"⟩),
    .market (.post ⟨"t1", "req", "sum", [], 1000, minVerifiers, 5, 20, 1, 2, "req"⟩),
    .market (.bid ⟨"t1", "agent", 900, 2, 1, "agent"⟩),
    .market (.assign ⟨"t1", "agent", 900, 3, 3, "req"⟩),
    .market (.submit ⟨"t1", "agent", resultHash, "cid", 4, 2, "agent"⟩)]

/-- A short job id, one with a letter across the cut, a vote and a sweep that meet the stored
job again, a short result hash, and a task of no verifiers that one verifier committed to. -/
theorem panicked_by_log_lines_and_tally :
    let M := services loggingNode 0
    let after := fun ops => M.exec requesterFunded ops
    Panicked ((ServiceOp.jobPost (jobOf "job1")).run loggingNode 0 requesterFunded) ∧
      Panicked ((ServiceOp.jobPost (jobOf "job00000000é2")).run loggingNode 0 requesterFunded) ∧
      Panicked ((ServiceOp.vote ⟨"job1", "w2", "abc", 2, 1, "w2", none⟩).run loggingNode 0
        (after [.jobPost (jobOf "job1"), .vote ⟨"job1", "w1", "abc", 2, 1, "w1", none⟩])) ∧
      Panicked ((ServiceOp.sweepJobs 100).run loggingNode 0 (after [.jobPost (jobOf "job1")])) ∧
      Panicked ((ServiceOp.market (.submit ⟨"t1", "agent", "ok", "cid", 4, 2, "agent"⟩)).run
        loggingNode 0 (after ((taskUpTo "ok" 1).take 4))) ∧
      Panicked ((ServiceOp.market (.sweep .stored 100)).run loggingNode 0
        (after (taskUpTo "goodhash0000" 0 ++
          [.market (.commit ⟨"t1", "v1", "00", 5, 1, "v1"⟩)]))) := by
  decide

end HoneNode.Panics
