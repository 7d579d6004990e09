import HoneNode.Agents.Agreement
import HoneNode.Lib.Trace

/-!
# Agents.Tasks — what each operation does to the task records

The operations of the agent market, one spec lemma each: an operation is
refused and leaves the chain as it was, or it makes the one change its lemma
names. A task is stored under its own id (`Keyed`), and from then on its record
only moves along `Move`: assigned, submitted, committed to, revealed, closed.
-/

namespace HoneNode.Agents

open Entry Prog Within

inductive TaskOp where
  | deposit (p : AgentCreditDeposit)
  | withdraw (p : AgentCreditWithdraw)
  | post (p : AgentTaskPost)
  | bid (p : AgentTaskBid)
  | assign (p : AgentTaskAssign)
  | submit (p : AgentTaskSubmit)
  | commit (p : AgentTaskVerifierCommit)
  | reveal (p : AgentTaskVerifierReveal)
  | settle (order : Tally.HashOrder (String × ℕ)) (taskId : String)
  | sweep (order : Tally.HashOrder (String × ℕ)) (epoch : ℕ)

def TaskOp.run (env : Env) (s : Chain) : TaskOp → Except Fault Unit × Chain
  | .deposit p => (applyAgentCreditDeposit p).run s
  | .withdraw p => (applyAgentCreditWithdraw p).run s
  | .post p => (applyAgentTaskPost p).run s
  | .bid p => (applyAgentTaskBid p).run s
  | .assign p => (applyAgentTaskAssign p).run s
  | .submit p => (applyAgentTaskSubmit env p).run s
  | .commit p => (applyAgentTaskVerifierCommit p).run s
  | .reveal p => (applyAgentTaskVerifierReveal env p).run s
  | .settle order taskId => (trySettle order taskId : Prog {} Unit).run s
  | .sweep order epoch => (sweepExpiredTasks order epoch).run s

/-! ## Loading a task -/

section Loading

variable {W : Footprint} {s : Chain}

theorem refused_or_loadTask (taskId : String) (f : AgentTask → Prog W Unit) :
    Refused s ((loadTask taskId >>= f).run s) ∨ ∃ task, s.stateGet .agentTask taskId = some task ∧
      (loadTask taskId >>= f).run s = (f task).run s := by
  unfold loadTask
  cases h : s.stateGet .agentTask taskId with
  | none =>
    refine .inl ⟨s!"task '{taskId}' not found", run_bind_error ?_⟩
    rw [run_stateGet_bind, h]
    rfl
  | some task =>
    refine .inr ⟨task, rfl, run_bind_ok ?_⟩
    rw [run_stateGet_bind, h]
    rfl

end Loading

/-! ## One operation -/

/-- The record a post stores. -/
def posted (p : AgentTaskPost) : AgentTask :=
  { taskId := p.taskId, requester := p.requester, description := p.description,
    toolsAllowed := p.toolsAllowed, maxFee := p.maxFee, agreedFee := 0,
    minVerifiers := p.minVerifiers, bidWindowEpochs := p.bidWindowEpochs,
    deadlineEpoch := p.deadlineEpoch, postedEpoch := p.epoch, status := .open, agent := none,
    resultHash := none, outputCid := none, commits := [], reveals := [] }

def assigned (p : AgentTaskAssign) (task : AgentTask) : AgentTask :=
  { task with agent := some p.agent, agreedFee := p.fee, status := .assigned }

def submitted (p : AgentTaskSubmit) (task : AgentTask) : AgentTask :=
  { task with resultHash := some p.resultHash, outputCid := some p.outputCid, status := .submitted }

def committed (p : AgentTaskVerifierCommit) (task : AgentTask) : AgentTask :=
  { task with commits := task.commits ++ [⟨p.verifier, p.commitHash, p.epoch⟩],
              status := .verifying }

def revealed (p : AgentTaskVerifierReveal) (task : AgentTask) : AgentTask :=
  { task with reveals := task.reveals ++ [⟨p.verifier, p.resultHash, p.salt⟩] }

section Specs

variable {env : Env} {s : Chain}

theorem run_deposit (p : AgentCreditDeposit) :
    Refused s ((applyAgentCreditDeposit p).run s) ∨
      p.amount ≤ s.getBalance p.account nativeToken ∧ (applyAgentCreditDeposit p).run s =
        (.ok (), (s.debited p.account nativeToken p.amount).stateSet .agentCredit p.account
          (satAdd (getCredit p.account s) p.amount)) := by
  unfold applyAgentCreditDeposit
  by_cases hle : p.amount ≤ s.getBalance p.account nativeToken
  · refine .inr ⟨hle, ?_⟩
    rw [run_debit_bind hle, run_inspect_bind]
    rfl
  · exact .inl ⟨_, run_bind_error (by rw [run_debit, if_neg hle])⟩

theorem run_withdraw (p : AgentCreditWithdraw) :
    Refused s ((applyAgentCreditWithdraw p).run s) ∨
      p.amount ≤ getCredit p.account s ∧ (applyAgentCreditWithdraw p).run s =
        (credit p.account nativeToken p.amount : Prog {} Unit).run
          (s.stateSet .agentCredit p.account (getCredit p.account s - p.amount)) := by
  unfold applyAgentCreditWithdraw
  rw [run_inspect_bind]
  rcases refused_or_ensure (s := s) (p.amount ≤ getCredit p.account s) _ _ with h | ⟨hle, h⟩
  · exact .inl h
  · exact .inr ⟨hle, by rw [h, run_stateSet_bind]⟩

theorem run_post (p : AgentTaskPost) :
    Refused s ((applyAgentTaskPost p).run s) ∨
      s.stateGet .agentTask p.taskId = none ∧ p.maxFee ≤ getCredit p.requester s ∧
        (applyAgentTaskPost p).run s =
          (.ok (), (s.stateSet .agentCredit p.requester (getCredit p.requester s - p.maxFee)).stateSet
            .agentTask p.taskId (posted p)) := by
  unfold applyAgentTaskPost
  rw [run_stateGet_bind]
  rcases refused_or_ensure (s := s) ((s.stateGet .agentTask p.taskId).isNone = true) _ _ with
    h | ⟨hnone, h⟩
  · exact .inl h
  rw [h, run_inspect_bind]
  rcases refused_or_ensure (s := s) (p.maxFee ≤ getCredit p.requester s) _ _ with h | ⟨hle, h⟩
  · exact .inl h
  · refine .inr ⟨Option.isNone_iff_eq_none.1 hnone, hle, ?_⟩
    rw [h, run_stateSet_bind]
    rfl

theorem run_bid (p : AgentTaskBid) :
    Refused s ((applyAgentTaskBid p).run s) ∨ (applyAgentTaskBid p).run s =
      (.ok (), s.stateSet .agentTaskBid (agentBidKey p.taskId p.agent) p.proposedFee) := by
  unfold applyAgentTaskBid
  rcases refused_or_loadTask (s := s) p.taskId _ with h | ⟨task, hget, h⟩
  · exact .inl h
  rw [h]
  rcases refused_or_ensure (s := s) (task.status = .open) _ _ with h | ⟨-, h⟩
  · exact .inl h
  rw [h]
  rcases refused_or_ensure (s := s) (p.proposedFee ≤ task.maxFee) _ _ with h | ⟨-, h⟩
  · exact .inl h
  rw [h]
  rcases refused_or_ensure (s := s) (p.epoch ≤ wrapAdd task.postedEpoch task.bidWindowEpochs) _ _
    with h | ⟨-, h⟩
  · exact .inl h
  · exact .inr (h.trans (run_stateSet _ _ _ _ _))

theorem run_assign (p : AgentTaskAssign) :
    Refused s ((applyAgentTaskAssign p).run s) ∨
      ∃ task, s.stateGet .agentTask p.taskId = some task ∧ task.status = .open ∧
        p.fee ≤ task.maxFee ∧ (applyAgentTaskAssign p).run s =
          (.ok (), s.stateSet .agentTask task.taskId (assigned p task)) := by
  unfold applyAgentTaskAssign
  rcases refused_or_loadTask (s := s) p.taskId _ with h | ⟨task, hget, h⟩
  · exact .inl h
  rw [h]
  rcases refused_or_ensure (s := s) (task.status = .open) _ _ with h | ⟨hopen, h⟩
  · exact .inl h
  rw [h]
  rcases refused_or_ensure (s := s) (p.fee ≤ task.maxFee) _ _ with h | ⟨hfee, h⟩
  · exact .inl h
  rw [h, run_stateGet_bind]
  rcases refused_or_orBail (s := s) (s.stateGet .agentTaskBid (agentBidKey p.taskId p.agent)) _ _
    with h | ⟨bid, -, h⟩
  · exact .inl h
  rw [h]
  rcases refused_or_ensure (s := s) (p.fee ≤ bid) _ _ with h | ⟨-, h⟩
  · exact .inl h
  · exact .inr ⟨task, hget, hopen, hfee, h.trans rfl⟩

variable (env) in
theorem run_submit (p : AgentTaskSubmit) :
    Refused s ((applyAgentTaskSubmit env p).run s) ∨
      ∃ task, s.stateGet .agentTask p.taskId = some task ∧ task.status = .assigned ∧
        task.agent = some p.agent ∧ (applyAgentTaskSubmit env p).run s =
          (logPrefix env.info p.resultHash 12 : Prog {} Unit).run
            (s.stateSet .agentTask task.taskId (submitted p task)) := by
  unfold applyAgentTaskSubmit
  rcases refused_or_loadTask (s := s) p.taskId _ with h | ⟨task, hget, h⟩
  · exact .inl h
  rw [h]
  rcases refused_or_ensure (s := s) (task.status = .assigned) _ _ with h | ⟨hstatus, h⟩
  · exact .inl h
  rw [h]
  rcases refused_or_ensure (s := s) (task.agent = some p.agent) _ _ with h | ⟨hagent, h⟩
  · exact .inl h
  · exact .inr ⟨task, hget, hstatus, hagent, h.trans (run_bind_ok rfl)⟩

theorem run_commit (p : AgentTaskVerifierCommit) :
    Refused s ((applyAgentTaskVerifierCommit p).run s) ∨
      ∃ task, s.stateGet .agentTask p.taskId = some task ∧
        (task.status = .submitted ∨ task.status = .verifying) ∧
        (∀ c ∈ task.commits, c.verifier ≠ p.verifier) ∧ (applyAgentTaskVerifierCommit p).run s =
          (.ok (), s.stateSet .agentTask task.taskId (committed p task)) := by
  unfold applyAgentTaskVerifierCommit
  rcases refused_or_loadTask (s := s) p.taskId _ with h | ⟨task, hget, h⟩
  · exact .inl h
  rw [h]
  rcases refused_or_ensure (s := s) (task.status = .submitted ∨ task.status = .verifying) _ _ with
    h | ⟨hstatus, h⟩
  · exact .inl h
  rw [h]
  rcases refused_or_ensure (s := s) (∀ c ∈ task.commits, c.verifier ≠ p.verifier) _ _ with
    h | ⟨hnew, h⟩
  · exact .inl h
  · exact .inr ⟨task, hget, hstatus, hnew, h.trans rfl⟩

variable (env) in
theorem run_reveal (p : AgentTaskVerifierReveal) :
    Refused s ((applyAgentTaskVerifierReveal env p).run s) ∨
      ∃ task, s.stateGet .agentTask p.taskId = some task ∧ task.status = .verifying ∧
        (∃ c, task.commits.find? (·.verifier = p.verifier) = some c ∧
          c.commitHash = env.sha256Hex (p.resultHash ++ p.salt)) ∧
        (∀ r ∈ task.reveals, r.verifier ≠ p.verifier) ∧
        (applyAgentTaskVerifierReveal env p).run s =
          (.ok (), s.stateSet .agentTask task.taskId (revealed p task)) := by
  unfold applyAgentTaskVerifierReveal
  rcases refused_or_loadTask (s := s) p.taskId _ with h | ⟨task, hget, h⟩
  · exact .inl h
  rw [h]
  rcases refused_or_ensure (s := s) (task.status = .verifying) _ _ with h | ⟨hstatus, h⟩
  · exact .inl h
  rw [h]
  rcases refused_or_orBail (s := s) (task.commits.find? (·.verifier = p.verifier)) _ _ with
    h | ⟨c, hc, h⟩
  · exact .inl h
  rw [h]
  rcases refused_or_ensure (s := s) (c.commitHash = env.sha256Hex (p.resultHash ++ p.salt)) _ _ with
    h | ⟨hhash, h⟩
  · exact .inl h
  rw [h]
  rcases refused_or_ensure (s := s) (∀ r ∈ task.reveals, r.verifier ≠ p.verifier) _ _ with
    h | ⟨hnew, h⟩
  · exact .inl h
  · exact .inr ⟨task, hget, hstatus, ⟨c, hc, hhash⟩, hnew, h.trans rfl⟩

end Specs

/-! ## Settling and sweeping -/

/-- A record and the closed record it becomes. -/
inductive Closes (task : AgentTask) : AgentTask → Prop where
  | settled (hready : task.settleable = true) : Closes task { task with status := .settled }
  | expired (hopen : task.closed = false) :
      Closes task { task with status := .expired, maxFee := 0 }

theorem Closes.of_open {task task' : AgentTask} (h : Closes task task') :
    task.closed = false ∧ task'.closed = true := by
  cases h with
  | settled hready => simp [AgentTask.closed, (settleable_iff.1 hready).1]
  | expired hopen => exact ⟨hopen, rfl⟩

/-- Tasks are stored under their own id. -/
def Keyed (s : Chain) : Prop :=
  ∀ key task, s.stateGet .agentTask key = some task → task.taskId = key

/-- Some records were closed, the others are as they were. -/
def Closing (s s' : Chain) : Prop :=
  ∀ key, s'.stateGet .agentTask key = s.stateGet .agentTask key ∨
    ∃ task task', s.stateGet .agentTask key = some task ∧
      s'.stateGet .agentTask key = some task' ∧ Closes task task'

instance : IsPreorder Chain Closing where
  refl := fun _ _ => .inl rfl
  trans := by
    intro s t u h h' key
    rcases h key with hst | ⟨task, task', hs, ht, hclose⟩
    · rw [← hst]
      exact h' key
    · rcases h' key with htu | ⟨task₁, task₂, ht', -, hclose'⟩
      · exact .inr ⟨task, task', hs, htu.trans ht, hclose⟩
      · -- a closed record is not closed again
        obtain rfl : task' = task₁ := Option.some.inj (ht.symm.trans ht')
        have hopen := hclose'.of_open.1
        rw [hclose.of_open.2] at hopen
        cases hopen

section Settling

variable {s : Chain} {task : AgentTask}

/-- A payment that may fail, if there is anything to pay. -/
theorem run_tip (account : String) (n : ℕ) :
    ∃ t : Chain, (when (0 < n) (ignoreErr (credit account nativeToken n)) : Prog {} Unit).run s =
      (.ok (), t) ∧ t.state = s.state := by
  rw [run_when]
  split
  · rw [run_ignoreErr, run_credit]
    split
    · exact ⟨_, rfl, rfl⟩
    · exact ⟨s, rfl, rfl⟩
  · exact ⟨s, rfl, rfl⟩

/-- Settling a task closes its record, whatever becomes of the payments. -/
theorem run_paySettlement (task : AgentTask) (agent : String) (winners : List String)
    (agentFee perVerifier refund : ℕ) :
    ∃ t : Chain, (paySettlement task agent winners agentFee perVerifier refund).run s =
        (.ok (), t.stateSet .agentTask task.taskId { task with status := .settled }) ∧
      ∀ f, f ≠ .agentCredit → t.state f = s.state f := by
  obtain ⟨t, hrun, ht⟩ := run_tip (s := s) agent agentFee
  obtain ⟨u, hrun', hu⟩ := run_forM_of_invariant
    (fun v => (when (0 < perVerifier) (ignoreErr (credit v nativeToken perVerifier)) :
      Prog {} PUnit)) (fun _ u => u.state = s.state) (fun v _ u hu => by
        obtain ⟨u', hrun, hu'⟩ := run_tip (s := u) v perVerifier
        exact ⟨u', hrun, hu'.trans hu⟩) (l := winners) ht
  have hrefund : ∃ v : Chain, (when (0 < refund) (do
      let have_ ← inspect (getCredit task.requester)
      stateSet .agentCredit task.requester (satAdd have_ refund)) : Prog {} Unit).run u =
        (.ok (), v) ∧ ∀ f, f ≠ .agentCredit → v.state f = s.state f := by
    rw [run_when]
    split
    · refine ⟨_, rfl, fun f hf => ?_⟩
      rw [state_stateSet_of_ne _ hf, hu]
    · exact ⟨u, rfl, fun f _ => by rw [hu]⟩
  obtain ⟨v, hrun'', hv⟩ := hrefund
  unfold paySettlement
  rw [run_bind_ok hrun, run_bind_ok hrun', run_bind_ok hrun'']
  exact ⟨v, rfl, hv⟩

variable (order : Tally.HashOrder (String × ℕ))

/-- `try_settle` does nothing, panics on a task without reveals, or closes the record. -/
theorem run_settle (hget : s.stateGet .agentTask task.taskId = some task) :
    if task.settleable = false then
      (trySettle order task.taskId : Prog {} Unit).run s = (.ok (), s)
    else if task.reveals = [] then
      (trySettle order task.taskId : Prog {} Unit).run s = (.error unwrapNone, s)
    else ∃ t : Chain, (trySettle order task.taskId : Prog {} Unit).run s =
        (.ok (), t.stateSet .agentTask task.taskId { task with status := .settled }) ∧
      ∀ f, f ≠ .agentCredit → t.state f = s.state f := by
  have hrun := run_trySettle order 0 hget
  split
  · next hready =>
    rw [settlement_eq_none (.inl hready)] at hrun
    dsimp only at hrun
    rw [hrun, hready]
    rfl
  · next hready =>
    rw [Bool.not_eq_false] at hready
    split
    · next hnil =>
      rw [settlement_eq_none (.inr hnil)] at hrun
      dsimp only at hrun
      rw [hrun, hready]
      rfl
    · next hvoted =>
      obtain ⟨x, hx⟩ := settlement_of_settleable order 0 hready hvoted
      rw [hx] at hrun
      obtain ⟨t, ht, hstate⟩ := run_paySettlement (s := s) task x.entry.agent x.winners
        x.entry.feePaid x.entry.verifierCut x.refund
      exact ⟨t, hrun.trans ht, hstate⟩

/-- An overdue task is closed, unless its tally panics. -/
theorem run_expireTask {key : String}
    (hget : s.stateGet .agentTask key = some task) (hid : task.taskId = key)
    (hopen : task.closed = false) :
    if task.settleable = true ∧ task.reveals = [] then
      (expireTask order key task).run s = (.error unwrapNone, s)
    else ∃ (t : Chain) (task' : AgentTask), (expireTask order key task).run s =
        (.ok (), t.stateSet .agentTask key task') ∧ Closes task task' ∧
      ∀ f, f ≠ .agentCredit → t.state f = s.state f := by
  subst hid
  have hrefund : ∃ (t : Chain) (task' : AgentTask), (refundTask task.taskId task).run s =
      (.ok (), t.stateSet .agentTask task.taskId task') ∧ Closes task task' ∧
        ∀ f, f ≠ .agentCredit → t.state f = s.state f := by
    refine ⟨s.stateSet .agentCredit task.requester (satAdd (getCredit task.requester s)
      task.maxFee), _, rfl, .expired hopen, fun f hf => ?_⟩
    rw [state_stateSet_of_ne _ hf]
  have hsettle := run_settle order hget
  unfold expireTask settleOverdue
  by_cases hready : task.status = .verifying ∧ task.minVerifiers ≤ task.reveals.length
  · rw [if_pos hready]
    unfold trySettled
    cases hs : task.settleable with
    | false =>
      rw [hs, if_pos rfl] at hsettle
      rw [if_neg (by simp), run_bind_ok (by
        rw [run_stateGet_bind, hget]
        exact run_bind_ok hsettle), hs, run_when, if_pos rfl]
      exact hrefund
    | true =>
      rw [hs, if_neg (by simp)] at hsettle
      by_cases hnil : task.reveals = []
      · rw [if_pos hnil] at hsettle
        rw [if_pos ⟨rfl, hnil⟩]
        refine run_bind_error ?_
        rw [run_stateGet_bind, hget]
        exact run_bind_error hsettle
      · rw [if_neg hnil] at hsettle
        obtain ⟨t, ht, hstate⟩ := hsettle
        rw [if_neg (by simp [hnil])]
        refine ⟨t, _, ?_, .settled hs, hstate⟩
        rw [run_bind_ok (by
          rw [run_stateGet_bind, hget]
          exact run_bind_ok ht), hs, run_when, if_neg (by simp)]
  · have hs : task.settleable = false := by
      unfold AgentTask.settleable
      simp only [not_and, not_le] at hready
      by_cases hv : task.status = .verifying
      · simp [hready hv]
      · simp [hv]
    rw [if_neg hready, if_neg (by simp [hs]), run_bind_ok (run_pure _ _), run_when, if_pos rfl]
    exact hrefund

theorem not_closed_of_taskDue {epoch : ℕ} (h : taskDue epoch task = true) :
    task.closed = false := by
  unfold taskDue at h
  simp only [Bool.and_eq_true, Bool.not_eq_true'] at h
  exact h.1

/-- Closing one record. -/
theorem closing_stateSet {t : Chain} {key : String} {task' : AgentTask}
    (hget : s.stateGet .agentTask key = some task) (hclose : Closes task task')
    (ht : t.state .agentTask = s.state .agentTask) :
    Closing s (t.stateSet .agentTask key task') := by
  intro k
  by_cases hk : key = k
  · subst hk
    exact .inr ⟨task, task', hget, by rw [stateGet_stateSet, if_pos rfl], hclose⟩
  · left
    rw [stateGet_stateSet, if_neg hk]
    unfold Chain.stateGet
    rw [ht]

/-- A sweep closes records and does nothing else to them. -/
theorem closing_sweep (epoch : ℕ) (hkeyed : Keyed s) :
    Closing s ((sweepExpiredTasks order epoch).run s).2 := by
  unfold sweepExpiredTasks
  rw [run_stateScan_bind]
  refine along_forM_of_invariant _
    (fun rest t => (∀ r ∈ rest, r.2.taskId = r.1) ∧ Supply.Pending rest t) ?_
    ⟨fun r hr => hkeyed _ _ ((Supply.pending_scan .agentTask _ s).bound r hr),
      Supply.pending_scan .agentTask _ s⟩
  rintro r rest t ⟨hid, hpend⟩
  have hget := hpend.bound r List.mem_cons_self
  have hrest : ∀ t', (∀ k, k ≠ r.1 → t'.stateGet .agentTask k = t.stateGet .agentTask k) →
      (∀ q ∈ rest, q.2.taskId = q.1) ∧ Supply.Pending rest t' := fun t' hkeep =>
    ⟨fun q hq => hid q (List.mem_cons_of_mem _ hq), hpend.tail hkeep⟩
  rw [run_when]
  by_cases hdue : taskDue epoch r.2 = true
  · rw [if_pos hdue]
    have hrun := run_expireTask order hget (hid r List.mem_cons_self) (not_closed_of_taskDue hdue)
    split at hrun
    · rw [hrun]
      exact ⟨refl_of Closing t, fun t' ht' => by cases ht'⟩
    · obtain ⟨u, task', hrun, hclose, hstate⟩ := hrun
      rw [hrun]
      refine ⟨closing_stateSet hget hclose (hstate _ (by decide)), ?_⟩
      intro t' ht'
      cases ht'
      refine hrest _ fun k hk => ?_
      rw [stateGet_stateSet, if_neg hk.symm]
      unfold Chain.stateGet
      rw [hstate _ (by decide)]
  · rw [if_neg hdue]
    refine ⟨refl_of Closing t, ?_⟩
    intro t' ht'
    cases ht'
    exact hrest t fun _ _ => rfl

end Settling

/-! ## Any operation -/

/-- One change of an operation to a task record. -/
inductive Move (op : TaskOp) (task : AgentTask) : AgentTask → Prop where
  | assigned (p : AgentTaskAssign) (hop : op = .assign p) (h : task.status = .open)
      (hfee : p.fee ≤ task.maxFee) : Move op task (assigned p task)
  | submitted (p : AgentTaskSubmit) (hop : op = .submit p) (h : task.status = .assigned) :
      Move op task (submitted p task)
  | committed (p : AgentTaskVerifierCommit) (hop : op = .commit p)
      (h : task.status = .submitted ∨ task.status = .verifying) : Move op task (committed p task)
  | revealed (p : AgentTaskVerifierReveal) (hop : op = .reveal p)
      (h : task.status = .verifying) : Move op task (revealed p task)
  | closed {task' : AgentTask} (h : Closes task task') : Move op task task'

variable {op : TaskOp} {task task' : AgentTask}

theorem Move.taskId (h : Move op task task') :
    task'.taskId = task.taskId := by
  cases h with
  | closed h => cases h <;> rfl
  | _ => rfl

/-- Reveals are only added. -/
theorem Move.reveals (h : Move op task task') :
    task.reveals <+: task'.reveals := by
  cases h with
  | revealed p => exact List.prefix_append _ _
  | closed h => cases h <;> exact List.prefix_rfl
  | _ => exact List.prefix_rfl

/-- So are commits. -/
theorem Move.commits (h : Move op task task') :
    task.commits <+: task'.commits := by
  cases h with
  | committed p => exact List.prefix_append _ _
  | closed h => cases h <;> exact List.prefix_rfl
  | _ => exact List.prefix_rfl

theorem Move.minVerifiers (h : Move op task task') :
    task'.minVerifiers = task.minVerifiers := by
  cases h with
  | closed h => cases h <;> rfl
  | _ => rfl

/-- Only an open record moves. -/
theorem Move.not_closed (h : Move op task task') :
    task.closed = false := by
  cases h with
  | assigned p _ h => simp [AgentTask.closed, h]
  | submitted p _ h => simp [AgentTask.closed, h]
  | committed p _ h => rcases h with h | h <;> simp [AgentTask.closed, h]
  | revealed p _ h => simp [AgentTask.closed, h]
  | closed h => exact h.of_open.1

/-- The record under `key` is as it was, was posted, or moved. -/
inductive Evolves (s s' : Chain) (op : TaskOp) (key : String) : Prop where
  | same (h : s'.stateGet .agentTask key = s.stateGet .agentTask key)
  | posted (p : AgentTaskPost) (hop : op = .post p) (hkey : p.taskId = key)
      (hnone : s.stateGet .agentTask key = none)
      (h : s'.stateGet .agentTask key = some (posted p))
  | moved {task task' : AgentTask} (hget : s.stateGet .agentTask key = some task)
      (h : s'.stateGet .agentTask key = some task') (hmove : Move op task task')

section Evolving

variable {env : Env} {s s' : Chain} {op : TaskOp} {key : String} {task : AgentTask}

theorem Evolves.of_refused {r : Except Fault Unit × Chain} (h : Refused s r) :
    Evolves s r.2 op key := by
  obtain ⟨msg, rfl⟩ := h
  exact .same rfl

/-- An edit of one record. -/
theorem Evolves.of_edit {task' : AgentTask} {taskId : String} (hkeyed : Keyed s)
    (hget : s.stateGet .agentTask taskId = some task) (hmove : Move op task task') :
    Evolves s (s.stateSet .agentTask task.taskId task') op key := by
  have hid := hkeyed _ _ hget
  by_cases hkey : taskId = key
  · subst hkey
    refine .moved hget ?_ hmove
    rw [stateGet_stateSet, if_pos hid]
  · refine .same ?_
    rw [stateGet_stateSet, if_neg (by rw [hid]; exact hkey)]

theorem Evolves.of_closing (h : Closing s s') : Evolves s s' op key := by
  rcases h key with h | ⟨task, task', hget, h, hclose⟩
  · exact .same h
  · exact .moved hget h (.closed hclose)

variable (env) in
/-- What an operation can do to a record. -/
theorem evolves_run (hkeyed : Keyed s) (op : TaskOp) (key : String) :
    Evolves s (op.run env s).2 op key := by
  cases op with
  | deposit p =>
    rcases run_deposit (s := s) p with h | ⟨-, h⟩
    · exact .of_refused h
    · dsimp only [TaskOp.run]
      rw [h]
      exact .same rfl
  | withdraw p =>
    rcases run_withdraw (s := s) p with h | ⟨-, h⟩
    · exact .of_refused h
    · dsimp only [TaskOp.run]
      rw [h, run_credit]
      split <;> exact .same rfl
  | post p =>
    rcases run_post (s := s) p with h | ⟨hnone, -, h⟩
    · exact .of_refused h
    · dsimp only [TaskOp.run]
      rw [h]
      by_cases hkey : p.taskId = key
      · refine .posted p rfl hkey (hkey ▸ hnone) ?_
        rw [stateGet_stateSet, if_pos hkey]
      · refine .same ?_
        rw [stateGet_stateSet, if_neg hkey, stateGet_stateSet_of_ne _ (by decide)]
  | bid p =>
    rcases run_bid (s := s) p with h | h
    · exact .of_refused h
    · dsimp only [TaskOp.run]
      rw [h]
      exact .same rfl
  | assign p =>
    rcases run_assign (s := s) p with h | ⟨task, hget, hopen, hfee, h⟩
    · exact .of_refused h
    · dsimp only [TaskOp.run]
      rw [h]
      exact .of_edit hkeyed hget (.assigned p rfl hopen hfee)
  | submit p =>
    rcases run_submit env (s := s) p with h | ⟨task, hget, hstatus, -, h⟩
    · exact .of_refused h
    · dsimp only [TaskOp.run]
      rw [h, run_logPrefix_snd]
      exact .of_edit hkeyed hget (.submitted p rfl hstatus)
  | commit p =>
    rcases run_commit (s := s) p with h | ⟨task, hget, hstatus, -, h⟩
    · exact .of_refused h
    · dsimp only [TaskOp.run]
      rw [h]
      exact .of_edit hkeyed hget (.committed p rfl hstatus)
  | reveal p =>
    rcases run_reveal env (s := s) p with h | ⟨task, hget, hstatus, -, -, h⟩
    · exact .of_refused h
    · dsimp only [TaskOp.run]
      rw [h]
      exact .of_edit hkeyed hget (.revealed p rfl hstatus)
  | settle order taskId =>
    dsimp only [TaskOp.run]
    cases hget : s.stateGet .agentTask taskId with
    | none =>
      refine .same ?_
      unfold trySettle
      rcases refused_or_loadTask (W := {}) (s := s) taskId _ with h | ⟨task, hget', -⟩
      · obtain ⟨msg, h⟩ := h
        rw [h]
      · rw [hget] at hget'
        cases hget'
    | some task =>
      obtain rfl := hkeyed _ _ hget
      have hrun := run_settle order hget
      split at hrun
      · rw [hrun]
        exact .same rfl
      · next hready =>
        split at hrun
        · rw [hrun]
          exact .same rfl
        · obtain ⟨t, hrun, hstate⟩ := hrun
          rw [hrun]
          rw [Bool.not_eq_false] at hready
          exact .of_closing (closing_stateSet hget (.settled hready) (hstate _ (by decide)))
  | sweep order epoch => exact .of_closing (closing_sweep order epoch hkeyed)

theorem keyed_run (hkeyed : Keyed s) (op : TaskOp) : Keyed (op.run env s).2 := by
  intro key task hget
  cases evolves_run env hkeyed op key with
  | same h => exact hkeyed key task (h.symm.trans hget)
  | posted p hop hkey hnone h =>
    obtain rfl : Agents.posted p = task := Option.some.inj (h.symm.trans hget)
    exact hkey
  | moved hget' h hmove =>
    obtain rfl := Option.some.inj (h.symm.trans hget)
    rw [hmove.taskId]
    exact hkeyed key _ hget'

end Evolving

end HoneNode.Agents
