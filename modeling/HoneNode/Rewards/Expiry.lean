import HoneNode.Lib.Hex
import HoneNode.Rewards.Holdings

/-!
# Rewards.Expiry — what expires is paid back

The sweeps of an emission close records and pay out what they held. A sweep
never mints, and what it loses is the remainder of an ensemble's fee that does
not divide by the number of winners (`Settles`). This needs the payments to
fit, log lines that can be printed, and agent tasks that are stored under their
own id with a fee they can pay.
-/

namespace HoneNode

open Prog Within Supply

/-- Nothing is minted; and where `lossless` holds, nothing is lost. -/
structure Settles (lossless : Prop) (s t : Chain) : Prop where
  le : t.holdings ≤ s.holdings
  eq : lossless → t.holdings = s.holdings

instance (lossless : Prop) : IsPreorder Chain (Settles lossless) where
  refl := fun _ => ⟨le_refl _, fun _ => rfl⟩
  trans := fun _ _ _ h h' => ⟨h'.le.trans h.le, fun he => (h'.eq he).trans (h.eq he)⟩

variable {lossless : Prop}

theorem Settles.of_eq {s t : Chain} (h : t.holdings = s.holdings) :
    Settles lossless s t := ⟨h.le, fun _ => h⟩

/-! ## Walking the rows of a scan -/

/-- From `s`, the run of `m` settles the record under `key` and writes no other one of its
family. -/
def SettlesRow (lossless : Prop) (f : Family) (key : String) (s : Chain) (m : Prog {} PUnit) :
    Prop :=
  Settles lossless s (m.run s).2 ∧ ∀ k, k ≠ key → (m.run s).2.stateGet f k = s.stateGet f k

theorem settlesRow_of_unchanged {f : Family} {key : String} {s : Chain}
    {m : Prog {} PUnit} (h : (m.run s).2 = s) : SettlesRow lossless f key s m := by
  unfold SettlesRow
  rw [h]
  exact ⟨.of_eq rfl, fun _ _ => rfl⟩

/-- Each row of a scan is settled from a state where it is still bound as scanned. -/
theorem settles_rows {f : Family} {rows : List (String × f.Val)} {s : Chain}
    {body : String × f.Val → Prog {} PUnit} (hpend : Pending rows s) (hcap : s.holdings < 2 ^ 64)
    (hbody : ∀ r ∈ rows, ∀ t : Chain, t.holdings < 2 ^ 64 → t.stateGet f r.1 = some r.2 →
      SettlesRow lossless f r.1 t (body r)) :
    Settles lossless s ((rows.forM body).run s).2 := by
  refine along_forM_of_invariant body
    (fun rest t => (∀ r ∈ rest, r ∈ rows) ∧ Pending rest t ∧ t.holdings < 2 ^ 64) ?_
    ⟨fun _ h => h, hpend, hcap⟩
  rintro r rest t ⟨hsub, hpend, hcap⟩
  obtain ⟨hset, hkeep⟩ := hbody r (hsub r List.mem_cons_self) t hcap
    (hpend.bound r List.mem_cons_self)
  refine ⟨hset, ?_⟩
  intro t' hrun
  rw [hrun] at hset hkeep
  exact ⟨fun q hq => hsub q (List.mem_cons_of_mem _ hq), hpend.tail hkeep,
    lt_of_le_of_lt hset.le hcap⟩

/-- A row that is not due is left alone. -/
theorem settlesRow_when {f : Family} {lossless c : Prop} [Decidable c] {key : String} {t : Chain}
    {m : Prog {} Unit} (h : c → SettlesRow lossless f key t m) :
    SettlesRow lossless f key t (when c m) := by
  by_cases hc : c
  · unfold SettlesRow
    rw [run_when, if_pos hc]
    exact h hc
  · exact settlesRow_of_unchanged (by rw [run_when, if_neg hc])

/-- Paying out what a record held, then closing it. -/
theorem settles_close {f : Family} {key : String} {v w : f.Val} {n : ℕ}
    {s t : Chain} (hf : f ∈ escrowFamilies) (hget : s.stateGet f key = some v)
    (hhold : t.holdings = s.holdings + n) (hstate : t.state f = s.state f)
    (hle : n + escrowed f w ≤ escrowed f v) (heq : lossless → n + escrowed f w = escrowed f v) :
    Settles lossless s (t.stateSet f key w) ∧
      ∀ k, k ≠ key → (t.stateSet f key w).stateGet f k = s.stateGet f k := by
  have hset := holdings_stateSet t key w hf
  have hsame : ∀ k, t.stateGet f k = s.stateGet f k := by
    intro k
    unfold Chain.stateGet
    rw [hstate]
  have hat : t.escrowAt f key = escrowed f v := escrowAt_of_get ((hsame key).trans hget)
  refine ⟨⟨by omega, ?_⟩, ?_⟩
  · intro he
    have := heq he
    omega
  · intro k hk
    rw [stateGet_stateSet, if_neg hk.symm, hsame]

section Sweeps

variable {lossless : Prop} {s : Chain}

/-! ## Pending transfers and sessions -/

theorem settles_expirePending {r : String × PendingTransfer} (hcap : s.holdings < 2 ^ 64)
    (hget : s.stateGet .pendingTransfer r.1 = some r.2) :
    SettlesRow lossless .pendingTransfer r.1 s (expirePending r.1 r.2) := by
  have hdel := holdings_stateDelete s (f := .pendingTransfer) r.1 (by decide)
  rw [escrowAt_of_get hget, escrowed] at hdel
  have hkeep : ∀ k, k ≠ r.1 → (s.stateDelete .pendingTransfer r.1).stateGet .pendingTransfer k =
      s.stateGet .pendingTransfer k := by
    intro k hk
    rw [stateGet_stateDelete, if_neg hk.symm]
  unfold SettlesRow expirePending
  rw [run_stateDelete_bind, run_ignoreErr, run_credit]
  by_cases hrow : nativeRow (balanceKey r.2.from_ r.2.token) = true
  · rw [if_pos hrow] at hdel
    have hle := getBalance_le_holdings (s.stateDelete .pendingTransfer r.1) hrow
    rw [if_pos (by omega)]
    refine ⟨.of_eq ?_, hkeep⟩
    dsimp only
    rw [holdings_credited, if_pos hrow]
    exact hdel
  · rw [if_neg hrow, Nat.add_zero] at hdel
    split
    · refine ⟨.of_eq ?_, hkeep⟩
      dsimp only
      rw [holdings_credited, if_neg hrow, Nat.add_zero]
      exact hdel
    · exact ⟨.of_eq hdel, hkeep⟩

theorem settles_sweepExpiredPendingTransfers (hcap : s.holdings < 2 ^ 64) (epoch : ℕ) :
    Settles lossless s ((sweepExpiredPendingTransfers epoch).run s).2 :=
  settles_rows (pending_scan .pendingTransfer _ s) hcap fun _ _ _ hcap hget =>
    settlesRow_when fun _ => settles_expirePending hcap hget

theorem settles_expireSession {r : String × AgentSession} (hcap : s.holdings < 2 ^ 64)
    (hget : s.stateGet .agentSession r.1 = some r.2) :
    SettlesRow lossless .agentSession r.1 s (expireSession r.1 r.2) := by
  have hpay : PaysOut .agentSession r.1 r.2.feeEscrow (when (0 < r.2.feeEscrow)
      (ignoreErr (credit r.2.client nativeToken r.2.feeEscrow)) : Prog {} Unit) :=
    (paysOut_credit (by decide) _).ignoreErr.whenPos
  obtain ⟨t, hrun, hhold, hstate⟩ := hpay s (by
    unfold Room
    rw [escrowAt_of_get hget, escrowed]
    omega)
  unfold SettlesRow expireSession
  rw [run_bind_ok hrun, run_stateSet]
  refine settles_close (by decide) hget hhold (by rw [hstate]) ?_ ?_
  · simp [escrowed]
  · simp [escrowed]

theorem settles_sweepExpiredSessions (hcap : s.holdings < 2 ^ 64) (epoch : ℕ) :
    Settles lossless s ((sweepExpiredSessions epoch).run s).2 :=
  settles_rows (pending_scan .agentSession _ s) hcap fun _ _ _ hcap hget =>
    settlesRow_when fun _ => settles_expireSession hcap hget

/-! ## Agent tasks -/

theorem escrowAt_agentCredit (account : String) :
    s.escrowAt .agentCredit account = getCredit account s := by
  unfold Chain.escrowAt getCredit
  cases s.stateGet .agentCredit account <;> rfl

theorem satAdd_of_lt {a b : ℕ} (h : a + b < 2 ^ 64) : satAdd a b = a + b := by
  unfold satAdd u64Max
  omega

/-- Prepaid credit grows by what a task gives back. -/
theorem holdings_addCredit (account : String) {n : ℕ} (h : getCredit account s + n < 2 ^ 64) :
    (s.stateSet .agentCredit account (satAdd (getCredit account s) n)).holdings =
      s.holdings + n := by
  have hset := holdings_stateSet s (f := .agentCredit) account (satAdd (getCredit account s) n)
    (by decide)
  rw [escrowAt_agentCredit, satAdd_of_lt h] at hset
  rw [satAdd_of_lt h]
  simp only [escrowed] at hset
  omega

variable {env : Env} {task : AgentTask} {key : String} {job : EnsembleJob}
  {epoch : ℕ} (order : Tally.HashOrder (String × ℕ))

theorem escrowed_of_open (h : task.closed = false) :
    escrowed .agentTask task = task.maxFee := by
  rw [escrowed, h, if_neg Bool.false_ne_true]

theorem escrowed_of_closed (h : task.closed = true) :
    escrowed .agentTask task = 0 := by
  rw [escrowed, h, if_pos rfl]

theorem settles_refundTask (hcap : s.holdings < 2 ^ 64)
    (hget : s.stateGet .agentTask key = some task) (hopen : task.closed = false) :
    SettlesRow lossless .agentTask key s (refundTask key task) := by
  have hfee : s.escrowAt .agentTask key = task.maxFee := by
    rw [escrowAt_of_get hget, escrowed_of_open hopen]
  have hle := escrowAt_add_escrowAt_le s (f := .agentTask) key (by decide)
    (g := .agentCredit) (by decide) (by decide) task.requester
  rw [escrowAt_agentCredit] at hle
  have hcredit := holdings_addCredit (s := s) (n := task.maxFee) task.requester (by omega)
  unfold SettlesRow refundTask
  rw [run_inspect_bind, run_stateSet_bind, run_stateSet]
  refine settles_close (by decide) hget hcredit
    (state_stateSet_of_ne _ (by decide) _ _) ?_ fun _ => ?_ <;>
  rw [escrowed_of_open hopen, escrowed_of_closed rfl, Nat.add_zero]

/-- What a settlement pays out of the fee and gives back of it. -/
theorem settlement_sum {maxFee agreedFee winners agentFee perVerifier : ℕ}
    (hfee : agreedFee ≤ maxFee) (hmax : maxFee < 2 ^ 64)
    (hagent : agentFee ≤ agreedFee - satMul agreedFee 10 / 100)
    (hper : perVerifier * winners ≤ satMul agreedFee 10 / 100) :
    agentFee + perVerifier * winners +
      (maxFee - agentFee - satMul perVerifier winners) = maxFee := by
  have hcut : satMul agreedFee 10 / 100 ≤ agreedFee := by
    unfold satMul
    omega
  have hsat : satMul perVerifier winners = perVerifier * winners := by
    unfold satMul u64Max
    omega
  omega

/-- The payments of a settlement and the closing of its task. -/
def paySettlement (task : AgentTask) (agent : String) (winners : List String)
    (agentFee perVerifier refund : ℕ) : Prog {} Unit := do
  when (0 < agentFee) (ignoreErr (credit agent nativeToken agentFee))
  winners.forM fun v => when (0 < perVerifier) (ignoreErr (credit v nativeToken perVerifier))
  when (0 < refund) do
    let have_ ← inspect (getCredit task.requester)
    stateSet .agentCredit task.requester (satAdd have_ refund) agentCredit_open
  saveTask { task with status := .settled }

theorem settles_paySettlement (agent : String) (winners : List String)
    {agentFee perVerifier refund : ℕ} (hcap : s.holdings < 2 ^ 64)
    (hget : s.stateGet .agentTask task.taskId = some task) (hopen : task.closed = false)
    (hsum : agentFee + perVerifier * winners.length + refund = task.maxFee) :
    SettlesRow lossless .agentTask task.taskId s
      (paySettlement task agent winners agentFee perVerifier refund) := by
  have hat : s.escrowAt .agentTask task.taskId = task.maxFee := by
    rw [escrowAt_of_get hget, escrowed_of_open hopen]
  have hagent : PaysOut .agentTask task.taskId agentFee (when (0 < agentFee)
      (ignoreErr (credit agent nativeToken agentFee)) : Prog {} Unit) :=
    (paysOut_credit (by decide) agent).ignoreErr.whenPos
  have hwinners : PaysOut .agentTask task.taskId (perVerifier * winners.length)
      (winners.forM fun v => when (0 < perVerifier)
        (ignoreErr (credit v nativeToken perVerifier)) : Prog {} Unit) :=
    paysOut_forM fun v _ => (paysOut_credit (by decide) v).ignoreErr.whenPos
  obtain ⟨t, hrun, hhold, hstate⟩ := hagent s (by unfold Room; omega)
  have hat' : ∀ {u : Chain}, u.state = s.state →
      u.escrowAt .agentTask task.taskId = task.maxFee := by
    intro u hu
    rw [← hat]
    unfold Chain.escrowAt Chain.stateGet
    rw [hu]
  obtain ⟨u, hrun', hhold', hstate'⟩ := hwinners t (by
    have := hat' hstate
    unfold Room
    omega)
  -- what is left of the fee becomes prepaid credit
  have hrefund : ∃ v, (when (0 < refund) (do
        let have_ ← inspect (getCredit task.requester)
        stateSet .agentCredit task.requester (satAdd have_ refund)) : Prog {} Unit).run u =
        (.ok (), v) ∧ v.holdings = u.holdings + refund ∧
      v.state .agentTask = u.state .agentTask := by
    have hle := escrowAt_add_escrowAt_le u (f := .agentTask) task.taskId (by decide)
      (g := .agentCredit) (by decide) (by decide) task.requester
    have hu := hat' (hstate'.trans hstate)
    rw [escrowAt_agentCredit, hu] at hle
    rw [run_when]
    split
    · exact ⟨_, rfl, holdings_addCredit task.requester (by omega),
        state_stateSet_of_ne _ (by decide) _ _⟩
    · exact ⟨u, rfl, by omega, rfl⟩
  obtain ⟨v, hrun'', hhold'', hstate''⟩ := hrefund
  have hv : v.holdings = s.holdings + task.maxFee := by omega
  unfold SettlesRow paySettlement
  rw [run_bind_ok hrun, run_bind_ok hrun', run_bind_ok hrun'']
  refine settles_close (by decide) hget hv (by rw [hstate'', hstate', hstate]) ?_ fun _ => ?_ <;>
  rw [escrowed_of_open hopen, escrowed_of_closed rfl, Nat.add_zero]

theorem settles_trySettle
    (hcap : s.holdings < 2 ^ 64) (hget : s.stateGet .agentTask task.taskId = some task)
    (hopen : task.closed = false) (hfee : task.agreedFee ≤ task.maxFee) :
    SettlesRow lossless .agentTask task.taskId s (trySettle order task.taskId) := by
  have hload : (loadTask task.taskId : Prog {} AgentTask).run s = (.ok task, s) := by
    unfold loadTask
    rw [run_stateGet_bind, hget]
    rfl
  unfold SettlesRow trySettle
  rw [run_bind_ok hload]
  split
  · next agent agentHash _ _ =>
    split
    · exact settlesRow_of_unchanged rfl
    · dsimp only
      split
      · exact settlesRow_of_unchanged rfl
      · next winningHash _ _ =>
        refine settles_paySettlement agent _ hcap hget hopen (settlement_sum hfee ?_ ?_ ?_)
        · have := holdings_stateDelete s (f := .agentTask) task.taskId (by decide)
          rw [escrowAt_of_get hget, escrowed_of_open hopen] at this
          omega
        · split <;> omega
        · split
          · omega
          · exact Nat.div_mul_le_self _ _
  · exact settlesRow_of_unchanged rfl

/-- Without an agent or a result there is nothing to settle. -/
theorem run_trySettle_of_not_settleable
    (hget : s.stateGet .agentTask task.taskId = some task) (h : task.settleable = false)
    (hready : task.status = .verifying ∧ task.minVerifiers ≤ task.reveals.length) :
    (trySettle order task.taskId : Prog {} Unit).run s = (.ok (), s) := by
  unfold trySettle loadTask
  rw [run_bind, run_stateGet_bind, hget]
  dsimp only [orBail]
  rw [run_pure]
  dsimp only
  split
  · next agent agentHash hagent hhash =>
    unfold AgentTask.settleable at h
    simp [hready.1, hready.2, hagent, hhash] at h
  · rfl

/-- Due tasks that will be settled are stored under their own id and can pay their fee. -/
def SoundTask (epoch : ℕ) (key : String) (task : AgentTask) : Prop :=
  taskDue epoch task → task.status = .verifying → task.minVerifiers ≤ task.reveals.length →
    key = task.taskId ∧ task.agreedFee ≤ task.maxFee

instance (epoch : ℕ) (key : String) (task : AgentTask) : Decidable (SoundTask epoch key task) :=
  inferInstanceAs (Decidable (_ → _))

/-- An overdue task is settled or refunded. -/
theorem settles_expireTask (hcap : s.holdings < 2 ^ 64)
    (hget : s.stateGet .agentTask key = some task) (hdue : taskDue epoch task = true)
    (hsound : SoundTask epoch key task) :
    SettlesRow lossless .agentTask key s (expireTask order key task) := by
  have hopen : task.closed = false := by
    unfold taskDue at hdue
    simp only [Bool.and_eq_true, Bool.not_eq_true'] at hdue
    exact hdue.1
  have hrefund : SettlesRow lossless .agentTask key s (refundTask key task) :=
    settles_refundTask hcap hget hopen
  unfold SettlesRow expireTask settleOverdue
  split
  · next hready =>
    obtain ⟨rfl, hfee⟩ := hsound hdue hready.1 hready.2
    have hsettle : SettlesRow lossless .agentTask task.taskId s (trySettle order task.taskId) :=
      settles_trySettle order hcap hget hopen hfee
    unfold trySettled
    rw [run_bind, run_stateGet_bind, hget]
    dsimp only
    cases hsettleable : task.settleable with
    | false =>
      rw [run_bind_ok (run_trySettle_of_not_settleable order hget hsettleable hready)]
      exact hrefund
    | true =>
      unfold SettlesRow at hsettle
      rw [run_bind]
      cases hrun : (trySettle order task.taskId : Prog {} Unit).run s with
      | mk r t =>
        rw [hrun] at hsettle
        cases r with
        | error e => exact hsettle
        | ok u => exact hsettle
  · exact hrefund

theorem settles_sweepExpiredTasks (hcap : s.holdings < 2 ^ 64)
    (hsound : ∀ r ∈ (s.state .agentTask).scan (hasPrefix ""), SoundTask epoch r.1 r.2) :
    Settles lossless s ((sweepExpiredTasks order epoch).run s).2 :=
  settles_rows (pending_scan .agentTask _ s) hcap fun r hr _ hcap hget =>
    settlesRow_when fun hdue => settles_expireTask order hcap hget hdue (hsound r hr)

/-! ## Ensemble jobs -/

/-- The winners of a job, and what they share. -/
def EnsembleJob.winners (job : EnsembleJob) (hash : String) : List String :=
  (job.votes.filter (·.outputHash = hash)).map (·.worker)

def EnsembleJob.workerPool (job : EnsembleJob) : ℕ := wrapMul job.maxFee 7000 / 10000

/-- The id of a due job can be cut for the log line that follows its payments. -/
def SoundEnsemble (env : Env) (epoch : ℕ) (job : EnsembleJob) : Prop :=
  ensembleDue epoch job → env.info = true → isBoundary job.jobId 12 = true

instance (env : Env) (epoch : ℕ) (job : EnsembleJob) : Decidable (SoundEnsemble env epoch job) :=
  inferInstanceAs (Decidable (_ → _))

/-- The winners of a due job share their pool without a remainder. -/
def EvenEnsemble (epoch : ℕ) (job : EnsembleJob) : Prop :=
  ensembleDue epoch job → ∀ hash ∈ majorityHash job.votes,
    max (job.winners hash).length 1 ∣ job.workerPool

instance (epoch : ℕ) (job : EnsembleJob) : Decidable (EvenEnsemble epoch job) :=
  inferInstanceAs (Decidable (_ → ∀ _ ∈ majorityHash job.votes, _))

theorem workerPool_le (job : EnsembleJob) : job.workerPool ≤ job.maxFee := by
  have := Nat.mod_le (job.maxFee * 7000) (2 ^ 64)
  unfold EnsembleJob.workerPool wrapMul
  omega

theorem escrowed_of_not_voting (h : job.status ≠ .voting) :
    escrowed .ensembleJob job = 0 := by
  rw [escrowed, if_neg h]

theorem paysOut_payWorkers {f : Family} (hf : f ∈ escrowFamilies) (key : String) (n : ℕ)
    (workers : List String) : PaysOut f key (n * workers.length) (payWorkers n workers) := by
  induction workers with
  | nil => exact paysOut_pure
  | cons w rest ih =>
    rw [List.length_cons, Nat.mul_succ, Nat.add_comm]
    exact (paysOut_credit hf w).bind ih

/-- The majority is found among the votes. -/
theorem winners_ne_nil {hash : String}
    (h : majorityHash job.votes = some hash) : 0 < (job.winners hash).length := by
  unfold majorityHash at h
  have hmem := List.mem_of_find?_eq_some h
  obtain ⟨v, hv, rfl⟩ := List.mem_map.1 hmem
  refine List.length_pos_iff_exists_mem.2 ⟨v.worker, List.mem_map_of_mem ?_⟩
  exact List.mem_filter.2 ⟨hv, by simp⟩

/-- A job that is finalized pays the winners and the recycle fund. -/
theorem run_finalizeJob (hash : String) (hroom : Room .ensembleJob key job.maxFee s)
    (hlog : env.info = true → isBoundary job.jobId 12 = true) :
    ∃ t, (finalizeJob env job hash).run s =
        (.ok { job with status := .finalized, winnerOutputHash := some hash }, t) ∧
      t.holdings = s.holdings + (job.workerPool / max (job.winners hash).length 1 *
        (job.winners hash).length + (job.maxFee - job.workerPool)) ∧ t.state = s.state := by
  have hpool : job.workerPool / max (job.winners hash).length 1 * (job.winners hash).length ≤
      job.workerPool :=
    (Nat.mul_le_mul_left _ (le_max_left _ _)).trans (Nat.div_mul_le_self _ _)
  have hle := workerPool_le job
  have hpays := (paysOut_payWorkers (by decide) key
      (job.workerPool / max (job.winners hash).length 1) (job.winners hash)).bind
    (g := fun _ => (when (0 < job.maxFee - job.workerPool)
      (credit recycleFund nativeToken (job.maxFee - job.workerPool)) : Prog {} Unit))
    (paysOut_credit (f := .ensembleJob) (by decide) recycleFund).whenPos
  obtain ⟨t, hrun, hhold, hstate⟩ := hpays s (by
    unfold Room at hroom ⊢
    omega)
  refine ⟨t, ?_, hhold, hstate⟩
  obtain ⟨⟨⟩, u, hrun₁, hrun₂⟩ := run_bind_eq_ok.1 hrun
  unfold finalizeJob
  exact (run_bind_ok hrun₁).trans ((run_bind_ok hrun₂).trans (run_bind_ok (run_logPrefix_of hlog)))

theorem settles_expireEnsemble
    (hcap : s.holdings < 2 ^ 64) (hget : s.stateGet .ensembleJob key = some job)
    (hdue : ensembleDue epoch job = true) (hsound : SoundEnsemble env epoch job)
    (heven : lossless → EvenEnsemble epoch job) :
    SettlesRow lossless .ensembleJob key s (expireEnsemble env key job) := by
  have hvoting : escrowed .ensembleJob job = job.maxFee := by
    unfold ensembleDue at hdue
    simp only [Bool.and_eq_true, decide_eq_true_eq] at hdue
    rw [escrowed, if_pos hdue.1]
  have hroom : Room .ensembleJob key job.maxFee s := by
    unfold Room
    rw [escrowAt_of_get hget, hvoting]
    omega
  unfold SettlesRow expireEnsemble closeEnsemble
  cases hmajor : majorityHash job.votes with
  | some hash =>
    obtain ⟨t, hrun, hhold, hstate⟩ := run_finalizeJob hash hroom (hsound hdue)
    have hclose : (orDefault job (finalizeJob env job hash)).run s =
        (.ok { job with status := .finalized, winnerOutputHash := some hash }, t) := by
      unfold orDefault
      simp only [hrun]
    dsimp only
    rw [run_bind_ok hclose, run_stateSet]
    have hle := workerPool_le job
    refine settles_close (by decide) hget hhold (by rw [hstate]) ?_ fun he => ?_
    · rw [hvoting, escrowed_of_not_voting (by simp), Nat.add_zero]
      have hshares : job.workerPool / max (job.winners hash).length 1 *
          (job.winners hash).length ≤ job.workerPool :=
        (Nat.mul_le_mul_left _ (le_max_left _ _)).trans (Nat.div_mul_le_self _ _)
      omega
    · rw [hvoting, escrowed_of_not_voting (by simp), Nat.add_zero]
      have hdvd := heven he hdue hash hmajor
      have hone : max (job.winners hash).length 1 = (job.winners hash).length :=
        max_eq_left (winners_ne_nil hmajor)
      rw [hone] at hdvd ⊢
      rw [Nat.div_mul_cancel hdvd]
      omega
  | none =>
    have hpay : PaysOut .ensembleJob key job.maxFee
        (ignoreErr (credit job.requester nativeToken job.maxFee) : Prog {} Unit) :=
      (paysOut_credit (by decide) _).ignoreErr
    obtain ⟨t, hrun, hhold, hstate⟩ := hpay s hroom
    dsimp only
    rw [run_bind, run_bind_ok hrun, run_bind_ok (run_logPrefix_of (hsound hdue)), run_pure]
    dsimp only
    rw [run_stateSet]
    refine settles_close (by decide) hget hhold (by rw [hstate]) ?_ fun _ => ?_ <;>
    rw [hvoting, escrowed_of_not_voting (by simp), Nat.add_zero]

theorem settles_sweepExpiredEnsembles (hcap : s.holdings < 2 ^ 64)
    (hsound : ∀ r ∈ (s.state .ensembleJob).scan (hasPrefix ""), SoundEnsemble env epoch r.2)
    (heven : lossless →
      ∀ r ∈ (s.state .ensembleJob).scan (hasPrefix ""), EvenEnsemble epoch r.2) :
    Settles lossless s ((sweepExpiredEnsembles env epoch).run s).2 :=
  settles_rows (pending_scan .ensembleJob _ s) hcap fun r hr _ hcap hget =>
    settlesRow_when fun hdue =>
      settles_expireEnsemble hcap hget hdue (hsound r hr) fun he => heven he r hr

/-! ## The beacon -/

/-- The exclusive or of digests is as long as a digest. -/
theorem length_vrfBeacon (hsha : ∀ b, (env.sha256 b).length = 32)
    (commits : List VrfCommitRecord) : (vrfBeacon env commits).length = 32 := by
  unfold vrfBeacon
  refine List.foldlRecOn (motive := fun b : Bytes => b.length = 32) commits _
    List.length_replicate fun beacon h c _ => ?_
  split
  · rw [List.length_zipWith, h, hsha, min_self]
  · exact h

theorem settles_closeRound (hsha : ∀ b, (env.sha256 b).length = 32)
    {round : VrfRound} (hcap : s.holdings < 2 ^ 64)
    (hget : s.stateGet .vrfRound (vrfRoundKey epoch) = some round) :
    Settles lossless s ((closeRound env epoch round).run s).2 := by
  have hpay : PaysOut .vrfRound (vrfRoundKey epoch)
      (commitDepositHunits * (round.commits.filter fun c => !c.depositRefunded).length)
      ((round.commits.filter fun c => !c.depositRefunded).forM fun _ =>
        ignoreErr (credit recycleFund nativeToken commitDepositHunits) : Prog {} Unit) :=
    paysOut_forM fun _ _ => (paysOut_credit (by decide) _).ignoreErr
  have hheld : escrowed .vrfRound round =
      commitDepositHunits * (round.commits.filter fun c => !c.depositRefunded).length := by
    rw [escrowed, Nat.mul_comm]
  obtain ⟨t, hrun, hhold, hstate⟩ := hpay s (by
    unfold Room
    rw [escrowAt_of_get hget, hheld]
    omega)
  have hlog : ∀ commits, env.info = true →
      isBoundary (hexEncode (vrfBeacon env commits)) 16 = true := by
    intro commits _
    exact Text.isBoundary_hexEncode (by rw [length_vrfBeacon hsha]; decide)
  unfold closeRound finaliseRound
  rw [run_bind_ok hrun]
  dsimp only
  rw [run_bind, run_stateSet_bind, run_bind_ok (run_logPrefix_of (hlog _)),
    run_pure]
  dsimp only
  rw [run_stateSet]
  have hbeacon := holdings_stateSet_other t (f := .vrfLatestBeacon) ""
    (hexEncode (vrfBeacon env (round.commits.map ({ · with depositRefunded := true }))), epoch)
    (by decide)
  refine (settles_close (by decide) hget (hbeacon.trans hhold) ?_ ?_ fun _ => ?_).1
  · rw [state_stateSet_of_ne _ (by decide), hstate]
  · rw [hheld]
    simp [escrowed, List.filter_map]
  · rw [hheld]
    simp [escrowed, List.filter_map]

theorem settles_sweepBeacon (hsha : ∀ b, (env.sha256 b).length = 32) (epoch : ℕ)
    (hcap : s.holdings < 2 ^ 64) : Settles lossless s ((sweepBeacon env epoch).run s).2 := by
  unfold sweepBeacon
  rw [run_stateGet_bind]
  cases hget : s.stateGet .vrfRound (vrfRoundKey (epoch - revealWindowEpochs)) with
  | none => exact .of_eq rfl
  | some round =>
    dsimp only
    rw [run_when]
    split
    · exact settles_closeRound hsha hcap hget
    · exact .of_eq rfl

end Sweeps

/-! ## All of them -/

/-- What the sweeps of an epoch need to find in order to mint nothing. -/
structure SoundExpiry (env : Env) (epoch : ℕ) (s : Chain) : Prop where
  tasks : ∀ r ∈ (s.state .agentTask).scan (hasPrefix ""), SoundTask epoch r.1 r.2
  ensembles : ∀ r ∈ (s.state .ensembleJob).scan (hasPrefix ""), SoundEnsemble env epoch r.2

/-- No due job leaves a remainder. -/
def EvenExpiry (epoch : ℕ) (s : Chain) : Prop :=
  ∀ r ∈ (s.state .ensembleJob).scan (hasPrefix ""), EvenEnsemble epoch r.2

/-- A sequence settles when its parts do, the second from what the first leaves. -/
theorem settles_bind {lossless : Prop} {m n : Prog {} Unit} {s : Chain}
    (hm : Settles lossless s (m.run s).2)
    (hn : ∀ t, m.run s = (.ok (), t) → Settles lossless t (n.run t).2) :
    Settles lossless s ((m >>= fun _ => n).run s).2 := by
  rw [run_bind]
  cases hrun : m.run s with
  | mk r t =>
    rw [hrun] at hm
    cases r with
    | error e => exact hm
    | ok u => exact trans_of (Settles lossless) hm (hn t hrun)

theorem settles_sweepExpired {env : Env} (hsha : ∀ b, (env.sha256 b).length = 32)
    (order : Tally.HashOrder (String × ℕ)) {epoch : ℕ} {lossless : Prop} {s : Chain}
    (hcap : s.holdings < 2 ^ 64) (hsound : SoundExpiry env epoch s)
    (heven : lossless → EvenExpiry epoch s) :
    Settles lossless s ((sweepExpired env order epoch).run s).2 := by
  have hpending : Settles lossless s ((sweepExpiredPendingTransfers epoch).run s).2 :=
    settles_sweepExpiredPendingTransfers hcap epoch
  have htouch := touches_sweepExpiredPendingTransfers epoch (W := {.pendingTransfer}) rfl s
  refine settles_bind hpending fun t ht => ?_
  rw [ht] at hpending htouch
  have hcapt := lt_of_le_of_lt hpending.le hcap
  have htasks : Settles lossless t ((sweepExpiredTasks order epoch).run t).2 := by
    refine settles_sweepExpiredTasks order hcapt ?_
    rw [htouch.family .agentTask (by simp)]
    exact hsound.tasks
  have htouch' := touches_sweepExpiredTasks order epoch (W := {.agentCredit, .agentTask})
    (by simp) (by simp) t
  refine settles_bind htasks fun u hu => ?_
  rw [hu] at htasks htouch'
  have hcapu := lt_of_le_of_lt htasks.le hcapt
  have hsame : u.state .ensembleJob = s.state .ensembleJob :=
    (htouch'.family .ensembleJob (by simp)).trans (htouch.family .ensembleJob (by simp))
  have hensembles : Settles lossless u ((sweepExpiredEnsembles env epoch).run u).2 := by
    refine settles_sweepExpiredEnsembles hcapu ?_ ?_
    · rw [hsame]
      exact hsound.ensembles
    · rw [hsame]
      exact heven
  refine settles_bind hensembles fun v hv => ?_
  rw [hv] at hensembles
  have hcapv := lt_of_le_of_lt hensembles.le hcapu
  have hsessions : Settles lossless v ((sweepExpiredSessions epoch).run v).2 :=
    settles_sweepExpiredSessions hcapv epoch
  refine settles_bind hsessions fun w hw => ?_
  rw [hw] at hsessions
  exact settles_sweepBeacon hsha epoch (lt_of_le_of_lt hsessions.le hcapv)

end HoneNode
