import HoneNode.Agents.Tasks

/-!
# Agents.Money — the money of the agent market

Prepaid credit comes from balances and becomes the escrow of a task; a task
that closes pays its agent and verifiers and gives the rest back as credit.
Nothing is lost on the way, and the fee of a task leaves its record once.
-/

namespace HoneNode.Agents

open Prog Within Trace

/-- Balances, prepaid credit and the fees of open tasks. -/
def money (s : Chain) : ℕ :=
  s.nativeBalances + s.escrowOf .agentCredit + s.escrowOf .agentTask

/-- The agent market from a chain on, its operations in any order. -/
def market (env : Env) (start : Chain) : Component Chain TaskOp where
  init := (· = start)
  step := fun s op => (op.run env s).2

/-- What the market may write besides balances. -/
def marketWrites : List Family := [.agentCredit, .agentTask, .agentTaskBid]

/-! ## One operation -/

/-- The fee agreed on is one the escrow covers. -/
def Covered (s : Chain) : Prop :=
  ∀ key task, s.stateGet .agentTask key = some task → task.closed = false →
    task.agreedFee ≤ task.maxFee

section Step

variable {env : Env} {s : Chain}

/-- An edit that keeps a task open keeps what it holds. -/
theorem holdings_edit {task task' : AgentTask} {key : String}
    (hget : s.stateGet .agentTask key = some task) (hopen : task.closed = false)
    (hopen' : task'.closed = false) (hfee : task'.maxFee = task.maxFee) :
    (s.stateSet .agentTask key task').holdings = s.holdings := by
  have hset := holdings_stateSet s (f := .agentTask) key task' (by decide)
  rw [escrowAt_of_get hget, escrowed_of_open hopen, escrowed_of_open hopen'] at hset
  omega

variable (env) in
/-- The whole supply is there after every operation. -/
theorem holdings_run (hkeyed : Keyed s) (hcovered : Covered s) (hcap : s.holdings < 2 ^ 64)
    (op : TaskOp) : (op.run env s).2.holdings = s.holdings := by
  have hrefused : ∀ {r : Except Fault Unit × Chain}, Refused s r → r.2.holdings = s.holdings := by
    rintro r ⟨msg, rfl⟩
    rfl
  cases op with
  | deposit p =>
    dsimp only [TaskOp.run]
    rcases run_deposit (s := s) p with h | ⟨hle, h⟩
    · exact hrefused h
    · rw [h]
      have hrow := nativeRow_balanceKey p.account
      have hbound := getBalance_add_escrowAt_le s (f := .agentCredit) p.account (by decide) hrow
      rw [escrowAt_agentCredit] at hbound
      have hdebit := holdings_debited_native (s := s) hle
      have hcredit := holdings_addCredit (s := s.debited p.account nativeToken p.amount)
        (n := p.amount) p.account (by
          have hsame : getCredit p.account (s.debited p.account nativeToken p.amount) =
            getCredit p.account s := rfl
          omega)
      dsimp only
      exact hcredit.trans hdebit
  | withdraw p =>
    dsimp only [TaskOp.run]
    rcases run_withdraw (s := s) p with h | ⟨hle, h⟩
    · exact hrefused h
    · have hset := holdings_stateSet s (f := .agentCredit) p.account
        (getCredit p.account s - p.amount) (by decide)
      rw [escrowAt_agentCredit] at hset
      simp only [escrowed] at hset
      have hrow := nativeRow_balanceKey p.account
      have hbound := getBalance_le_holdings (s.stateSet .agentCredit p.account
        (getCredit p.account s - p.amount)) hrow
      rw [h, run_credit, if_pos (by omega)]
      dsimp only
      rw [holdings_credited_native]
      omega
  | post p =>
    dsimp only [TaskOp.run]
    rcases run_post (s := s) p with h | ⟨hnone, hle, h⟩
    · exact hrefused h
    · have hset := holdings_stateSet s (f := .agentCredit) p.requester
        (getCredit p.requester s - p.maxFee) (by decide)
      rw [escrowAt_agentCredit] at hset
      simp only [escrowed] at hset
      have hput := holdings_stateSet (s.stateSet .agentCredit p.requester
        (getCredit p.requester s - p.maxFee)) (f := .agentTask) p.taskId (posted p) (by decide)
      have hempty : (s.stateSet .agentCredit p.requester
          (getCredit p.requester s - p.maxFee)).escrowAt .agentTask p.taskId = 0 := by
        unfold Chain.escrowAt
        rw [stateGet_stateSet_of_ne _ (by decide), hnone]
        rfl
      rw [hempty, escrowed_of_open (by rfl)] at hput
      have hfee : (posted p).maxFee = p.maxFee := rfl
      rw [h]
      dsimp only
      omega
  | bid p =>
    dsimp only [TaskOp.run]
    rcases run_bid (s := s) p with h | h
    · exact hrefused h
    · rw [h]
      exact holdings_stateSet_other s _ _ (by decide)
  | assign p =>
    dsimp only [TaskOp.run]
    rcases run_assign (s := s) p with h | ⟨task, hget, hopen, -, h⟩
    · exact hrefused h
    · obtain hid := hkeyed _ _ hget
      rw [h, hid]
      exact holdings_edit hget (by simp [AgentTask.closed, hopen]) (by rfl) rfl
  | submit p =>
    dsimp only [TaskOp.run]
    rcases run_submit env (s := s) p with h | ⟨task, hget, hstatus, -, h⟩
    · exact hrefused h
    · obtain hid := hkeyed _ _ hget
      rw [h, run_logPrefix_snd, hid]
      exact holdings_edit hget (by simp [AgentTask.closed, hstatus]) (by rfl) rfl
  | commit p =>
    dsimp only [TaskOp.run]
    rcases run_commit (s := s) p with h | ⟨task, hget, hstatus, -, h⟩
    · exact hrefused h
    · obtain hid := hkeyed _ _ hget
      rw [h, hid]
      refine holdings_edit hget ?_ (by rfl) rfl
      rcases hstatus with hstatus | hstatus <;> simp [AgentTask.closed, hstatus]
  | reveal p =>
    dsimp only [TaskOp.run]
    rcases run_reveal env (s := s) p with h | ⟨task, hget, hstatus, -, -, h⟩
    · exact hrefused h
    · obtain hid := hkeyed _ _ hget
      have hopen : task.closed = false := by simp [AgentTask.closed, hstatus]
      rw [h, hid]
      exact holdings_edit hget hopen hopen rfl
  | settle order taskId =>
    dsimp only [TaskOp.run]
    cases hget : s.stateGet .agentTask taskId with
    | none =>
      unfold trySettle
      rcases refused_or_loadTask (W := {}) (s := s) taskId _ with h | ⟨task, hget', -⟩
      · exact hrefused h
      · rw [hget] at hget'
        cases hget'
    | some task =>
      obtain rfl := hkeyed _ _ hget
      have hrun := run_settle order hget
      cases hready : task.settleable with
      | false =>
        rw [hready, if_pos rfl] at hrun
        rw [hrun]
      | true =>
        have hopen := (Closes.settled hready).of_open.1
        have hsettles : SettlesRow True .agentTask task.taskId s (trySettle order task.taskId) :=
          settles_trySettle order hcap hget hopen (hcovered _ _ hget hopen)
        exact hsettles.1.eq trivial
  | sweep order epoch =>
    have hsettles : Settles True s ((sweepExpiredTasks order epoch).run s).2 := by
      refine settles_sweepExpiredTasks order hcap ?_
      intro r hr hdue _ _
      have hget := (Supply.pending_scan .agentTask _ s).bound r hr
      exact ⟨(hkeyed _ _ hget).symm, hcovered _ _ hget (not_closed_of_taskDue hdue)⟩
    exact hsettles.eq trivial

variable (env) in
theorem touch_run (op : TaskOp) : Touch { f | f ∈ marketWrites } s (op.run env s).2 := by
  have hrefused : ∀ {r : Except Fault Unit × Chain}, Refused s r →
      Touch { f | f ∈ marketWrites } s r.2 := by
    rintro r ⟨msg, rfl⟩
    exact refl_of (Touch _) s
  have hset : ∀ {f : Family} (u : Chain) (key : String) (v : f.Val), f ∈ marketWrites →
      Touch { f | f ∈ marketWrites } u (u.stateSet f key v) := fun u key v hf =>
    touch_stateSet (W := { f | f ∈ marketWrites }) hf u key v
  cases op with
  | deposit p =>
    dsimp only [TaskOp.run]
    rcases run_deposit (s := s) p with h | ⟨-, h⟩
    · exact hrefused h
    · rw [h]
      exact trans_of (Touch _) (touch_setBalance s) (hset _ _ _ (by decide))
  | withdraw p =>
    dsimp only [TaskOp.run]
    rcases run_withdraw (s := s) p with h | ⟨-, h⟩
    · exact hrefused h
    · rw [h]
      exact trans_of (Touch _) (hset _ _ _ (by decide)) (touches_credit _)
  | post p =>
    dsimp only [TaskOp.run]
    rcases run_post (s := s) p with h | ⟨-, -, h⟩
    · exact hrefused h
    · rw [h]
      exact trans_of (Touch _) (hset _ _ _ (by decide)) (hset _ _ _ (by decide))
  | bid p =>
    dsimp only [TaskOp.run]
    rcases run_bid (s := s) p with h | h
    · exact hrefused h
    · rw [h]
      exact hset _ _ _ (by decide)
  | assign p =>
    dsimp only [TaskOp.run]
    rcases run_assign (s := s) p with h | ⟨task, -, -, -, h⟩
    · exact hrefused h
    · rw [h]
      exact hset _ _ _ (by decide)
  | submit p =>
    dsimp only [TaskOp.run]
    rcases run_submit env (s := s) p with h | ⟨task, -, -, -, h⟩
    · exact hrefused h
    · rw [h, run_logPrefix_snd]
      exact hset _ _ _ (by decide)
  | commit p =>
    dsimp only [TaskOp.run]
    rcases run_commit (s := s) p with h | ⟨task, -, -, -, h⟩
    · exact hrefused h
    · rw [h]
      exact hset _ _ _ (by decide)
  | reveal p =>
    dsimp only [TaskOp.run]
    rcases run_reveal env (s := s) p with h | ⟨task, -, -, -, -, h⟩
    · exact hrefused h
    · rw [h]
      exact hset _ _ _ (by decide)
  | settle order taskId =>
    exact touches_trySettle order (W := { f | f ∈ marketWrites }) (by decide) (by decide) taskId s
  | sweep order epoch =>
    exact touches_sweepExpiredTasks order epoch (W := { f | f ∈ marketWrites }) (by decide)
      (by decide) s

theorem money_run (hkeyed : Keyed s) (hcovered : Covered s) (hcap : s.holdings < 2 ^ 64)
    (op : TaskOp) : money (op.run env s).2 = money s := by
  have hhold := holdings_run env hkeyed hcovered hcap op
  have htouch := holdings_of_touch marketWrites (touch_run env (s := s) op)
  have hfamilies : escrowFamilies.filter (· ∈ marketWrites) = [.agentCredit, .agentTask] := by
    decide
  rw [hfamilies] at htouch
  simp only [List.map_cons, List.map_nil, List.sum_cons, List.sum_nil] at htouch
  unfold money
  omega

theorem covered_run (hkeyed : Keyed s) (hcovered : Covered s) (op : TaskOp) :
    Covered (op.run env s).2 := by
  intro key task hget hopen
  cases evolves_run env hkeyed op key with
  | same h => exact hcovered key task (h.symm.trans hget) hopen
  | posted p hop hkey hnone h =>
    obtain rfl : Agents.posted p = task := Option.some.inj (h.symm.trans hget)
    exact Nat.zero_le _
  | @moved task₀ task₁ hget' h hmove =>
    obtain rfl : task₁ = task := Option.some.inj (h.symm.trans hget)
    have hbefore := hcovered key task₀ hget' hmove.not_closed
    cases hmove with
    | assigned p _ _ hfee => exact hfee
    | submitted => exact hbefore
    | committed => exact hbefore
    | revealed => exact hbefore
    | closed hclose =>
      rw [hclose.of_open.2] at hopen
      cases hopen

end Step

/-! ## Runs -/

/-- The fee an accepted post of a task brought in. -/
def postedFee (id : String) : Chain × TaskOp → Option ℕ
  | (s, .post p) =>
    if p.taskId = id ∧ ((applyAgentTaskPost p).run s).1.isOk then some p.maxFee else none
  | _ => none

/-- There is an open task of that id. -/
def isOpen (s : Chain) (id : String) : Bool :=
  (s.stateGet .agentTask id).any fun task => !task.closed

/-- The fee that leaves the escrow of a task when a call closes it. -/
def releasedFee (env : Env) (id : String) : Chain × TaskOp → Option ℕ
  | (s, op) =>
    if isOpen s id ∧ ¬ isOpen (op.run env s).2 id then
      some (s.escrowAt .agentTask id - (op.run env s).2.escrowAt .agentTask id)
    else none

def postedFees (id : String) (hist : List (Chain × TaskOp)) : List ℕ :=
  hist.filterMap (postedFee id)

def releasedFees (env : Env) (id : String) (hist : List (Chain × TaskOp)) : List ℕ :=
  hist.filterMap (releasedFee env id)

/-- What the history says about one task: its fee came in once, and went out once if it is
closed. -/
def Accounted (env : Env) (hist : List (Chain × TaskOp)) (s : Chain) (id : String) : Prop :=
  match s.stateGet .agentTask id with
  | none => postedFees id hist = [] ∧ releasedFees env id hist = []
  | some task => ∃ fee, postedFees id hist = [fee] ∧
      if task.closed then releasedFees env id hist = [fee]
      else releasedFees env id hist = [] ∧ task.maxFee = fee

section Runs

variable {env : Env} {s start : Chain} {hist : List (Chain × TaskOp)} {id : String}

variable (env) in
/-- A post is accepted only where there is no task yet, and makes one. -/
theorem of_postedFee {op : TaskOp} {fee : ℕ} (h : postedFee id (s, op) = some fee) :
    s.stateGet .agentTask id = none ∧ ∃ task, (op.run env s).2.stateGet .agentTask id = some task := by
  cases op with
  | post p =>
    simp only [postedFee] at h
    split at h
    · next hok =>
      obtain ⟨rfl, hok⟩ := hok
      rcases run_post (s := s) p with hrefused | ⟨hnone, -, hrun⟩
      · obtain ⟨msg, hrun⟩ := hrefused
        rw [hrun] at hok
        cases hok
      · refine ⟨hnone, posted p, ?_⟩
        dsimp only [TaskOp.run]
        rw [hrun, stateGet_stateSet, if_pos rfl]
    · cases h
  | _ => cases h

theorem Accounted.step (hkeyed : Keyed s) (h : Accounted env hist s id) (op : TaskOp) :
    Accounted env ((s, op) :: hist) (op.run env s).2 id := by
  have hnopost : (s.stateGet .agentTask id ≠ none ∨
      (op.run env s).2.stateGet .agentTask id = s.stateGet .agentTask id) →
      postedFees id ((s, op) :: hist) = postedFees id hist := by
    intro hwhy
    unfold postedFees
    rw [List.filterMap_cons]
    cases hfee : postedFee id (s, op) with
    | none => rfl
    | some fee =>
      obtain ⟨hnone, task, htask⟩ := of_postedFee env hfee
      rcases hwhy with hwhy | hwhy
      · exact absurd hnone hwhy
      · rw [htask, hnone] at hwhy
        cases hwhy
  have hnorelease : (isOpen s id = false ∨ isOpen (op.run env s).2 id = true) →
      releasedFees env id ((s, op) :: hist) = releasedFees env id hist := by
    intro hwhy
    unfold releasedFees
    rw [List.filterMap_cons, releasedFee, if_neg (by rcases hwhy with h | h <;> simp [h])]
  cases evolves_run env hkeyed op id with
  | same hsame =>
    have hopen : isOpen s id = false ∨ isOpen (op.run env s).2 id = true := by
      unfold isOpen
      rw [hsame]
      cases (s.stateGet .agentTask id).any fun task => !task.closed <;> simp
    unfold Accounted at h ⊢
    rw [hsame, hnopost (.inr hsame), hnorelease hopen]
    exact h
  | posted p hop hkey hnone hget =>
    subst hop
    unfold Accounted at h ⊢
    rw [hnone] at h
    rw [hget, hnorelease (.inl (by simp [isOpen, hnone])), h.2]
    refine ⟨p.maxFee, ?_, rfl, rfl⟩
    have hok : ((applyAgentTaskPost p).run s).1.isOk = true := by
      rcases run_post (s := s) p with hrefused | ⟨-, -, hrun⟩
      · obtain ⟨msg, hrun⟩ := hrefused
        dsimp only [TaskOp.run] at hget
        rw [hrun, hnone] at hget
        cases hget
      · rw [hrun]
        rfl
    unfold postedFees at h ⊢
    rw [List.filterMap_cons, postedFee, if_pos ⟨hkey, hok⟩, h.1]
  | @moved task task' hget hget' hmove =>
    unfold Accounted at h ⊢
    rw [hget] at h
    rw [hget', hnopost (.inl (by simp [hget]))]
    obtain ⟨fee, hposted, hopen⟩ := h
    rw [if_neg (by simp [hmove.not_closed])] at hopen
    obtain ⟨hreleased, hfee⟩ := hopen
    refine ⟨fee, hposted, ?_⟩
    have hbefore : isOpen s id = true := by simp [isOpen, hget, hmove.not_closed]
    cases hclosed : task'.closed with
    | true =>
      have hafter : isOpen (op.run env s).2 id = false := by simp [isOpen, hget', hclosed]
      unfold releasedFees at hreleased ⊢
      rw [if_pos rfl, List.filterMap_cons, releasedFee, if_pos (by simp [hbefore, hafter]),
        escrowAt_of_get hget, escrowAt_of_get hget', escrowed_of_open hmove.not_closed,
        escrowed_of_closed hclosed, hreleased, hfee]
      rfl
    | false =>
      have hafter : isOpen (op.run env s).2 id = true := by simp [isOpen, hget', hclosed]
      rw [if_neg Bool.false_ne_true, hnorelease (.inr hafter)]
      refine ⟨hreleased, ?_⟩
      cases hmove with
      | closed hclose =>
        rw [hclose.of_open.2] at hclosed
        cases hclosed
      | _ => exact hfee

/-- What every run of the market keeps. -/
theorem kept_run (hnone : ∀ key, start.stateGet .agentTask key = none)
    (hcap : start.holdings < 2 ^ 64)
    (h : Run (market env start) (fun _ _ => True) hist s) :
    (Keyed s ∧ Covered s ∧ s.holdings = start.holdings) ∧ money s = money start ∧
      ∀ id, Accounted env hist s id := by
  induction h with
  | @start s hs =>
    obtain rfl : s = start := hs
    refine ⟨⟨?_, ?_, rfl⟩, rfl, ?_⟩
    · intro key task hget
      rw [hnone key] at hget
      cases hget
    · intro key task hget
      rw [hnone key] at hget
      cases hget
    · intro id
      unfold Accounted
      rw [hnone id]
      exact ⟨rfl, rfl⟩
  | @step hist s op _ _ ih =>
    obtain ⟨⟨hkeyed, hcovered, hhold⟩, hmoney, hids⟩ := ih
    have hcap : s.holdings < 2 ^ 64 := by omega
    refine ⟨⟨keyed_run hkeyed op, covered_run hkeyed hcovered op, ?_⟩, ?_, ?_⟩
    · exact (holdings_run _ hkeyed hcovered hcap op).trans hhold
    · exact (money_run hkeyed hcovered hcap op).trans hmoney
    · exact fun id => (hids id).step hkeyed op
  | other _ hs ih =>
    rw [show _ = _ from hs]
    exact ih

/-- In every run of the market its money is constant, and the fee of each task leaves the
escrow exactly once. -/
theorem market_conserves_money (hnone : ∀ key, start.stateGet .agentTask key = none)
    (hcap : start.holdings < 2 ^ 64)
    (h : Run (market env start) (fun _ _ => True) hist s) :
    money s = money start ∧ ∀ id, Accounted env hist s id :=
  (kept_run hnone hcap h).2

end Runs

/-! ### One task from its deposit to its settlement -/

/-- The digest of the reveal below. -/
def agentNode : Env := .digesting
  [("goodhash0000salt", "af6195424dc3d5b0e956412a4de4b4680b9e371fc15a83df21fa51f7946ace99")]

def requesterFunded : Chain := ({} : Chain).setBalance "req" nativeToken 5000

def taskLife : List TaskOp :=
  [.deposit ⟨"req", 2000, 1, 1, "req"⟩,
    .post ⟨"t1", "req", "sum", [], 1000, 1, 5, 20, 1, 2, "req"⟩,
    .bid ⟨"t1", "agent", 900, 2, 1, "agent"⟩,
    .assign ⟨"t1", "agent", 900, 3, 3, "req"⟩,
    .submit ⟨"t1", "agent", "goodhash0000", "cid", 4, 2, "agent"⟩,
    .commit ⟨"t1", "v1", agentNode.sha256Hex "goodhash0000salt", 5, 1, "v1"⟩,
    .reveal ⟨"t1", "v1", "goodhash0000", "salt", 6, 2, "v1"⟩,
    .settle .stored "t1",
    .sweep .stored 100]

/-- The settlement pays the fee out, the sweep after it does not again. -/
theorem market_conserves_money_settled :
    let M := market agentNode requesterFunded
    let hist := M.record requesterFunded taskLife []
    let s := M.exec requesterFunded taskLife
    (releasedFees agentNode "t1" hist = [1000] ∧ s.getBalance "agent" nativeToken = 810 ∧
      s.getBalance "v1" nativeToken = 90 ∧ getCredit "req" s = 1100) ∧
    money s = money requesterFunded ∧ ∀ id, Accounted agentNode hist s id := by
  intro M hist s
  refine ⟨by decide, ?_⟩
  exact market_conserves_money (fun _ => rfl) (by decide +kernel)
    ((Run.start rfl).exec (legal_true requesterFunded taskLife))

end HoneNode.Agents
