import HoneNode.Lib.Trace
import HoneNode.Rewards.Expiry

/-!
# Sessions — the escrow of an agent session

`agent_session.rs`: a session is opened with an escrow, turns are taken over
HTTP, and what is left goes out when the session is closed by its client or
expires. A turn takes its fee out of the stored escrow and advances the turn
count by two, and closing charges the turn count once more. So a session on
which no turn was taken gives back what it was opened with, and any turn is
money that neither the client nor the recycle fund sees.
-/

namespace HoneNode.Sessions

open Entry Prog Within Trace Supply

/-! ## A turn -/

def sessionFeePerTurnHunits : ℕ := 500

def maxHistoryTurns : ℕ := 50

/-- The engine answers a model and the messages, by role, or fails. -/
abbrev Engine := String → List (String × String) → Except String String

/-- What the engine is asked. -/
def messagesOf (session : AgentSession) (userMessage : String) : List (String × String) :=
  session.systemPrompt.toList.map (fun text => ("system", text)) ++
    session.summary.toList.map (fun text => ("system", s!"[Conversation summary]: {text}")) ++
    session.history.map (fun t => (t.role, t.content)) ++ [("user", userMessage)]

/-- A line of the summary; slicing the text panics inside a character. -/
def summaryLine (t : SessionTurn) : Except Fault String :=
  let n := min t.content.utf8ByteSize 200
  if isBoundary t.content n then .ok s!"{t.role}: {Text.takeBytes t.content n}"
  else .error (.panic "byte index is not a char boundary")

/-- The older half of a history that has grown too long becomes the summary. -/
def rolled (session : AgentSession) : Except Fault AgentSession :=
  if maxHistoryTurns < session.history.length then do
    let lines ← (session.history.take (maxHistoryTurns / 2)).mapM summaryLine
    pure { session with
      summary := some ("\n".intercalate lines ++ "...")
      history := session.history.drop (maxHistoryTurns / 2) }
  else pure session

/-- The session with a message and its answer; the count is a `u32`. -/
def withTurn (session : AgentSession) (userMessage answer : String) : AgentSession :=
  { session with
    history := session.history ++ [⟨"user", userMessage, session.turnCount⟩,
      ⟨"assistant", answer, (session.turnCount + 1) % 2 ^ 32⟩]
    turnCount := (session.turnCount + 2) % 2 ^ 32 }

def executeTurn (engine : Engine) (sessionId userMessage : String) : Prog {} String := do
  let found ← stateGet .agentSession sessionId
  let session ← orBail found s!"session '{sessionId}' not found"
  ensure (session.status = .open) "session is not open"
  ensure (sessionFeePerTurnHunits ≤ session.feeEscrow) "insufficient fee escrow for another turn"
  match engine session.model (messagesOf session userMessage) with
  | .error msg => bail msg
  | .ok answer => match rolled (withTurn session userMessage answer) with
    | .error f => fail f
    | .ok session => do
      stateSet .agentSession sessionId
        { session with feeEscrow := session.feeEscrow - sessionFeePerTurnHunits }
        agentSession_open
      pure answer

/-! ## The calls -/

inductive SessionOp where
  | openSession (p : AgentSessionOpen)
  | turn (engine : Engine) (sessionId userMessage : String)
  | closeSession (p : AgentSessionClose)
  | sweep (epoch : ℕ)

def SessionOp.run (s : Chain) : SessionOp → Except Fault Unit × Chain
  | .openSession p => (applyAgentSessionOpen p).run s
  | .turn engine sessionId userMessage =>
    let r := (executeTurn engine sessionId userMessage).run s
    (r.1.map fun _ => (), r.2)
  | .closeSession p => (applyAgentSessionClose p).run s
  | .sweep epoch => (sweepExpiredSessions epoch).run s

/-- The fees that a close charges. -/
def feesUsed (session : AgentSession) : ℕ := satMul session.turnCount 500

def refundOf (session : AgentSession) : ℕ := session.feeEscrow - feesUsed session

def protocolFeeOf (session : AgentSession) : ℕ := min (feesUsed session) session.feeEscrow

/-! ## What a session was paid and pays -/

/-- The escrow that the step took for the session. -/
def paidIn (sessionId : String) (c : Chain × SessionOp) : ℕ :=
  match c.2 with
  | .openSession p =>
    if p.sessionId = sessionId ∧ (c.2.run c.1).1 = .ok () then p.feeEscrow else 0
  | _ => 0

/-- What the step gave back to the client of the session. -/
def refunded (sessionId : String) (c : Chain × SessionOp) : ℕ :=
  match c.2 with
  | .closeSession p => if p.sessionId = sessionId ∧ (c.2.run c.1).1 = .ok () then
      (c.1.stateGet .agentSession sessionId).elim 0 refundOf else 0
  | .sweep epoch => (c.1.stateGet .agentSession sessionId).elim 0 fun session =>
      if sessionDue epoch session then session.feeEscrow else 0
  | _ => 0

/-- What the step put into the recycle fund for the session. -/
def charged (sessionId : String) (c : Chain × SessionOp) : ℕ :=
  match c.2 with
  | .closeSession p => if p.sessionId = sessionId ∧ (c.2.run c.1).1 = .ok () then
      (c.1.stateGet .agentSession sessionId).elim 0 protocolFeeOf else 0
  | _ => 0

/-- The turns that the step took on the session. -/
def turned (sessionId : String) (c : Chain × SessionOp) : ℕ :=
  match c.2 with
  | .turn _ other _ => if other = sessionId ∧ (c.2.run c.1).1 = .ok () then 1 else 0
  | _ => 0

/-- A quantity summed over the steps of a run. -/
def total (f : Chain × SessionOp → ℕ) (hist : List (Chain × SessionOp)) : ℕ := (hist.map f).sum

/-- What an account paid for the session that the step opened. -/
def spent (c : Chain × SessionOp) (account : String) : ℕ :=
  match c.2 with
  | .openSession p => if p.client = account then paidIn p.sessionId c else 0
  | _ => 0

/-- What an account got from the sessions in the step. -/
def received (c : Chain × SessionOp) (account : String) : ℕ :=
  (c.1.state .agentSession).sumBy fun sessionId session =>
    (if session.client = account then refunded sessionId c else 0) +
      if recycleFund = account then charged sessionId c else 0

/-- The step moves nothing but what it takes for sessions and pays from them. -/
def Booked (c : Chain × SessionOp) : Prop :=
  ∀ account, native (c.2.run c.1).2 account + spent c account =
    native c.1 account + received c account

/-! ## One call -/

/-- What the sweep of an epoch owes an account. -/
def dueTo (epoch : ℕ) (account : String) (s : Chain) : ℕ :=
  (s.state .agentSession).sumBy fun _ session =>
    if sessionDue epoch session ∧ session.client = account then session.feeEscrow else 0

/-- No turn is executed on the session, and what is paid out fits into the balances. -/
def Untouched (sessionId : String) (s : Chain) : SessionOp → Prop
  | .openSession _ => True
  | .turn engine other userMessage => other = sessionId →
      ∀ session ∈ s.stateGet .agentSession other,
        session.status = .open → sessionFeePerTurnHunits ≤ session.feeEscrow →
          (engine session.model (messagesOf session userMessage)).isOk = false
  | .closeSession p => ∀ session ∈ s.stateGet .agentSession p.sessionId,
      0 < protocolFeeOf session → native s recycleFund + session.feeEscrow < 2 ^ 64
  | .sweep epoch => ∀ account, native s account + dueTo epoch account s < 2 ^ 64

structure Books where
  sessions : Kv String AgentSession
  money : String → ℕ

def booksOf (s : Chain) : Books := ⟨s.state .agentSession, native s⟩

/-- A session as an opening leaves it. -/
def openedSession (p : AgentSessionOpen) (serverPubkey : String) : AgentSession :=
  ⟨p.sessionId, p.client, p.clientPubkey, serverPubkey, p.model, p.epoch, wrapAdd p.epoch 2880, 0,
    p.feeEscrow, .open, p.systemPrompt, [], none⟩

/-- A session as a sweep leaves it. -/
def swept (epoch : ℕ) (session : AgentSession) : AgentSession :=
  if sessionDue epoch session then { session with status := .expired, feeEscrow := 0 } else session

/-- What a call does to sessions and money, and how it ends. -/
inductive Effect (s : Chain) : SessionOp → Except Fault Unit → Books → Prop where
  | refused {op : SessionOp} (f : Fault) (hop : ∀ epoch, op ≠ .sweep epoch) :
      Effect s op (.error f) (booksOf s)
  | opened {p : AgentSessionOpen} (serverPubkey : String)
      (hnew : s.stateGet .agentSession p.sessionId = none) (hle : p.feeEscrow ≤ native s p.client) :
      Effect s (.openSession p) (.ok ())
        ⟨(s.state .agentSession).put p.sessionId (openedSession p serverPubkey),
          native (s.debited p.client nativeToken p.feeEscrow)⟩
  | turned {engine : Engine} {sessionId userMessage : String} {session after : AgentSession}
      (hget : s.stateGet .agentSession sessionId = some session) (hopen : session.status = .open)
      (hfee : sessionFeePerTurnHunits ≤ session.feeEscrow)
      (hanswer : (engine session.model (messagesOf session userMessage)).isOk = true) :
      Effect s (.turn engine sessionId userMessage) (.ok ())
        ⟨(s.state .agentSession).put sessionId after, native s⟩
  | closed {p : AgentSessionClose} {session : AgentSession}
      (hget : s.stateGet .agentSession p.sessionId = some session)
      (hclient : session.client = p.client) (hopen : session.status = .open) {money : String → ℕ}
      (hmoney : ∀ a, money a = native s a + (if p.client = a then refundOf session else 0) +
        if recycleFund = a then protocolFeeOf session else 0) :
      Effect s (.closeSession p) (.ok ())
        ⟨(s.state .agentSession).put p.sessionId { session with status := .closed, feeEscrow := 0 },
          money⟩
  | swept {epoch : ℕ} {b : Books}
      (hsessions : ∀ k, b.sessions.get k = ((s.state .agentSession).get k).map (swept epoch))
      (hmoney : ∀ a, b.money a = native s a + dueTo epoch a s) :
      Effect s (.sweep epoch) (.ok ()) b

section Calls

variable {s : Chain}

theorem effect_open (p : AgentSessionOpen) :
    Effect s (.openSession p) ((applyAgentSessionOpen p).run s).1
      (booksOf ((applyAgentSessionOpen p).run s).2) := by
  unfold applyAgentSessionOpen
  rw [run_stateGet_bind, run_stateGet_bind]
  by_cases hnew : (s.stateGet .agentSession p.sessionId).isNone = true
  swap
  · rw [run_bind_error (by rw [run_ensure, if_neg hnew])]
    exact .refused _ nofun
  rw [run_ensure_bind hnew]
  by_cases hle : p.feeEscrow ≤ s.getBalance p.client nativeToken
  swap
  · rw [run_bind_error (by rw [run_debit, if_neg hle])]
    exact .refused _ nofun
  rw [run_debit_bind hle, run_stateSet]
  exact .opened _ (Option.isNone_iff_eq_none.1 hnew) hle

/-- A positive amount is credited, or nothing. -/
theorem run_credit_when (account : String) (n : ℕ) (t : Chain) :
    (∃ u, (when (0 < n) (credit account nativeToken n) : Prog {} Unit).run t = (.ok (), u) ∧
      u.state = t.state ∧ ∀ a, native u a = native t a + if account = a then n else 0) ∨
    0 < n ∧ 2 ^ 64 ≤ native t account + n ∧
      ∃ f, (when (0 < n) (credit account nativeToken n) : Prog {} Unit).run t = (.error f, t) := by
  rw [run_when, run_credit]
  by_cases hn : 0 < n
  · rw [if_pos hn]
    by_cases hfits : t.getBalance account nativeToken + n < 2 ^ 64
    · rw [if_pos hfits]
      exact .inl ⟨_, rfl, rfl, fun a => native_credited⟩
    · rw [if_neg hfits]
      exact .inr ⟨hn, Nat.not_lt.1 hfits, _, rfl⟩
  · rw [if_neg hn]
    refine .inl ⟨_, rfl, rfl, fun a => ?_⟩
    split <;> omega

variable {sessionId : String}

theorem effect_close {p : AgentSessionClose} (hop : Untouched sessionId s (.closeSession p)) :
    Effect s (.closeSession p) ((applyAgentSessionClose p).run s).1
      (booksOf ((applyAgentSessionClose p).run s).2) := by
  unfold applyAgentSessionClose
  rw [run_stateGet_bind]
  cases hget : s.stateGet .agentSession p.sessionId with
  | none => exact .refused _ nofun
  | some session =>
    rw [run_bind_ok (run_orBail_some _ _ _)]
    by_cases hclient : session.client = p.client
    swap
    · rw [run_bind_error (by rw [run_ensure, if_neg hclient])]
      exact .refused _ nofun
    rw [run_ensure_bind hclient]
    by_cases hopen : session.status = .open
    swap
    · rw [run_bind_error (by rw [run_ensure, if_neg hopen])]
      exact .refused _ nofun
    rw [run_ensure_bind hopen]
    dsimp only
    rcases run_credit_when p.client (session.feeEscrow - satMul session.turnCount 500) s with
      ⟨u, hrun, hstate, hmoney⟩ | ⟨-, -, f, hrun⟩
    swap
    · rw [run_bind_error hrun]
      exact .refused f nofun
    rw [run_bind_ok hrun]
    rcases run_credit_when recycleFund (min (satMul session.turnCount 500) session.feeEscrow) u with
      ⟨w, hrun', hstate', hmoney'⟩ | ⟨hpos, hover, -⟩
    swap
    · -- the refund and the fee are together what the escrow held
      have hfits := hop session hget hpos
      have hrefund := hmoney recycleFund
      have hpaid : session.feeEscrow - satMul session.turnCount 500 +
          min (satMul session.turnCount 500) session.feeEscrow = session.feeEscrow := by omega
      split at hrefund <;> omega
    rw [run_bind_ok hrun', run_stateSet]
    have hbooks : booksOf (w.stateSet .agentSession p.sessionId
        { session with status := .closed, feeEscrow := 0 }) =
        ⟨(s.state .agentSession).put p.sessionId { session with status := .closed, feeEscrow := 0 },
          native w⟩ := by
      unfold booksOf
      rw [state_stateSet_self, hstate', hstate]
      rfl
    rw [hbooks]
    refine .closed hget hclient hopen fun a => ?_
    rw [hmoney', hmoney]
    rfl

theorem effect_turn (engine : Engine) (sessionId userMessage : String) :
    Effect s (.turn engine sessionId userMessage)
      ((SessionOp.turn engine sessionId userMessage).run s).1
      (booksOf ((SessionOp.turn engine sessionId userMessage).run s).2) := by
  unfold SessionOp.run executeTurn
  dsimp only
  rw [run_stateGet_bind]
  cases hget : s.stateGet .agentSession sessionId with
  | none => exact .refused _ nofun
  | some session =>
    rw [run_bind_ok (run_orBail_some _ _ _)]
    by_cases hopen : session.status = .open
    swap
    · rw [run_bind_error (by rw [run_ensure, if_neg hopen])]
      exact .refused _ nofun
    rw [run_ensure_bind hopen]
    by_cases hfee : sessionFeePerTurnHunits ≤ session.feeEscrow
    swap
    · rw [run_bind_error (by rw [run_ensure, if_neg hfee])]
      exact .refused _ nofun
    rw [run_ensure_bind hfee]
    cases hanswer : engine session.model (messagesOf session userMessage) with
    | error msg => exact .refused _ nofun
    | ok answer =>
      dsimp only
      cases rolled (withTurn session userMessage answer) with
      | error f => exact .refused _ nofun
      | ok after =>
        dsimp only
        rw [run_stateSet_bind]
        refine .turned hget hopen hfee ?_
        rw [hanswer]
        rfl

/-- What the rows still to come owe an account. -/
def owed (epoch : ℕ) (account : String) (rows : List (String × AgentSession)) : ℕ :=
  Kv.sumList (fun _ session =>
    if sessionDue epoch session ∧ session.client = account then session.feeEscrow else 0) rows

theorem owed_cons (epoch : ℕ) (account : String) (r : String × AgentSession)
    (rest : List (String × AgentSession)) : owed epoch account (r :: rest) =
      (if sessionDue epoch r.2 ∧ r.2.client = account then r.2.feeEscrow else 0) +
        owed epoch account rest := rfl

/-- One row of the sweep. -/
theorem run_expireRow {epoch : ℕ} {r : String × AgentSession} {t : Chain}
    (hget : t.stateGet .agentSession r.1 = some r.2)
    (hfits : sessionDue epoch r.2 = true → native t r.2.client + r.2.feeEscrow < 2 ^ 64) :
    ∃ u, (when (sessionDue epoch r.2) (expireSession r.1 r.2) : Prog {} Unit).run t = (.ok (), u) ∧
      (∀ k, u.stateGet .agentSession k =
        if r.1 = k then some (swept epoch r.2) else t.stateGet .agentSession k) ∧
      ∀ a, native u a =
        native t a + if sessionDue epoch r.2 ∧ r.2.client = a then r.2.feeEscrow else 0 := by
  rw [run_when]
  by_cases hdue : sessionDue epoch r.2 = true
  swap
  · refine ⟨t, if_neg hdue, fun k => ?_, fun a => by rw [if_neg fun h => hdue h.1, Nat.add_zero]⟩
    by_cases hk : r.1 = k
    · rw [if_pos hk, ← hk, hget, swept, if_neg hdue]
    · rw [if_neg hk]
  rw [if_pos hdue]
  unfold expireSession
  have hpaid : ∃ w, (when (0 < r.2.feeEscrow)
      (ignoreErr (credit r.2.client nativeToken r.2.feeEscrow)) : Prog {} Unit).run t = (.ok (), w) ∧
      w.state = t.state ∧
      ∀ a, native w a = native t a + if r.2.client = a then r.2.feeEscrow else 0 := by
    rw [run_when, run_ignoreErr, run_credit, if_pos (hfits hdue)]
    by_cases hpos : 0 < r.2.feeEscrow
    · exact ⟨_, if_pos hpos, rfl, fun a => native_credited⟩
    · refine ⟨t, if_neg hpos, rfl, fun a => ?_⟩
      split <;> omega
  obtain ⟨w, hrun, hstate, hmoney⟩ := hpaid
  rw [run_bind_ok hrun, run_stateSet]
  refine ⟨_, rfl, fun k => ?_, fun a => ?_⟩
  · rw [stateGet_stateSet, swept, if_pos hdue]
    unfold Chain.stateGet
    rw [hstate]
  · refine (hmoney a).trans ?_
    simp only [hdue, true_and]

theorem effect_sweep {epoch : ℕ} (hop : Untouched sessionId s (.sweep epoch)) :
    Effect s (.sweep epoch) ((sweepExpiredSessions epoch).run s).1
      (booksOf ((sweepExpiredSessions epoch).run s).2) := by
  unfold sweepExpiredSessions
  rw [run_stateScan_bind]
  have hall : (s.state .agentSession).scan (hasPrefix "") = (s.state .agentSession).bindings := by
    unfold Kv.scan
    exact List.filter_eq_self.2 fun _ _ => rfl
  rw [hall]
  have hpend : Pending (f := .agentSession) (s.state .agentSession).bindings s :=
    hall ▸ pending_scan .agentSession _ s
  -- the rows done are expired, and what the others are owed is still to be paid
  obtain ⟨t, hrun, hdone, hpaid⟩ := run_forM_of_invariant
    (fun r : String × AgentSession => (when (sessionDue epoch r.2) (expireSession r.1 r.2) :
      Prog {} Unit))
    (fun rest t => (Pending (f := .agentSession) rest t ∧ ∀ k, k ∉ rest.map Prod.fst →
        t.stateGet .agentSession k = (s.stateGet .agentSession k).map (swept epoch)) ∧
      (∀ k, k ∈ rest.map Prod.fst → t.stateGet .agentSession k = s.stateGet .agentSession k) ∧
      ∀ a, native t a + owed epoch a rest = native s a + dueTo epoch a s)
    (fun r rest t h => by
      obtain ⟨⟨hpend, hdone⟩, hsame, hmoney⟩ := h
      have hget := hpend.bound r List.mem_cons_self
      obtain ⟨u, hrun, hsessions, hnative⟩ := @run_expireRow epoch _ _ hget (by
        intro hdue
        have := hmoney r.2.client
        have hle := hop r.2.client
        rw [owed_cons, if_pos ⟨hdue, rfl⟩] at this
        omega)
      have hnotin : ∀ k, k ∈ rest.map Prod.fst → r.1 ≠ k := by
        intro k hk
        obtain ⟨q, hq, rfl⟩ := List.mem_map.1 hk
        exact (List.pairwise_cons.1 hpend.distinct).1 q hq
      refine ⟨u, hrun, ⟨hpend.tail fun k hk => ?_, fun k hk => ?_⟩, fun k hk => ?_, fun a => ?_⟩
      · rw [hsessions, if_neg (Ne.symm hk)]
      · rw [hsessions]
        by_cases heq : r.1 = k
        · rw [if_pos heq, ← heq, ← hsame r.1 (by simp), hget]
          rfl
        · rw [if_neg heq]
          exact hdone k fun hmem => (List.mem_cons.1 hmem).elim (fun h => heq h.symm) hk
      · rw [hsessions, if_neg (hnotin k hk)]
        exact hsame k (List.mem_cons_of_mem _ hk)
      · have := hmoney a
        rw [owed_cons] at this
        rw [hnative]
        omega)
    ⟨⟨hpend, fun k hk => by
      have hnone : s.stateGet .agentSession k = none := by
        by_contra hsome
        obtain ⟨session, hget⟩ := Option.ne_none_iff_exists'.1 hsome
        exact hk (List.mem_map.2 ⟨(k, session),
          (Kv.lookup_eq_some_iff (s.state .agentSession).sorted).1 hget, rfl⟩)
      rw [hnone]
      rfl⟩, fun _ _ => rfl, fun _ => rfl⟩
  rw [hrun]
  refine .swept (fun k => hdone.2 k List.not_mem_nil) fun a => ?_
  exact (Nat.add_zero _).symm.trans (hpaid.2 a)

theorem effect {op : SessionOp} (hop : Untouched sessionId s op) :
    Effect s op (op.run s).1 (booksOf (op.run s).2) := by
  cases op with
  | openSession p => exact effect_open p
  | turn engine other userMessage => exact effect_turn engine other userMessage
  | closeSession p => exact effect_close hop
  | sweep epoch => exact effect_sweep hop

end Calls

/-! ## The accounts of one step -/

section Accounts

variable {s : Chain} {op : SessionOp}

/-- A call that is refused is paid nothing and pays nothing. -/
theorem accounts_refused (sessionId : String) {f : Fault} (hres : (op.run s).1 = .error f)
    (hop : ∀ epoch, op ≠ .sweep epoch) :
    paidIn sessionId (s, op) = 0 ∧ refunded sessionId (s, op) = 0 ∧
      charged sessionId (s, op) = 0 ∧ turned sessionId (s, op) = 0 := by
  cases op with
  | openSession p => simp [paidIn, refunded, charged, turned, hres]
  | turn engine other userMessage => simp [paidIn, refunded, charged, turned, hres]
  | closeSession p => simp [paidIn, refunded, charged, turned, hres]
  | sweep epoch => exact absurd rfl (hop epoch)

theorem received_eq_zero {account : String} (h : ∀ sessionId, refunded sessionId (s, op) = 0 ∧
    charged sessionId (s, op) = 0) : received (s, op) account = 0 := by
  refine Kv.sumBy_eq_zero fun sessionId session _ => ?_
  rw [(h sessionId).1, (h sessionId).2, ite_self, ite_self]

/-- Money moves as the accounts say. -/
theorem booked {sessionId : String} (hop : Untouched sessionId s op) : Booked (s, op) := by
  intro account
  have heffect := effect hop
  have hbooks : native (op.run s).2 account = (booksOf (op.run s).2).money account := rfl
  dsimp only
  rw [hbooks]
  clear hbooks
  generalize hres : (op.run s).1 = res at heffect
  generalize booksOf (op.run s).2 = books at heffect
  cases heffect with
  | refused f hne =>
    have hnone : spent (s, op) account = 0 := by
      cases op with
      | openSession p =>
        unfold spent
        dsimp only
        rw [(accounts_refused p.sessionId hres hne).1, ite_self]
      | _ => rfl
    rw [hnone, received_eq_zero fun other =>
      ⟨(accounts_refused other hres hne).2.1, (accounts_refused other hres hne).2.2.1⟩]
    rfl
  | @opened p serverPubkey hnew hle =>
    rw [received_eq_zero fun _ => ⟨rfl, rfl⟩]
    have hspent : spent (s, .openSession p) account =
        if p.client = account then p.feeEscrow else 0 := by
      unfold spent paidIn
      dsimp only
      rw [if_pos (And.intro rfl hres)]
    rw [hspent]
    refine (congrArg (· + _) native_debited).trans ?_
    by_cases hwho : p.client = account
    · subst hwho
      rw [if_pos rfl]
      omega
    · rw [if_neg hwho]
      rfl
  | turned => exact congrArg _ (received_eq_zero fun _ => ⟨rfl, rfl⟩).symm
  | @closed p session hget hclient _ money hmoney =>
    have hreceived : received (s, .closeSession p) account =
        (if p.client = account then refundOf session else 0) +
          if recycleFund = account then protocolFeeOf session else 0 := by
      unfold received
      rw [Kv.sumBy_eq_of_get (k := p.sessionId) (v := session) hget]
      · unfold refunded charged
        dsimp only
        rw [if_pos (And.intro rfl hres), hget, hclient, if_pos (And.intro rfl hres)]
        rfl
      · intro other row hne
        unfold refunded charged
        dsimp only
        have hother : ¬ (p.sessionId = other ∧ ((SessionOp.closeSession p).run s).1 = .ok ()) :=
          fun h => hne h.1.symm
        rw [if_neg hother, if_neg hother, ite_self, ite_self]
    rw [hreceived]
    exact (hmoney account).trans (Nat.add_assoc _ _ _)
  | @swept epoch _ _ hmoney =>
    have hreceived : received (s, .sweep epoch) account = dueTo epoch account s := by
      unfold received dueTo
      refine Kv.sumBy_congr fun sessionId session hget => ?_
      have hrow : s.stateGet .agentSession sessionId = some session := hget
      unfold refunded charged
      dsimp only
      rw [hrow, ite_self, Nat.add_zero, Option.elim_some]
      by_cases hwho : session.client = account <;> simp [hwho]
    rw [hreceived]
    exact hmoney account

/-! ## The accounts of a session -/

/-- Without turns a session is charged nothing, and holds what was paid in and not refunded. -/
structure Settled (sessionId : String) (hist : List (Chain × SessionOp))
    (found : Option AgentSession) : Prop where
  charged : total (charged sessionId) hist = 0
  turned : total (turned sessionId) hist = 0
  paid : total (paidIn sessionId) hist =
    total (refunded sessionId) hist + found.elim 0 (·.feeEscrow)
  turnCount : ∀ session ∈ found, session.turnCount = 0
  ended : ∀ session ∈ found, session.status ≠ .open → session.feeEscrow = 0

variable {sessionId : String} {hist : List (Chain × SessionOp)}

theorem total_cons (f : Chain × SessionOp → ℕ) (c : Chain × SessionOp) :
    total f (c :: hist) = f c + total f hist := List.sum_cons

/-- A step that is not about the session. -/
theorem Settled.skip {found : Option AgentSession} (h : Settled sessionId hist found)
    {c : Chain × SessionOp} (hc : paidIn sessionId c = 0 ∧ refunded sessionId c = 0 ∧
      Sessions.charged sessionId c = 0 ∧ Sessions.turned sessionId c = 0) :
    Settled sessionId (c :: hist) found where
  charged := by rw [total_cons, hc.2.2.1, h.charged]
  turned := by rw [total_cons, hc.2.2.2, h.turned]
  paid := by rw [total_cons, total_cons, hc.1, hc.2.1, Nat.zero_add, Nat.zero_add, h.paid]
  turnCount := h.turnCount
  ended := h.ended

/-- What a session that took no turn is given back is all it holds. -/
theorem refundOf_of_turnCount {session : AgentSession} (h : session.turnCount = 0) :
    refundOf session = session.feeEscrow ∧ protocolFeeOf session = 0 := by
  have hfees : feesUsed session = 0 := by
    unfold feesUsed
    rw [h]
    rfl
  unfold refundOf protocolFeeOf
  rw [hfees]
  exact ⟨rfl, Nat.zero_min _⟩

theorem settled_step (hop : Untouched sessionId s op)
    (h : Settled sessionId hist (s.stateGet .agentSession sessionId)) :
    Settled sessionId ((s, op) :: hist) ((op.run s).2.stateGet .agentSession sessionId) := by
  have heffect := effect hop
  have hbooks : (op.run s).2.stateGet .agentSession sessionId =
    (booksOf (op.run s).2).sessions.get sessionId := rfl
  rw [hbooks]
  clear hbooks
  generalize hres : (op.run s).1 = res at heffect
  generalize booksOf (op.run s).2 = books at heffect
  cases heffect with
  | refused f hne => exact h.skip (accounts_refused sessionId hres hne)
  | @opened p serverPubkey hnew hle =>
    dsimp only
    by_cases hid : p.sessionId = sessionId
    · subst hid
      rw [Kv.get_put_self]
      rw [hnew] at h
      have hpaid : paidIn p.sessionId (s, .openSession p) = p.feeEscrow :=
        if_pos (And.intro rfl hres)
      refine ⟨?_, ?_, ?_, ?_, ?_⟩
      · rw [total_cons, h.charged]
        rfl
      · rw [total_cons, h.turned]
        rfl
      · have hbefore := h.paid
        rw [Option.elim_none, Nat.add_zero] at hbefore
        rw [total_cons, total_cons, hpaid, hbefore, Nat.add_comm]
        exact congrArg (· + _) (Nat.zero_add _).symm
      · rintro session ⟨⟩
        rfl
      · rintro session ⟨⟩ hended
        exact absurd rfl hended
    · rw [Kv.get_put_of_ne _ _ hid]
      exact h.skip ⟨if_neg fun hc => hid hc.1, rfl, rfl, rfl⟩
  | @turned engine other userMessage session after hget hopen hfee hanswer =>
    dsimp only
    by_cases hid : other = sessionId
    · have hfails := hop hid session hget hopen hfee
      rw [hanswer] at hfails
      cases hfails
    · rw [Kv.get_put_of_ne _ _ hid]
      exact h.skip ⟨rfl, rfl, rfl, if_neg fun hc => hid hc.1⟩
  | @closed p session hget hclient hopen money hmoney =>
    dsimp only
    by_cases hid : p.sessionId = sessionId
    · subst hid
      rw [Kv.get_put_self]
      rw [hget] at h
      obtain ⟨hrefund, hfee⟩ := refundOf_of_turnCount (h.turnCount session rfl)
      have hrefunded : refunded p.sessionId (s, .closeSession p) = session.feeEscrow := by
        refine (if_pos (And.intro rfl hres)).trans ?_
        rw [hget]
        exact hrefund
      have hcharged : charged p.sessionId (s, .closeSession p) = 0 := by
        refine (if_pos (And.intro rfl hres)).trans ?_
        rw [hget]
        exact hfee
      refine ⟨?_, ?_, ?_, ?_, ?_⟩
      · rw [total_cons, hcharged, h.charged]
      · rw [total_cons, h.turned]
        rfl
      · rw [total_cons, total_cons, hrefunded, h.paid]
        exact (Nat.zero_add _).trans (Nat.add_comm _ _)
      · rintro closed ⟨⟩
        exact h.turnCount session rfl
      · rintro closed ⟨⟩ -
        rfl
    · rw [Kv.get_put_of_ne _ _ hid]
      exact h.skip ⟨rfl, if_neg fun hc => hid hc.1, if_neg fun hc => hid hc.1, rfl⟩
  | @swept epoch books hsessions hmoney =>
    rw [hsessions]
    change Settled _ _ ((s.stateGet .agentSession sessionId).map (swept epoch))
    cases hget : s.stateGet .agentSession sessionId with
    | none =>
      rw [hget] at h
      refine h.skip ⟨rfl, ?_, rfl, rfl⟩
      unfold refunded
      rw [hget]
      rfl
    | some session =>
      rw [hget] at h
      by_cases hdue : sessionDue epoch session = true
      swap
      · rw [Option.map_some, swept, if_neg hdue]
        refine h.skip ⟨rfl, ?_, rfl, rfl⟩
        unfold refunded
        rw [hget]
        exact if_neg hdue
      have hrefunded : refunded sessionId (s, .sweep epoch) = session.feeEscrow := by
        unfold refunded
        rw [hget]
        exact if_pos hdue
      rw [Option.map_some, swept, if_pos hdue]
      refine ⟨?_, ?_, ?_, ?_, ?_⟩
      · rw [total_cons, h.charged]
        rfl
      · rw [total_cons, h.turned]
        rfl
      · rw [total_cons, total_cons, hrefunded, h.paid]
        exact (Nat.zero_add _).trans (Nat.add_comm _ _)
      · rintro expired ⟨⟩
        exact h.turnCount session rfl
      · rintro expired ⟨⟩ -
        rfl

end Accounts

/-! ## Runs -/

/-- Runs that begin without the session; the rest of the node leaves sessions alone. -/
def sessions (sessionId : String) : Component Chain SessionOp where
  init s := s.stateGet .agentSession sessionId = none
  step s op := (op.run s).2
  other s s' := s'.state .agentSession = s.state .agentSession

/-- A session that is closed or expired has paid out what it was opened with, and was
charged for the turns it took. -/
def PaidOut (sessionId : String) (hist : List (Chain × SessionOp)) (s : Chain) : Prop :=
  (∀ c ∈ hist, Booked c) ∧
    ∀ session ∈ s.stateGet .agentSession sessionId, session.status ≠ .open →
      total (paidIn sessionId) hist =
          total (refunded sessionId) hist + total (charged sessionId) hist ∧
        total (charged sessionId) hist = sessionFeePerTurnHunits * total (turned sessionId) hist

/-- In every run that executes no turn on a session, the session pays out its escrow. -/
theorem untouched_session_pays_out {sessionId : String} {hist : List (Chain × SessionOp)}
    {s : Chain} (h : Run (sessions sessionId) (Untouched sessionId) hist s) :
    PaidOut sessionId hist s := by
  have hbooked : ∀ c ∈ hist, Booked c := by
    rintro ⟨t, op⟩ hmem
    exact booked (h.of_mem hmem).1
  have hsettled : Settled sessionId hist (s.stateGet .agentSession sessionId) := by
    clear hbooked
    induction h with
    | start hinit =>
      rw [show _ = none from hinit]
      exact ⟨rfl, rfl, rfl, nofun, nofun⟩
    | step op _ hop ih => exact settled_step hop ih
    | other _ hs ih =>
      rw [stateGet_of_state hs]
      exact ih
  refine ⟨hbooked, fun session hget hended => ?_⟩
  have hpaid := hsettled.paid
  rw [show _ = some session from hget, Option.elim_some, hsettled.ended session hget hended] at hpaid
  rw [hsettled.charged, hsettled.turned]
  exact ⟨hpaid, rfl⟩

/-! ### One session -/

/-- Ann has something to spend. -/
def start : Chain := Chain.setBalance {} "ann" nativeToken 5000

def opening (sessionId : String) : AgentSessionOpen :=
  ⟨sessionId, "ann", "", "m", 3000, 7, 0, "ann", none, none⟩

def leaving (sessionId : String) : AgentSessionClose := ⟨sessionId, "ann", 8, 0, "ann", none⟩

/-- An engine that says back what it was told. -/
def echo : Engine := fun _ messages => .ok ((messages.getLast?.map Prod.snd).getD "")

/-- A turn on another session does not matter. -/
theorem untouched_session_pays_out_twins : PaidOut "a"
    ((sessions "a").record start [.openSession (opening "a"), .turn echo "b" "hi",
      .closeSession (leaving "a")] [])
    ((sessions "a").exec start [.openSession (opening "a"), .turn echo "b" "hi",
      .closeSession (leaving "a")]) := by
  refine untouched_session_pays_out (.step _ (.step _ (.step _ (.start ?_) ?_) ?_) ?_)
  · rfl
  · trivial
  · exact fun hid => absurd hid (by decide)
  · unfold Untouched
    decide

/-- One turn of a session is charged two fees, and what the turn itself took is in no account. -/
theorem turned_session_loses :
    ¬ ∀ hist s, Run (sessions "a") (fun _ _ => True) hist s → PaidOut "a" hist s := by
  intro hall
  have hrun := Run.exec (.start (show (sessions "a").init start from rfl)) (legal_true start
    [.openSession (opening "a"), .turn echo "a" "hi", .closeSession (leaving "a")])
  have hpaid := (hall _ _ hrun).2
  revert hpaid
  decide

end HoneNode.Sessions
