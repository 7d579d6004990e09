import HoneNode.Apply
import HoneNode.Lib.Trace

/-!
# TonRelay — deposits that activate wallets

The relay polls the token transfers to its two addresses. A deposit of at least
the fee is marked as attempted, for good, and then handed to `handle_activation`.
The Tron watcher goes through the page from the oldest transfer and stops at the
one that was newest last time.

1. **The watchers** and `handle_activation`, as one round of each.
2. **One round** marks and hands over what its walk reaches (`attempted_consider`).
3. **Runs** hand every deposit over exactly once as long as no new deposit is at or
   behind the stop (`deposits_settled`).
-/

namespace HoneNode.TonRelay

open Trace

/-! ## The watchers -/

/-- A transfer as the API lists it; the id is `transaction_id` on Tron, `hash` on Ethereum. -/
structure Transfer where
  (id to_ from_ value blockNumber : Option String)
deriving DecidableEq

def Transfer.txId (tx : Transfer) : String := tx.id.getD ""

def Transfer.amount (tx : Transfer) : ℕ := (parseU64 (tx.value.getD "0")).getD 0

def Transfer.block (tx : Transfer) : ℕ := (parseU64 (tx.blockNumber.getD "0")).getD 0

/-- `TonRelayConfig`, as far as the watchers read it, and `to_lowercase`. -/
structure Config where
  (feeUsdt activationNanoton : ℕ)
  (tronRelayAddress ethRelayAddress account : String)
  toLowercase : String → String

/-- The arguments of `handle_activation`. -/
structure Call where
  (sourceChain fromAddress : String) (usdtReceived : ℕ) (depositTx : String)

/-- The chain, the relay's own keys in the store (`ton_relay_attempt:`, `ton_activated:`) and the
calls of `handle_activation`, latest first. -/
structure Relay where
  chain : Chain
  attempted : Kv String Unit := ∅
  activated : Kv String Unit := ∅
  calls : List Call := []

/-- The wallet a depositor registered. -/
def findPendingIntent (s : Chain) (sourceChain fromAddress : String) : Option String :=
  ((s.state .tonIntent).scan fun _ => true).findSome? fun (key, val) => do
    let (_, sourceAddress) ← splitOnce ':' key
    guard (sourceAddress = fromAddress)
    guard (val.status = "pending" ∧ val.sourceChain = some sourceChain)
    return val.tonAddress

/-- What the relay acts with: the node's epoch, and the hash the network returns for a transfer
that went out. -/
structure Outside where
  currentEpoch : ℕ
  sendBoc : Call → Option String

section Watchers

variable (env : Env) (cfg : Config) (out : Outside)

def handleActivation (call : Call) (r : Relay) : Relay :=
  let r := { r with calls := call :: r.calls }
  match findPendingIntent r.chain call.sourceChain call.fromAddress with
  | none => r
  | some tonAddress =>
    if (r.activated.get tonAddress).isSome then r
    else match out.sendBoc call with
    | none => r
    | some txHash => { r with
        activated := r.activated.put tonAddress ()
        chain := (applyEntry env out.currentEpoch (.tonWalletActivated {
          honeAccount := cfg.account, tonAddress, sourceChain := call.sourceChain
          sourceAddress := call.fromAddress, usdtReceived := call.usdtReceived
          tonSent := cfg.activationNanoton, feeUsdt := cfg.feeUsdt, txHash
          epoch := out.currentEpoch, relay := cfg.account }) r.chain).2 }

/-- A transfer to the relay of at least the fee. -/
def Deposit (relayAddress : String) (tx : Transfer) : Prop :=
  cfg.toLowercase (tx.to_.getD "") = cfg.toLowercase relayAddress ∧ cfg.feeUsdt ≤ tx.amount

instance (relayAddress : String) : DecidablePred (Deposit cfg relayAddress) := fun _ => inferInstanceAs
  (Decidable (_ ∧ _))

/-- The body of both loops. -/
def consider (sourceChain relayAddress : String) (tx : Transfer) (r : Relay) : Relay :=
  if Deposit cfg relayAddress tx then
    if (r.attempted.get tx.txId).isSome then r
    else handleActivation env cfg out ⟨sourceChain, tx.from_.getD "", tx.amount, tx.txId⟩
      { r with attempted := r.attempted.put tx.txId () }
  else r

/-- `for tx in txs.iter().rev()`. -/
def tronWalk (last : Option String) : List Transfer → Relay → Relay
  | [], r => r
  | tx :: rest, r =>
    if last = some tx.txId then r
    else tronWalk last rest (consider env cfg out "tron" cfg.tronRelayAddress tx r)

def checkTronDeposits (data : Option (List Transfer)) (r : Relay) (lastTx : Option String) :
    Relay × Option String :=
  match data with
  | none => (r, lastTx)
  | some txs => (tronWalk env cfg out lastTx txs.reverse r,
      match txs.head? with
      | some first => first.id
      | none => lastTx)

/-- `for tx in &txs`. -/
def ethWalk : List Transfer → Relay → ℕ → Relay × ℕ
  | [], r, lastBlock => (r, lastBlock)
  | tx :: rest, r, lastBlock =>
    ethWalk rest (consider env cfg out "ethereum" cfg.ethRelayAddress tx r)
      (if Deposit cfg cfg.ethRelayAddress tx then max tx.block lastBlock else lastBlock)

def checkEthDeposits (result : Option (List Transfer)) (r : Relay) (lastBlock : ℕ) : Relay × ℕ :=
  match result with
  | none => (r, lastBlock)
  | some txs => ethWalk env cfg out txs r lastBlock

end Watchers

/-! ## The component -/

/-- The transfers on both chains, oldest first, and the watchers with their cursors. -/
structure World where
  (tron eth : List Transfer)
  relay : Relay
  lastTx : Option String := none
  lastBlock : ℕ := 0

inductive Op where
  | tronArrives (txs : List Transfer)
  | ethArrives (txs : List Transfer)
  | checkTronDeposits (out : Outside)
  | checkEthDeposits (out : Outside)
  | restart

/-- The latest 20 transfers, newest first. -/
def World.tronPage (w : World) : List Transfer := w.tron.reverse.take 20

/-- All transfers from the block after the cursor. -/
def World.ethPage (w : World) : List Transfer :=
  if 0 < w.lastBlock then w.eth.filter fun tx => w.lastBlock + 1 ≤ tx.block else w.eth

section Component

variable (env : Env) (cfg : Config)

/-- A request that fails changes nothing and is no step. -/
def step (w : World) : Op → World
  | .tronArrives txs => { w with tron := w.tron ++ txs }
  | .ethArrives txs => { w with eth := w.eth ++ txs }
  | .checkTronDeposits out =>
    let (relay, lastTx) := checkTronDeposits env cfg out (some w.tronPage) w.relay w.lastTx
    { w with relay, lastTx }
  | .checkEthDeposits out =>
    let (relay, lastBlock) := checkEthDeposits env cfg out (some w.ethPage) w.relay w.lastBlock
    { w with relay, lastBlock }
  | .restart => { w with lastTx := none, lastBlock := 0 }

/-- A new relay; the rest of the node leaves its keys alone. -/
def component : Component World Op where
  init := fun w => w.relay.attempted = ∅ ∧ w.relay.calls = [] ∧ w.lastTx = none ∧ w.lastBlock = 0
  step := step env cfg
  other := fun w w' => ∃ chain, w' = { w with relay := { w.relay with chain } }

/-- The deposits a poll sees. -/
def shown (w : World) : Op → List Transfer
  | .checkTronDeposits _ => w.tronPage.filter fun tx => Deposit cfg cfg.tronRelayAddress tx
  | .checkEthDeposits _ => w.ethPage.filter fun tx => Deposit cfg cfg.ethRelayAddress tx
  | _ => []

/-- How often `handle_activation` was called for a transaction. -/
def calls (w : World) (txId : String) : ℕ := (w.relay.calls.map (·.depositTx)).count txId

/-- No deposit is handled twice, and each that some poll saw is handled. -/
structure Settled (hist : List (World × Op)) (w : World) : Prop where
  once : ∀ id, calls w id ≤ 1
  handled : ∀ c ∈ hist, ∀ tx ∈ shown cfg c.1 c.2, calls w tx.txId = 1

/-- The part of the page the Tron watcher goes through, from the oldest transfer to the one that
was newest last time. -/
def World.walked (w : World) : List Transfer :=
  w.tronPage.reverse.takeWhile fun tx => w.lastTx ≠ some tx.txId

/-- Every deposit on the page was attempted before, or the Tron watcher meets it on its way. -/
def Clear (w : World) : Op → Prop
  | .checkTronDeposits _ => ∀ tx ∈ w.tronPage, Deposit cfg cfg.tronRelayAddress tx →
      (w.relay.attempted.get tx.txId).isSome ∨
        ∃ t ∈ w.walked, Deposit cfg cfg.tronRelayAddress t ∧ t.txId = tx.txId
  | _ => True

instance (w : World) : DecidablePred (Clear cfg w)
  | .checkTronDeposits _ => inferInstanceAs (Decidable (∀ tx ∈ w.tronPage, _ → _))
  | .tronArrives _ | .ethArrives _ | .checkEthDeposits _ | .restart => .isTrue trivial

end Component

/-! ## One round -/

section Round

variable {env : Env} {cfg : Config} {out : Outside} {r : Relay} {w : World} {op : Op}
  {chain relayAddress id : String} {tx : Transfer} {txs : List Transfer}

theorem handleActivation_attempted (call : Call) :
    (handleActivation env cfg out call r).attempted = r.attempted := by
  unfold handleActivation
  dsimp only
  split
  · rfl
  · split
    · rfl
    · split <;> rfl

theorem handleActivation_calls (call : Call) :
    (handleActivation env cfg out call r).calls = call :: r.calls := by
  unfold handleActivation
  dsimp only
  split
  · rfl
  · split
    · rfl
    · split <;> rfl

/-- A transaction is attempted once it was handed over, and then once only. -/
def Marked (r : Relay) : Prop :=
  ∀ id, (r.calls.map (·.depositTx)).count id = if (r.attempted.get id).isSome then 1 else 0

theorem marked_consider (h : Marked r) : Marked (consider env cfg out chain relayAddress tx r) := by
  unfold consider
  split
  · split
    · exact h
    · next hnew =>
      intro id
      rw [handleActivation_calls, handleActivation_attempted, Kv.get_put, List.map_cons]
      dsimp only
      rw [List.count_cons, h id]
      by_cases hid : tx.txId = id
      · subst hid
        rw [if_pos rfl, if_neg hnew, beq_self_eq_true, if_pos rfl]
        rfl
      · rw [if_neg hid, beq_false_of_ne hid]
        rfl
  · exact h

theorem attempted_consider :
    ((consider env cfg out chain relayAddress tx r).attempted.get id).isSome ↔
      (r.attempted.get id).isSome ∨ (Deposit cfg relayAddress tx ∧ tx.txId = id) := by
  unfold consider
  by_cases hdep : Deposit cfg relayAddress tx
  · rw [if_pos hdep]
    split
    · next hold =>
      constructor
      · exact .inl
      · rintro (h | ⟨-, rfl⟩)
        · exact h
        · exact hold
    · rw [handleActivation_attempted, Kv.get_put]
      by_cases hid : tx.txId = id
      · rw [if_pos hid]
        exact ⟨fun _ => .inr ⟨hdep, hid⟩, fun _ => rfl⟩
      · rw [if_neg hid]
        exact ⟨.inl, fun h => h.resolve_right fun h => hid h.2⟩
  · rw [if_neg hdep]
    exact ⟨.inl, fun h => h.resolve_right fun h => hdep h.1⟩

/-- What either loop does with the transfers it gets to. -/
def considerAll (env : Env) (cfg : Config) (out : Outside) (sourceChain relayAddress : String)
    (txs : List Transfer) (r : Relay) : Relay :=
  txs.foldl (fun r tx => consider env cfg out sourceChain relayAddress tx r) r

theorem marked_considerAll (h : Marked r) :
    Marked (considerAll env cfg out chain relayAddress txs r) := by
  unfold considerAll
  induction txs generalizing r with
  | nil => exact h
  | cons tx rest ih => exact ih (marked_consider h)

theorem attempted_considerAll :
    ((considerAll env cfg out chain relayAddress txs r).attempted.get id).isSome ↔
      (r.attempted.get id).isSome ∨ ∃ t ∈ txs, Deposit cfg relayAddress t ∧ t.txId = id := by
  unfold considerAll
  induction txs generalizing r with
  | nil =>
    constructor
    · exact .inl
    · rintro (h | ⟨t, ht, -⟩)
      · exact h
      · cases ht
  | cons tx rest ih =>
    rw [List.foldl_cons, ih, attempted_consider, List.exists_mem_cons_iff, or_assoc]

theorem tronWalk_eq (last : Option String) :
    tronWalk env cfg out last txs r = considerAll env cfg out "tron" cfg.tronRelayAddress
      (txs.takeWhile fun tx => last ≠ some tx.txId) r := by
  induction txs generalizing r with
  | nil => rfl
  | cons tx rest ih =>
    unfold tronWalk
    by_cases hlast : last = some tx.txId
    · rw [if_pos hlast, List.takeWhile_cons_of_neg (by simp [hlast])]
      rfl
    · rw [if_neg hlast, List.takeWhile_cons_of_pos (by simp [hlast]), ih]
      rfl

theorem ethWalk_eq (lastBlock : ℕ) :
    (ethWalk env cfg out txs r lastBlock).1 =
      considerAll env cfg out "ethereum" cfg.ethRelayAddress txs r := by
  induction txs generalizing r lastBlock with
  | nil => rfl
  | cons tx rest ih => exact ih _

theorem step_tron_relay : (step env cfg w (.checkTronDeposits out)).relay =
    considerAll env cfg out "tron" cfg.tronRelayAddress w.walked w.relay := tronWalk_eq _

theorem step_eth_relay : (step env cfg w (.checkEthDeposits out)).relay =
    considerAll env cfg out "ethereum" cfg.ethRelayAddress w.ethPage w.relay := ethWalk_eq _

theorem marked_step (h : Marked w.relay) : Marked (step env cfg w op).relay := by
  cases op with
  | tronArrives txs => exact h
  | ethArrives txs => exact h
  | checkTronDeposits out =>
    rw [step_tron_relay]
    exact marked_considerAll h
  | checkEthDeposits out =>
    rw [step_eth_relay]
    exact marked_considerAll h
  | restart => exact h

/-- Marks stay. -/
theorem attempted_step (h : (w.relay.attempted.get id).isSome) :
    ((step env cfg w op).relay.attempted.get id).isSome := by
  cases op with
  | tronArrives txs => exact h
  | ethArrives txs => exact h
  | checkTronDeposits out =>
    rw [step_tron_relay]
    exact attempted_considerAll.2 (.inl h)
  | checkEthDeposits out =>
    rw [step_eth_relay]
    exact attempted_considerAll.2 (.inl h)
  | restart => exact h

/-- A round marks what it shows exactly when the page is clear. -/
theorem attempted_shown_iff :
    (∀ tx ∈ shown cfg w op, ((step env cfg w op).relay.attempted.get tx.txId).isSome) ↔
      Clear cfg w op := by
  cases op with
  | checkTronDeposits out =>
    rw [step_tron_relay]
    unfold shown Clear
    dsimp only
    constructor
    · intro h tx htx hdep
      exact attempted_considerAll.1 (h tx (List.mem_filter.2 ⟨htx, decide_eq_true hdep⟩))
    · intro h tx htx
      obtain ⟨htx, hdep⟩ := List.mem_filter.1 htx
      exact attempted_considerAll.2 (h tx htx (of_decide_eq_true hdep))
  | checkEthDeposits out =>
    rw [step_eth_relay]
    refine ⟨fun _ => trivial, fun _ tx htx => ?_⟩
    obtain ⟨htx, hdep⟩ := List.mem_filter.1 htx
    exact attempted_considerAll.2 (.inr ⟨tx, htx, of_decide_eq_true hdep, rfl⟩)
  | tronArrives txs => exact ⟨fun _ => trivial, fun _ _ h => absurd h List.not_mem_nil⟩
  | ethArrives txs => exact ⟨fun _ => trivial, fun _ _ h => absurd h List.not_mem_nil⟩
  | restart => exact ⟨fun _ => trivial, fun _ _ h => absurd h List.not_mem_nil⟩

end Round

/-! ## Runs -/

section Runs

variable {env : Env} {cfg : Config} {P : World → Op → Prop} {hist : List (World × Op)} {w : World}

theorem marked_of_run (h : Run (component env cfg) P hist w) : Marked w.relay := by
  refine h.invariant (I := fun w => Marked w.relay) ?_ ?_ ?_
  · rintro w ⟨hattempted, hcalls, -, -⟩ id
    rw [hattempted, hcalls]
    rfl
  · exact fun w op _ hw => marked_step hw
  · rintro w w' ⟨chain, rfl⟩ hw
    exact hw

theorem calls_eq_one_iff (h : Marked w.relay) (id : String) :
    calls w id = 1 ↔ (w.relay.attempted.get id).isSome := by
  unfold calls
  rw [h id]
  split
  · next hid => exact ⟨fun _ => hid, fun _ => rfl⟩
  · next hid => exact ⟨fun h => absurd h (by decide), fun h => absurd h hid⟩

theorem calls_le_one (h : Marked w.relay) (id : String) : calls w id ≤ 1 := by
  unfold calls
  rw [h id]
  split <;> decide

/-- While every page is clear, whatever a poll saw is marked. -/
theorem attempted_of_run (h : Run (component env cfg) (Clear cfg) hist w) :
    ∀ c ∈ hist, ∀ tx ∈ shown cfg c.1 c.2, (w.relay.attempted.get tx.txId).isSome := by
  induction h with
  | start _ => exact fun _ h => absurd h List.not_mem_nil
  | step op _ hop ih =>
    intro c hc tx htx
    rcases List.mem_cons.1 hc with rfl | hc
    · exact attempted_shown_iff.2 hop tx htx
    · exact attempted_step (ih c hc tx htx)
  | other _ hs ih =>
    obtain ⟨chain, rfl⟩ := hs
    exact ih

/-- While every page is clear, everything is settled, and stays so exactly if the next is. -/
theorem deposits_settled (h : Run (component env cfg) (Clear cfg) hist w) :
    Settled cfg hist w ∧
      ∀ op, Settled cfg ((w, op) :: hist) ((component env cfg).step w op) ↔ Clear cfg w op := by
  have hmarked := marked_of_run h
  constructor
  · exact ⟨calls_le_one hmarked,
      fun c hc tx htx => (calls_eq_one_iff hmarked _).2 (attempted_of_run h c hc tx htx)⟩
  · intro op
    have hmarked' : Marked (step env cfg w op).relay := marked_step hmarked
    constructor
    · intro hsettled
      refine (@attempted_shown_iff env _ _ _).1 fun tx htx => ?_
      exact (calls_eq_one_iff hmarked' _).1 (hsettled.handled _ List.mem_cons_self tx htx)
    · intro hclear
      have hrun := h.step op hclear
      exact ⟨calls_le_one hmarked',
        fun c hc tx htx => (calls_eq_one_iff hmarked' _).2 (attempted_of_run hrun c hc tx htx)⟩

/-- A relay for deposits of two units. -/
def relay : Config where
  feeUsdt := 2
  activationNanoton := 1
  tronRelayAddress := "T"
  ethRelayAddress := "0x1"
  account := "relay"
  toLowercase := id

def deposit (txId : String) : Transfer := ⟨txId, "T", "U", "2", none⟩

/-- An epoch in which nothing is sent out. -/
def quiet : Outside := ⟨0, fun _ => none⟩

def fresh : World := { tron := [], eth := [], relay := { chain := {} } }

/-- Two deposits, each polled before the relay is started again. -/
def restarted : List Op :=
  [.tronArrives [deposit "a"], .checkTronDeposits quiet, .restart,
    .tronArrives [deposit "b"], .checkTronDeposits quiet]

theorem deposits_settled_restarted :
    Settled relay ((component .bare relay).record fresh restarted [])
      ((component .bare relay).exec fresh restarted) :=
  (deposits_settled (Run.exec (.start ⟨rfl, rfl, rfl, rfl⟩) (by decide))).1

/-- Without the restart. -/
def overlapping : List Op :=
  [.tronArrives [deposit "a"], .checkTronDeposits quiet,
    .tronArrives [deposit "b"], .checkTronDeposits quiet, .checkTronDeposits quiet]

/-- The deposit that came between two polls is seen and never handled, however often the relay
polls again. -/
theorem deposit_missed :
    (∀ n, calls ((component .bare relay).exec fresh
      (overlapping ++ List.replicate n (.checkTronDeposits quiet))) "b" = 0) ∧
    ¬ ∀ hist w, Run (component .bare relay) (fun _ _ => True) hist w → Settled relay hist w := by
  constructor
  · intro n
    have hstill : (component .bare relay).step ((component .bare relay).exec fresh overlapping)
        (.checkTronDeposits quiet) = (component .bare relay).exec fresh overlapping := rfl
    unfold Component.exec at hstill ⊢
    rw [List.foldl_append]
    induction n with
    | zero => decide
    | succ n ih =>
      rw [List.replicate_succ, List.foldl_cons, hstill]
      exact ih
  · intro h
    have hsettled := h _ _ (Run.exec (.start (s := fresh) ⟨rfl, rfl, rfl, rfl⟩)
      (legal_true _ overlapping))
    have hcalls := hsettled.handled _ List.mem_cons_self (deposit "b") (by decide)
    revert hcalls
    decide

end Runs

end HoneNode.TonRelay
