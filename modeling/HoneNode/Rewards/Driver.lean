import HoneNode.Lib.Decimal
import HoneNode.Rewards.Frame

/-!
# Rewards.Driver — the reward driver loop

The task of `main.rs` that applies the rewards of finalized epochs: what it
keeps in memory, what it recovers from the store at start-up, and its loop cut
at every store write, so that entries can arrive and the node can crash in
between. `Node.paidOut` is a ghost: the calls made so far that apply an epoch's
rewards, oldest first.
-/

namespace HoneNode

open Prog Within

/-! ## Entropy decay -/

def livenessGraceEpochs : ℕ := 3 * 1051920
def livenessDecayDelayEpochs : ℕ := 2 * 1051920
def entropyRateDenom : ℕ := 1000000000

/-- `100 / LIVENESS_HALF_LIFE_EPOCHS * LN_2 * 10^9` in `f64`, truncated. -/
def entropyRateNum : ℕ := 32946

def undecayedAccounts : List String :=
  ["__recycle_fund__", "__testnet_fund__", "__treasury__", "shindevlin"]

def bleedOf (balance : ℕ) : ℕ :=
  min (max (satMul (balance / entropyRateDenom) entropyRateNum) 1) balance

/-- The tokens of an account with their balances (`scan_balances`). -/
def tokenBalances (account : String) (s : Chain) : List (String × ℕ) :=
  (s.balances.scan (hasPrefix (account ++ "\x00"))).map fun r =>
    (dropPrefix (account ++ "\x00") r.1, r.2)

def decayAccount (account : String) : Prog { pays := Set.univ } Unit := do
  let rows ← inspect (tokenBalances account)
  rows.forM fun r => when (r.2 ≠ 0) do
    ignoreErr (debit account r.1 (bleedOf r.2) (Set.mem_univ _))
    ignoreErr (credit recycleFund r.1 (bleedOf r.2))

/-- Bleed the balances of accounts that have been silent for long. -/
def applyEntropyDecay (currentEpoch : ℕ) : Prog { pays := Set.univ } Unit := do
  let ids ← inspect fun s => s.accounts.bindings.map (·.1)
  ids.forM fun account => do
    let alive ← stateGet .alive account
    when (account ∉ undecayedAccounts ∧
        livenessGraceEpochs + livenessDecayDelayEpochs < currentEpoch - alive.getD 0)
      (decayAccount account)

/-! ## Markers -/

def doneKey (epoch : ℕ) : String := toString epoch

def rewarded (s : Chain) (epoch : ℕ) : Bool :=
  (s.stateGet .epochFinalizedDone (doneKey epoch)).isSome

/-- A stored meta is a finalized one: only `EpochFinalize` writes them. -/
def finalized (s : Chain) (epoch : ℕ) : Bool := (s.epochs.get epoch).isSome

/-- The epochs that have a marker, read back from its key. -/
def doneEpochs (s : Chain) : List ℕ :=
  ((s.state .epochFinalizedDone).scan (hasPrefix "")).filterMap fun r =>
    parseU64 (Text.lastPiece ':' r.1)

/-- Walk up while the next epoch is marked, at most `fuel` steps. -/
def climb (done : List ℕ) : ℕ → ℕ → ℕ
  | 0, e => e
  | fuel + 1, e => if e + 1 ∈ done then climb done fuel (e + 1) else e

/-- The last epoch below the first one without a marker. -/
def highestContiguousRewarded (s : Chain) : ℕ :=
  climb (doneEpochs s) ((doneEpochs s).foldl max 0) 0

/-! ## The loop -/

/-- What the task keeps in memory. -/
structure Driver where
  lastRewarded : ℕ
  floorAligned : Bool
  skipDone : Bool
deriving DecidableEq, Repr

def Driver.start (s : Chain) : Driver := ⟨highestContiguousRewarded s, false, false⟩

/-- Where the loop stands. `paid` and `decayed` are between the writes of one epoch;
`stopped` is a task that a panic has ended. -/
inductive Phase where
  | idle
  | scanning (epoch tip : ℕ)
  | walking (epoch stop : ℕ)
  | paid (epoch stop : ℕ)
  | decayed (epoch stop : ℕ)
  | stopped
deriving DecidableEq, Repr

/-- An application of an epoch's rewards. -/
structure Payout where
  (epoch : ℕ) (sealers : List String)
deriving DecidableEq, Repr

structure Node where
  chain : Chain
  driver : Driver
  phase : Phase
  paidOut : List Payout

/-- A node before its first tick. -/
def Node.fresh (s : Chain) : Node := ⟨s, .start s, .idle, []⟩

/-- The process is gone; a new one starts on the store it left. -/
def Node.restarted (n : Node) : Node := { n with driver := .start n.chain, phase := .idle }

/-- The cold-start floor: begin at the window once the clock is past it. -/
def alignFloor (cur : ℕ) (d : Driver) : Driver :=
  if d.floorAligned = false ∧ d.lastRewarded = 0 ∧ 1 < cur - 64 then
    { d with lastRewarded := cur - 64 - 1, floorAligned := true }
  else d

/-- Apply the rewards of an epoch; one that nobody sealed recycles its block reward. -/
def payEpoch (env : Env) (orders : RewardOrders) (epoch : ℕ) (sealers : List String) :
    RewardProg Unit :=
  if sealers ≠ [] then emitEpochRewards env orders epoch sealers
  else creditIfAny recycleFund (blockRewardAt epoch)

namespace Node

variable (env : Env) (orders : RewardOrders) (n : Node)

/-- Walk from the next epoch, at most 65 of them, if the tip is past it. -/
def beginWalk (tip : ℕ) : Node :=
  if n.driver.lastRewarded < tip then
    { n with phase := .walking (n.driver.lastRewarded + 1)
                        (min tip (n.driver.lastRewarded + 1 + 64)) }
  else { n with phase := .idle }

/-- The start of a tick: align the floor, then look for a first finalized epoch if that was
not done yet, else walk. -/
def tick (depth : ℕ) : Node :=
  let d := alignFloor n.chain.currentEpoch n.driver
  let tip := n.chain.currentEpoch - depth
  if d.floorAligned = true ∧ d.skipDone = false ∧ d.lastRewarded < tip then
    { n with driver := d, phase := .scanning (d.lastRewarded + 1) tip }
  else { n with driver := d }.beginWalk tip

/-- One look of the skip-forward scan. -/
def scan (epoch tip : ℕ) : Node :=
  if finalized n.chain epoch then
    { n with driver := { n.driver with lastRewarded := epoch - 1, skipDone := true } }.beginWalk tip
  else if epoch < tip then { n with phase := .scanning (epoch + 1) tip }
  else n.beginWalk tip

/-- The walk is through with an epoch. -/
def through (epoch stop : ℕ) : Node :=
  { n with driver := { n.driver with lastRewarded := epoch },
           phase := if epoch < stop then .walking (epoch + 1) stop else .idle }

/-- One round of the walk, up to the reward writes. -/
def walk (epoch stop : ℕ) : Node :=
  if rewarded n.chain epoch then n.through epoch stop
  else match n.chain.epochs.get epoch with
    | none => { n with phase := .idle }
    | some m =>
      let out := (payEpoch env orders epoch m.sealedBy).run n.chain
      { n with chain := out.2,
               phase := match out.1 with
                 | .ok () => .paid epoch stop
                 | .error _ => .stopped,
               paidOut := n.paidOut ++ [⟨epoch, m.sealedBy⟩] }

/-- The driver up to its next store write. -/
def drive (depth : ℕ) : Node :=
  match n.phase with
  | .idle => n.tick depth
  | .scanning epoch tip => n.scan epoch tip
  | .walking epoch stop => n.walk env orders epoch stop
  | .paid epoch stop =>
    { n with chain := ((applyEntropyDecay epoch).run n.chain).2, phase := .decayed epoch stop }
  | .decayed epoch stop =>
    { n with chain := n.chain.stateSet .epochFinalizedDone (doneKey epoch) () }.through epoch stop
  | .stopped => n

/-- An epoch's rewards are begun and its marker is not written. -/
def inFlight : Bool :=
  match n.phase with
  | .paid _ _ | .decayed _ _ | .stopped => true
  | _ => false

end Node

/-! ## Runs -/

/-- What can happen to a node. `cut` is a crash between two of the writes that apply an
epoch, which leaves some store on the way. -/
inductive Event where
  | finalize (p : Entry.EpochFinalize)
  | sealed (p : Entry.EpochSeal)
  | drive (depth : ℕ)
  | crash
  | cut (left : Chain)

namespace Node

variable (env : Env) (orders : RewardOrders) (n : Node)

/-- The payout a walk is about to begin. -/
def due : List Payout :=
  match n.phase with
  | .walking epoch _ =>
    match rewarded n.chain epoch, n.chain.epochs.get epoch with
    | false, some m => [⟨epoch, m.sealedBy⟩]
    | _, _ => []
  | _ => []

/-- A cut falls into the writes of an epoch and leaves what they had written. -/
def Possible : Event → Prop
  | .sealed p => p.epoch < 2 ^ 64
  | .cut left => (n.due ≠ [] ∨ n.inFlight = true) ∧ Touch emissionWrites n.chain left
  | _ => True

def after : Event → Node
  | .finalize p => { n with chain := ((applyEpochFinalize env p).run n.chain).2 }
  | .sealed p => { n with chain := ((applyEpochSeal env p).run n.chain).2 }
  | .drive depth => n.drive env orders depth
  | .crash => n.restarted
  | .cut left => { n with chain := left, paidOut := n.paidOut ++ n.due }.restarted

/-- The epochs whose rewards were applied, in that order. -/
def epochs : List ℕ := n.paidOut.map (·.epoch)

/-- The epoch below the first one paid; before that, the one the driver starts above. -/
def floor : ℕ :=
  match n.paidOut with
  | [] => n.driver.lastRewarded
  | first :: _ => first.epoch - 1

end Node

/-- The nodes a fresh one can become by events that meet `P`. -/
inductive Node.Run (env : Env) (orders : RewardOrders) (P : Node → Event → Prop) : Node → Prop
  | fresh {s : Chain} (hdone : s.state .epochFinalizedDone = ∅) (hcur : s.currentEpoch < 2 ^ 64) :
      Run env orders P (.fresh s)
  | step {n : Node} {ev : Event} (h : Run env orders P n) (hev : n.Possible ev) (hP : P n ev) :
      Run env orders P (n.after env orders ev)

end HoneNode
