import Mathlib.Algebra.BigOperators.Group.Finset.Basic
import HoneNode.Exchange.Contract
import HoneNode.Lib.Trace

/-!
# Solidity.BridgeLock — deposits under lock

Users lock tokens or ETH; the owner refunds a failed bridging after seven days.
A deposit is recorded from the call's argument, and the answer of the token is
not looked at.

1. **The contract**: its storage, and one definition for each call.
2. **What is owed**: the deposits not refunded, token by token.
3. **Runs** in which no `transferFrom` is refused silently are sound
   (`deposits_sound`).
-/

namespace HoneNode.BridgeLock

open Function (update update_of_ne update_self)
open Option (bind_eq_some_iff map_eq_some_iff guard_eq_some')
open Exchange Trace

/-! ## The contract -/

/-- 4.2 M HONE in dreams. -/
def capDreams : ℕ := 4200000 * 100000000

def unlockTimelock : ℕ := 7 * 24 * 60 * 60

/-- What a token does when asked for a transfer: it moves the amount and returns true, or it
moves nothing and returns false or reverts. -/
inductive Reply where
  | moved | refused | reverted
deriving DecidableEq, Repr

structure PendingDeposit where
  user : Address := 0
  /-- Zero for ETH. -/
  token : Address := 0
  amount : ℕ := 0
  lockedAt : ℕ := 0
  refunded : Bool := false
deriving DecidableEq, Repr

structure Storage where
  owner : Address
  nonce : ℕ := 0
  mintedDreams : ℕ := 0
  acceptedTokens : Address → Bool
  deposits : ℕ → PendingDeposit := fun _ => {}

/-- The contract, and what it holds of each token; of ETH under the address zero. -/
structure World where
  lock : Storage
  holdings : Address → ℕ

/-- The constructor. -/
def construct (sender : Address) (initialTokens : List Address) : Option Storage := do
  guard (initialTokens.all (· ≠ 0))
  return { owner := sender, acceptedTokens := fun token => token ∈ initialTokens }

/-- The token's `transferFrom` to the contract. The returned flag is dropped. -/
def transferIn (token : Address) (amount : ℕ) (reply : Reply) (w : World) : Option World :=
  match reply with
  | .moved =>
    some { w with holdings := update w.holdings token (w.holdings token + amount) }
  | .refused => some w
  | .reverted => none

/-- The token's `transfer` from the contract; nothing moves what is not there. The returned flag
is dropped. -/
def transferOut (token : Address) (amount : ℕ) (reply : Reply) (w : World) : Option World :=
  match reply with
  | .moved =>
    if amount ≤ w.holdings token then
      some { w with holdings := update w.holdings token (w.holdings token - amount) }
    else none
  | .refused => some w
  | .reverted => none

/-- `nonce++` and the record under the new nonce. -/
def record (d : PendingDeposit) (w : World) : Option World := do
  let nonce ← addChecked w.lock.nonce 1
  let deposits := update w.lock.deposits nonce d
  return { w with lock := { w.lock with nonce, deposits } }

def lockTokens (sender token : Address) (amount : ℕ) (honeRecipient : String) (reply : Reply)
    (now : ℕ) (w : World) : Option World := do
  guard (w.lock.acceptedTokens token)
  guard (0 < amount)
  guard (3 ≤ honeRecipient.utf8ByteSize)
  guard (w.lock.mintedDreams < capDreams)
  let w ← transferIn token amount reply w
  record { user := sender, token, amount, lockedAt := now } w

def lockETH (sender : Address) (value : ℕ) (honeRecipient : String) (now : ℕ) (w : World) :
    Option World := do
  guard (0 < value)
  guard (3 ≤ honeRecipient.utf8ByteSize)
  guard (w.lock.mintedDreams < capDreams)
  let w := { w with holdings := update w.holdings 0 (w.holdings 0 + value) }
  record { user := sender, amount := value, lockedAt := now } w

def setMintedDreams (sender : Address) (newMintedDreams : ℕ) (w : World) : Option World := do
  guard (sender = w.lock.owner)
  guard (newMintedDreams ≤ capDreams)
  return { w with lock := { w.lock with mintedDreams := newMintedDreams } }

/-- `dep.refunded = true`. -/
def markRefunded (lockNonce : ℕ) (w : World) : World :=
  let dep := w.lock.deposits lockNonce
  let deposits := update w.lock.deposits lockNonce { dep with refunded := true }
  { w with lock := { w.lock with deposits } }

/-- A refund in ETH is a call that must succeed; one in a token is a `transfer`. -/
def unlockFunds (sender : Address) (lockNonce : ℕ) (reply : Reply) (now : ℕ) (w : World) :
    Option World := do
  guard (sender = w.lock.owner)
  let dep := w.lock.deposits lockNonce
  guard (dep.user ≠ 0)
  guard (dep.refunded = false)
  guard ((← addChecked dep.lockedAt unlockTimelock) ≤ now)
  guard (dep.token = 0 → reply = .moved)
  transferOut dep.token dep.amount reply (markRefunded lockNonce w)

def setAcceptedToken (sender token : Address) (accepted : Bool) (w : World) : Option World := do
  guard (sender = w.lock.owner)
  guard (token ≠ 0)
  let acceptedTokens := update w.lock.acceptedTokens token accepted
  return { w with lock := { w.lock with acceptedTokens } }

/-- A call from outside, with the answer of the token it meets and the time of its block. -/
inductive Call where
  | lockTokens (sender token : Address) (amount : ℕ) (honeRecipient : String) (reply : Reply)
      (now : ℕ)
  | lockETH (sender : Address) (value : ℕ) (honeRecipient : String) (now : ℕ)
  | setMintedDreams (sender : Address) (newMintedDreams : ℕ)
  | unlockFunds (sender : Address) (lockNonce : ℕ) (reply : Reply) (now : ℕ)
  | setAcceptedToken (sender token : Address) (accepted : Bool)

/-- What a call leaves; none if it reverts. -/
def Call.run : Call → World → Option World
  | .lockTokens sender token amount honeRecipient reply now =>
    BridgeLock.lockTokens sender token amount honeRecipient reply now
  | .lockETH sender value honeRecipient now => BridgeLock.lockETH sender value honeRecipient now
  | .setMintedDreams sender n => BridgeLock.setMintedDreams sender n
  | .unlockFunds sender lockNonce reply now => BridgeLock.unlockFunds sender lockNonce reply now
  | .setAcceptedToken sender token accepted => BridgeLock.setAcceptedToken sender token accepted

/-- The contract from its deployment on; whatever it was sent before is there. -/
def bridge : Component World Call where
  init w := ∃ sender initialTokens, construct sender initialTokens = some w.lock
  step w call := (call.run w).getD w

/-! ## What is owed -/

/-- What a deposit still claims of a token. -/
def PendingDeposit.claim (d : PendingDeposit) (token : Address) : ℕ :=
  if d.token = token ∧ d.refunded = false then d.amount else 0

/-- The amounts of all unrefunded deposits of a token. -/
def owed (s : Storage) (token : Address) : ℕ :=
  ∑ n ∈ Finset.range (s.nonce + 1), (s.deposits n).claim token

variable {w w' : World} {d : PendingDeposit} {token : Address} {hist : List (World × Call)}

/-- A refund of deposit `n` was accepted. -/
def Refunds (n : ℕ) (c : World × Call) : Prop :=
  match c.2 with
  | .unlockFunds _ lockNonce _ _ => lockNonce = n ∧ (c.2.run c.1).isSome = true
  | _ => False

instance (n : ℕ) (c : World × Call) : Decidable (Refunds n c) := by
  unfold Refunds
  split <;> infer_instance

/-- The time of a call's block. -/
def Call.time : Call → ℕ
  | .lockTokens _ _ _ _ _ now => now
  | .lockETH _ _ _ now => now
  | .unlockFunds _ _ _ now => now
  | _ => 0

/-- What the contract holds of a token after a call. -/
def after (c : World × Call) (token : Address) : ℕ := (bridge.step c.1 c.2).holdings token

/-- A call that opened deposit `n`. -/
def Opens (n : ℕ) (c : World × Call) : Prop :=
  c.1.lock.nonce + 1 = n ∧ (bridge.step c.1 c.2).lock.nonce = n

/-- The contract covers what it owes, and each deposit is refunded once at most, after its
timelock, with what came in for it. -/
structure Sound (hist : List (World × Call)) (w : World) : Prop where
  solvent : ∀ token, owed w.lock token ≤ w.holdings token
  once : ∀ n, (hist.filter fun c => Refunds n c).length ≤ 1
  due : ∀ later c earlier n, hist = later ++ c :: earlier → Refunds n c →
    ∃ b ∈ earlier, Opens n b ∧ b.2.time + unlockTimelock ≤ c.2.time ∧
      ∀ token, after c token = c.1.holdings token ∨
        c.1.holdings token - after c token = after b token - b.1.holdings token

/-! ## One call -/

/-- A deposit was recorded, and `received` came in for it. -/
structure Records (w : World) (call : Call) (d : PendingDeposit) (received : ℕ) (w' : World) :
    Prop where
  nonce : w'.lock.nonce = w.lock.nonce + 1
  deposits : w'.lock.deposits = update w.lock.deposits (w.lock.nonce + 1) d
  accepted : w'.lock.acceptedTokens = w.lock.acceptedTokens
  holdings : w'.holdings = update w.holdings d.token (w.holdings d.token + received)
  live : d.refunded = false
  time : call.time = d.lockedAt
  notRefund : ∀ n c, c.2 = call → ¬ Refunds n c

/-- Deposit `n` was marked as refunded, and its amount left or nothing did. -/
structure Pays (w : World) (n now : ℕ) (w' : World) : Prop where
  nonce : w'.lock.nonce = w.lock.nonce
  deposits : w'.lock.deposits =
    update w.lock.deposits n { w.lock.deposits n with refunded := true }
  accepted : w'.lock.acceptedTokens = w.lock.acceptedTokens
  known : (w.lock.deposits n).user ≠ 0
  live : (w.lock.deposits n).refunded = false
  due : (w.lock.deposits n).lockedAt + unlockTimelock ≤ now
  holdings : w'.holdings = w.holdings ∨
    (w.lock.deposits n).amount ≤ w.holdings (w.lock.deposits n).token ∧
      w'.holdings = update w.holdings (w.lock.deposits n).token
        (w.holdings (w.lock.deposits n).token - (w.lock.deposits n).amount)

/-- The owner changed a setting. -/
structure Sets (w : World) (call : Call) (w' : World) : Prop where
  nonce : w'.lock.nonce = w.lock.nonce
  deposits : w'.lock.deposits = w.lock.deposits
  holdings : w'.holdings = w.holdings
  accepted : w.lock.acceptedTokens 0 = false → w'.lock.acceptedTokens 0 = false
  notRefund : ∀ n c, c.2 = call → ¬ Refunds n c

variable {call : Call} {sender : Address} {reply : Reply}

theorem holdings_transferIn {amount : ℕ} (h : transferIn token amount reply w = some w') :
    w'.lock = w.lock ∧ w'.holdings = update w.holdings token
      (w.holdings token + if reply = .moved then amount else 0) := by
  cases reply with
  | moved =>
    cases h
    exact ⟨rfl, rfl⟩
  | refused =>
    cases h
    refine ⟨rfl, ?_⟩
    rw [if_neg (by decide), Nat.add_zero, Function.update_eq_self]
  | reverted => cases h

theorem holdings_transferOut {amount : ℕ} (h : transferOut token amount reply w = some w') :
    w'.lock = w.lock ∧ (w'.holdings = w.holdings ∨ amount ≤ w.holdings token ∧
      w'.holdings = update w.holdings token (w.holdings token - amount)) := by
  cases reply with
  | moved =>
    unfold transferOut at h
    dsimp only at h
    split at h
    · rename_i hle
      cases h
      exact ⟨rfl, .inr ⟨hle, rfl⟩⟩
    · cases h
  | refused =>
    cases h
    exact ⟨rfl, .inl rfl⟩
  | reverted => cases h

theorem run_record (h : record d w = some w') :
    w'.lock.nonce = w.lock.nonce + 1 ∧
      w'.lock.deposits = update w.lock.deposits (w.lock.nonce + 1) d ∧
      w'.lock.acceptedTokens = w.lock.acceptedTokens ∧ w'.holdings = w.holdings := by
  obtain ⟨nonce, hnonce, h⟩ := bind_eq_some_iff.1 h
  unfold addChecked at hnonce
  split at hnonce
  · cases hnonce
    cases h
    exact ⟨rfl, rfl, rfl, rfl⟩
  · cases hnonce

theorem records_lockTokens {sender token : Address} {amount now : ℕ} {recipient : String}
    (h : lockTokens sender token amount recipient reply now w = some w') :
    w.lock.acceptedTokens token = true ∧
      Records w (.lockTokens sender token amount recipient reply now)
        { user := sender, token, amount, lockedAt := now }
        (if reply = .moved then amount else 0) w' := by
  obtain ⟨_, hguard, h⟩ := bind_eq_some_iff.1 h
  obtain ⟨_, -, h⟩ := bind_eq_some_iff.1 h
  obtain ⟨_, -, h⟩ := bind_eq_some_iff.1 h
  obtain ⟨_, -, h⟩ := bind_eq_some_iff.1 h
  obtain ⟨w₁, hin, h⟩ := bind_eq_some_iff.1 h
  obtain ⟨hlock, hholdings⟩ := holdings_transferIn hin
  obtain ⟨hnonce, hdeposits, haccepted, hkept⟩ := run_record h
  rw [hlock] at hnonce hdeposits haccepted
  refine ⟨(guard_eq_some' _).1 hguard, hnonce, hdeposits, haccepted, hkept.trans hholdings,
    rfl, rfl, ?_⟩
  rintro n ⟨_, call⟩ rfl
  exact id

theorem records_lockETH {value now : ℕ} {recipient : String}
    (h : lockETH sender value recipient now w = some w') :
    Records w (.lockETH sender value recipient now)
      { user := sender, amount := value, lockedAt := now } value w' := by
  obtain ⟨_, -, h⟩ := bind_eq_some_iff.1 h
  obtain ⟨_, -, h⟩ := bind_eq_some_iff.1 h
  obtain ⟨_, -, h⟩ := bind_eq_some_iff.1 h
  obtain ⟨hnonce, hdeposits, haccepted, hkept⟩ := run_record h
  refine ⟨hnonce, hdeposits, haccepted, hkept, rfl, rfl, ?_⟩
  rintro n ⟨_, call⟩ rfl
  exact id

theorem pays_unlockFunds {lockNonce now : ℕ}
    (h : unlockFunds sender lockNonce reply now w = some w') : Pays w lockNonce now w' := by
  obtain ⟨_, -, h⟩ := bind_eq_some_iff.1 h
  obtain ⟨_, hknown, h⟩ := bind_eq_some_iff.1 h
  obtain ⟨_, hlive, h⟩ := bind_eq_some_iff.1 h
  obtain ⟨due, hsum, h⟩ := bind_eq_some_iff.1 h
  obtain ⟨_, hdue, h⟩ := bind_eq_some_iff.1 h
  obtain ⟨_, -, h⟩ := bind_eq_some_iff.1 h
  obtain ⟨hlock, hholdings⟩ := holdings_transferOut h
  unfold addChecked at hsum
  split at hsum
  · cases hsum
    exact ⟨by rw [hlock]; rfl, by rw [hlock]; rfl, by rw [hlock]; rfl,
      (guard_eq_some' _).1 hknown, (guard_eq_some' _).1 hlive,
      (guard_eq_some' _).1 hdue, hholdings⟩
  · cases hsum

theorem sets_setMintedDreams {n : ℕ}
    (h : setMintedDreams sender n w = some w') : Sets w (.setMintedDreams sender n) w' := by
  obtain ⟨_, -, h⟩ := bind_eq_some_iff.1 h
  obtain ⟨_, -, h⟩ := bind_eq_some_iff.1 h
  cases h
  refine ⟨rfl, rfl, rfl, id, ?_⟩
  rintro n ⟨_, call⟩ rfl
  exact id

theorem sets_setAcceptedToken {sender token : Address} {accepted : Bool}
    (h : setAcceptedToken sender token accepted w = some w') :
    Sets w (.setAcceptedToken sender token accepted) w' := by
  obtain ⟨_, -, h⟩ := bind_eq_some_iff.1 h
  obtain ⟨_, hzero, h⟩ := bind_eq_some_iff.1 h
  have hne : token ≠ 0 := (guard_eq_some' _).1 hzero
  cases h
  refine ⟨rfl, rfl, rfl, fun hplain => ?_, ?_⟩
  · exact (update_of_ne hne.symm _ _).trans hplain
  · rintro n ⟨_, call⟩ rfl
    exact id

/-- The token of a `lockTokens` call does not refuse the transfer without reverting. -/
def Answered (_ : World) : Call → Prop
  | .lockTokens _ _ _ _ reply _ => reply ≠ .refused
  | _ => True

instance (w : World) (call : Call) : Decidable (Answered w call) := by
  unfold Answered
  split <;> infer_instance

/-- What an accepted call did; what came in for a deposit is its amount if the token answered. -/
theorem run_cases (h : call.run w = some w') :
    (∃ d received, Records w call d received w' ∧ (Answered w call → received = d.amount)) ∨
    (∃ sender n reply now, call = .unlockFunds sender n reply now ∧ Pays w n now w') ∨
    Sets w call w' := by
  cases call with
  | lockTokens sender token amount recipient reply now =>
    obtain ⟨-, hrecords⟩ := records_lockTokens h
    refine .inl ⟨_, _, hrecords, fun hanswered => ?_⟩
    cases reply with
    | moved => exact if_pos rfl
    | refused => exact absurd rfl hanswered
    | reverted =>
      -- a reverted transfer reverts the call
      obtain ⟨_, -, h⟩ := bind_eq_some_iff.1 h
      obtain ⟨_, -, h⟩ := bind_eq_some_iff.1 h
      obtain ⟨_, -, h⟩ := bind_eq_some_iff.1 h
      obtain ⟨_, -, h⟩ := bind_eq_some_iff.1 h
      cases h
  | lockETH sender value recipient now =>
    exact .inl ⟨_, _, records_lockETH h, fun _ => rfl⟩
  | setMintedDreams sender n => exact .inr (.inr (sets_setMintedDreams h))
  | unlockFunds sender lockNonce reply now =>
    exact .inr (.inl ⟨_, _, _, _, rfl, pays_unlockFunds h⟩)
  | setAcceptedToken sender token accepted =>
    exact .inr (.inr (sets_setAcceptedToken h))

/-! ## What is owed after a call -/

theorem owed_records {received : ℕ} (h : Records w call d received w')
    (token : Address) : owed w'.lock token = owed w.lock token + d.claim token := by
  unfold owed
  rw [h.nonce, Finset.sum_range_succ, h.deposits, update_self]
  congr 1
  refine Finset.sum_congr rfl fun n hn => ?_
  rw [update_of_ne (Finset.mem_range.1 hn).ne]

theorem owed_pays {n now : ℕ} (h : Pays w n now w') (hn : n ≤ w.lock.nonce) (token : Address) :
    owed w'.lock token + (w.lock.deposits n).claim token = owed w.lock token := by
  have hmem : n ∈ Finset.range (w.lock.nonce + 1) := Finset.mem_range.2 (Nat.lt_succ_of_le hn)
  unfold owed
  rw [h.nonce, h.deposits, ← Finset.sum_erase_add _ _ hmem,
    ← Finset.sum_erase_add _ (fun n => (w.lock.deposits n).claim token) hmem,
    update_self]
  have hclosed : PendingDeposit.claim { w.lock.deposits n with refunded := true } token = 0 :=
    if_neg fun hclaim => Bool.noConfusion hclaim.2
  rw [hclosed, Nat.add_zero]
  congr 1
  refine Finset.sum_congr rfl fun m hm => ?_
  rw [update_of_ne (Finset.ne_of_mem_erase hm)]

/-! ## Runs -/

theorem step_of_run (h : call.run w = some w') : bridge.step w call = w' := by
  change (call.run w).getD w = w'
  rw [h]
  rfl

theorem lock_of_construct {initialTokens : List Address} {s : Storage}
    (h : construct sender initialTokens = some s) : (∀ token ∈ initialTokens, token ≠ 0) ∧
      s = { owner := sender, acceptedTokens := fun token => token ∈ initialTokens } := by
  obtain ⟨_, hguard, h⟩ := bind_eq_some_iff.1 h
  cases h
  refine ⟨fun token hmem => ?_, rfl⟩
  exact of_decide_eq_true (List.all_eq_true.1 ((guard_eq_some' _).1 hguard) token hmem)

/-- The number of refunds of deposit `n` that were accepted. -/
def refundsOf (n : ℕ) (hist : List (World × Call)) : ℕ :=
  (hist.filter fun c => Refunds n c).length

/-- What a run keeps. -/
structure Inv (hist : List (World × Call)) (w : World) : Prop where
  covered : ∀ token, owed w.lock token ≤ w.holdings token
  opened : ∀ n, (w.lock.deposits n).user ≠ 0 → n ≤ w.lock.nonce ∧
    ∃ b ∈ hist, Opens n b ∧ b.2.time = (w.lock.deposits n).lockedAt ∧
      ∀ token, after b token = b.1.holdings token +
        if token = (w.lock.deposits n).token then (w.lock.deposits n).amount else 0
  once : ∀ n, refundsOf n hist ≤ 1
  unspent : ∀ n, (w.lock.deposits n).refunded = false → refundsOf n hist = 0
  fresh : ∀ n, w.lock.nonce < n → refundsOf n hist = 0

theorem refundsOf_cons_of_not {n : ℕ} {c : World × Call} (h : ¬ Refunds n c) :
    refundsOf n (c :: hist) = refundsOf n hist := by
  unfold refundsOf
  rw [List.filter_cons_of_neg (by simpa using h)]

theorem refundsOf_cons_self {n : ℕ} {c : World × Call} (h : Refunds n c) :
    refundsOf n (c :: hist) = refundsOf n hist + 1 := by
  unfold refundsOf
  rw [List.filter_cons_of_pos (by simpa using h), List.length_cons]

/-- A reverted call leaves no trace but itself. -/
theorem inv_reverted (h : call.run w = none) (hinv : Inv hist w) :
    Inv ((w, call) :: hist) w := by
  have hnot : ∀ n, ¬ Refunds n (w, call) := by
    intro n hrefunds
    cases call with
    | unlockFunds sender lockNonce reply now =>
      have hsome := hrefunds.2
      change (Call.run _ w).isSome = true at hsome
      rw [h] at hsome
      cases hsome
    | _ => exact hrefunds
  constructor
  · exact hinv.covered
  · intro n hn
    obtain ⟨hle, b, hmem, hb⟩ := hinv.opened n hn
    exact ⟨hle, b, List.mem_cons_of_mem _ hmem, hb⟩
  · intro n
    rw [refundsOf_cons_of_not (hnot n)]
    exact hinv.once n
  · intro n hlive
    rw [refundsOf_cons_of_not (hnot n)]
    exact hinv.unspent n hlive
  · intro n hn
    rw [refundsOf_cons_of_not (hnot n)]
    exact hinv.fresh n hn

theorem inv_records (hrun : call.run w = some w')
    (h : Records w call d d.amount w') (hinv : Inv hist w) : Inv ((w, call) :: hist) w' := by
  have hat : ∀ token, w'.holdings token =
      w.holdings token + if token = d.token then d.amount else 0 := by
    intro token
    rw [h.holdings]
    by_cases heq : token = d.token
    · rw [if_pos heq, heq, update_self]
    · rw [if_neg heq, update_of_ne heq, Nat.add_zero]
  have hnot : ∀ n, ¬ Refunds n (w, call) := fun n => h.notRefund n _ rfl
  constructor
  · intro token
    have hclaim : d.claim token ≤ if token = d.token then d.amount else 0 := by
      unfold PendingDeposit.claim
      split
      · rename_i hboth
        rw [if_pos hboth.1.symm]
      · exact Nat.zero_le _
    rw [owed_records h, hat]
    exact Nat.add_le_add (hinv.covered token) hclaim
  · intro n hn
    rw [h.deposits] at hn ⊢
    by_cases heq : n = w.lock.nonce + 1
    · -- the deposit just recorded
      subst heq
      rw [update_self] at hn ⊢
      refine ⟨h.nonce.ge, _, List.mem_cons_self, ⟨rfl, ?_⟩, h.time, ?_⟩
      · rw [step_of_run hrun]
        exact h.nonce
      · intro token
        unfold after
        rw [step_of_run hrun]
        exact hat token
    · rw [update_of_ne heq] at hn ⊢
      obtain ⟨hle, b, hmem, hb⟩ := hinv.opened n hn
      refine ⟨?_, b, List.mem_cons_of_mem _ hmem, hb⟩
      rw [h.nonce]
      exact Nat.le_succ_of_le hle
  · intro n
    rw [refundsOf_cons_of_not (hnot n)]
    exact hinv.once n
  · intro n hlive
    rw [refundsOf_cons_of_not (hnot n)]
    by_cases heq : n = w.lock.nonce + 1
    · -- nothing was known under the new nonce
      exact hinv.fresh n (heq ▸ Nat.lt_succ_self _)
    · rw [h.deposits, update_of_ne heq] at hlive
      exact hinv.unspent n hlive
  · intro n hn
    rw [refundsOf_cons_of_not (hnot n)]
    rw [h.nonce] at hn
    exact hinv.fresh n (Nat.lt_of_succ_lt hn)

theorem inv_sets (h : Sets w call w') (hinv : Inv hist w) :
    Inv ((w, call) :: hist) w' := by
  have hnot : ∀ n, ¬ Refunds n (w, call) := fun n => h.notRefund n _ rfl
  constructor
  · intro token
    unfold owed
    rw [h.nonce, h.deposits, h.holdings]
    exact hinv.covered token
  · intro n hn
    rw [h.deposits] at hn ⊢
    rw [h.nonce]
    obtain ⟨hle, b, hmem, hb⟩ := hinv.opened n hn
    exact ⟨hle, b, List.mem_cons_of_mem _ hmem, hb⟩
  · intro n
    rw [refundsOf_cons_of_not (hnot n)]
    exact hinv.once n
  · intro n hlive
    rw [refundsOf_cons_of_not (hnot n)]
    exact hinv.unspent n (h.deposits ▸ hlive)
  · intro n hn
    rw [refundsOf_cons_of_not (hnot n)]
    exact hinv.fresh n (h.nonce ▸ hn)

/-- A refund: what leaves was owed, and the deposit had not been refunded. -/
theorem inv_pays {n now : ℕ}
    (hrun : (Call.unlockFunds sender n reply now).run w = some w') (h : Pays w n now w')
    (hinv : Inv hist w) : Inv ((w, .unlockFunds sender n reply now) :: hist) w' := by
  obtain ⟨hle, hopened⟩ := hinv.opened n h.known
  have hspends : Refunds n (w, .unlockFunds sender n reply now) := by
    refine ⟨rfl, ?_⟩
    change (Call.run _ w).isSome = true
    rw [hrun]
    rfl
  have hother : ∀ m, m ≠ n → ¬ Refunds m (w, .unlockFunds sender n reply now) :=
    fun m hne hrefunds => hne hrefunds.1.symm
  constructor
  · intro token
    have howed := owed_pays h hle token
    have hcovered := hinv.covered token
    rcases h.holdings with hsame | ⟨hamount, hmoved⟩
    · rw [hsame]
      omega
    · rw [hmoved]
      by_cases heq : token = (w.lock.deposits n).token
      · have hclaim : (w.lock.deposits n).claim token = (w.lock.deposits n).amount :=
          if_pos ⟨heq.symm, h.live⟩
        subst heq
        rw [update_self]
        omega
      · rw [update_of_ne heq]
        omega
  · intro m hm
    have hkept : (w'.lock.deposits m).user = (w.lock.deposits m).user ∧
        (w'.lock.deposits m).lockedAt = (w.lock.deposits m).lockedAt ∧
        (w'.lock.deposits m).token = (w.lock.deposits m).token ∧
        (w'.lock.deposits m).amount = (w.lock.deposits m).amount := by
      rw [h.deposits]
      by_cases heq : m = n
      · subst heq
        rw [update_self]
        exact ⟨rfl, rfl, rfl, rfl⟩
      · rw [update_of_ne heq]
        exact ⟨rfl, rfl, rfl, rfl⟩
    rw [hkept.1] at hm
    rw [hkept.2.1, hkept.2.2.1, hkept.2.2.2, h.nonce]
    obtain ⟨hle, b, hmem, hb⟩ := hinv.opened m hm
    exact ⟨hle, b, List.mem_cons_of_mem _ hmem, hb⟩
  · intro m
    by_cases heq : m = n
    · subst heq
      rw [refundsOf_cons_self hspends, hinv.unspent m h.live]
    · rw [refundsOf_cons_of_not (hother m heq)]
      exact hinv.once m
  · intro m hlive
    have hne : m ≠ n := by
      rintro rfl
      rw [h.deposits, update_self] at hlive
      cases hlive
    rw [h.deposits, update_of_ne hne] at hlive
    rw [refundsOf_cons_of_not (hother m hne)]
    exact hinv.unspent m hlive
  · intro m hm
    rw [h.nonce] at hm
    rw [refundsOf_cons_of_not (hother m (hle.trans_lt hm).ne')]
    exact hinv.fresh m hm

theorem inv_step (hanswered : Answered w call) (hinv : Inv hist w) :
    Inv ((w, call) :: hist) (bridge.step w call) := by
  cases hrun : call.run w with
  | none =>
    have hstep : bridge.step w call = w := by
      change (call.run w).getD w = w
      rw [hrun]
      rfl
    rw [hstep]
    exact inv_reverted hrun hinv
  | some w' =>
    rw [step_of_run hrun]
    rcases run_cases hrun with ⟨d, received, h, hreceived⟩ | ⟨sender, n, reply, now, rfl, h⟩ | h
    · rw [hreceived hanswered] at h
      exact inv_records hrun h hinv
    · exact inv_pays hrun h hinv
    · exact inv_sets h hinv

theorem inv_run (h : Run bridge Answered hist w) : Inv hist w := by
  induction h with
  | @start w hinit =>
    obtain ⟨sender, initialTokens, hconstruct⟩ := hinit
    have hempty : ∀ n, w.lock.deposits n = {} := by
      intro n
      rw [(lock_of_construct hconstruct).2]
    constructor
    · intro token
      have hzero : owed w.lock token = 0 := by
        refine Finset.sum_eq_zero fun n _ => ?_
        rw [hempty]
        unfold PendingDeposit.claim
        exact ite_self 0
      exact hzero ▸ Nat.zero_le _
    · intro n hn
      exact absurd (congrArg PendingDeposit.user (hempty n)) hn
    · exact fun n => Nat.zero_le 1
    · exact fun n _ => rfl
    · exact fun n _ => rfl
  | step call _ hanswered ih => exact inv_step hanswered ih
  | other _ hs ih => exact hs ▸ ih

/-- In every run in which no `transferFrom` of a lock is refused without a revert, the contract
covers all unrefunded deposits, and each deposit is refunded once at most, after its timelock,
with what came in for it. -/
theorem deposits_sound (h : Run bridge Answered hist w) : Sound hist w := by
  refine ⟨(inv_run h).covered, (inv_run h).once, ?_⟩
  rintro later ⟨t, call⟩ earlier n rfl hrefunds
  have hinv := inv_run h.cut.1
  cases call with
  | unlockFunds sender lockNonce reply now =>
    obtain ⟨rfl, hsome⟩ := hrefunds
    obtain ⟨t', hrun⟩ := Option.isSome_iff_exists.1 hsome
    have hpays := pays_unlockFunds hrun
    obtain ⟨-, b, hmem, hopens, htime, hreceived⟩ := hinv.opened lockNonce hpays.known
    refine ⟨b, hmem, hopens, htime ▸ hpays.due, fun token => ?_⟩
    have hafter : after (t, .unlockFunds sender lockNonce reply now) token = t'.holdings token := by
      unfold after
      rw [step_of_run hrun]
    rw [hafter, hreceived]
    dsimp only
    rcases hpays.holdings with hsame | ⟨hamount, hmoved⟩
    · rw [hsame]
      exact .inl rfl
    · rw [hmoved]
      by_cases heq : token = (t.lock.deposits lockNonce).token
      · subst heq
        rw [update_self, if_pos rfl, Nat.add_sub_cancel_left]
        exact .inr (Nat.sub_sub_self hamount)
      · rw [update_of_ne heq]
        exact .inl rfl
  | _ => exact hrefunds.elim

/-! ## A deposit, and a refused one -/

/-- A bridge that takes the token 5. -/
def oneToken : World where
  lock := { owner := 1, acceptedTokens := fun token => token ∈ [(5 : Address)] }
  holdings := fun _ => 0

theorem starts_oneToken : bridge.init oneToken := ⟨1, [5], rfl⟩

/-- A deposit of 100, refunded a week later. -/
def refundedDeposit : List Call :=
  [.lockTokens 7 5 100 "bob" .moved 0, .unlockFunds 1 1 .moved 604800]

theorem deposits_sound_refunded :
    Sound (bridge.record oneToken refundedDeposit []) (bridge.exec oneToken refundedDeposit) ∧
      ((bridge.exec oneToken refundedDeposit).lock.deposits 1).refunded = true :=
  ⟨deposits_sound (Run.exec (.start starts_oneToken)
    ⟨by decide, trivial, trivial⟩), by decide⟩

/-- The token answers false, and 100 are owed of nothing. -/
theorem refused_deposit_recorded : ∃ hist w,
    Run bridge (fun _ _ => True) hist w ∧ w.holdings 5 < owed w.lock 5 ∧ ¬ Sound hist w := by
  have hless : (bridge.exec oneToken [.lockTokens 7 5 100 "bob" .refused 0]).holdings 5 <
      owed (bridge.exec oneToken [.lockTokens 7 5 100 "bob" .refused 0]).lock 5 := by decide
  refine ⟨_, _, Run.exec (.start starts_oneToken) (legal_true _ _), hless, fun hsound => ?_⟩
  exact Nat.not_lt.2 (hsound.solvent 5) hless

end HoneNode.BridgeLock
