import HoneNode.Exchange.Contract
import HoneNode.Lib.Trace
import Mathlib.Data.Option.Basic

/-!
# Exchange.Solvency — the exchange covers its queue

What the contract holds covers what is queued, and a sale drains the queue from
its front.

1. **The queue**: what is left of each deposit, and the calls that change it.
2. **The sale**: one fill, then the loop (`filled_while`).
3. **Runs** of any calls by anybody stay solvent, and every call is fair
   (`exchange_solvent`).
-/

namespace HoneNode.Exchange

open Option (bind_eq_some_iff map_eq_some_iff guard_eq_some')
open Trace Fifo

/-! ## The queue -/

/-- What is left of the deposits; nothing is in front of the head. -/
def left (ex : Storage) : List ℕ :=
  List.replicate ex.head 0 ++ (ex.whoneQueue.drop ex.head).map (·.amount)

def leftAt (ex : Storage) (i : ℕ) : ℕ := (left ex)[i]?.getD 0

section Queue

variable {ex : Storage} {n i : ℕ} {d : SellerDeposit}

theorem sum_left (ex : Storage) :
    (left ex).sum = ((ex.whoneQueue.drop ex.head).map (·.amount)).sum := by
  unfold left
  rw [List.sum_append, List.sum_replicate_nat, Nat.mul_zero, Nat.zero_add]

theorem foldlM_addChecked {l : List SellerDeposit} {t : ℕ}
    (h : l.foldlM (fun total d => addChecked total d.amount) t = some n) :
    n = t + (l.map (·.amount)).sum := by
  induction l generalizing t with
  | nil => exact (Option.some.inj h).symm
  | cons d rest ih =>
    rw [List.foldlM_cons] at h
    obtain ⟨t', ht', hrest⟩ := bind_eq_some_iff.1 h
    unfold addChecked at ht'
    split at ht'
    · rw [ih hrest, ← Option.some.inj ht', List.map_cons, List.sum_cons, Nat.add_assoc]
    · cases ht'

/-- The view adds up what is left. -/
theorem availableWhoneInQueue_eq (h : availableWhoneInQueue ex = some n) : n = (left ex).sum := by
  rw [sum_left, foldlM_addChecked h, Nat.zero_add]

/-- The deposit at the head, and what is behind it. -/
theorem left_eq_cons (h : ex.whoneQueue[ex.head]? = some d) :
    left ex = List.replicate ex.head 0 ++ d.amount ::
      (ex.whoneQueue.drop (ex.head + 1)).map (·.amount) := by
  obtain ⟨hlt, rfl⟩ := List.getElem?_eq_some_iff.1 h
  unfold left
  rw [List.drop_eq_getElem_cons hlt, List.map_cons]

theorem left_append (h : ex.head ≤ ex.whoneQueue.length) (d : SellerDeposit) :
    left { ex with whoneQueue := ex.whoneQueue ++ [d] } = left ex ++ [d.amount] := by
  unfold left
  rw [List.drop_append_of_le_length h, List.map_append, ← List.append_assoc]
  rfl

/-- A deposit that is not behind the head is changed. -/
theorem left_set (h : ex.head ≤ i) (d : SellerDeposit) :
    left { ex with whoneQueue := ex.whoneQueue.set i d } = (left ex).set i d.amount := by
  unfold left
  dsimp only
  rw [List.drop_set, if_neg (Nat.not_lt.2 h), List.map_set,
    List.set_append_right _ _ (by rw [List.length_replicate]; exact h), List.length_replicate]

/-- The head passes a deposit. -/
theorem left_pass (h : ex.whoneQueue[ex.head]? = some d) :
    left { ex with head := ex.head + 1 } = (left ex).set ex.head 0 := by
  rw [left_eq_cons h, List.set_append_right _ _ (List.length_replicate ..).le,
    List.length_replicate, Nat.sub_self, List.set_cons_zero]
  unfold left
  dsimp only
  rw [List.replicate_succ', List.append_assoc]
  rfl

theorem leftAt_set {ex' : Storage} {v : ℕ} (h : left ex' = (left ex).set n v) (hne : i ≠ n) :
    leftAt ex' i = leftAt ex i := by
  unfold leftAt
  rw [h, List.getElem?_set_ne (Ne.symm hne)]

theorem left_getElem?_head (h : ex.whoneQueue[ex.head]? = some d) :
    (left ex)[ex.head]? = some d.amount := by
  rw [left_eq_cons h, List.getElem?_append_right (List.length_replicate ..).le,
    List.length_replicate, Nat.sub_self]
  rfl

/-- What is left of a deposit that is not behind the head is its amount. -/
theorem left_getElem? (h : ex.head ≤ i) :
    (left ex)[i]? = ex.whoneQueue[i]?.map (·.amount) := by
  unfold left
  rw [List.getElem?_append_right (by rw [List.length_replicate]; exact h), List.length_replicate,
    List.getElem?_map, List.getElem?_drop, Nat.add_sub_cancel' h]

end Queue

/-! ## The component -/

inductive Op where
  | depositWhoneForSale (sender : Address) (amount : ℕ)
  | buyWhoneWithStablecoin (sender stablecoin : Address) (stablecoinAmount minWhoneAmount : ℕ)
      (feed : Option (ℤ × ℕ))
  | withdrawOwnWhone (sender : Address) (index amount : ℕ)
  | transitionToAmmAligned (sender : Address)
  | setBondingCurveParameters (sender : Address) (initialPrice priceIncrement : ℕ)
  | setFeeParameters (sender : Address) (numerator denominator : ℕ)
  | addOrUpdateStablecoin (sender token : Address) (decimals : ℕ)
  | removeStablecoin (sender token : Address)

section Component

variable {T : Type} (E : Erc20 T) (self : Address)

/-- The owner's calls, on the storage alone. -/
def ownerCall (ex : Storage) : Op → Option Storage
  | .transitionToAmmAligned sender => transitionToAmmAligned sender ex
  | .setBondingCurveParameters sender p i => setBondingCurveParameters sender ex p i
  | .setFeeParameters sender n d => setFeeParameters sender ex n d
  | .addOrUpdateStablecoin sender token d => addOrUpdateStablecoin sender ex token d
  | .removeStablecoin sender token => removeStablecoin sender ex token
  | _ => none

/-- A call, unless it reverts. -/
def run (w : World T) : Op → Option (World T)
  | .depositWhoneForSale sender amount => depositWhoneForSale E self sender amount w
  | .buyWhoneWithStablecoin sender stablecoin amount minAmount feed =>
    (buyWhoneWithStablecoin E self sender stablecoin amount minAmount feed w).map (·.world)
  | .withdrawOwnWhone sender index amount => withdrawOwnWhone E self sender index amount w
  | op => (ownerCall w.ex op).map fun ex => { w with ex }

def whoneBalance (w : World T) : ℕ := E.balanceOf (w.tokens w.ex.whone) self

/-- The tokens live their own life, and the contract may get an owner; nobody else spends what
the contract has. -/
def component : Component (World T) Op where
  init := fun w => ∃ sender whone usdt usdc dai wallet n d p i feed,
    construct sender whone usdt usdc dai wallet n d p i feed = some w.ex
  step := fun w op => (run E self w op).getD w
  other := fun w w' => (∃ owner, w'.ex = { w.ex with owner }) ∧
    E.balanceOf (w.tokens w.ex.whone) self ≤ E.balanceOf (w'.tokens w.ex.whone) self

/-- The contract does not call itself, and no stablecoin is wHONE. -/
def Admitted (w : World T) : Op → Prop
  | .depositWhoneForSale sender _ => sender ≠ self
  | .buyWhoneWithStablecoin _ stablecoin _ _ _ => stablecoin ≠ w.ex.whone
  | _ => True

/-- The contract's balance covers the queue. -/
def Solvent (w : World T) : Prop :=
  ∀ n, availableWhoneInQueue w.ex = some n → n ≤ whoneBalance E self w

/-- A fill sells what is taken at the price, and its seller is paid. -/
structure Fair (ex : Storage) (stablecoin : Address) (price : ℕ) (f : Fill) : Prop where
  seller : ∃ d, ex.whoneQueue[f.index]? = some d ∧ d.seller = f.seller
  price : proceeds ex stablecoin price f.take = some (f.shareNative, f.feeNative)

/-- What the contract pays for the fills. -/
def paidOut (fills : List Fill) : ℕ := (fills.map fun f => f.shareNative + f.feeNative).sum

/-- What an account gets of it: a seller the shares, the fee wallet the fees. -/
def receipts (wallet a : Address) (fills : List Fill) : ℕ :=
  (fills.map fun f => (if a = f.seller then f.shareNative else 0) +
    if a = wallet then f.feeNative else 0).sum

/-- A successful purchase drains the queue from its front by exactly what the buyer gets, pays out
no more than it took in, and takes from a deposit only in a fair fill. The balances of every
account say so: in the stablecoin the buyer's payment goes to the contract and from it to
the sellers and the fee wallet, in wHONE the purchase goes to the buyer, and no other token
moves. -/
structure FairSale (w w' : World T) (sender stablecoin : Address) (stablecoinAmount : ℕ)
    (b : Bought T) : Prop where
  fifo : left w'.ex = drain b.whoneAmountToBuyer (left w.ex)
  exact : (left w'.ex).sum + b.whoneAmountToBuyer = (left w.ex).sum
  paid : paidOut b.fills ≤ stablecoinAmount
  coins : ∀ a, E.balanceOf (w'.tokens stablecoin) a + (if a = self then paidOut b.fills else 0) +
      (if a = sender then stablecoinAmount else 0) =
    E.balanceOf (w.tokens stablecoin) a + receipts w.ex.shindevlinWallet a b.fills +
      if a = self then stablecoinAmount else 0
  whone : ∀ a, E.balanceOf (w'.tokens w.ex.whone) a + (if a = self then b.whoneAmountToBuyer else 0) =
    E.balanceOf (w.tokens w.ex.whone) a + if a = sender then b.whoneAmountToBuyer else 0
  others : ∀ token, token ≠ stablecoin → token ≠ w.ex.whone → w'.tokens token = w.tokens token
  fair : ∀ f ∈ b.fills, Fair w.ex stablecoin b.price f
  sold : ∀ i, leftAt w'.ex i ≠ leftAt w.ex i →
    ∃ f ∈ b.fills, f.index = i ∧ leftAt w'.ex i + f.take = leftAt w.ex i

/-- What a call does to the queue. -/
def Sound (w : World T) (op : Op) : Prop :=
  let w' := (component E self).step w op
  Solvent E self w' ∧ match op with
  | .buyWhoneWithStablecoin sender stablecoin amount minAmount feed =>
    match buyWhoneWithStablecoin E self sender stablecoin amount minAmount feed w with
    | some b => getWhonePrice6Decimals w.ex feed = some b.price ∧
        FairSale E self w w' sender stablecoin amount b
    | none => w' = w
  | .withdrawOwnWhone sender index amount => ∀ i, leftAt w'.ex i ≠ leftAt w.ex i →
      i = index ∧ (∃ d, w.ex.whoneQueue[i]? = some d ∧ d.seller = sender) ∧
        leftAt w'.ex i + amount = leftAt w.ex i
  | _ => ∀ i, leftAt w.ex i ≤ leftAt w'.ex i

end Component

/-! ## Amounts -/

section Amounts

variable {ex : Storage} {stablecoin : Address} {a b c d amount price take : ℕ}

theorem divChecked_eq (h : divChecked a b = some c) : c = a / b := by
  unfold divChecked at h
  split at h
  · cases h
  · exact (Option.some.inj h).symm

theorem mulChecked_eq (h : mulChecked a b = some c) : c = a * b := by
  unfold mulChecked at h
  split at h
  · exact (Option.some.inj h).symm
  · cases h

theorem subChecked_eq (h : subChecked a b = some c) : c + b = a := by
  unfold subChecked at h
  split at h
  · next hle => rw [← Option.some.inj h, Nat.sub_add_cancel hle]
  · cases h

theorem pow10_eq (h : pow10 a = some b) : b = 10 ^ a := by
  unfold pow10 at h
  split at h
  · exact (Option.some.inj h).symm
  · cases h

/-- An amount of a stablecoin is covered by an amount with six decimals. -/
def Covered (ex : Storage) (stablecoin : Address) (amount6 native : ℕ) : Prop :=
  (ex.stablecoinDecimals stablecoin ≤ 6 →
      native * 10 ^ (6 - ex.stablecoinDecimals stablecoin) ≤ amount6) ∧
    (6 < ex.stablecoinDecimals stablecoin →
      native ≤ amount6 * 10 ^ (ex.stablecoinDecimals stablecoin - 6))

theorem covered_zero : Covered ex stablecoin 0 0 := by
  constructor
  · intro _
    rw [Nat.zero_mul]
  · exact fun _ => Nat.zero_le _

theorem Covered.add (h : Covered ex stablecoin a b) (h' : Covered ex stablecoin c d) :
    Covered ex stablecoin (a + c) (b + d) := by
  constructor
  · intro hle
    rw [Nat.add_mul]
    exact Nat.add_le_add (h.1 hle) (h'.1 hle)
  · intro hlt
    rw [Nat.add_mul]
    exact Nat.add_le_add (h.2 hlt) (h'.2 hlt)

theorem Covered.mono (h : Covered ex stablecoin a b) (hle : a ≤ c) : Covered ex stablecoin c b :=
  ⟨fun hsix => (h.1 hsix).trans hle,
    fun hsix => (h.2 hsix).trans (Nat.mul_le_mul_right _ hle)⟩

theorem covered_of_convert (h : convert6DecimalsToStablecoinDecimals ex stablecoin a = some b) :
    Covered ex stablecoin a b := by
  unfold convert6DecimalsToStablecoinDecimals at h
  obtain ⟨_, -, h⟩ := bind_eq_some_iff.1 h
  by_cases hsix : ex.stablecoinDecimals stablecoin = 6
  · rw [if_pos hsix] at h
    obtain rfl := Option.some.inj h
    constructor
    · intro _
      rw [hsix, Nat.sub_self, Nat.pow_zero, Nat.mul_one]
    · exact fun hlt => absurd hsix hlt.ne'
  · rw [if_neg hsix] at h
    by_cases hlt : 6 < ex.stablecoinDecimals stablecoin
    · rw [if_pos hlt] at h
      obtain ⟨k, hk, h⟩ := bind_eq_some_iff.1 h
      rw [mulChecked_eq h, pow10_eq hk]
      exact ⟨fun hle => absurd hlt (Nat.not_lt.2 hle), fun _ => le_rfl⟩
    · rw [if_neg hlt] at h
      obtain ⟨k, hk, h⟩ := bind_eq_some_iff.1 h
      rw [divChecked_eq h, pow10_eq hk]
      exact ⟨fun _ => Nat.div_mul_le_self _ _, fun hlt' => absurd hlt' hlt⟩

/-- What is covered by the normalised amount is no more than came in. -/
theorem le_of_covered (hnorm : normalizeStablecoinTo6Decimals ex stablecoin amount = some a)
    (h : Covered ex stablecoin a b) : b ≤ amount := by
  unfold normalizeStablecoinTo6Decimals at hnorm
  obtain ⟨_, -, hnorm⟩ := bind_eq_some_iff.1 hnorm
  by_cases hsix : ex.stablecoinDecimals stablecoin = 6
  · rw [if_pos hsix] at hnorm
    obtain rfl := Option.some.inj hnorm
    have hle := h.1 hsix.le
    rwa [hsix, Nat.sub_self, Nat.pow_zero, Nat.mul_one] at hle
  · rw [if_neg hsix] at hnorm
    by_cases hlt : 6 < ex.stablecoinDecimals stablecoin
    · rw [if_pos hlt] at hnorm
      obtain ⟨k, hk, hnorm⟩ := bind_eq_some_iff.1 hnorm
      have hle := h.2 hlt
      rw [divChecked_eq hnorm, pow10_eq hk] at hle
      exact hle.trans (Nat.div_mul_le_self _ _)
    · rw [if_neg hlt] at hnorm
      obtain ⟨k, hk, hnorm⟩ := bind_eq_some_iff.1 hnorm
      have hle := h.1 (Nat.not_lt.1 hlt)
      rw [mulChecked_eq hnorm, pow10_eq hk] at hle
      exact Nat.le_of_mul_le_mul_right hle (Nat.pow_pos (by decide))

/-- What a take brings is covered by its value at the price, rounded down. -/
theorem covered_proceeds {share fee : ℕ}
    (h : proceeds ex stablecoin price take = some (share, fee)) :
    ∃ val6, val6 * whoneDecimalsFactor ≤ take * price ∧
      Covered ex stablecoin val6 (share + fee) := by
  unfold proceeds at h
  obtain ⟨m, hm, h⟩ := bind_eq_some_iff.1 h
  obtain ⟨val6, hval, h⟩ := bind_eq_some_iff.1 h
  obtain ⟨n, -, h⟩ := bind_eq_some_iff.1 h
  obtain ⟨fee6, -, h⟩ := bind_eq_some_iff.1 h
  obtain ⟨share6, hshare, h⟩ := bind_eq_some_iff.1 h
  obtain ⟨feeNative, hfeeNative, h⟩ := bind_eq_some_iff.1 h
  obtain ⟨shareNative, hshareNative, h⟩ := bind_eq_some_iff.1 h
  cases h
  refine ⟨val6, ?_, ?_⟩
  · rw [divChecked_eq hval, mulChecked_eq hm]
    exact Nat.div_mul_le_self _ _
  · rw [← subChecked_eq hshare]
    exact (covered_of_convert hshareNative).add (covered_of_convert hfeeNative)

end Amounts

/-! ## Payments -/

section Payments

variable {T : Type} {E : Erc20 T} {self token dst src : Address} {w w' : World T} {amount : ℕ}

theorem payOut_ex (h : payOut E self token dst amount w = some w') : w'.ex = w.ex := by
  obtain ⟨t, -, rfl⟩ := map_eq_some_iff.1 h
  rfl

theorem payOut_tokens (h : payOut E self token dst amount w = some w') {other : Address}
    (hne : other ≠ token) : w'.tokens other = w.tokens other := by
  obtain ⟨t, -, rfl⟩ := map_eq_some_iff.1 h
  exact Function.update_of_ne hne _ _

/-- What moves leaves one account and reaches another, whichever they are. -/
theorem Moved.balance {before after : Address → ℕ} (h : Moved before after src dst amount)
    (a : Address) : after a + (if a = src then amount else 0) =
      before a + if a = dst then amount else 0 := by
  obtain ⟨hle, rfl⟩ := h
  rw [Function.update_apply, Function.update_apply, Function.update_apply]
  by_cases hsrc : a = src
  · subst hsrc
    by_cases hdst : a = dst
    · subst hdst
      simp only [if_true]
      omega
    · simp only [if_true, if_neg hdst]
      omega
  · by_cases hdst : a = dst
    · subst hdst
      simp only [if_true, if_neg hsrc]
      omega
    · simp only [if_neg hsrc, if_neg hdst]

theorem balance_payOut (h : payOut E self token dst amount w = some w') (a : Address) :
    E.balanceOf (w'.tokens token) a + (if a = self then amount else 0) =
      E.balanceOf (w.tokens token) a + if a = dst then amount else 0 := by
  obtain ⟨t, ht, rfl⟩ := map_eq_some_iff.1 h
  dsimp only
  rw [Function.update_self]
  exact (E.moved_transfer ht).balance a

theorem payIn_ex (h : payIn E self token src amount w = some w') : w'.ex = w.ex := by
  obtain ⟨t, -, rfl⟩ := map_eq_some_iff.1 h
  rfl

theorem payIn_tokens (h : payIn E self token src amount w = some w') {other : Address}
    (hne : other ≠ token) : w'.tokens other = w.tokens other := by
  obtain ⟨t, -, rfl⟩ := map_eq_some_iff.1 h
  exact Function.update_of_ne hne _ _

theorem balance_payIn (h : payIn E self token src amount w = some w') (a : Address) :
    E.balanceOf (w'.tokens token) a + (if a = src then amount else 0) =
      E.balanceOf (w.tokens token) a + if a = self then amount else 0 := by
  obtain ⟨t, ht, rfl⟩ := map_eq_some_iff.1 h
  dsimp only
  rw [Function.update_self]
  exact (E.moved_transferFrom ht).balance a

end Payments

/-! ## The sale -/

section Sale

variable {T : Type} {E : Erc20 T} {self stablecoin : Address} {price rounds wanted : ℕ}
  {w : World T} {s s' : Sale T} {d : SellerDeposit}

/-- A sale under way: `wanted` was asked for in the world `w`. -/
structure Filled (E : Erc20 T) (exchange : Address) (w : World T) (stablecoin : Address)
    (price wanted : ℕ) (s : Sale T) : Prop where
  frame : s.world.ex = { w.ex with
    whoneQueue := s.world.ex.whoneQueue, head := s.world.ex.head }
  head_le : w.ex.head ≤ s.world.ex.head
  head_in : s.world.ex.head ≤ s.world.ex.whoneQueue.length
  tokens : ∀ token, token ≠ stablecoin → s.world.tokens token = w.tokens token
  coins : ∀ a, E.balanceOf (s.world.tokens stablecoin) a +
      (if a = exchange then paidOut s.fills else 0) =
    E.balanceOf (w.tokens stablecoin) a + receipts w.ex.shindevlinWallet a s.fills
  le : s.whoneRemaining ≤ wanted
  drained : drain s.whoneRemaining (left s.world.ex) = drain wanted (left w.ex)
  total : (left s.world.ex).sum + wanted = (left w.ex).sum + s.whoneRemaining
  paid : ∃ val6, val6 * whoneDecimalsFactor ≤ (wanted - s.whoneRemaining) * price ∧
    Covered w.ex stablecoin val6 (paidOut s.fills)
  fair : ∀ f ∈ s.fills, Fair w.ex stablecoin price f
  ahead : 0 < s.whoneRemaining → ∀ i, s.world.ex.head ≤ i →
    s.world.ex.whoneQueue[i]? = w.ex.whoneQueue[i]?
  sold : ∀ i, leftAt s.world.ex i ≠ leftAt w.ex i →
    ∃ f ∈ s.fills, f.index = i ∧ leftAt s.world.ex i + f.take = leftAt w.ex i

theorem filled_start (h : w.ex.head ≤ w.ex.whoneQueue.length) :
    Filled E self w stablecoin price wanted { world := w, whoneRemaining := wanted } where
  frame := rfl
  head_le := le_rfl
  head_in := h
  tokens := fun _ _ => rfl
  coins := by
    intro a
    show _ + (if a = self then 0 else 0) = _
    rw [ite_self]
    rfl
  le := le_rfl
  drained := rfl
  total := rfl
  paid := ⟨0, by rw [Nat.zero_mul]; exact Nat.zero_le _, covered_zero⟩
  fair := nofun
  ahead := fun _ _ _ => rfl
  sold := fun _ h => absurd rfl h

/-- What one round of the loop does. -/
structure Round (E : Erc20 T) (exchange stablecoin : Address) (price : ℕ) (d : SellerDeposit)
    (s s' : Sale T) : Prop where
  frame : s'.world.ex = { s.world.ex with
    whoneQueue := s'.world.ex.whoneQueue, head := s'.world.ex.head }
  tokens : ∀ token, token ≠ stablecoin → s'.world.tokens token = s.world.tokens token
  taken : left s'.world.ex = (left s.world.ex).set s.world.ex.head (d.amount - s.whoneRemaining)
  remaining : s'.whoneRemaining = s.whoneRemaining - d.amount
  passed : d.amount ≤ s.whoneRemaining → s'.world.ex.whoneQueue = s.world.ex.whoneQueue ∧
    s'.world.ex.head = s.world.ex.head + 1
  partly : s.whoneRemaining < d.amount → s'.world.ex.head = s.world.ex.head ∧
    s'.world.ex.whoneQueue.length = s.world.ex.whoneQueue.length
  fill : ∃ f, s'.fills = s.fills ++ [f] ∧ f.index = s.world.ex.head ∧ f.seller = d.seller ∧
    f.take = min d.amount s.whoneRemaining ∧
    proceeds s.world.ex stablecoin price f.take = some (f.shareNative, f.feeNative) ∧
    ∀ a, E.balanceOf (s'.world.tokens stablecoin) a +
        (if a = exchange then f.shareNative + f.feeNative else 0) =
      E.balanceOf (s.world.tokens stablecoin) a + ((if a = f.seller then f.shareNative else 0) +
        if a = s.world.ex.shindevlinWallet then f.feeNative else 0)

theorem round_of_fillNext (hd : s.world.ex.whoneQueue[s.world.ex.head]? = some d)
    (h : fillNext E self stablecoin price d s = some s') : Round E self stablecoin price d s s' := by
  unfold fillNext at h
  obtain ⟨⟨share, fee⟩, hproceeds, h⟩ := bind_eq_some_iff.1 h
  obtain ⟨w₁, hw₁, h⟩ := bind_eq_some_iff.1 h
  obtain ⟨w₂, hw₂, h⟩ := bind_eq_some_iff.1 h
  have hex := (payOut_ex hw₂).trans (payOut_ex hw₁)
  have htokens : ∀ token, token ≠ stablecoin → w₂.tokens token = s.world.tokens token :=
    fun token hne => (payOut_tokens hw₂ hne).trans (payOut_tokens hw₁ hne)
  have hcoins : ∀ a, E.balanceOf (w₂.tokens stablecoin) a + (if a = self then share + fee else 0) =
      E.balanceOf (s.world.tokens stablecoin) a + ((if a = d.seller then share else 0) +
        if a = s.world.ex.shindevlinWallet then fee else 0) := by
    intro a
    have h₁ := balance_payOut hw₁ a
    have h₂ := balance_payOut hw₂ a
    dsimp only at h₁
    split at h₂ <;> simp_all only [if_true, if_false] <;> omega
  cases h
  dsimp only at hex hproceeds
  by_cases hle : d.amount ≤ s.whoneRemaining
  · rw [if_pos hle] at hex hproceeds
    constructor
    · rw [hex]
    · exact htokens
    · dsimp only
      rw [hex, left_pass hd, Nat.sub_eq_zero_of_le hle]
    · dsimp only
      rw [if_pos hle]
    · intro _
      rw [hex]
      exact ⟨rfl, rfl⟩
    · exact fun hlt => absurd hle (Nat.not_le.2 hlt)
    · refine ⟨_, rfl, rfl, rfl, ?_, ?_, hcoins⟩
      · dsimp only
        rw [if_pos hle, Nat.min_eq_left hle]
      · dsimp only
        rw [if_pos hle]
        exact hproceeds
  · have hlt := Nat.not_le.1 hle
    rw [if_neg hle, if_neg hle] at hex
    rw [if_neg hle] at hproceeds
    constructor
    · rw [hex]
    · exact htokens
    · dsimp only
      rw [hex]
      exact left_set le_rfl _
    · dsimp only
      rw [if_neg hle, Nat.sub_self, Nat.sub_eq_zero_of_le hlt.le]
    · exact fun hle' => absurd hle' hle
    · intro _
      rw [hex]
      exact ⟨rfl, List.length_set⟩
    · refine ⟨_, rfl, rfl, rfl, ?_, ?_, hcoins⟩
      · dsimp only
        rw [if_neg hle, Nat.min_eq_right hlt.le]
      · dsimp only
        rw [if_neg hle]
        exact hproceeds

/-- A call's parameters do not move with the queue. -/
theorem proceeds_congr {ex ex' : Storage} {queue : List SellerDeposit} {head take : ℕ}
    (h : ex' = { ex with whoneQueue := queue, head }) :
    proceeds ex' stablecoin price take = proceeds ex stablecoin price take := by
  rw [h]
  rfl

theorem drain_round (hd : s.world.ex.whoneQueue[s.world.ex.head]? = some d)
    (hr : Round E self stablecoin price d s s') :
    drain s'.whoneRemaining (left s'.world.ex) = drain s.whoneRemaining (left s.world.ex) := by
  rw [hr.taken, hr.remaining, left_eq_cons hd,
    List.set_append_right _ _ (List.length_replicate ..).le, List.length_replicate, Nat.sub_self,
    List.set_cons_zero, drain_replicate_append, drain_replicate_append]
  congr 1
  rcases Nat.lt_or_ge s.whoneRemaining d.amount with hlt | hle
  · rw [drain_cons_of_lt hlt, Nat.sub_eq_zero_of_le hlt.le, drain_zero]
  · rw [drain_cons_of_le hle, Nat.sub_eq_zero_of_le hle, drain_cons_of_le (Nat.zero_le _),
      Nat.sub_zero]

theorem sum_round (hd : s.world.ex.whoneQueue[s.world.ex.head]? = some d)
    (hr : Round E self stablecoin price d s s') :
    (left s'.world.ex).sum + s.whoneRemaining = (left s.world.ex).sum + s'.whoneRemaining := by
  have hset := @sum_set _ _ _ (d.amount - s.whoneRemaining) (left_getElem?_head hd)
  rw [hr.taken, hr.remaining]
  omega

theorem filled_round (h : Filled E self w stablecoin price wanted s) (hpos : 0 < s.whoneRemaining)
    (hd : s.world.ex.whoneQueue[s.world.ex.head]? = some d)
    (hr : Round E self stablecoin price d s s') : Filled E self w stablecoin price wanted s' := by
  have hin : s.world.ex.head < s.world.ex.whoneQueue.length := (List.getElem?_eq_some_iff.1 hd).1
  have hfirst := h.ahead hpos s.world.ex.head le_rfl
  obtain ⟨f, hfills, hindex, hseller, htake, hproceeds, hcoins⟩ := hr.fill
  have hpaid : paidOut s'.fills = paidOut s.fills + (f.shareNative + f.feeNative) := by
    unfold paidOut
    rw [hfills, List.map_append, List.sum_append, List.map_singleton, List.sum_singleton]
  rw [proceeds_congr h.frame] at hproceeds
  have hheads : s.world.ex.head ≤ s'.world.ex.head ∧
      s'.world.ex.head ≤ s'.world.ex.whoneQueue.length := by
    rcases Nat.lt_or_ge s.whoneRemaining d.amount with hlt | hle
    · obtain ⟨hhead, hlength⟩ := hr.partly hlt
      rw [hhead, hlength]
      exact ⟨le_rfl, hin.le⟩
    · obtain ⟨hqueue, hhead⟩ := hr.passed hle
      rw [hhead, hqueue]
      exact ⟨Nat.le_succ _, hin⟩
  constructor
  · rw [hr.frame, h.frame]
  · exact h.head_le.trans hheads.1
  · exact hheads.2
  · exact fun token hne => (hr.tokens token hne).trans (h.tokens token hne)
  · intro a
    have hafter := hcoins a
    have hbefore := h.coins a
    have hwallet : s.world.ex.shindevlinWallet = w.ex.shindevlinWallet := by rw [h.frame]
    have hreceipts : receipts w.ex.shindevlinWallet a s'.fills =
        receipts w.ex.shindevlinWallet a s.fills + ((if a = f.seller then f.shareNative else 0) +
          if a = w.ex.shindevlinWallet then f.feeNative else 0) := by
      unfold receipts
      rw [hfills, List.map_append, List.sum_append, List.map_singleton, List.sum_singleton]
    rw [hwallet] at hafter
    rw [hreceipts, hpaid]
    by_cases hself : a = self
    · rw [if_pos hself] at hafter hbefore ⊢
      omega
    · rw [if_neg hself] at hafter hbefore ⊢
      omega
  · rw [hr.remaining]
    exact (Nat.sub_le _ _).trans h.le
  · rw [drain_round hd hr, h.drained]
  · have hsum := sum_round hd hr
    have htotal := h.total
    omega
  · obtain ⟨val6, hval, hcovered⟩ := h.paid
    obtain ⟨more6, hmore, hmoreCovered⟩ := covered_proceeds hproceeds
    refine ⟨val6 + more6, ?_, ?_⟩
    · have hsum : wanted - s'.whoneRemaining = (wanted - s.whoneRemaining) + f.take := by
        have hle := h.le
        rw [hr.remaining, htake]
        omega
      rw [hsum, Nat.add_mul, Nat.add_mul]
      exact Nat.add_le_add hval hmore
    · rw [hpaid]
      exact hcovered.add hmoreCovered
  · intro g hg
    rw [hfills] at hg
    rcases List.mem_append.1 hg with hg | hg
    · exact h.fair g hg
    · rw [List.mem_singleton.1 hg]
      exact ⟨⟨d, by rw [hindex, ← hfirst, hd], hseller.symm⟩, hproceeds⟩
  · -- only a round that passes its deposit leaves anything to take
    intro hpos' i hi
    have hle : d.amount ≤ s.whoneRemaining := by
      rw [hr.remaining] at hpos'
      omega
    obtain ⟨hqueue, -⟩ := hr.passed hle
    rw [hqueue]
    exact h.ahead hpos i (hheads.1.trans hi)
  · intro i hne
    rw [hfills]
    by_cases hi : i = s.world.ex.head
    · subst hi
      refine ⟨f, List.mem_append_right _ (List.mem_singleton.2 rfl), hindex, ?_⟩
      have hlen : s.world.ex.head < (left s.world.ex).length :=
        (List.getElem?_eq_some_iff.1 (left_getElem?_head hd)).1
      have hafter : leftAt s'.world.ex s.world.ex.head = d.amount - s.whoneRemaining := by
        unfold leftAt
        rw [hr.taken, List.getElem?_set_self hlen]
        rfl
      have hbefore : leftAt w.ex s.world.ex.head = d.amount := by
        unfold leftAt
        rw [left_getElem? h.head_le, ← hfirst, hd]
        rfl
      rw [hafter, hbefore, htake]
      omega
    · rw [leftAt_set hr.taken hi] at hne ⊢
      obtain ⟨g, hg, hgi, hgtake⟩ := h.sold i hne
      exact ⟨g, List.mem_append_left _ hg, hgi, hgtake⟩

theorem fillWhile_done (h : s.whoneRemaining = 0) (rounds : ℕ) :
    fillWhile E self stablecoin price rounds s = some s := by
  cases rounds with
  | zero => rfl
  | succ rounds => exact if_neg (by rw [h]; exact lt_irrefl 0)

/-- The loop, and why it ends: nothing is left to take, or nothing to take from. -/
theorem filled_while (h : Filled E self w stablecoin price wanted s)
    (hrounds : s.world.ex.whoneQueue.length - s.world.ex.head ≤ rounds)
    (hrun : fillWhile E self stablecoin price rounds s = some s') :
    Filled E self w stablecoin price wanted s' ∧
      (s'.whoneRemaining = 0 ∨ s'.world.ex.whoneQueue.length ≤ s'.world.ex.head) := by
  induction rounds generalizing s with
  | zero =>
    obtain rfl := Option.some.inj hrun
    exact ⟨h, .inr (Nat.le_of_sub_eq_zero (Nat.le_zero.1 hrounds))⟩
  | succ rounds ih =>
    unfold fillWhile at hrun
    by_cases hpos : 0 < s.whoneRemaining
    · rw [if_pos hpos] at hrun
      cases hd : s.world.ex.whoneQueue[s.world.ex.head]? with
      | none =>
        rw [hd] at hrun
        obtain rfl := Option.some.inj hrun
        exact ⟨h, .inr (List.getElem?_eq_none_iff.1 hd)⟩
      | some d =>
        rw [hd] at hrun
        obtain ⟨next, hnext, hrun⟩ := bind_eq_some_iff.1 hrun
        have hround := round_of_fillNext hd hnext
        have hfilled := filled_round h hpos hd hround
        rcases Nat.lt_or_ge s.whoneRemaining d.amount with hlt | hle
        · -- the last round leaves the head where it is
          have hdone : next.whoneRemaining = 0 := by
            rw [hround.remaining]
            exact Nat.sub_eq_zero_of_le hlt.le
          rw [fillWhile_done hdone] at hrun
          obtain rfl := Option.some.inj hrun
          exact ⟨hfilled, .inl hdone⟩
        · obtain ⟨hqueue, hhead⟩ := hround.passed hle
          refine ih hfilled ?_ hrun
          rw [hqueue, hhead]
          omega
    · rw [if_neg hpos] at hrun
      obtain rfl := Option.some.inj hrun
      exact ⟨h, .inl (Nat.eq_zero_of_not_pos hpos)⟩

/-- A loop over a queue that holds enough takes all that is wanted. -/
theorem remaining_eq_zero (h : Filled E self w stablecoin price wanted s) (henough : wanted ≤ (left w.ex).sum)
    (hend : s.whoneRemaining = 0 ∨ s.world.ex.whoneQueue.length ≤ s.world.ex.head) :
    s.whoneRemaining = 0 := by
  rcases hend with hzero | hempty
  · exact hzero
  · -- the queue is used up, and it has given no more than it held
    have hleft : (left s.world.ex).sum = 0 := by
      rw [sum_left, List.drop_eq_nil_of_le hempty]
      rfl
    have htotal := h.total
    omega

end Sale

/-! ## The calls -/

section Calls

variable {T : Type} {E : Erc20 T} {self : Address} {w w' : World T} {b : Bought T}
  {sender stablecoin : Address} {amount minAmount index : ℕ} {feed : Option (ℤ × ℕ)}

/-- The contract has what is left of the deposits. -/
structure Ready (E : Erc20 T) (exchange : Address) (w : World T) : Prop where
  head_in : w.ex.head ≤ w.ex.whoneQueue.length
  covered : (left w.ex).sum ≤ whoneBalance E exchange w

theorem solvent_of_ready (h : Ready E self w) : Solvent E self w := by
  intro n hn
  rw [availableWhoneInQueue_eq hn]
  exact h.covered

/-- Everything a purchase does. -/
theorem bought_of_buy (hready : Ready E self w) (hcoin : stablecoin ≠ w.ex.whone)
    (h : buyWhoneWithStablecoin E self sender stablecoin amount minAmount feed w = some b) :
    Ready E self b.world ∧ getWhonePrice6Decimals w.ex feed = some b.price ∧
      FairSale E self w b.world sender stablecoin amount b := by
  unfold buyWhoneWithStablecoin at h
  obtain ⟨_, -, h⟩ := bind_eq_some_iff.1 h
  obtain ⟨_, -, h⟩ := bind_eq_some_iff.1 h
  obtain ⟨_, -, h⟩ := bind_eq_some_iff.1 h
  obtain ⟨w₁, hin, h⟩ := bind_eq_some_iff.1 h
  obtain ⟨amount6, hnorm, h⟩ := bind_eq_some_iff.1 h
  obtain ⟨price, hprice, h⟩ := bind_eq_some_iff.1 h
  obtain ⟨_, -, h⟩ := bind_eq_some_iff.1 h
  obtain ⟨m, hm, h⟩ := bind_eq_some_iff.1 h
  obtain ⟨wanted, hwanted, h⟩ := bind_eq_some_iff.1 h
  obtain ⟨_, -, h⟩ := bind_eq_some_iff.1 h
  obtain ⟨available, havailable, h⟩ := bind_eq_some_iff.1 h
  obtain ⟨_, henough, h⟩ := bind_eq_some_iff.1 h
  obtain ⟨sale, hsale, h⟩ := bind_eq_some_iff.1 h
  obtain ⟨w₂, hout, h⟩ := bind_eq_some_iff.1 h
  obtain ⟨sold, -, h⟩ := bind_eq_some_iff.1 h
  cases h
  have hex := payIn_ex hin
  rw [hex] at hout
  have henough : wanted ≤ (left w₁.ex).sum := by
    rw [← availableWhoneInQueue_eq havailable]
    exact (guard_eq_some' _).1 henough
  obtain ⟨hfilled, hend⟩ := filled_while (filled_start (by rw [hex]; exact hready.head_in)) le_rfl hsale
  have hzero := remaining_eq_zero hfilled henough hend
  have hwhone : sale.world.ex.whone = w.ex.whone := by
    rw [hfilled.frame, hex]
  have hleft : left w₂.ex = drain wanted (left w.ex) := by
    rw [payOut_ex hout, ← hex, ← hfilled.drained, hzero, drain_zero]
  have hexact : (left w₂.ex).sum + wanted = (left w.ex).sum := by
    rw [hleft]
    exact sum_drain (by rw [← hex]; exact henough)
  have hcoin₂ : w₂.tokens stablecoin = sale.world.tokens stablecoin :=
    payOut_tokens hout hcoin
  refine ⟨⟨?_, ?_⟩, by rw [← hex]; exact hprice, hleft, hexact, ?_, ?_, ?_, ?_, ?_, ?_⟩
  · change w₂.ex.head ≤ w₂.ex.whoneQueue.length
    rw [payOut_ex hout]
    exact hfilled.head_in
  · -- the sale leaves wHONE alone, and what goes to the buyer left the queue
    change (left w₂.ex).sum ≤ E.balanceOf (w₂.tokens w₂.ex.whone) self
    have hcovered := hready.covered
    have hbalance := balance_payOut hout self
    rw [if_pos rfl] at hbalance
    unfold whoneBalance at hcovered
    rw [hfilled.tokens _ (Ne.symm hcoin), payIn_tokens hin (Ne.symm hcoin)] at hbalance
    rw [payOut_ex hout, hwhone, ← payOut_ex hout]
    omega
  · obtain ⟨val6, hval, hcov⟩ := hfilled.paid
    rw [hzero, Nat.sub_zero] at hval
    -- the value of all takes is within what the buyer paid
    have hworth : wanted * price ≤ amount6 * whoneDecimalsFactor := by
      rw [divChecked_eq hwanted, mulChecked_eq hm]
      exact Nat.div_mul_le_self _ _
    have hle : val6 ≤ amount6 :=
      Nat.le_of_mul_le_mul_right (hval.trans hworth) (Nat.pow_pos (by decide))
    exact le_of_covered hnorm (hcov.mono hle)
  · intro a
    have hpay := balance_payIn hin a
    have hfill := hfilled.coins a
    rw [hex] at hfill
    change E.balanceOf (w₂.tokens stablecoin) a + (if a = self then paidOut sale.fills else 0) +
      (if a = sender then amount else 0) = E.balanceOf (w.tokens stablecoin) a +
        receipts w.ex.shindevlinWallet a sale.fills + if a = self then amount else 0
    rw [hcoin₂]
    omega
  · intro a
    have hgive := balance_payOut hout a
    rw [hfilled.tokens _ (Ne.symm hcoin), payIn_tokens hin (Ne.symm hcoin)] at hgive
    exact hgive
  · intro token hne hnot
    exact (payOut_tokens hout hnot).trans ((hfilled.tokens token hne).trans (payIn_tokens hin hne))
  · rw [← hex]
    exact hfilled.fair
  · intro i hne
    change leftAt w₂.ex i ≠ leftAt w.ex i at hne
    change ∃ f ∈ sale.fills, f.index = i ∧ leftAt w₂.ex i + f.take = leftAt w.ex i
    rw [payOut_ex hout, ← hex] at hne ⊢
    exact hfilled.sold i hne

/-- The empty deposits at the head are passed over. -/
theorem left_skipEmpty (ex : Storage) (rounds head : ℕ) :
    left { ex with head := skipEmpty ex.whoneQueue rounds head } = left { ex with head } ∧
      (head ≤ ex.whoneQueue.length → skipEmpty ex.whoneQueue rounds head ≤ ex.whoneQueue.length) := by
  induction rounds generalizing head with
  | zero => exact ⟨rfl, id⟩
  | succ rounds ih =>
    unfold skipEmpty
    cases hd : ex.whoneQueue[head]? with
    | none => exact ⟨rfl, id⟩
    | some d =>
      dsimp only
      by_cases hzero : d.amount = 0
      · rw [if_pos hzero]
        obtain ⟨hsame, hin⟩ := ih (head + 1)
        refine ⟨?_, fun _ => hin (List.getElem?_eq_some_iff.1 hd).1⟩
        have hhead : ({ ex with head } : Storage).whoneQueue[({ ex with head } : Storage).head]? =
            some d := hd
        rw [hsame, left_eq_cons hhead, hzero]
        unfold left
        dsimp only
        rw [List.replicate_succ', List.append_assoc]
        rfl
      · rw [if_neg hzero]
        exact ⟨rfl, id⟩

/-- Everything a withdrawal does. -/
theorem withdrawn_of_withdraw (hready : Ready E self w)
    (h : withdrawOwnWhone E self sender index amount w = some w') :
    Ready E self w' ∧ w.ex.head ≤ index ∧
      ∃ d, w.ex.whoneQueue[index]? = some d ∧ d.seller = sender ∧ amount ≤ d.amount ∧
        left w'.ex = (left w.ex).set index (d.amount - amount) := by
  unfold withdrawOwnWhone at h
  obtain ⟨_, hindex, h⟩ := bind_eq_some_iff.1 h
  obtain ⟨d, hd, h⟩ := bind_eq_some_iff.1 h
  obtain ⟨_, hseller, h⟩ := bind_eq_some_iff.1 h
  obtain ⟨_, hamount, h⟩ := bind_eq_some_iff.1 h
  obtain ⟨w₁, hout, h⟩ := bind_eq_some_iff.1 h
  obtain ⟨hhead, hlt⟩ := (guard_eq_some' _).1 hindex
  have hle : amount ≤ d.amount := ((guard_eq_some' _).1 hamount).2
  have hex := payOut_ex hout
  have hleft : left w₁.ex = (left w.ex).set index (d.amount - amount) := by
    rw [hex]
    exact left_set hhead _
  have hat : (left w.ex)[index]? = some d.amount := by
    rw [left_getElem? hhead, hd]
    rfl
  have hsum : (left w₁.ex).sum + amount = (left w.ex).sum := by
    have hset := @sum_set _ _ _ (d.amount - amount) hat
    rw [hleft]
    omega
  have hready₁ : Ready E self w₁ := by
    constructor
    · rw [hex]
      dsimp only
      rw [List.length_set]
      exact hready.head_in
    · have hcovered := hready.covered
      have hbalance := balance_payOut hout self
      rw [if_pos rfl] at hbalance
      unfold whoneBalance at hcovered ⊢
      have hwhone : w₁.ex.whone = w.ex.whone := by rw [hex]
      rw [hwhone]
      dsimp only at hbalance
      omega
  have hqueue : w₁.ex.whoneQueue =
      w.ex.whoneQueue.set index { d with amount := d.amount - amount } := by rw [hex]
  have hhead₁ : w₁.ex.head = w.ex.head := by rw [hex]
  rw [← hqueue, ← hhead₁] at h
  split at h
  · obtain rfl := Option.some.inj h
    obtain ⟨hsame, hin⟩ := left_skipEmpty w₁.ex (w₁.ex.whoneQueue.length - w₁.ex.head) w₁.ex.head
    refine ⟨⟨hin hready₁.head_in, ?_⟩, hhead, d, hd, (guard_eq_some' _).1 hseller, hle,
      hsame.trans hleft⟩
    exact hsame ▸ hready₁.covered
  · obtain rfl := Option.some.inj h
    exact ⟨hready₁, hhead, d, hd, (guard_eq_some' _).1 hseller, hle, hleft⟩

theorem deposited_of_deposit (hready : Ready E self w) (hsender : sender ≠ self)
    (h : depositWhoneForSale E self sender amount w = some w') :
    Ready E self w' ∧ left w'.ex = left w.ex ++ [amount] := by
  unfold depositWhoneForSale at h
  obtain ⟨_, -, h⟩ := bind_eq_some_iff.1 h
  obtain ⟨w₁, hin, h⟩ := bind_eq_some_iff.1 h
  cases h
  have hex := payIn_ex hin
  have hleft : left { w₁.ex with whoneQueue := w₁.ex.whoneQueue ++ [⟨sender, amount⟩] } =
      left w.ex ++ [amount] := by
    rw [hex]
    exact left_append hready.head_in _
  refine ⟨⟨?_, ?_⟩, hleft⟩
  · dsimp only
    rw [hex, List.length_append]
    exact hready.head_in.trans (Nat.le_add_right _ _)
  · have hcovered := hready.covered
    have hbalance := balance_payIn hin self
    rw [if_pos rfl, if_neg (Ne.symm hsender)] at hbalance
    unfold whoneBalance at hcovered ⊢
    dsimp only
    rw [hleft, List.sum_append, List.sum_singleton, hex]
    omega

/-- The owner moves neither the queue nor any wHONE. -/
theorem ownerCall_eq {ex ex' : Storage} {op : Op} (h : ownerCall ex op = some ex') :
    left ex' = left ex ∧ ex'.head = ex.head ∧ ex'.whoneQueue = ex.whoneQueue ∧
      ex'.whone = ex.whone := by
  cases op with
  | transitionToAmmAligned sender =>
    obtain ⟨_, -, h⟩ := bind_eq_some_iff.1 h
    obtain ⟨_, -, h⟩ := bind_eq_some_iff.1 h
    cases h
    exact ⟨rfl, rfl, rfl, rfl⟩
  | setBondingCurveParameters sender p i =>
    obtain ⟨_, -, h⟩ := bind_eq_some_iff.1 h
    obtain ⟨_, -, h⟩ := bind_eq_some_iff.1 h
    cases h
    exact ⟨rfl, rfl, rfl, rfl⟩
  | setFeeParameters sender n d =>
    obtain ⟨_, -, h⟩ := bind_eq_some_iff.1 h
    obtain ⟨_, -, h⟩ := bind_eq_some_iff.1 h
    cases h
    exact ⟨rfl, rfl, rfl, rfl⟩
  | addOrUpdateStablecoin sender token d =>
    obtain ⟨_, -, h⟩ := bind_eq_some_iff.1 h
    obtain ⟨_, -, h⟩ := bind_eq_some_iff.1 h
    cases h
    exact ⟨rfl, rfl, rfl, rfl⟩
  | removeStablecoin sender token =>
    obtain ⟨_, -, h⟩ := bind_eq_some_iff.1 h
    cases h
    exact ⟨rfl, rfl, rfl, rfl⟩
  | depositWhoneForSale sender amount => cases h
  | buyWhoneWithStablecoin sender stablecoin amount minAmount feed => cases h
  | withdrawOwnWhone sender index amount => cases h

end Calls

/-! ## Runs -/

section Runs

variable {T : Type} {E : Erc20 T} {self : Address} {w : World T} {op : Op}
  {hist : List (World T × Op)}

theorem step_of_none (h : run E self w op = none) : (component E self).step w op = w := by
  change (run E self w op).getD w = w
  rw [h]
  rfl

theorem step_of_some {w' : World T} (h : run E self w op = some w') :
    (component E self).step w op = w' := by
  change (run E self w op).getD w = w'
  rw [h]
  rfl

theorem sound_buy {sender stablecoin : Address} {amount minAmount : ℕ} {feed : Option (ℤ × ℕ)}
    (h : Ready E self w) (hcoin : stablecoin ≠ w.ex.whone) :
    Ready E self ((component E self).step w
        (.buyWhoneWithStablecoin sender stablecoin amount minAmount feed)) ∧
      Sound E self w (.buyWhoneWithStablecoin sender stablecoin amount minAmount feed) := by
  unfold Sound
  cases hbuy : buyWhoneWithStablecoin E self sender stablecoin amount minAmount feed w with
  | none =>
    have hstep : (component E self).step w
        (.buyWhoneWithStablecoin sender stablecoin amount minAmount feed) = w :=
      step_of_none (congrArg (Option.map Bought.world) hbuy)
    dsimp only
    rw [hstep, hbuy]
    exact ⟨h, solvent_of_ready h, rfl⟩
  | some b =>
    have hstep : (component E self).step w
        (.buyWhoneWithStablecoin sender stablecoin amount minAmount feed) = b.world :=
      step_of_some (congrArg (Option.map Bought.world) hbuy)
    obtain ⟨hready, hprice, hfair⟩ := bought_of_buy h hcoin hbuy
    dsimp only
    rw [hstep, hbuy]
    exact ⟨hready, solvent_of_ready hready, hprice, hfair⟩

theorem sound_withdraw {sender : Address} {index amount : ℕ} (h : Ready E self w) :
    Ready E self ((component E self).step w (.withdrawOwnWhone sender index amount)) ∧
      Sound E self w (.withdrawOwnWhone sender index amount) := by
  unfold Sound
  cases hrun : run E self w (.withdrawOwnWhone sender index amount) with
  | none =>
    rw [step_of_none hrun]
    exact ⟨h, solvent_of_ready h, fun i hne => absurd rfl hne⟩
  | some w' =>
    rw [step_of_some hrun]
    obtain ⟨hready, hhead, d, hd, hseller, hle, hleft⟩ := withdrawn_of_withdraw h hrun
    refine ⟨hready, solvent_of_ready hready, ?_⟩
    intro i hne
    obtain rfl : i = index := by
      by_contra hi
      exact hne (leftAt_set hleft hi)
    have hat : (left w.ex)[i]? = some d.amount := by
      rw [left_getElem? hhead, hd]
      rfl
    refine ⟨rfl, ⟨d, hd, hseller⟩, ?_⟩
    unfold leftAt
    rw [hleft, List.getElem?_set_self (List.getElem?_eq_some_iff.1 hat).1, hat]
    exact Nat.sub_add_cancel hle

theorem sound_deposit {sender : Address} {amount : ℕ} (h : Ready E self w) (hsender : sender ≠ self) :
    Ready E self ((component E self).step w (.depositWhoneForSale sender amount)) ∧
      Sound E self w (.depositWhoneForSale sender amount) := by
  unfold Sound
  cases hrun : run E self w (.depositWhoneForSale sender amount) with
  | none =>
    rw [step_of_none hrun]
    exact ⟨h, solvent_of_ready h, fun i => le_rfl⟩
  | some w' =>
    rw [step_of_some hrun]
    obtain ⟨hready, hleft⟩ := deposited_of_deposit h hsender hrun
    refine ⟨hready, solvent_of_ready hready, ?_⟩
    intro i
    unfold leftAt
    rw [hleft]
    rcases Nat.lt_or_ge i (left w.ex).length with hlt | hge
    · rw [List.getElem?_append_left hlt]
    · rw [List.getElem?_eq_none hge]
      exact Nat.zero_le _

/-- The calls of the owner. -/
theorem sound_owner (h : Ready E self w)
    (hrun : run E self w op = (ownerCall w.ex op).map fun ex => { w with ex })
    (hsound : Solvent E self ((component E self).step w op) →
      (∀ i, leftAt w.ex i ≤ leftAt ((component E self).step w op).ex i) → Sound E self w op) :
    Ready E self ((component E self).step w op) ∧ Sound E self w op := by
  suffices hstep : Ready E self ((component E self).step w op) ∧
      left ((component E self).step w op).ex = left w.ex by
    refine ⟨hstep.1, hsound (solvent_of_ready hstep.1) fun i => ?_⟩
    unfold leftAt
    rw [hstep.2]
  cases hcall : ownerCall w.ex op with
  | none =>
    rw [hcall] at hrun
    rw [step_of_none hrun]
    exact ⟨h, rfl⟩
  | some ex =>
    rw [hcall] at hrun
    rw [step_of_some hrun]
    obtain ⟨hleft, hhead, hqueue, hwhone⟩ := ownerCall_eq hcall
    refine ⟨⟨?_, ?_⟩, hleft⟩
    · dsimp only
      rw [hhead, hqueue]
      exact h.head_in
    · change (left ex).sum ≤ E.balanceOf (w.tokens ex.whone) self
      rw [hleft, hwhone]
      exact h.covered

theorem sound_step (h : Ready E self w) (hop : Admitted self w op) :
    Ready E self ((component E self).step w op) ∧ Sound E self w op := by
  cases op with
  | depositWhoneForSale sender amount => exact sound_deposit h hop
  | buyWhoneWithStablecoin sender stablecoin amount minAmount feed => exact sound_buy h hop
  | withdrawOwnWhone sender index amount => exact sound_withdraw h
  | transitionToAmmAligned sender => exact sound_owner h rfl And.intro
  | setBondingCurveParameters sender p i => exact sound_owner h rfl And.intro
  | setFeeParameters sender n d => exact sound_owner h rfl And.intro
  | addOrUpdateStablecoin sender token d => exact sound_owner h rfl And.intro
  | removeStablecoin sender token => exact sound_owner h rfl And.intro

theorem ready_of_construct {sender whone usdt usdc dai wallet feed : Address} {n d p i : ℕ}
    (h : construct sender whone usdt usdc dai wallet n d p i feed = some w.ex) : Ready E self w := by
  unfold construct at h
  obtain ⟨_, -, h⟩ := bind_eq_some_iff.1 h
  obtain ⟨_, -, h⟩ := bind_eq_some_iff.1 h
  obtain ⟨_, -, h⟩ := bind_eq_some_iff.1 h
  obtain ⟨_, -, h⟩ := bind_eq_some_iff.1 h
  have hex := (Option.some.inj h).symm
  constructor
  · rw [hex]
    exact le_rfl
  · rw [hex]
    exact Nat.zero_le _

theorem ready_of_run (h : Run (component E self) (Admitted self) hist w) : Ready E self w := by
  refine h.invariant ?_ ?_ ?_
  · rintro w ⟨sender, whone, usdt, usdc, dai, wallet, n, d, p, i, feed, hex⟩
    exact ready_of_construct hex
  · exact fun w op hop hw => (sound_step hw hop).1
  · rintro w w' ⟨⟨owner, hex⟩, hbalance⟩ hw
    constructor
    · rw [hex]
      exact hw.head_in
    · unfold whoneBalance
      rw [hex]
      exact hw.covered.trans hbalance

/-- Whoever calls what, the exchange has what is queued, and every call is sound. -/
theorem exchange_solvent (h : Run (component E self) (Admitted self) hist w) :
    Solvent E self w ∧ ∀ c ∈ hist, Sound E self c.1 c.2 := by
  refine ⟨solvent_of_ready (ready_of_run h), ?_⟩
  rintro ⟨w', op⟩ hmem
  obtain ⟨hop, before, hrun⟩ := h.of_mem hmem
  exact (sound_step (ready_of_run hrun) hop).2

/-- A token that is its balances. -/
def plain : Erc20 (Address → ℕ) :=
  let move (t : Address → ℕ) (src dst : Address) (amount : ℕ) : Option (Address → ℕ) :=
    if amount ≤ t src then
      let taken := Function.update t src (t src - amount)
      some (Function.update taken dst (taken dst + amount))
    else none
  have moved {t t' : Address → ℕ} {src dst : Address} {amount : ℕ}
      (h : move t src dst amount = some t') : Moved t t' src dst amount := by
    unfold move at h
    split at h
    · next hle => exact ⟨hle, (Option.some.inj h).symm⟩
    · cases h
  { balanceOf := id, transfer := move, transferFrom := fun t _ => move t
    moved_transfer := moved, moved_transferFrom := moved }

/-- A seller at 4 has wHONE (at 1) and a buyer at 5 has USDT (at 2). -/
def market : World (Address → ℕ) where
  ex := (construct 8 1 2 0 0 3 1 10 1000000 0 7).get rfl
  tokens token account :=
    if token = 1 ∧ account = 4 then 500000 else if token = 2 ∧ account = 5 then 30 else 0

/-- The seller queues wHONE, the buyer takes some of it and the seller half of the rest. -/
def marketDay : List Op :=
  [.depositWhoneForSale 4 500000, .buyWhoneWithStablecoin 5 2 30 0 none,
    .withdrawOwnWhone 4 0 100000]

/-- Of the thirty the buyer pays, three are the fee. -/
theorem exchange_solvent_market :
    let c := component plain 9
    let w := c.exec market marketDay
    availableWhoneInQueue w.ex = some 100000 ∧ w.tokens 1 5 = 300000 ∧ w.tokens 2 4 = 27 ∧
      w.tokens 2 3 = 3 ∧ Solvent plain 9 w ∧
      ∀ call ∈ c.record market marketDay [], Sound plain 9 call.1 call.2 := by
  intro c w
  have hinit : c.init market := ⟨8, 1, 2, 0, 0, 3, 1, 10, 1000000, 0, 7, (Option.some_get rfl).symm⟩
  have hlegal : Legal c (Admitted 9) market marketDay := by
    refine ⟨?_, ?_, trivial, trivial⟩
    · change (4 : Address) ≠ 9
      decide
    · change (2 : Address) ≠ 1
      decide
  have hsound := exchange_solvent (Run.exec (.start hinit) hlegal)
  exact ⟨by decide, by decide, by decide, by decide, hsound.1, hsound.2⟩

end Runs

end HoneNode.Exchange
