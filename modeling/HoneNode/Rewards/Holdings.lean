import HoneNode.Lib.Potential
import HoneNode.Lib.Shares
import HoneNode.Rewards.Frame
import HoneNode.Supply

/-!
# Rewards.Holdings — what the ledger holds of the native token

`holdings` counts every hunit the ledger owes to someone: the native balance
rows, the stakes, and the records that an entry was paid into and that pay out
later. Each write moves it by a known amount, so a program can be bounded by
what it credits beyond what it takes away.
-/

namespace HoneNode

open Prog Within Supply

/-! ## The measure -/

/-- A native balance row; one spelled through a NUL in the account counts too. -/
abbrev nativeRow : String → Bool := rowOf nativeToken

/-- What a record holds for someone. Fees of inference jobs are held by the recycle fund, and
runtime bonds by accounts of their own, so these records hold nothing. -/
def escrowed : (f : Family) → f.Val → ℕ
  | .pendingTransfer, (r : PendingTransfer) =>
    if nativeRow (balanceKey r.from_ r.token) then r.amount else 0
  | .unbonding, (r : Unbonding) => r.amount
  | .roleStake, (r : RoleStake) => r.amount
  | .yieldStake, (r : YieldStake) => r.amount
  | .deviceClaim, (r : DeviceClaim) => r.stake
  | .clockReg, (r : ClockReg) => r.stake
  | .mempoolOp, (r : MempoolOp) => r.stake
  | .agentCredit, (n : ℕ) => n
  | .agentTask, (r : AgentTask) => if r.closed then 0 else r.maxFee
  | .agentSession, (r : AgentSession) => r.feeEscrow
  | .ensembleJob, (r : EnsembleJob) => if r.status = .voting then r.maxFee else 0
  | .vrfRound, (r : VrfRound) =>
    (r.commits.filter fun c => !c.depositRefunded).length * commitDepositHunits
  | .auction, (r : AuctionState) => if r.settled || r.cancelled then 0 else r.topBid
  | .trackerSubEscrow, (r : TrackerSubEscrow) => r.totalEscrowed - r.paidOut
  | .trackerLostEscrow, (r : TrackerLostEscrow) => if r.status = "active" then r.bountyHunits else 0
  | .fineTuneEscrow, (n : ℕ) => n
  | .computerUseEscrow, (n : ℕ) => n
  | _, _ => 0

def escrowFamilies : List Family :=
  [.pendingTransfer, .unbonding, .roleStake, .yieldStake, .deviceClaim, .clockReg, .mempoolOp,
    .agentCredit, .agentTask, .agentSession, .ensembleJob, .vrfRound, .auction, .trackerSubEscrow,
    .trackerLostEscrow, .fineTuneEscrow, .computerUseEscrow]

theorem nodup_escrowFamilies : escrowFamilies.Nodup := by decide

namespace Chain

variable (s : Chain)

def escrowOf (f : Family) : ℕ := (s.state f).sumBy fun _ v => escrowed f v

def nativeBalances : ℕ := s.balances.sumBy fun k n => if nativeRow k then n else 0

def nativeStakes : ℕ := s.stakes.sumBy fun _ n => n

/-- The native token in balances, stakes and escrows. -/
def holdings : ℕ := s.nativeBalances + s.nativeStakes + (escrowFamilies.map s.escrowOf).sum

/-- What the record under a key holds. -/
def escrowAt (f : Family) (key : String) : ℕ := (s.stateGet f key).elim 0 (escrowed f)

end Chain

/-! ## What a write does to it -/

section Writes

variable (s : Chain)

theorem nativeRow_balanceKey (account : String) :
    nativeRow (balanceKey account nativeToken) = true := by
  unfold nativeRow rowOf balanceKey
  rw [List.isSuffixOf_iff_suffix, String.append_assoc, String.toList_append (s := account)]
  exact List.suffix_append _ _

theorem nativeBalances_setBalance (account token : String) (n : ℕ) :
    (s.setBalance account token n).nativeBalances +
        (if nativeRow (balanceKey account token) then s.getBalance account token else 0) =
      s.nativeBalances + if nativeRow (balanceKey account token) then n else 0 := by
  have h := Kv.sumBy_put (fun k n => if nativeRow k then n else 0) s.balances
    (balanceKey account token) n
  have hold : (s.balances.get (balanceKey account token)).elim 0
        (fun n => if nativeRow (balanceKey account token) then n else 0) =
      if nativeRow (balanceKey account token) then s.getBalance account token else 0 := by
    rw [Chain.getBalance]
    cases s.balances.get (balanceKey account token) <;> simp
  rw [hold] at h
  exact h

theorem nativeBalances_credited (account : String) (n : ℕ) :
    (s.credited account nativeToken n).nativeBalances = s.nativeBalances + n := by
  have h := nativeBalances_setBalance s account nativeToken (s.getBalance account nativeToken + n)
  rw [nativeRow_balanceKey, if_pos rfl, if_pos rfl] at h
  unfold Chain.credited
  omega

variable {s} in
theorem nativeBalances_debited {account : String} {n : ℕ}
    (hle : n ≤ s.getBalance account nativeToken) :
    (s.debited account nativeToken n).nativeBalances + n = s.nativeBalances := by
  have h := nativeBalances_setBalance s account nativeToken (s.getBalance account nativeToken - n)
  rw [nativeRow_balanceKey, if_pos rfl, if_pos rfl] at h
  unfold Chain.debited
  omega

theorem holdings_setBalance (account token : String) (n : ℕ) :
    (s.setBalance account token n).holdings +
        (if nativeRow (balanceKey account token) then s.getBalance account token else 0) =
      s.holdings + if nativeRow (balanceKey account token) then n else 0 := by
  have hbal := nativeBalances_setBalance s account token n
  have hrest : (s.setBalance account token n).escrowOf = s.escrowOf := rfl
  have hstakes : (s.setBalance account token n).nativeStakes = s.nativeStakes := rfl
  simp only [Chain.holdings, hrest, hstakes]
  omega

/-- A credit of another token changes nothing. -/
theorem holdings_credited (account token : String) (n : ℕ) :
    (s.credited account token n).holdings =
      s.holdings + if nativeRow (balanceKey account token) then n else 0 := by
  have h := holdings_setBalance s account token (s.getBalance account token + n)
  unfold Chain.credited
  split_ifs at h ⊢ <;> omega

theorem holdings_credited_native (account : String) (n : ℕ) :
    (s.credited account nativeToken n).holdings = s.holdings + n := by
  rw [holdings_credited, nativeRow_balanceKey, if_pos rfl]

variable {s} in
theorem holdings_debited_native {account : String} {n : ℕ}
    (hle : n ≤ s.getBalance account nativeToken) :
    (s.debited account nativeToken n).holdings + n = s.holdings := by
  have h := holdings_setBalance s account nativeToken (s.getBalance account nativeToken - n)
  rw [nativeRow_balanceKey, if_pos rfl, if_pos rfl] at h
  unfold Chain.debited
  omega

/-- A native row is part of the holdings. -/
theorem getBalance_le_holdings {account token : String}
    (hrow : nativeRow (balanceKey account token) = true) :
    s.getBalance account token ≤ s.holdings := by
  have h := holdings_setBalance s account token 0
  rw [if_pos hrow, if_pos hrow] at h
  omega

theorem holdings_setStake (account : String) (n : ℕ) :
    (s.setStake account n).holdings + s.getStake account = s.holdings + n := by
  have hput := Kv.sumBy_put (fun _ n => n) s.stakes account n
  have hold : (s.stakes.get account).elim 0 (fun n => n) = s.getStake account := by
    unfold Chain.getStake
    cases s.stakes.get account <;> rfl
  have hstakes : (s.setStake account n).nativeStakes + s.getStake account = s.nativeStakes + n := by
    rw [← hold]
    exact hput
  have hbal : (s.setStake account n).nativeBalances = s.nativeBalances := rfl
  unfold Chain.holdings
  rw [hbal]
  have hescrows : escrowFamilies.map (s.setStake account n).escrowOf =
    escrowFamilies.map s.escrowOf := rfl
  rw [hescrows]
  omega

theorem holdings_withAccount (account : String) (epoch : ℕ) :
    (s.withAccount account epoch).holdings = s.holdings := by
  unfold Chain.withAccount
  split <;> rfl

/-- Rewriting one family trades its old sum for the new one, if it holds anything. -/
theorem holdings_of_family {s s' : Chain} {f : Family} (hb : s'.balances = s.balances)
    (hk : s'.stakes = s.stakes) (hs : ∀ g, g ≠ f → s'.state g = s.state g) :
    if f ∈ escrowFamilies then s'.holdings + s.escrowOf f = s.holdings + s'.escrowOf f
    else s'.holdings = s.holdings := by
  have hbal : s'.nativeBalances = s.nativeBalances := by
    rw [Chain.nativeBalances, hb, Chain.nativeBalances]
  have hstk : s'.nativeStakes = s.nativeStakes := by
    rw [Chain.nativeStakes, hk, Chain.nativeStakes]
  have hne : ∀ g, g ≠ f → s'.escrowOf g = s.escrowOf g := by
    intro g hg
    rw [Chain.escrowOf, hs g hg, Chain.escrowOf]
  unfold Chain.holdings
  rw [hbal, hstk]
  split_ifs with hf
  · have hrest : ((escrowFamilies.erase f).map s'.escrowOf).sum =
        ((escrowFamilies.erase f).map s.escrowOf).sum :=
      congrArg List.sum (List.map_congr_left fun g hg =>
        hne g (nodup_escrowFamilies.mem_erase_iff.1 hg).1)
    have hsum := List.sum_map_erase s.escrowOf hf
    have hsum' := List.sum_map_erase s'.escrowOf hf
    omega
  · have hsame : escrowFamilies.map s'.escrowOf = escrowFamilies.map s.escrowOf :=
      List.map_congr_left fun g hg => hne g fun he => hf (he ▸ hg)
    rw [hsame]

variable {f : Family} (key : String) (v : f.Val)

theorem escrowOf_stateSet :
    (s.stateSet f key v).escrowOf f + s.escrowAt f key = s.escrowOf f + escrowed f v := by
  have h := Kv.sumBy_put (fun _ v => escrowed f v) (s.state f) key v
  simpa [Chain.escrowOf, Chain.escrowAt, Chain.stateGet] using h

theorem holdings_stateSet (hf : f ∈ escrowFamilies) :
    (s.stateSet f key v).holdings + s.escrowAt f key = s.holdings + escrowed f v := by
  have hown := escrowOf_stateSet s key v
  have hfam := holdings_of_family (s.stateSet_balances f key v) (s.stateSet_stakes f key v)
    fun g hg => s.state_stateSet_of_ne hg key v
  rw [if_pos hf] at hfam
  omega

theorem escrowOf_stateDelete :
    (s.stateDelete f key).escrowOf f + s.escrowAt f key = s.escrowOf f := by
  have h := Kv.sumBy_del (fun _ v => escrowed f v) (s.state f) key
  simpa [Chain.escrowOf, Chain.escrowAt, Chain.stateGet] using h

theorem holdings_stateDelete (hf : f ∈ escrowFamilies) :
    (s.stateDelete f key).holdings + s.escrowAt f key = s.holdings := by
  have hown := escrowOf_stateDelete s (f := f) key
  have hfam := holdings_of_family (s.stateDelete_balances f key) (s.stateDelete_stakes f key)
    fun g hg => s.state_stateDelete_of_ne hg key
  rw [if_pos hf] at hfam
  omega

theorem holdings_stateSet_other (hf : f ∉ escrowFamilies) :
    (s.stateSet f key v).holdings = s.holdings := by
  have hfam := holdings_of_family (s.stateSet_balances f key v) (s.stateSet_stakes f key v)
    fun g hg => s.state_stateSet_of_ne hg key v
  rwa [if_neg hf] at hfam

theorem holdings_stateDelete_other (hf : f ∉ escrowFamilies) :
    (s.stateDelete f key).holdings = s.holdings := by
  have hfam := holdings_of_family (s.stateDelete_balances f key) (s.stateDelete_stakes f key)
    fun g hg => s.state_stateDelete_of_ne hg key
  rwa [if_neg hf] at hfam

variable {s key} in
theorem escrowAt_of_get {v : f.Val} (h : s.stateGet f key = some v) :
    s.escrowAt f key = escrowed f v := by
  unfold Chain.escrowAt
  rw [h, Option.elim_some]

/-- A row and a record are different parts of the holdings. -/
theorem getBalance_add_escrowAt_le (hf : f ∈ escrowFamilies) {account token : String}
    (hrow : nativeRow (balanceKey account token) = true) :
    s.getBalance account token + s.escrowAt f key ≤ s.holdings := by
  have hdel := holdings_stateDelete s key hf
  have hle := getBalance_le_holdings (s.stateDelete f key) hrow
  have hsame : (s.stateDelete f key).getBalance account token = s.getBalance account token := rfl
  omega

/-- So are two records of different families. -/
theorem escrowAt_add_escrowAt_le {g : Family} (hf : f ∈ escrowFamilies) (hg : g ∈ escrowFamilies)
    (hne : f ≠ g) (j : String) : s.escrowAt g j + s.escrowAt f key ≤ s.holdings := by
  have hdel := holdings_stateDelete s key hf
  have hdel' := holdings_stateDelete (s.stateDelete f key) j hg
  have hsame : (s.stateDelete f key).escrowAt g j = s.escrowAt g j := by
    unfold Chain.escrowAt Chain.stateGet
    rw [s.state_stateDelete_of_ne hne.symm]
  omega

/-- The records of one family are part of the holdings. -/
theorem escrowOf_le_holdings (hf : f ∈ escrowFamilies) : s.escrowOf f ≤ s.holdings := by
  have := List.single_le_sum (fun _ _ => Nat.zero_le _) _ (List.mem_map_of_mem (f := s.escrowOf) hf)
  unfold Chain.holdings
  omega

end Writes

/-- Where only the families in `W` are written, the holdings move as the balances and the
escrows of these families do. -/
theorem holdings_of_touch (W : List Family) {s t : Chain} (h : Touch { f | f ∈ W } s t) :
    t.holdings + (s.nativeBalances + ((escrowFamilies.filter (· ∈ W)).map s.escrowOf).sum) =
      s.holdings + (t.nativeBalances + ((escrowFamilies.filter (· ∈ W)).map t.escrowOf).sum) := by
  have hsplit : ∀ u : Chain, (escrowFamilies.map u.escrowOf).sum =
      ((escrowFamilies.filter (· ∈ W)).map u.escrowOf).sum +
        ((escrowFamilies.filter fun f => !decide (f ∈ W)).map u.escrowOf).sum := by
    intro u
    rw [← List.sum_append, ← List.map_append]
    exact ((List.filter_append_perm _ _).map _).sum_eq.symm
  have hstakes : t.nativeStakes = s.nativeStakes := by
    rw [Chain.nativeStakes, h.stakes, Chain.nativeStakes]
  have hrest : (escrowFamilies.filter fun f => !decide (f ∈ W)).map t.escrowOf =
      (escrowFamilies.filter fun f => !decide (f ∈ W)).map s.escrowOf := by
    refine List.map_congr_left fun f hf => ?_
    have hnot : f ∉ W := by simpa using (List.mem_filter.1 hf).2
    rw [Chain.escrowOf, h.family f hnot, Chain.escrowOf]
  unfold Chain.holdings
  rw [hsplit s, hsplit t, hstakes, hrest]
  omega

attribute [irreducible] Chain.holdings

/-! ## Programs that pay in -/

/-- Raising the holdings by at most `b`. -/
abbrev Mints {F : Footprint} {α : Type} (b : ℕ) (m : Prog F α) : Prop :=
  Raises (2 ^ 64) Chain.holdings b m

section Mints

variable {F : Footprint} {α : Type} {account token : String} {n b : ℕ}

theorem mints_credit : Mints n (credit account token n : Prog F Unit) := by
  intro s _
  rw [run_credit]
  split
  · dsimp only
    rw [holdings_credited]
    split <;> omega
  · exact Nat.le_add_right _ _

theorem mints_debit (h : balanceKey account nativeToken ∈ F.pays) :
    Mints 0 (debit account nativeToken n h) := by
  intro s _
  rw [run_debit]
  split
  · next hle =>
    have := holdings_debited_native hle
    dsimp only
    omega
  · exact Nat.le_add_right _ _

/-- What was taken may be paid. -/
theorem mints_debit_bind (h : balanceKey account nativeToken ∈ F.pays) {g : Unit → Prog F α}
    (hg : Mints n (g ())) : Mints 0 (debit account nativeToken n h >>= g) := by
  intro s hs
  by_cases hle : n ≤ s.getBalance account nativeToken
  · have hdeb := holdings_debited_native hle
    have := hg (s.debited account nativeToken n) (by omega)
    rw [run_debit_bind hle]
    omega
  · rw [run_bind_error (by rw [run_debit, if_neg hle])]
    exact Nat.le_add_right _ _

theorem mints_ensureAccount {epoch : ℕ} : Mints 0 (ensureAccount account epoch : Prog F Unit) := by
  intro s _
  rw [run_ensureAccount]
  dsimp only
  rw [holdings_withAccount, Nat.add_zero]

theorem mints_stateSet_other {f : Family} (hf : f ∉ escrowFamilies) (key : String) (v : f.Val)
    (h : f.guarded = false ∨ f ∈ F.grants) : Mints 0 (Prog.stateSet f key v h) :=
  raises_update fun s => by rw [holdings_stateSet_other s key v hf, Nat.add_zero]

theorem mints_stateDelete_other {f : Family} (hf : f ∉ escrowFamilies) (key : String)
    (h : f.guarded = false ∨ f ∈ F.grants) : Mints 0 (Prog.stateDelete f key h) :=
  raises_update fun s => by rw [holdings_stateDelete_other s key hf, Nat.add_zero]

theorem mints_when {c : Prop} [Decidable c] {m : Prog F Unit} (h : Mints b m) :
    Mints b (when c m) := h.ite (raises_pure ())

theorem mints_creditIfAny : Mints n (creditIfAny account n : Prog F Unit) :=
  mints_when mints_credit.ignoreErr

theorem mints_mapErr {g : String → String} {m : Prog F α} (h : Mints b m) :
    Mints b (mapErr g m) := by
  intro s hs
  have := h s hs
  unfold mapErr
  cases hr : m.run s with
  | mk r t =>
    rw [hr] at this
    simp only [hr]
    split <;> simp_all

theorem mints_free {Q : Set String} {m : Prog {} α} (h : Mints b m) :
    Mints b (m.free : Prog { pays := Q } α) := h

theorem mints_payingFrom {P Q : Set String} {h : P ⊆ Q} {m : Prog { pays := P } α}
    (hm : Mints b m) : Mints b (m.payingFrom h) := hm

end Mints

/-! ## Programs that pay a record out -/

/-- Besides the record under `key`, `n` more hunits fit. -/
def Room (f : Family) (key : String) (n : ℕ) (s : Chain) : Prop :=
  s.holdings + n < 2 ^ 64 + s.escrowAt f key

/-- With room for it next to the record under `key`, `m` pays out exactly `n` and leaves the
records as they are. -/
def PaysOut {F : Footprint} (f : Family) (key : String) (n : ℕ) (m : Prog F Unit) : Prop :=
  ∀ s, Room f key n s → ∃ t, m.run s = (.ok (), t) ∧ t.holdings = s.holdings + n ∧
    t.state = s.state

section PaysOut

variable {F : Footprint} {f : Family} {key : String} {a b n : ℕ}

theorem paysOut_credit (hf : f ∈ escrowFamilies) (account : String) :
    PaysOut f key n (credit account nativeToken n : Prog F Unit) := by
  intro s hroom
  have hle := getBalance_add_escrowAt_le s key hf (nativeRow_balanceKey account)
  unfold Room at hroom
  refine ⟨s.credited account nativeToken n, ?_, holdings_credited_native s account n, rfl⟩
  rw [run_credit, if_pos (by omega)]

theorem PaysOut.ignoreErr {m : Prog F Unit} (h : PaysOut f key n m) :
    PaysOut f key n m.ignoreErr := by
  intro s hroom
  obtain ⟨t, hrun, ht⟩ := h s hroom
  exact ⟨t, by rw [run_ignoreErr, hrun], ht⟩

theorem paysOut_pure : PaysOut f key 0 (pure () : Prog F Unit) := fun s _ => ⟨s, rfl, (Nat.add_zero _).symm, rfl⟩

/-- Payments of nothing are skipped. -/
theorem PaysOut.whenPos {m : Prog F Unit} (h : PaysOut f key n m) :
    PaysOut f key n (when (0 < n) m) := by
  rcases Nat.eq_zero_or_pos n with rfl | hpos
  · exact paysOut_pure
  · intro s hroom
    rw [run_when, if_pos hpos]
    exact h s hroom

theorem PaysOut.bind {m : Prog F Unit} {g : Unit → Prog F Unit} (hm : PaysOut f key a m)
    (hg : PaysOut f key b (g ())) : PaysOut f key (a + b) (m >>= g) := by
  intro s hroom
  unfold Room at hroom
  obtain ⟨t, hrun, hhold, hstate⟩ := hm s (by unfold Room; omega)
  have hat : t.escrowAt f key = s.escrowAt f key := by
    unfold Chain.escrowAt Chain.stateGet
    rw [hstate]
  obtain ⟨u, hrun', hhold', hstate'⟩ := hg t (by unfold Room; omega)
  exact ⟨u, (run_bind_ok hrun).trans hrun', by omega, hstate'.trans hstate⟩

theorem paysOut_forM {β : Type} {body : β → Prog F PUnit} {l : List β}
    (h : ∀ x ∈ l, PaysOut f key n (body x)) : PaysOut f key (n * l.length) (l.forM body) := by
  induction l with
  | nil => exact paysOut_pure
  | cons x l ih =>
    rw [List.length_cons, Nat.mul_succ, Nat.add_comm]
    exact (h x List.mem_cons_self).bind (ih fun y hy => h y (List.mem_cons_of_mem _ hy))

end PaysOut

/-! ## One account -/

/-- The liquid balance of an account. -/
abbrev native (s : Chain) (a : String) : ℕ := s.getBalance a nativeToken

/-! ### Parts that stay -/

section Congr

variable {s t : Chain}

theorem nativeBalances_congr (h : t.balances = s.balances) :
    t.nativeBalances = s.nativeBalances := by
  rw [Chain.nativeBalances, h, Chain.nativeBalances]

theorem native_congr (h : t.balances = s.balances) (a : String) : native t a = native s a := by
  unfold native Chain.getBalance
  rw [h]

theorem escrowOf_congr {f : Family} (h : t.state f = s.state f) : t.escrowOf f = s.escrowOf f := by
  rw [Chain.escrowOf, h, Chain.escrowOf]

theorem escrowAt_congr {f : Family} (h : t.state f = s.state f) (key : String) :
    t.escrowAt f key = s.escrowAt f key := by
  unfold Chain.escrowAt
  rw [stateGet_of_state h]

end Congr

section Balances

variable {s : Chain} {a b : String} {n : ℕ}

theorem balanceKey_native_inj : balanceKey a nativeToken = balanceKey b nativeToken ↔ a = b := by
  refine ⟨?_, fun h => by rw [h]⟩
  intro h
  have hlist := congrArg String.toList h
  unfold balanceKey at hlist
  rw [String.toList_append, String.toList_append, String.toList_append, String.toList_append] at hlist
  exact String.toList_inj.1 (List.append_cancel_right (List.append_cancel_right hlist))

theorem native_credited :
    native (s.credited a nativeToken n) b = native s b + if a = b then n else 0 := by
  unfold native
  rw [getBalance_eq_row, row_credited, getBalance_eq_row]
  simp only [balanceKey_native_inj, eq_comm]

theorem native_debited :
    native (s.debited a nativeToken n) b = native s b - if a = b then n else 0 := by
  unfold native
  rw [getBalance_eq_row, row_debited, getBalance_eq_row]
  simp only [balanceKey_native_inj, eq_comm]

end Balances

/-! ## Rows of a token -/

/-- Whether a row is a native one depends on its token alone. -/
theorem nativeRow_congr (a b token : String) :
    nativeRow (balanceKey a token) = nativeRow (balanceKey b token) := by
  have hiff : ∀ account : String, nativeRow (balanceKey account token) = true ↔
      ("\x00" ++ nativeToken).toList <:+ '\x00' :: token.toList := by
    intro account
    have hkey : (balanceKey account token).toList = account.toList ++ '\x00' :: token.toList := by
      unfold balanceKey
      rw [String.toList_append, String.toList_append, List.append_assoc]
      rfl
    unfold nativeRow rowOf
    rw [List.isSuffixOf_iff_suffix, hkey]
    constructor
    · intro h
      rcases List.suffix_or_suffix_of_suffix h (List.suffix_append account.toList _) with h | h
      · exact h
      · -- the only NUL of the tag stands in front
        rcases List.suffix_cons_iff.1 h with h | h
        · exact h ▸ List.suffix_refl _
        · exact absurd (h.subset List.mem_cons_self) (by decide)
    · exact fun h => h.trans (List.suffix_append _ _)
  rw [Bool.eq_iff_iff, hiff a, hiff b]

/-- What an amount of a token counts for. -/
def counted (token : String) (n : ℕ) : ℕ := if nativeRow (balanceKey "" token) then n else 0

section Counted

variable {s : Chain} {account token : String} {n : ℕ}

/-- Only what is taken of a native row counts. -/
theorem nativeBalances_credited_counted :
    (s.credited account token n).nativeBalances = s.nativeBalances + counted token n := by
  have h := nativeBalances_setBalance s account token (s.getBalance account token + n)
  rw [nativeRow_congr account "" token] at h
  unfold Chain.credited counted
  split_ifs at h ⊢ <;> omega

theorem nativeBalances_debited_counted (hle : n ≤ s.getBalance account token) :
    (s.debited account token n).nativeBalances + counted token n = s.nativeBalances := by
  have h := nativeBalances_setBalance s account token (s.getBalance account token - n)
  rw [nativeRow_congr account "" token] at h
  unfold Chain.debited counted
  split_ifs at h ⊢ <;> omega

end Counted

end HoneNode
