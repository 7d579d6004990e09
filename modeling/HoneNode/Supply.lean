import HoneNode.Apply

/-!
# Supply — conservation of the value-moving core

The supply of a token is what the accounts hold of it, plus what is parked in
stakes, unbonding records, pending transfers and the role and yield stakes.
Each write moves it by a known amount (`supply_credited`, `supply_stateSet`,
…); a step of the core moves value between two places, and a run that meets
`Sound` at every step keeps the supply of every token.
-/

namespace HoneNode.Supply

open Entry Prog Within

/-! ## The supply of a token -/

/-- The balance rows of a token, whatever the account. -/
def rowOf (token k : String) : Bool := ("\x00" ++ token).toList.isSuffixOf k.toList

/-- What a stored record is worth in a token. -/
def worth (token : String) : (f : Family) → f.Val → ℕ
  | .pendingTransfer, (r : PendingTransfer) => if r.token = token then r.amount else 0
  | .unbonding, (r : Unbonding) => if nativeToken = token then r.amount else 0
  | .roleStake, (r : RoleStake) => if nativeToken = token then r.amount else 0
  | .yieldStake, (r : YieldStake) => if nativeToken = token then r.amount else 0
  | _, _ => 0

/-- What the records of a family hold of a token. -/
def held (token : String) (f : Family) (s : Chain) : ℕ :=
  (s.state f).sumBy fun _ v => worth token f v

def balancesOf (token : String) (s : Chain) : ℕ :=
  s.balances.sumBy fun k n => if rowOf token k then n else 0

def stakesOf (token : String) (s : Chain) : ℕ :=
  s.stakes.sumBy fun _ n => if nativeToken = token then n else 0

def supply (token : String) (s : Chain) : ℕ :=
  balancesOf token s + stakesOf token s + held token .pendingTransfer s +
    held token .unbonding s + held token .roleStake s + held token .yieldStake s

/-! ## Names that keep the rows of tokens apart -/

def NulFree (t : String) : Prop := '\x00' ∉ t.toList

instance (t : String) : Decidable (NulFree t) := inferInstanceAs (Decidable (_ ∉ _))

/-- Without a NUL in either name, a row belongs to one token. -/
theorem rowOf_balanceKey {account t : String} (ha : NulFree account) (ht : NulFree t)
    (token : String) : rowOf token (balanceKey account t) = decide (t = token) := by
  rw [Bool.eq_iff_iff, decide_eq_true_iff, rowOf, List.isSuffixOf_iff_suffix]
  have hkey : (balanceKey account t).toList = account.toList ++ '\x00' :: t.toList := by
    simp [balanceKey]
  have hsuf : ("\x00" ++ token).toList = '\x00' :: token.toList := by simp
  rw [hkey, hsuf]
  constructor
  · rintro ⟨l, hl⟩
    have := (List.append_cons_inj_of_notMem ha ht).1 hl.symm
    exact String.toList_inj.1 this.2.2
  · rintro rfl
    exact List.suffix_append _ _

/-- Names without a NUL can be read off a key. -/
theorem balanceKey_inj_of_nulFree {a t : String} (ha : NulFree a) (ht : NulFree t) {b u : String} :
    balanceKey a t = balanceKey b u ↔ a = b ∧ t = u := by
  have hkey : ∀ x y : String, (balanceKey x y).toList = x.toList ++ '\x00' :: y.toList := by
    intro x y
    simp [balanceKey]
  constructor
  · intro h
    have hlists := congrArg String.toList h
    rw [hkey, hkey] at hlists
    obtain ⟨hab, -, htu⟩ := (List.append_cons_inj_of_notMem ha ht).1 hlists
    exact ⟨String.toList_inj.1 hab, String.toList_inj.1 htu⟩
  · rintro ⟨rfl, rfl⟩
    rfl

/-- Every balance is a 64-bit word, under names without a NUL. -/
def PlainRows (s : Chain) : Prop := ∀ k n, s.balances.get k = some n →
  n < 2 ^ 64 ∧ ∃ account token, NulFree account ∧ NulFree token ∧ k = balanceKey account token

/-! ## What a write does to the supply -/

section Writes

variable (s : Chain) {account t : String} (n : ℕ) (token : String)

/-- Overwriting a row trades the old amount for the new one. -/
theorem balancesOf_setBalance (ha : NulFree account) (ht : NulFree t) :
    balancesOf token (s.setBalance account t n) +
        (if t = token then s.getBalance account t else 0) =
      balancesOf token s + if t = token then n else 0 := by
  have h := Kv.sumBy_put (fun k n => if rowOf token k then n else 0) s.balances
    (balanceKey account t) n
  have hold : (s.balances.get (balanceKey account t)).elim 0 (fun n => if t = token then n else 0)
      = if t = token then s.getBalance account t else 0 := by
    rw [Chain.getBalance]
    cases s.balances.get (balanceKey account t) <;> simp
  simp only [rowOf_balanceKey ha ht, decide_eq_true_eq] at h
  rw [hold] at h
  exact h

theorem supply_credited (ha : NulFree account) (ht : NulFree t) :
    supply token (s.credited account t n) = supply token s + if t = token then n else 0 := by
  have h := balancesOf_setBalance s (s.getBalance account t + n) token ha ht
  have hrest : ∀ f, held token f (s.credited account t n) = held token f s := fun _ => rfl
  have hstakes : stakesOf token (s.credited account t n) = stakesOf token s := rfl
  have hbal : balancesOf token (s.credited account t n) =
      balancesOf token (s.setBalance account t (s.getBalance account t + n)) := rfl
  simp only [supply, hrest, hstakes, hbal]
  split_ifs at h ⊢ <;> omega

variable {s n} in
theorem supply_debited (ha : NulFree account) (ht : NulFree t) (hle : n ≤ s.getBalance account t) :
    supply token (s.debited account t n) + (if t = token then n else 0) = supply token s := by
  have h := balancesOf_setBalance s (s.getBalance account t - n) token ha ht
  have hrest : ∀ f, held token f (s.debited account t n) = held token f s := fun _ => rfl
  have hstakes : stakesOf token (s.debited account t n) = stakesOf token s := rfl
  have hbal : balancesOf token (s.debited account t n) =
      balancesOf token (s.setBalance account t (s.getBalance account t - n)) := rfl
  simp only [supply, hrest, hstakes, hbal]
  split_ifs at h ⊢ <;> omega

theorem supply_setStake (account : String) :
    supply token (s.setStake account n) + (if nativeToken = token then s.getStake account else 0) =
      supply token s + if nativeToken = token then n else 0 := by
  have h := Kv.sumBy_put (fun _ n => if nativeToken = token then n else 0) s.stakes account n
  have hold : (s.stakes.get account).elim 0 (fun n => if nativeToken = token then n else 0)
      = if nativeToken = token then s.getStake account else 0 := by
    rw [Chain.getStake]
    cases s.stakes.get account <;> simp
  rw [hold] at h
  have hrest : ∀ f, held token f (s.setStake account n) = held token f s := fun _ => rfl
  have hbal : balancesOf token (s.setStake account n) = balancesOf token s := rfl
  have hstakes : stakesOf token (s.setStake account n) =
    Kv.sumBy (fun _ n => if nativeToken = token then n else 0) (s.stakes.put account n) := rfl
  have hstakes' : stakesOf token s =
    Kv.sumBy (fun _ n => if nativeToken = token then n else 0) s.stakes := rfl
  simp only [supply, hrest, hbal]
  omega

end Writes

/-- What the record under a key is worth. -/
def worthAt (token : String) (f : Family) (key : String) (s : Chain) : ℕ :=
  (s.stateGet f key).elim 0 (worth token f)

section Records

variable (s : Chain) {f : Family} (token key : String) (v : f.Val)

/-- Records outside the four families are worth nothing. -/
theorem worth_eq_zero {f : Family} (v : f.Val) (hp : f ≠ .pendingTransfer) (hu : f ≠ .unbonding) (hr : f ≠ .roleStake)
    (hy : f ≠ .yieldStake) : worth token f v = 0 := by
  unfold worth
  split <;> simp_all

theorem sumBy_zero {ν : Type} (m : Kv String ν) {g : String → ν → ℕ} (h : ∀ k v, g k v = 0) :
    m.sumBy g = 0 := by
  unfold Kv.sumBy
  induction m.bindings with
  | nil => rfl
  | cons b rest ih => simp [Kv.sumList, h, ih]

/-- Only the rewritten family counts. -/
theorem supply_of_family {s' : Chain} (hb : s'.balances = s.balances) (hk : s'.stakes = s.stakes)
    (hs : ∀ g, g ≠ f → s'.state g = s.state g) :
    supply token s' + held token f s = supply token s + held token f s' := by
  have hne : ∀ g, g ≠ f → held token g s' = held token g s := by
    intro g hg
    rw [held, hs g hg, held]
  have hbal : balancesOf token s' = balancesOf token s := by rw [balancesOf, hb, balancesOf]
  have hstk : stakesOf token s' = stakesOf token s := by rw [stakesOf, hk, stakesOf]
  unfold supply
  rw [hbal, hstk]
  by_cases hp : f = .pendingTransfer
  · subst hp
    rw [hne .unbonding (by decide), hne .roleStake (by decide), hne .yieldStake (by decide)]
    omega
  by_cases hu : f = .unbonding
  · subst hu
    rw [hne .pendingTransfer (by decide), hne .roleStake (by decide), hne .yieldStake (by decide)]
    omega
  by_cases hr : f = .roleStake
  · subst hr
    rw [hne .pendingTransfer (by decide), hne .unbonding (by decide), hne .yieldStake (by decide)]
    omega
  by_cases hy : f = .yieldStake
  · subst hy
    rw [hne .pendingTransfer (by decide), hne .unbonding (by decide), hne .roleStake (by decide)]
    omega
  have hzero : ∀ u : Chain, held token f u = 0 := fun u =>
    sumBy_zero _ fun _ v => worth_eq_zero token v hp hu hr hy
  rw [hne _ (Ne.symm hp), hne _ (Ne.symm hu), hne _ (Ne.symm hr), hne _ (Ne.symm hy), hzero, hzero]

theorem supply_stateSet :
    supply token (s.stateSet f key v) + worthAt token f key s =
      supply token s + worth token f v := by
  have h := Kv.sumBy_put (fun _ v => worth token f v) (s.state f) key v
  have hheld : held token f (s.stateSet f key v) + worthAt token f key s =
      held token f s + worth token f v := by
    simpa [held, worthAt, Chain.stateGet] using h
  have hfam := supply_of_family s token (s.stateSet_balances f key v) (s.stateSet_stakes f key v)
    fun g hg => s.state_stateSet_of_ne hg key v
  omega

theorem supply_stateDelete :
    supply token (s.stateDelete f key) + worthAt token f key s = supply token s := by
  have h := Kv.sumBy_del (fun _ v => worth token f v) (s.state f) key
  have hheld : held token f (s.stateDelete f key) + worthAt token f key s = held token f s := by
    simpa [held, worthAt, Chain.stateGet] using h
  have hfam := supply_of_family s token (s.stateDelete_balances f key) (s.stateDelete_stakes f key)
    fun g hg => s.state_stateDelete_of_ne hg key
  omega

/-- Records of the other families are not value. -/
theorem supply_stateSet_worthless (h : ∀ v, worth token f v = 0) :
    supply token (s.stateSet f key v) = supply token s := by
  have hset := supply_stateSet s token key v
  have hold : worthAt token f key s = 0 := by
    unfold worthAt
    cases s.stateGet f key <;> simp [h]
  rw [hold, h] at hset
  exact hset

@[simp] theorem supply_touched (account : String) (epoch : ℕ) :
    supply token (s.touched account epoch) = supply token s := by
  unfold Chain.touched
  split
  · exact supply_stateSet_worthless _ _ _ _ fun _ => rfl
  · rfl

@[simp] theorem supply_withAccount (account : String) (epoch : ℕ) :
    supply token (s.withAccount account epoch) = supply token s := by
  unfold Chain.withAccount
  split <;> rfl

@[simp] theorem supply_bumpNonce (account : String) :
    supply token (s.bumpNonce account) = supply token s := by
  unfold Chain.bumpNonce
  split <;> rfl

end Records

/-! ## The moves of the core and when they are sound -/

/-- A step of the value-moving core. -/
inductive Move where
  | transfer (p : Entry.Transfer)
  | stake (p : Stake)
  | unstake (p : Unstake)
  | tokenAccept (p : TokenAccept)
  | tokenReject (p : TokenReject)
  | nodeRoleStake (p : NodeRoleStake)
  | nodeRoleUnstake (p : NodeRoleUnstake)
  | deviceYieldStake (p : DeviceYieldStake)
  | deviceYieldUnstake (p : DeviceYieldUnstake)
  | drainUnbonding (epoch : ℕ)
  | sweepPending (epoch : ℕ)

def Move.exec (env : Env) (now : ℕ) : Move → Chain → Except Fault Unit × Chain
  | .transfer p => applyEntry env now (.transfer p)
  | .stake p => applyEntry env now (.stake p)
  | .unstake p => applyEntry env now (.unstake p)
  | .tokenAccept p => applyEntry env now (.tokenAccept p)
  | .tokenReject p => applyEntry env now (.tokenReject p)
  | .nodeRoleStake p => applyEntry env now (.nodeRoleStake p)
  | .nodeRoleUnstake p => applyEntry env now (.nodeRoleUnstake p)
  | .deviceYieldStake p => applyEntry env now (.deviceYieldStake p)
  | .deviceYieldUnstake p => applyEntry env now (.deviceYieldUnstake p)
  | .drainUnbonding epoch => (HoneNode.drainUnbonding epoch).run
  | .sweepPending epoch => (sweepExpiredPendingTransfers epoch).run

/-- What is queued, staked on a role or staked on a device under a key. -/
def queuedAt (s : Chain) (key : String) : ℕ := ((s.stateGet .unbonding key).map (·.amount)).getD 0

def roleStakedAt (s : Chain) (key : String) : ℕ :=
  ((s.stateGet .roleStake key).map (·.amount)).getD 0

def yieldStakedAt (s : Chain) (key : String) : ℕ :=
  ((s.stateGet .yieldStake key).map (·.amount)).getD 0

/-- A transfer that waits for the recipient to accept the token. -/
def Parked (s : Chain) (p : Entry.Transfer) : Prop :=
  p.token ≠ nativeToken ∧ s.tokenApproved p.to_ p.token p.from_ = false ∧
    s.spamGate p.to_ p.token = none

/-- A pending record that the sweep of `epoch` refunds. -/
def Expired (epoch : ℕ) (r : PendingTransfer) : Prop :=
  r.expiresEpoch ≤ epoch ∧ r.from_ ≠ "" ∧ r.token ≠ "" ∧ r.amount ≠ 0

instance (epoch : ℕ) (r : PendingTransfer) : Decidable (Expired epoch r) :=
  inferInstanceAs (Decidable (_ ∧ _))

/-- What the sweep of `epoch` refunds to a balance row. -/
def refundsTo (epoch : ℕ) (k : String) : List (String × PendingTransfer) → ℕ
  | [] => 0
  | r :: rest =>
    (if Expired epoch r.2 ∧ balanceKey r.2.from_ r.2.token = k then r.2.amount else 0) +
      refundsTo epoch k rest

def pendingRows (s : Chain) : List (String × PendingTransfer) :=
  (s.state .pendingTransfer).scan (hasPrefix "")

/-- What keeps a move from losing or minting value: no NUL in the names it writes
balances for, a fresh key for a parked transfer, a pending record of the token that is
paid out, and sums that fit where they are not checked. -/
def Sound (s : Chain) : Move → Prop
  | .transfer p => NulFree p.from_ ∧ NulFree p.to_ ∧ NulFree p.token ∧
      (∀ fee feeToken, s.spamGate p.to_ p.token = some (.onChain fee feeToken) →
        NulFree feeToken) ∧
      (Parked s p → s.stateGet .pendingTransfer (pendingKey p.to_ p.token p.from_ p.nonce) = none)
  | .stake p => NulFree p.account
  | .unstake p =>
      queuedAt s (unbondingKey (wrapAdd p.epoch unbondingEpochs) p.account) + p.amount < 2 ^ 64
  | .tokenAccept p => NulFree p.to_ ∧ NulFree p.token ∧
      ∀ r ∈ s.stateGet .pendingTransfer (pendingKey p.to_ p.token p.from_ p.pendingNonce),
        r.token = p.token
  | .tokenReject p => NulFree p.from_ ∧ NulFree p.token ∧
      ∀ r ∈ s.stateGet .pendingTransfer (pendingKey p.to_ p.token p.from_ p.pendingNonce),
        r.token = p.token
  | .nodeRoleStake p => NulFree p.staker ∧
      roleStakedAt s (roleKey p.role p.node p.staker) + p.amount < 2 ^ 64
  | .nodeRoleUnstake p => NulFree p.staker
  | .deviceYieldStake p => NulFree p.staker ∧
      yieldStakedAt s (yieldKey p.deviceSerial p.staker) + p.amount < 2 ^ 64
  | .deviceYieldUnstake p => NulFree p.staker
  | .drainUnbonding epoch =>
      ∀ r ∈ (s.state .unbonding).scan (hasPrefix s!"{epoch}:"), 0 < r.2.amount →
        NulFree r.2.account
  | .sweepPending epoch =>
      (∀ r ∈ pendingRows s, Expired epoch r.2 → NulFree r.2.from_ ∧ NulFree r.2.token) ∧
        ∀ k, s.row k + refundsTo epoch k (pendingRows s) < 2 ^ 64

/-! ## Each move keeps the supply -/

theorem nulFree_nativeToken : NulFree nativeToken := by decide

section Native

variable (token : String) (s : Chain) (key : String)

theorem worthAt_unbonding :
    worthAt token .unbonding key s = if nativeToken = token then queuedAt s key else 0 := by
  unfold worthAt queuedAt
  cases s.stateGet .unbonding key <;> simp [worth]

theorem worthAt_roleStake :
    worthAt token .roleStake key s = if nativeToken = token then roleStakedAt s key else 0 := by
  unfold worthAt roleStakedAt
  cases s.stateGet .roleStake key <;> simp [worth]

theorem worthAt_yieldStake :
    worthAt token .yieldStake key s = if nativeToken = token then yieldStakedAt s key else 0 := by
  unfold worthAt yieldStakedAt
  cases s.stateGet .yieldStake key <;> simp [worth]

/-- A sum that fits is not cut. -/
theorem native_wrapAdd {old n : ℕ} (hfit : old + n < 2 ^ 64) :
    (if nativeToken = token then wrapAdd old n else 0) =
      (if nativeToken = token then old else 0) + if nativeToken = token then n else 0 := by
  rw [wrapAdd, Nat.mod_eq_of_lt hfit]
  split_ifs <;> rfl

/-- Adding to a record. -/
theorem supply_stateSet_add {f : Family} {v : f.Val} {d : ℕ}
    (h : worth token f v = worthAt token f key s + d) :
    supply token (s.stateSet f key v) = supply token s + d := by
  have hset := supply_stateSet s token key v
  omega

/-- Taking from a record. -/
theorem supply_stateSet_sub {f : Family} {v : f.Val} {d : ℕ}
    (h : worth token f v + d = worthAt token f key s) :
    supply token (s.stateSet f key v) + d = supply token s := by
  have hset := supply_stateSet s token key v
  omega

end Native

section Moves

variable {env : Env} {now : ℕ} {s s' : Chain} (token : String)

variable {p : Entry.Transfer}

theorem supply_deliverTransfer {u : Chain}
    (h : (deliverTransfer p).run u = (.ok (), s')) (hsound : Sound u (.transfer p)) :
    supply token s' = supply token u + if p.token = token then p.amount else 0 := by
  obtain ⟨hfrom, hto, htok, hfee, hfree⟩ := hsound
  unfold deliverTransfer at h
  rw [run_inspect_bind, run_inspect_bind] at h
  split at h
  · -- native or approved: credited at once
    obtain ⟨-, rfl⟩ := ok_credit.1 h
    exact supply_credited u p.amount token hto htok
  · next happ =>
    split at h
    · -- the fee goes from sender to recipient, then the amount arrives
      next fee feeToken hgate =>
      have hft := hfee fee feeToken hgate
      rw [run_inspect_bind, ok_ensure_bind, ok_debit_bind, ok_credit_bind,
        ok_credit] at h
      obtain ⟨-, hle, -, -, rfl⟩ := h
      rw [supply_credited _ _ token hto htok, supply_credited _ _ token hto hft,
        ← supply_debited token hfrom hft hle]
    · exact absurd h (by simp)
    · -- parked under a fresh key
      next hgate =>
      rw [run_stateSet] at h
      cases h
      have hpark : Parked u p := by
        simp only [Bool.or_eq_true, decide_eq_true_eq, not_or, Bool.not_eq_true] at happ
        exact ⟨happ.1, happ.2, hgate⟩
      have hset := supply_stateSet u (f := .pendingTransfer) token
        (pendingKey p.to_ p.token p.from_ p.nonce)
        { from_ := p.from_, to_ := p.to_, token := p.token, amount := p.amount,
          expiresEpoch := wrapAdd p.epoch 30 }
      rw [worthAt, hfree hpark] at hset
      exact hset

/-- Soundness of a transfer reads the gates, the approvals and the pending records. -/
theorem Sound.transfer_congr {u : Chain} (hg : u.state .spamGate = s.state .spamGate)
    (ha : u.state .tokenApproval = s.state .tokenApproval)
    (hp : u.state .pendingTransfer = s.state .pendingTransfer) (h : Sound s (.transfer p)) :
    Sound u (.transfer p) := by
  simpa only [Sound, Parked, Chain.spamGate, Chain.tokenApproved, Chain.stateGet, hg, ha, hp] using h

theorem supply_transfer (hsound : Sound s (.transfer p))
    (h : applyEntry env now (.transfer p) s = (.ok (), s')) :
    supply token s' = supply token s := by
  rw [applyEntry_transfer] at h
  split at h
  · next t hrun =>
    cases h
    unfold applyTransfer at hrun
    rw [run_touchAlive_bind, ok_ensure_bind, ok_checkNonce_bind,
      run_ensureAccount_bind, ok_debit_bind] at hrun
    obtain ⟨-, -, hle, hrun⟩ := hrun
    have hdel := supply_deliverTransfer token hrun
      (hsound.transfer_congr (by simp [Chain.state_touched]) (by simp [Chain.state_touched])
        (by simp [Chain.state_touched]))
    have hdeb := supply_debited token hsound.1 hsound.2.2.1 hle
    simp only [supply_withAccount, supply_touched] at hdeb
    rw [supply_bumpNonce, hdel, hdeb]
  · cases h

theorem supply_stake {p : Stake} (hsound : Sound s (.stake p))
    (h : (applyStake p).run s = (.ok (), s')) : supply token s' = supply token s := by
  unfold applyStake at h
  rw [run_touchAlive_bind, ok_ensure_bind, ok_debit_bind, run_addStake] at h
  obtain ⟨-, hle, h⟩ := h
  split at h
  · cases h
    have hdeb := supply_debited token hsound nulFree_nativeToken hle
    have hstk := supply_setStake ((s.touched p.account p.epoch).debited p.account nativeToken
      p.amount) (((s.touched p.account p.epoch).debited p.account nativeToken p.amount).getStake
      p.account + p.amount) token p.account
    rw [supply_touched] at hdeb
    split_ifs at hdeb hstk <;> omega
  · cases h

theorem supply_unstake {p : Unstake} (hsound : Sound s (.unstake p))
    (h : (applyUnstake p).run s = (.ok (), s')) : supply token s' = supply token s := by
  unfold applyUnstake queueUnbonding at h
  rw [run_touchAlive_bind, run_inspect_bind, ok_ensure_bind,
    run_bind_ok (run_setStake _ _ _ _), run_stateGet_bind, run_stateSet] at h
  obtain ⟨hle, h⟩ := h
  cases h
  have hstk := supply_setStake (s.touched p.account p.epoch)
    ((s.touched p.account p.epoch).getStake p.account - p.amount) token p.account
  rw [supply_stateSet_add token _ _ (d := if nativeToken = token then p.amount else 0)]
  · rw [supply_touched] at hstk
    split_ifs at hstk ⊢ <;> omega
  · rw [worthAt_unbonding, ← native_wrapAdd token]
    · rfl
    · rw [queuedAt, Chain.stateGet_setStake, Chain.stateGet_touched _ _ _ _ (by decide)]
      exact hsound

theorem supply_settlePending {key account t : String} (ha : NulFree account) (ht : NulFree t)
    (hrec : ∀ r ∈ s.stateGet .pendingTransfer key, r.token = t)
    (h : (settlePending key account t).run s = (.ok (), s')) :
    supply token s' = supply token s := by
  unfold settlePending at h
  rw [run_stateGet_bind, ok_orBail_bind] at h
  obtain ⟨r, hr, h⟩ := h
  rw [run_stateDelete_bind, ok_credit] at h
  obtain ⟨-, rfl⟩ := h
  have hdel := supply_stateDelete s (f := .pendingTransfer) token key
  rw [worthAt, hr, Option.elim_some, worth, hrec r hr] at hdel
  rw [supply_credited _ _ token ha ht, hdel]

/-- Staking on a role, once the staker is debited. -/
theorem supply_roleStake_add {u : Chain} {key node role staker : String} {amount epoch : ℕ}
    (hfit : roleStakedAt u key + amount < 2 ^ 64) :
    supply token (u.stateSet .roleStake key ⟨node, role, staker,
        wrapAdd (((u.stateGet .roleStake key).map (·.amount)).getD 0) amount, some epoch⟩) =
      supply token u + if nativeToken = token then amount else 0 := by
  refine supply_stateSet_add token u key ?_
  rw [worthAt_roleStake, ← native_wrapAdd token hfit]
  rfl

theorem supply_nodeRoleStake {p : NodeRoleStake} (hsound : Sound s (.nodeRoleStake p))
    (h : (applyNodeRoleStake p).run s = (.ok (), s')) : supply token s' = supply token s := by
  obtain ⟨hfree, hfit⟩ := hsound
  unfold applyNodeRoleStake at h
  rw [run_ensureAccount_bind, ok_debit_bind, run_stateGet_bind] at h
  obtain ⟨hle, h⟩ := h
  have hdeb := supply_debited token hfree nulFree_nativeToken hle
  rw [supply_withAccount] at hdeb
  rw [run_bind_eq_ok] at h
  obtain ⟨⟨⟩, u, hwhen, h⟩ := h
  rw [run_stateGet_bind, run_stateSet] at h
  cases h
  rw [run_when] at hwhen
  -- with or without the opt-in record, which is worth nothing
  split at hwhen
  · cases hwhen
    rw [supply_roleStake_add token, supply_stateSet_worthless _ _ _ _ fun _ => rfl, hdeb]
    simpa only [roleStakedAt, stateGet_stateSet_of_ne _ (show Family.roleStake ≠ .roleOpt by decide),
      Chain.stateGet_debited, Chain.stateGet_withAccount] using hfit
  · cases hwhen
    rw [supply_roleStake_add token, hdeb]
    simpa only [roleStakedAt, Chain.stateGet_debited, Chain.stateGet_withAccount] using hfit

theorem supply_nodeRoleUnstake {p : NodeRoleUnstake} (hsound : Sound s (.nodeRoleUnstake p))
    (h : (applyNodeRoleUnstake p).run s = (.ok (), s')) : supply token s' = supply token s := by
  unfold applyNodeRoleUnstake at h
  rw [run_stateGet_bind, ok_ensure_bind] at h
  obtain ⟨hle, h⟩ := h
  have hworth := worthAt_roleStake token s (roleKey p.role p.node p.staker)
  unfold roleStakedAt at hworth
  split at h
  · next hzero =>
    rw [run_stateDelete_bind, ok_credit] at h
    obtain ⟨-, rfl⟩ := h
    have hdel := supply_stateDelete s (f := .roleStake) token (roleKey p.role p.node p.staker)
    rw [supply_credited _ _ token hsound nulFree_nativeToken]
    split_ifs at hworth ⊢ <;> omega
  · next hpos =>
    rw [run_stateSet_bind, ok_credit] at h
    obtain ⟨-, rfl⟩ := h
    rw [supply_credited _ _ token hsound nulFree_nativeToken, supply_stateSet_sub]
    rw [hworth]
    simp only [worth]
    split_ifs <;> omega

theorem supply_deviceYieldStake {p : DeviceYieldStake} (hsound : Sound s (.deviceYieldStake p))
    (h : (applyDeviceYieldStake p).run s = (.ok (), s')) : supply token s' = supply token s := by
  obtain ⟨hfree, hfit⟩ := hsound
  unfold applyDeviceYieldStake at h
  rw [run_ensureAccount_bind, ok_debit_bind, run_stateGet_bind,
    run_stateSet] at h
  obtain ⟨hle, h⟩ := h
  cases h
  have hdeb := supply_debited token hfree nulFree_nativeToken hle
  rw [supply_withAccount] at hdeb
  rw [supply_stateSet_add token _ _ (d := if nativeToken = token then p.amount else 0), hdeb]
  rw [worthAt_yieldStake, ← native_wrapAdd token]
  · rfl
  · simpa only [yieldStakedAt, Chain.stateGet_debited, Chain.stateGet_withAccount] using hfit

theorem supply_deviceYieldUnstake {p : DeviceYieldUnstake}
    (hsound : Sound s (.deviceYieldUnstake p))
    (h : (applyDeviceYieldUnstake p).run s = (.ok (), s')) : supply token s' = supply token s := by
  unfold applyDeviceYieldUnstake at h
  rw [run_stateGet_bind, ok_ensure_bind] at h
  obtain ⟨hle, h⟩ := h
  have hworth := worthAt_yieldStake token s (yieldKey p.deviceSerial p.staker)
  unfold yieldStakedAt at hworth
  split at h
  · next hzero =>
    rw [run_stateDelete_bind, ok_credit] at h
    obtain ⟨-, rfl⟩ := h
    have hdel := supply_stateDelete s (f := .yieldStake) token (yieldKey p.deviceSerial p.staker)
    rw [supply_credited _ _ token hsound nulFree_nativeToken]
    split_ifs at hworth ⊢ <;> omega
  · next hpos =>
    rw [run_stateSet_bind, ok_credit] at h
    obtain ⟨-, rfl⟩ := h
    rw [supply_credited _ _ token hsound nulFree_nativeToken, supply_stateSet_sub]
    rw [hworth]
    simp only [worth]
    split_ifs <;> omega

/-! ### Sweeps -/

/-- The rows still to come are bound as they were scanned. -/
structure Pending {f : Family} (rows : List (String × f.Val)) (s : Chain) : Prop where
  bound : ∀ r ∈ rows, s.stateGet f r.1 = some r.2
  distinct : rows.Pairwise (fun a b => a.1 ≠ b.1)

theorem pending_scan (f : Family) (q : String → Bool) (s : Chain) :
    Pending ((s.state f).scan q) s where
  bound := fun r hr => (Kv.mem_scan.1 hr).1
  distinct := by
    refine List.Pairwise.imp (fun hlt => ne_of_lt hlt) ?_
    exact (s.state f).sorted.filter _

theorem Pending.tail {f : Family} {r : String × f.Val} {rest : List (String × f.Val)} {t : Chain}
    (h : Pending (r :: rest) s) (ht : ∀ k, k ≠ r.1 → t.stateGet f k = s.stateGet f k) :
    Pending rest t where
  bound := by
    intro q hq
    rw [ht q.1 (Ne.symm ((List.pairwise_cons.1 h.distinct).1 q hq))]
    exact h.bound q (List.mem_cons_of_mem _ hq)
  distinct := (List.pairwise_cons.1 h.distinct).2

/-- A loop over all rows of a family whose body rewrites its own row and keeps `I`. -/
theorem run_rows {W : Footprint} {f : Family} {body : String × f.Val → Prog W PUnit}
    (g : f.Val → f.Val) (I : List (String × f.Val) → Chain → Prop)
    (hbody : ∀ row rest t, row ∈ (s.state f).scan (hasPrefix "") → I (row :: rest) t →
      t.stateGet f row.1 = some row.2 → ∃ u, (body row).run t = (.ok ⟨⟩, u) ∧ I rest u ∧
        u.stateGet f row.1 = some (g row.2) ∧ ∀ k, k ≠ row.1 → u.stateGet f k = t.stateGet f k)
    (hstart : I ((s.state f).scan (hasPrefix "")) s) :
    ∃ u, (((s.state f).scan (hasPrefix "")).forM body).run s = (.ok ⟨⟩, u) ∧ I [] u ∧
      ∀ k, u.stateGet f k = (s.stateGet f k).map g := by
  have hall : ∀ k v, s.stateGet f k = some v →
      (k, v) ∈ (s.state f).scan (hasPrefix "") := fun k v hget =>
    Kv.mem_scan.2 ⟨hget, by simp [hasPrefix]⟩
  -- rows to come are as scanned, all others are done
  obtain ⟨u, hrun, -, hI, -, hdone⟩ := run_forM_of_invariant body
    (fun rest t => (∀ r ∈ rest, r ∈ (s.state f).scan (hasPrefix "")) ∧ I rest t ∧
      Pending rest t ∧ ∀ k, (∀ r ∈ rest, r.1 ≠ k) → t.stateGet f k = (s.stateGet f k).map g)
    (fun row rest t h => by
      obtain ⟨hsub, hI, hpend, hdone⟩ := h
      have hrow := hsub row List.mem_cons_self
      obtain ⟨u, hrun, hI', hset, hkeep⟩ := hbody row rest t hrow hI
        (hpend.bound row List.mem_cons_self)
      refine ⟨u, hrun, fun r hr => hsub r (List.mem_cons_of_mem _ hr), hI', hpend.tail hkeep, ?_⟩
      intro k hk
      by_cases heq : row.1 = k
      · subst heq
        have hfound : s.stateGet f row.1 = some row.2 := (Kv.mem_scan.1 hrow).1
        rw [hset, hfound, Option.map_some]
      · rw [hkeep k (Ne.symm heq)]
        exact hdone k (List.forall_mem_cons.2 ⟨heq, hk⟩))
    (l := (s.state f).scan (hasPrefix "")) (s := s)
    ⟨fun _ h => h, hstart, pending_scan f _ s, fun k hk => by
      cases hget : s.stateGet f k with
      | none => rfl
      | some v => exact absurd rfl (hk _ (hall k v hget))⟩
  exact ⟨u, hrun, hI, fun k => hdone k nofun⟩

theorem supply_releaseUnbonding {r : String × Unbonding} (hfree : NulFree r.2.account)
    (hr : s.stateGet .unbonding r.1 = some r.2) :
    ∃ t, (releaseUnbonding r.1 r.2).run s = (.ok (), t) ∧ supply token t = supply token s ∧
      ∀ k, k ≠ r.1 → t.stateGet .unbonding k = s.stateGet .unbonding k := by
  unfold releaseUnbonding
  rw [run_ignoreErr]
  refine ⟨_, rfl, ?_⟩
  by_cases hfit : s.getBalance r.2.account nativeToken + r.2.amount < 2 ^ 64
  · rw [run_credit_bind hfit, run_stateDelete]
    have hdel := supply_stateDelete (s.credited r.2.account nativeToken r.2.amount)
      (f := .unbonding) token r.1
    rw [worthAt, Chain.stateGet_credited, hr, Option.elim_some, worth,
      supply_credited _ _ token hfree nulFree_nativeToken] at hdel
    refine ⟨Nat.add_right_cancel hdel, ?_⟩
    intro k hk
    rw [stateGet_stateDelete, if_neg (Ne.symm hk), Chain.stateGet_credited]
  · rw [run_bind_error (by rw [run_credit, if_neg hfit])]
    simp

theorem supply_drainUnbonding {epoch : ℕ} (hsound : Sound s (.drainUnbonding epoch))
    (h : (HoneNode.drainUnbonding epoch).run s = (.ok (), s')) :
    supply token s' = supply token s := by
  unfold HoneNode.drainUnbonding at h
  rw [run_stateScan_bind] at h
  -- every round releases one record that is still there, or leaves it
  have hloop := run_forM_of_invariant
    (fun r : String × Unbonding => (when (0 < r.2.amount) (releaseUnbonding r.1 r.2) :
      Prog {} Unit))
    (fun rows t => supply token t = supply token s ∧ Pending (f := .unbonding) rows t ∧
      ∀ r ∈ rows, 0 < r.2.amount → NulFree r.2.account) ?_ ⟨rfl, pending_scan .unbonding _ s, hsound⟩
  · obtain ⟨t, ht, hsup, -⟩ := hloop
    rw [h] at ht
    cases ht
    exact hsup
  · rintro r rest t ⟨hsup, hpend, hfree⟩
    rw [run_when]
    have hrest : ∀ q ∈ rest, 0 < q.2.amount → NulFree q.2.account :=
      fun q hq => hfree q (List.mem_cons_of_mem _ hq)
    split
    · next hpos =>
      obtain ⟨u, hu, hsupu, hget⟩ := supply_releaseUnbonding token
        (hfree r List.mem_cons_self hpos) (hpend.bound r List.mem_cons_self)
      exact ⟨u, hu, hsupu.trans hsup, hpend.tail hget, hrest⟩
    · exact ⟨t, rfl, hsup, hpend.tail fun _ _ => rfl, hrest⟩

theorem supply_expirePending {r : String × PendingTransfer} (hfrom : NulFree r.2.from_)
    (htok : NulFree r.2.token) (hr : s.stateGet .pendingTransfer r.1 = some r.2)
    (hfit : s.getBalance r.2.from_ r.2.token + r.2.amount < 2 ^ 64) :
    ∃ t, (expirePending r.1 r.2).run s = (.ok (), t) ∧ supply token t = supply token s ∧
      (∀ k, k ≠ r.1 → t.stateGet .pendingTransfer k = s.stateGet .pendingTransfer k) ∧
      ∀ k, t.row k = s.row k + if balanceKey r.2.from_ r.2.token = k then r.2.amount else 0 := by
  unfold expirePending
  rw [run_stateDelete_bind, run_ignoreErr, run_credit, if_pos (by exact hfit)]
  refine ⟨_, rfl, ?_, ?_, ?_⟩
  · have hdel := supply_stateDelete s (f := .pendingTransfer) token r.1
    rw [worthAt, hr, Option.elim_some, worth] at hdel
    rw [supply_credited _ _ token hfrom htok, hdel]
  · intro k hk
    rw [Chain.stateGet_credited, stateGet_stateDelete, if_neg (Ne.symm hk)]
  · intro k
    rw [row_credited]
    simp only [eq_comm]
    rfl

theorem supply_sweepPending {epoch : ℕ} (hsound : Sound s (.sweepPending epoch))
    (h : (sweepExpiredPendingTransfers epoch).run s = (.ok (), s')) :
    supply token s' = supply token s := by
  unfold sweepExpiredPendingTransfers at h
  rw [run_stateScan_bind] at h
  -- the refunds still to come always fit
  have hloop := run_forM_of_invariant
    (fun r : String × PendingTransfer => (when (Expired epoch r.2) (expirePending r.1 r.2) :
      Prog {} Unit))
    (fun rows t => supply token t = supply token s ∧ Pending (f := .pendingTransfer) rows t ∧
      (∀ r ∈ rows, Expired epoch r.2 → NulFree r.2.from_ ∧ NulFree r.2.token) ∧
      ∀ k, t.row k + refundsTo epoch k rows < 2 ^ 64) ?_ ⟨rfl, pending_scan .pendingTransfer _ s, hsound.1, hsound.2⟩
  · obtain ⟨t, ht, hsup, -⟩ := hloop
    have heq : (.ok (), s') = ((.ok (), t) : Except Fault Unit × Chain) := h.symm.trans ht
    cases heq
    exact hsup
  · rintro r rest t ⟨hsup, hpend, hfree, hfit⟩
    rw [run_when]
    have hrest : ∀ q ∈ rest, Expired epoch q.2 → NulFree q.2.from_ ∧ NulFree q.2.token :=
      fun q hq => hfree q (List.mem_cons_of_mem _ hq)
    split
    · next hexp =>
      obtain ⟨hfrom, htok⟩ := hfree r List.mem_cons_self hexp
      have hr := hfit (balanceKey r.2.from_ r.2.token)
      simp only [refundsTo, hexp, true_and, if_true] at hr
      obtain ⟨u, hu, hsupu, hget, hrow⟩ := supply_expirePending token hfrom htok
        (hpend.bound r List.mem_cons_self) (by rw [getBalance_eq_row]; omega)
      refine ⟨u, hu, hsupu.trans hsup, hpend.tail hget, hrest, ?_⟩
      intro k
      have hk := hfit k
      simp only [refundsTo, hexp, true_and] at hk
      rw [hrow]
      omega
    · next hexp =>
      refine ⟨t, rfl, hsup, hpend.tail fun _ _ => rfl, hrest, ?_⟩
      intro k
      have hk := hfit k
      simp only [refundsTo, hexp, false_and, if_false, Nat.zero_add] at hk
      exact hk

/-! ## Runs -/

theorem supply_exec {m : Move} (hsound : Sound s m) (h : m.exec env now s = (.ok (), s')) :
    supply token s' = supply token s := by
  cases m with
  | transfer p => exact @supply_transfer env now s s' token p hsound h
  | stake p => exact supply_stake token hsound h
  | unstake p => exact supply_unstake token hsound h
  | tokenAccept p => exact supply_settlePending token hsound.1 hsound.2.1 hsound.2.2 h
  | tokenReject p => exact supply_settlePending token hsound.1 hsound.2.1 hsound.2.2 h
  | nodeRoleStake p => exact supply_nodeRoleStake token hsound h
  | nodeRoleUnstake p => exact supply_nodeRoleUnstake token hsound h
  | deviceYieldStake p => exact supply_deviceYieldStake token hsound h
  | deviceYieldUnstake p => exact supply_deviceYieldUnstake token hsound h
  | drainUnbonding epoch => exact supply_drainUnbonding token hsound h
  | sweepPending epoch => exact supply_sweepPending token hsound h

end Moves

/-- A successful move of the core that meets `Sound`. -/
def SoundStep (env : Env) (s s' : Chain) : Prop :=
  ∃ now m, Sound s m ∧ Move.exec env now m s = (.ok (), s')

theorem SoundStep.of_ok {env : Env} {now : ℕ} {s : Chain} {m : Move} (hsound : Sound s m)
    (hok : (m.exec env now s).1 = .ok ()) : SoundStep env s (m.exec env now s).2 :=
  ⟨now, m, hsound, Prod.ext hok rfl⟩

/-- Over any run of sound moves the supply of every token stays what it was. -/
theorem supply_run (env : Env) (s s' : Chain) (h : Relation.ReflTransGen (SoundStep env) s s')
    (token : String) : supply token s' = supply token s := by
  induction h with
  | refl => rfl
  | tail _ hstep ih =>
    obtain ⟨now, m, hsound, hexec⟩ := hstep
    exact (supply_exec token hsound hexec).trans ih

/-- Alice stakes five of her seven tokens and moves the rest to bob. -/
theorem supply_run_stake_transfer :
    let s₀ : Chain := ({} : Chain).setBalance "alice" "HONE" 7
    let s₁ := (Move.exec .bare 0 (.stake ⟨"alice", 5, 1, 1, "alice"⟩) s₀).2
    let s₂ := (Move.exec .bare 0
      (.transfer ⟨"alice", "bob", 2, "HONE", none, 1, "alice", 1, none⟩) s₁).2
    s₂.getBalance "alice" "HONE" = 0 ∧ supply "HONE" s₂ = 7 := by
  intro s₀ s₁ s₂
  have h₁ : SoundStep .bare s₀ s₁ :=
    SoundStep.of_ok (m := .stake _) (show NulFree "alice" by decide) (by decide)
  have h₂ : SoundStep .bare s₁ s₂ := by
    have hgate : s₁.spamGate "bob" "HONE" = none := by
      rw [← Option.isNone_iff_eq_none]
      decide
    refine SoundStep.of_ok (m := .transfer _)
      ⟨by decide, by decide, by decide, ?_, fun h => absurd rfl h.1⟩ (by decide)
    intro fee feeToken h
    cases hgate.symm.trans h
  refine ⟨by decide, ?_⟩
  rw [supply_run .bare s₀ s₂ ((Relation.ReflTransGen.single h₁).tail h₂) "HONE"]
  decide

/-- A transfer of worthless tokens from an account called `HONE:carol` is parked under
a key that an acceptance of native tokens from `carol` spells too: a thousand are minted. -/
theorem supply_minted :
    let s₀ : Chain := ({} : Chain).setBalance "HONE:carol" "x" 1000
    let r₁ := Move.exec .bare 0
      (.transfer ⟨"HONE:carol", "bob", 1000, "x", none, 1, "HONE:carol", 1, none⟩) s₀
    let r₂ := Move.exec .bare 0 (.tokenAccept ⟨"bob:x", "HONE", "carol", 1, 1, 1, "bob:x"⟩) r₁.2
    r₁.1 = .ok () ∧ r₂.1 = .ok () ∧ supply "HONE" s₀ = 0 ∧ supply "HONE" r₂.2 = 1000 := by
  decide

end HoneNode.Supply
