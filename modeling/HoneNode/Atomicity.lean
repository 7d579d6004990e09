import HoneNode.Apply

/-!
# Atomicity — what a rejected entry leaves behind

The store has no transactions, so an arm that fails keeps what it wrote before.
For the four arms that take funds or allowance early (`Transfer`, `Stake`,
`DeviceClaimStake`, `ExternalSignerTransfer`) this module says exactly when a
failing call leaves all balances, stakes, records and signer markers alone.
-/

namespace HoneNode.Atomicity

open Entry Prog Within

/-! ## What must not move -/

/-- Balances, stakes, account records, and the daily counters and nonce markers of
external signers. -/
@[ext] structure Holdings where
  rows : String → ℕ
  stakes : String → ℕ
  records : String → Option Account
  spent : String → Option ℕ
  markers : String → Option Unit

def holdings (s : Chain) : Holdings :=
  ⟨s.row, s.getStake, s.getAccount, s.stateGet .externalSignerSpent,
    s.stateGet .externalSignerNonce⟩

/-- A failing application of the entry leaves the holdings as they were. -/
def Keeps (env : Env) (now : ℕ) (e : LedgerEntry) (s : Chain) : Prop :=
  ∀ f s', applyEntry env now e s = (.error f, s') → holdings s' = holdings s

variable {env : Env} {now : ℕ} {s t : Chain}

theorem keeps_iff_failsIn {e : LedgerEntry} (h : ∀ p, e ≠ .transfer p) :
    Keeps env now e s ↔ FailsIn (holdings · = holdings s) (arm env now e).prog s := by
  unfold Keeps FailsIn
  rw [applyEntry_of_ne_transfer h]

/-- The nonce bump of a transfer follows success only. -/
theorem keeps_transfer_iff_failsIn {p : Entry.Transfer} :
    Keeps env now (.transfer p) s ↔ FailsIn (holdings · = holdings s) (applyTransfer p) s := by
  unfold Keeps FailsIn
  rw [applyEntry_transfer]
  refine forall_congr' fun f => forall_congr' fun s' => ?_
  cases h : (applyTransfer p).run s with
  | mk r t => cases r <;> simp

/-! ### Single writes -/

@[simp] theorem holdings_touched (account : String) (epoch : ℕ) :
    holdings (s.touched account epoch) = holdings s := by
  ext1 <;> funext k <;> simp [holdings, Chain.stateGet_touched]

/-- Adding a record is seen. -/
theorem holdings_withAccount_iff (account : String) (epoch : ℕ) :
    holdings (s.withAccount account epoch) = holdings s ↔ (s.getAccount account).isSome := by
  constructor
  · intro h
    by_contra hnone
    exact s.getAccount_withAccount_ne account epoch (by simpa using hnone)
      (congrFun (congrArg Holdings.records h) account)
  · intro h
    rw [s.withAccount_of_isSome account epoch h]

theorem row_eq_of_holdings (h : holdings t = holdings s) (k : String) : t.row k = s.row k :=
  congrFun (congrArg Holdings.rows h) k

/-- Taking a positive amount is seen. -/
theorem holdings_debited_ne {account token : String} {n : ℕ} (hpos : 0 < n)
    (hle : n ≤ s.getBalance account token) (hrow : ∀ k, t.row k = s.row k) :
    holdings (t.debited account token n) ≠ holdings s := by
  intro h
  have hk := row_eq_of_holdings h (balanceKey account token)
  rw [row_debited, if_pos rfl, hrow] at hk
  rw [getBalance_eq_row] at hle
  omega

/-! ## Stake -/

/-- The entry is empty or not covered, or the stake has room for it. -/
def StakeKeeps (s : Chain) (p : Stake) : Prop :=
  p.amount = 0 ∨ s.getBalance p.account nativeToken < p.amount ∨
    s.getStake p.account + p.amount < 2 ^ 64

theorem keeps_stake_iff (p : Stake) :
    Keeps env now (.stake p) s ↔ StakeKeeps s p := by
  rw [keeps_iff_failsIn (by simp)]
  show FailsIn _ (applyStake p) s ↔ _
  unfold applyStake StakeKeeps
  rw [failsIn_bind_of_ok (run_touchAlive _ _ _), failsIn_ensure_bind]
  by_cases h₀ : 0 < p.amount
  · rw [if_pos h₀, failsIn_debit_bind]
    by_cases h₁ : p.amount ≤ s.getBalance p.account nativeToken
    · simp only [Chain.getBalance_touched, h₁, if_true]
      by_cases h₂ : s.getStake p.account + p.amount < 2 ^ 64
      · simp only [h₂, or_true, iff_true]
        exact failsIn_of_ok (by rw [run_addStake, if_pos (by simpa using h₂)])
      · rw [failsIn_of_error (by rw [run_addStake, if_neg (by simpa using h₂)])]
        have hne := holdings_debited_ne (t := s.touched p.account p.epoch) h₀ h₁ (by simp)
        simp only [hne, h₂, false_iff, or_false]
        omega
    · simp [h₁, not_le.1 h₁]
  · simp [Nat.eq_zero_of_not_pos h₀]

/-! ## Transfer -/

/-- What is left of a covered transfer after the debit reaches the recipient: the
credits have room, a fee gate is paid, and there is no EVM gate. -/
def DeliveryFits (s : Chain) (p : Entry.Transfer) : Prop :=
  let s₁ := s.debited p.from_ p.token p.amount
  if p.token = nativeToken ∨ s.tokenApproved p.to_ p.token p.from_ then
    s₁.getBalance p.to_ p.token + p.amount < 2 ^ 64
  else match s.spamGate p.to_ p.token with
    | none => True
    | some (.evm _ _) => False
    | some (.onChain fee feeToken) =>
      let s₂ := s₁.debited p.from_ feeToken fee
      fee ≤ s₁.getBalance p.from_ feeToken ∧ s₂.getBalance p.to_ feeToken + fee < 2 ^ 64 ∧
        (s₂.credited p.to_ feeToken fee).getBalance p.to_ p.token + p.amount < 2 ^ 64

/-- The entry is empty or carries a wrong nonce, or it is not covered and the recipient
has a record, or it is covered and delivered. -/
def TransferKeeps (s : Chain) (p : Entry.Transfer) : Prop :=
  p.amount = 0 ∨ p.nonce ≠ s.expectedNonce p.from_ ∨
    if p.amount ≤ s.getBalance p.from_ p.token then DeliveryFits s p
    else (s.getAccount p.to_).isSome

/-- The fee of the gate does not hide the debit. -/
theorem holdings_fee_debited_ne {from_ token feeToken : String} {amount fee : ℕ}
    (hpos : 0 < amount) (hle : amount ≤ s.getBalance from_ token) (hrow : ∀ k, t.row k = s.row k) :
    holdings ((t.debited from_ token amount).debited from_ feeToken fee) ≠ holdings s := by
  intro h
  have hk := row_eq_of_holdings h (balanceKey from_ token)
  rw [row_debited, row_debited, if_pos rfl, hrow] at hk
  rw [getBalance_eq_row] at hle
  omega

/-- Nor does the fee hide it once it has reached the recipient. -/
theorem holdings_fee_credited_ne {from_ to_ token feeToken : String} {amount fee : ℕ}
    (hpos : 0 < amount) (hle : amount ≤ s.getBalance from_ token) (hrow : ∀ k, t.row k = s.row k)
    (hfee : fee ≤ (t.debited from_ token amount).getBalance from_ feeToken) :
    holdings (((t.debited from_ token amount).debited from_ feeToken fee).credited to_ feeToken fee)
      ≠ holdings s := by
  intro h
  have hk₁ := row_eq_of_holdings h (balanceKey from_ token)
  have hk₂ := row_eq_of_holdings h (balanceKey from_ feeToken)
  simp only [getBalance_eq_row, row_debited, row_credited, hrow] at hk₁ hk₂ hfee hle
  -- either the fee returns to the row it left, or one of the two rows is short
  by_cases h₁₂ : balanceKey from_ token = balanceKey from_ feeToken
  · simp only [h₁₂, if_true] at hk₁ hk₂ hfee hle
    split at hk₁ <;> omega
  · simp only [h₁₂, Ne.symm h₁₂, if_true, if_false] at hk₁ hk₂ hfee
    split at hk₁
    · next h₁₃ =>
      split at hk₂
      · next h₂₃ => exact h₁₂ (h₁₃.trans h₂₃.symm)
      · omega
    · split at hk₂ <;> omega

/-- After the debit of a positive amount, delivery keeps the holdings only by succeeding. -/
theorem failsIn_deliver_iff {p : Entry.Transfer} (hpos : 0 < p.amount)
    (hle : p.amount ≤ s.getBalance p.from_ p.token) (hrow : ∀ k, t.row k = s.row k)
    (happ : t.tokenApproved p.to_ p.token p.from_ = s.tokenApproved p.to_ p.token p.from_)
    (hgate : t.spamGate p.to_ p.token = s.spamGate p.to_ p.token) :
    FailsIn (holdings · = holdings s) (deliverTransfer p) (t.debited p.from_ p.token p.amount) ↔
      DeliveryFits s p := by
  unfold deliverTransfer DeliveryFits
  rw [failsIn_bind_of_ok (run_inspect _ _), failsIn_bind_of_ok (run_inspect _ _)]
  have happ' : (t.debited p.from_ p.token p.amount).tokenApproved p.to_ p.token p.from_
      = s.tokenApproved p.to_ p.token p.from_ := happ
  have hgate' : (t.debited p.from_ p.token p.amount).spamGate p.to_ p.token
      = s.spamGate p.to_ p.token := hgate
  have hb : ∀ account token, (t.debited p.from_ p.token p.amount).getBalance account token
      = (s.debited p.from_ p.token p.amount).getBalance account token := by
    intro account token
    simp only [getBalance_eq_row, row_debited, hrow]
  have hne := holdings_debited_ne hpos hle hrow
  rw [happ', hgate']
  simp only [Bool.or_eq_true, decide_eq_true_eq]
  by_cases hok : p.token = nativeToken ∨ s.tokenApproved p.to_ p.token p.from_ = true
  · simp only [hok, if_true]
    rw [failsIn_credit, hb]
    simp [hne]
  · simp only [hok, if_false]
    cases s.spamGate p.to_ p.token with
    | none =>
      simp only [iff_true]
      exact failsIn_of_ok (run_stateSet _ _ _ _ _)
    | some gate =>
      cases gate with
      | evm addr cid =>
        simp only [iff_false]
        rw [failsIn_of_error (run_bail _ _)]
        exact hne
      | onChain fee feeToken =>
        simp only
        rw [failsIn_bind_of_ok (run_inspect _ _), failsIn_ensure_bind, hb]
        by_cases hfee : fee ≤ (s.debited p.from_ p.token p.amount).getBalance p.from_ feeToken
        · have hfee' := hfee
          rw [← hb] at hfee'
          have hne₂ : holdings ((t.debited p.from_ p.token p.amount).debited p.from_ feeToken fee)
              ≠ holdings s := holdings_fee_debited_ne hpos hle hrow
          have hne₃ : holdings (((t.debited p.from_ p.token p.amount).debited p.from_ feeToken
              fee).credited p.to_ feeToken fee) ≠ holdings s :=
            holdings_fee_credited_ne hpos hle hrow hfee'
          rw [if_pos hfee, failsIn_debit_bind, if_pos hfee', failsIn_credit_bind]
          have hb₂ : ∀ account token,
              ((t.debited p.from_ p.token p.amount).debited p.from_ feeToken fee).getBalance
                  account token
                = ((s.debited p.from_ p.token p.amount).debited p.from_ feeToken fee).getBalance
                  account token := by
            intro account token
            simp only [getBalance_eq_row, row_debited, hrow]
          have hb₃ : ∀ account token,
              (((t.debited p.from_ p.token p.amount).debited p.from_ feeToken fee).credited p.to_
                  feeToken fee).getBalance account token
                = (((s.debited p.from_ p.token p.amount).debited p.from_ feeToken fee).credited p.to_
                  feeToken fee).getBalance account token := by
            intro account token
            simp only [getBalance_eq_row, row_credited, row_debited, hrow]
          rw [hb₂, failsIn_credit, hb₃]
          simp only [hne₂, hne₃, hfee, or_false, true_and]
          by_cases hc : ((s.debited p.from_ p.token p.amount).debited p.from_ feeToken
              fee).getBalance p.to_ feeToken + fee < 2 ^ 64
          · simp only [hc, if_true, true_and]
          · simp only [hc, if_false, false_and]
        · simp [hfee, hne]

theorem keeps_transfer_iff (p : Entry.Transfer) :
    Keeps env now (.transfer p) s ↔ TransferKeeps s p := by
  rw [keeps_transfer_iff_failsIn]
  unfold applyTransfer TransferKeeps
  rw [failsIn_bind_of_ok (run_touchAlive _ _ _), failsIn_ensure_bind]
  by_cases h₀ : 0 < p.amount
  · have hexp : (s.touched p.from_ p.epoch).expectedNonce p.from_ = s.expectedNonce p.from_ := by
      simp [Chain.expectedNonce]
    rw [if_pos h₀, failsIn_checkNonce_bind, hexp]
    by_cases h₁ : p.nonce = s.expectedNonce p.from_
    · rw [if_pos h₁, failsIn_bind_of_ok (run_ensureAccount _ _ _), failsIn_debit_bind]
      simp only [Chain.getBalance_withAccount, Chain.getBalance_touched, h₁, Ne, not_true,
        Nat.pos_iff_ne_zero.1 h₀, false_or]
      split
      · next h₂ =>
        refine failsIn_deliver_iff h₀ h₂ (by simp) ?_ ?_
        · simp [Chain.tokenApproved, Chain.stateGet_touched]
        · simp [Chain.spamGate, Chain.stateGet_touched]
      · have h := holdings_withAccount_iff (s := s.touched p.from_ p.epoch) p.to_ p.epoch
        simpa using h
    · simp [h₁]
  · simp [Nat.eq_zero_of_not_pos h₀]

/-! ## External signers -/

/-- The first live grant under the account's prefix that verifies the signature. -/
def signerGrant (env : Env) (s : Chain) (p : ExternalSignerTransfer) :
    Option (String × ExternalSigner) :=
  ((s.state .externalSigner).scan (hasPrefix s!"{p.account}:{p.externalChain}:")).find?
    (grantVerifies env p)

/-- A cap lets an amount through; a cap in dollars never does. -/
def capAllows : Option SignerCap → ℕ → Prop
  | none, _ => True
  | some (.hunits limit), n => n ≤ limit
  | some (.usd _ _), _ => False

/-- What the transfer makes of the day's counter. -/
def dailyTotal (s : Chain) (p : ExternalSignerTransfer) (grant : String) : ℕ :=
  wrapAdd ((s.stateGet .externalSignerSpent (spentKey grant p.epoch)).getD 0) p.amount

/-- The checks made before the first write. -/
@[mk_iff] structure Admitted (now : ℕ) (s : Chain) (p : ExternalSignerTransfer)
    (g : String × ExternalSigner) : Prop where
  domain : p.tonDomain ∈ tonConnectDomains
  fresh : now - p.tonTimestamp ≤ tonSignatureMaxAgeS
  payload : p.tonPayload = hexEncode (Text.bytes (payloadText p))
  unused : s.stateGet .externalSignerNonce (nonceMarkerKey g.1 p.nonce) = none
  perTx : capAllows g.2.caps.perTxMax p.amount
  daily : capAllows g.2.caps.dailyMax (dailyTotal s p g.1)

/-- The checks made after the daily counter is written. -/
def Screened (now : ℕ) (p : ExternalSignerTransfer) (caps : ExternalSignerCaps) : Prop :=
  (∀ allowed ∈ caps.allowlist, p.to_ ∈ allowed) ∧ ∀ t ∈ caps.expiresAt, now ≤ t

/-- The account has the amount and the recipient room for it. -/
def Covered (s : Chain) (p : ExternalSignerTransfer) : Prop :=
  p.amount ≤ s.getBalance p.account nativeToken ∧
    (s.debited p.account nativeToken p.amount).getBalance p.to_ nativeToken + p.amount < 2 ^ 64

/-- The entry is malformed; or all its checks pass; or the recipient has a record, and a
check fails before the daily counter or the nonce marker is written. -/
def SignerTransferKeeps (env : Env) (now : ℕ) (s : Chain) (p : ExternalSignerTransfer) :
    Prop :=
  p.externalChain ≠ "ton" ∨ p.amount = 0 ∨
    (∃ g, signerGrant env s p = some g ∧ Admitted now s p g ∧ Screened now p g.2.caps ∧
      Covered s p) ∨
    ((s.getAccount p.to_).isSome ∧ ∀ g, signerGrant env s p = some g → Admitted now s p g →
      ¬ Screened now p g.2.caps ∧ g.2.caps.dailyMax = none)

/-- Screening reads only the entry, the caps and the clock. -/
theorem run_screenGrant_cases (W : Footprint) (now : ℕ) (t : Chain)
    (p : ExternalSignerTransfer) (caps : ExternalSignerCaps) :
    (Screened now p caps ∧ (screenGrant now p caps : Prog W Unit).run t = (.ok (), t)) ∨
      (¬ Screened now p caps ∧
        ∃ e, (screenGrant now p caps : Prog W Unit).run t = (.error e, t)) := by
  unfold screenGrant Screened
  cases caps.allowlist with
  | none =>
    cases caps.expiresAt with
    | none => simp
    | some e => by_cases h : now ≤ e <;> simp [h]
  | some allowed =>
    by_cases hl : p.to_ ∈ allowed
    · cases caps.expiresAt with
      | none => simp [hl, run_bind]
      | some e => by_cases h : now ≤ e <;> simp [hl, h, run_bind]
    · simp [hl, run_bind]

section Caps

variable {W : Footprint} {β : Type} {P : Chain → Prop} {f : Unit → Prog W β}
  {p : ExternalSignerTransfer} {caps : ExternalSignerCaps}

theorem failsIn_checkPerTx_bind :
    FailsIn P (checkPerTx p caps >>= f) t ↔
      (capAllows caps.perTxMax p.amount → FailsIn P (f ()) t) ∧
        (¬ capAllows caps.perTxMax p.amount → P t) := by
  unfold checkPerTx
  cases caps.perTxMax with
  | none => simp [capAllows, failsIn_bind_of_ok (run_pure _ _)]
  | some cap =>
    cases cap with
    | usd c m =>
      simp only [capAllows, false_imp_iff, not_false_eq_true, true_imp_iff, true_and]
      exact failsIn_bind_of_error (run_bind_error (run_bail _ _))
    | hunits limit =>
      by_cases h : p.amount ≤ limit
      · simp only [capAllows, h, true_imp_iff, not_true, false_imp_iff, and_true]
        exact failsIn_bind_of_ok (by
          simp only [resolveCapHunits]
          rw [run_bind_ok (run_pure _ _), run_ensure, if_pos h])
      · simp only [capAllows, h, false_imp_iff, not_false_eq_true, true_imp_iff, true_and]
        exact failsIn_bind_of_error (by
          simp only [resolveCapHunits]
          rw [run_bind_ok (run_pure _ _), run_ensure, if_neg h])

/-- The state after the daily counter, if the grant has a daily cap. -/
def counted (s : Chain) (p : ExternalSignerTransfer) (grant : String)
    (caps : ExternalSignerCaps) : Chain :=
  match caps.dailyMax with
  | none => s
  | some _ => s.stateSet .externalSignerSpent (spentKey grant p.epoch) (dailyTotal s p grant)

theorem failsIn_spendDaily_bind {grant : String} :
    FailsIn P (spendDaily p grant caps >>= f) t ↔
      (capAllows caps.dailyMax (dailyTotal t p grant) →
        FailsIn P (f ()) (counted t p grant caps)) ∧
      (¬ capAllows caps.dailyMax (dailyTotal t p grant) → P t) := by
  unfold spendDaily counted
  cases caps.dailyMax with
  | none => simp [capAllows, failsIn_bind_of_ok (run_pure _ _)]
  | some cap =>
    cases cap with
    | usd c m =>
      simp only [capAllows, false_imp_iff, not_false_eq_true, true_imp_iff, true_and]
      exact failsIn_bind_of_error (run_bind_error (run_bail _ _))
    | hunits limit =>
      by_cases h : dailyTotal t p grant ≤ limit
      · simp only [capAllows, h, true_imp_iff, not_true, false_imp_iff, and_true]
        exact failsIn_bind_of_ok (by
          simp only [resolveCapHunits]
          rw [run_bind_ok (run_pure _ _), run_stateGet_bind,
            run_bind_ok (by rw [run_ensure]; exact if_pos h)]
          rfl)
      · simp only [capAllows, h, false_imp_iff, not_false_eq_true, true_imp_iff, true_and]
        exact failsIn_bind_of_error (by
          simp only [resolveCapHunits]
          rw [run_bind_ok (run_pure _ _), run_stateGet_bind,
            run_bind_error (by rw [run_ensure]; exact if_neg h)])

theorem failsIn_screenGrant_bind :
    FailsIn P (screenGrant now p caps >>= f) t ↔
      (Screened now p caps → FailsIn P (f ()) t) ∧ (¬ Screened now p caps → P t) := by
  rcases run_screenGrant_cases W now t p caps with ⟨h, hrun⟩ | ⟨h, e, hrun⟩
  · simp [h, failsIn_bind_of_ok hrun]
  · simp [h, failsIn_bind_of_error hrun]

end Caps

section SignerTransfer

variable {p : ExternalSignerTransfer} {g : String × ExternalSigner}

/-- Counting a positive amount is seen. -/
theorem holdings_counted_iff (hpos : 0 < p.amount) (hlt : p.amount < 2 ^ 64)
    (caps : ExternalSignerCaps) (grant : String) :
    holdings (counted t p grant caps) = holdings t ↔ caps.dailyMax = none := by
  unfold counted
  cases caps.dailyMax with
  | none => simp
  | some cap =>
    simp only [reduceCtorEq, iff_false]
    intro h
    have hk := congrFun (congrArg Holdings.spent h) (spentKey grant p.epoch)
    simp only [holdings, stateGet_stateSet, if_true, dailyTotal, wrapAdd] at hk
    have hx : ∀ x : Option ℕ, some ((x.getD 0 + p.amount) % 2 ^ 64) ≠ x := by
      rintro (_ | x) hx
      · cases hx
      · rw [Option.some_inj, Option.getD_some] at hx
        omega
    exact hx _ hk

@[simp] theorem getAccount_counted (caps : ExternalSignerCaps) (grant account : String) :
    (counted t p grant caps).getAccount account = t.getAccount account := by
  unfold counted
  split <;> rfl

@[simp] theorem row_counted (caps : ExternalSignerCaps) (grant k : String) :
    (counted t p grant caps).row k = t.row k := by
  unfold counted
  split <;> rfl

theorem holdings_counted_withAccount_iff (hpos : 0 < p.amount) (hlt : p.amount < 2 ^ 64)
    (caps : ExternalSignerCaps) (grant account : String) (epoch : ℕ) :
    holdings (counted (s.withAccount account epoch) p grant caps) = holdings s ↔
      (s.getAccount account).isSome ∧ caps.dailyMax = none := by
  by_cases hacc : (s.getAccount account).isSome
  · rw [s.withAccount_of_isSome account epoch hacc, holdings_counted_iff hpos hlt]
    simp [hacc]
  · simp only [hacc, false_and, iff_false, Bool.false_eq_true]
    intro h
    have hrec := congrFun (congrArg Holdings.records h) account
    simp only [holdings, getAccount_counted] at hrec
    exact s.getAccount_withAccount_ne account epoch (by simpa using hacc) hrec

/-- Using up a nonce is seen. -/
theorem holdings_marker_ne {k : String} (hs : s.stateGet .externalSignerNonce k = none)
    (ht : t.stateGet .externalSignerNonce k = some ()) : holdings t ≠ holdings s := by
  intro h
  have hk := congrFun (congrArg Holdings.markers h) k
  simp only [holdings, hs, ht, reduceCtorEq] at hk

/-- After the marker is written, only success keeps the holdings. -/
theorem failsIn_settleSigner_iff {k : String}
    (hk : s.stateGet .externalSignerNonce k = none) (hrow : ∀ j, t.row j = s.row j) :
    FailsIn (holdings · = holdings s) (do
        stateSet .externalSignerNonce k ()
        debit p.account nativeToken p.amount
        credit p.to_ nativeToken p.amount :
      Prog { pays := {balanceKey p.account nativeToken}, grants := {.externalSignerNonce} } Unit)
      t ↔ Covered s p := by
  have hb : ∀ account token, t.getBalance account token = s.getBalance account token := by
    intro account token
    simp only [getBalance_eq_row, hrow]
  rw [failsIn_bind_of_ok (run_stateSet _ _ _ _ _), failsIn_debit_bind]
  unfold Covered
  have hmark : (t.stateSet .externalSignerNonce k ()).stateGet .externalSignerNonce k
      = some () := by simp [stateGet_stateSet]
  by_cases h₁ : p.amount ≤ s.getBalance p.account nativeToken
  · have hne := holdings_marker_ne (t := (t.stateSet .externalSignerNonce k ()).debited p.account
      nativeToken p.amount) hk hmark
    have hb' : ((t.stateSet .externalSignerNonce k ()).debited p.account nativeToken
        p.amount).getBalance p.to_ nativeToken
        = (s.debited p.account nativeToken p.amount).getBalance p.to_ nativeToken := by
      simp only [getBalance_eq_row, row_debited, Chain.row_stateSet, hrow]
    simp only [Chain.getBalance_stateSet, hb, h₁, if_true, true_and]
    rw [failsIn_credit, hb']
    simp only [hne, or_false]
  · have hne := holdings_marker_ne hk hmark
    simp only [Chain.getBalance_stateSet, hb, h₁, if_false, hne, false_and]

theorem keeps_signerTransfer_iff (hlt : p.amount < 2 ^ 64) :
    Keeps env now (.externalSignerTransfer p) s ↔ SignerTransferKeeps env now s p := by
  rw [keeps_iff_failsIn (by simp)]
  show FailsIn _ (applyExternalSignerTransfer env now p) s ↔ _
  unfold applyExternalSignerTransfer SignerTransferKeeps
  rw [failsIn_ensure_bind]
  by_cases hchain : p.externalChain = "ton"
  · rw [if_pos hchain, failsIn_ensure_bind]
    by_cases hpos : 0 < p.amount
    · rw [if_pos hpos, failsIn_bind_of_ok (run_ensureAccount _ _ _),
        failsIn_bind_of_ok (run_stateScan _ _ _), failsIn_ensure_bind]
      have hrec := holdings_withAccount_iff (s := s) p.to_ p.epoch
      simp only [Chain.state_withAccount]
      cases hg : signerGrant env s p with
      | none =>
        unfold signerGrant at hg
        rw [hg]
        simp only [hchain, Nat.pos_iff_ne_zero.1 hpos, ne_eq, not_true, false_or, reduceCtorEq,
          false_and, exists_false, false_imp_iff, implies_true, and_true]
        split
        · exact (failsIn_bind_of_error (run_orBail_none _ _)).trans hrec
        · exact hrec
      | some g =>
        unfold signerGrant at hg
        rw [if_pos (by rintro hnil; simp [hnil] at hg), hg,
          failsIn_bind_of_ok (run_orBail_some _ _ _), failsIn_ensure_bind, failsIn_ensure_bind,
          failsIn_ensure_bind, failsIn_bind_of_ok (run_stateGet _ _ _), failsIn_ensure_bind,
          failsIn_checkPerTx_bind, failsIn_spendDaily_bind, failsIn_screenGrant_bind]
        have hday : dailyTotal (s.withAccount p.to_ p.epoch) p g.1 = dailyTotal s p g.1 := by
          simp [dailyTotal]
        simp only [Chain.stateGet_withAccount, hday, hrec,
          holdings_counted_withAccount_iff hpos hlt, ne_eq, hchain, not_true,
          Nat.pos_iff_ne_zero.1 hpos, false_or, Option.some.injEq, exists_eq_left', forall_eq']
        by_cases hadm : Admitted now s p g
        · rw [failsIn_settleSigner_iff hadm.unused (by simp)]
          simp only [hadm, hadm.domain, hadm.fresh, hadm.payload, hadm.unused, hadm.perTx,
            hadm.daily, if_true, true_imp_iff, Option.isNone_none, not_true, false_imp_iff, and_true,
            true_and]
          by_cases hscr : Screened now p g.2.caps <;> simp [hscr]
        · -- some check fails before anything but the record is written
          simp only [hadm, false_and, false_imp_iff, and_true, false_or]
          rw [admitted_iff] at hadm
          split_ifs with h₁ h₂ h₃ h₄
          · rw [Option.isNone_iff_eq_none] at h₄
            simp only [h₁, h₂, h₃, h₄, true_and] at hadm
            by_cases h₅ : capAllows g.2.caps.perTxMax p.amount
            · simp only [h₅, true_and] at hadm
              simp [h₅, hadm]
            · simp [h₅]
          all_goals rfl
    · simp [Nat.eq_zero_of_not_pos hpos]
  · simp [hchain]

end SignerTransfer

/-! ## Device claims -/

/-- A payment the arm attempts; one that is not `required` is skipped when it does not fit. -/
structure Payment where
  account : String
  amount : ℕ
  required : Bool

def Payment.Fits (c : Payment) (s : Chain) : Prop :=
  s.getBalance c.account nativeToken + c.amount < 2 ^ 64

instance (c : Payment) (s : Chain) : Decidable (c.Fits s) :=
  inferInstanceAs (Decidable (_ < _))

def Payment.pay (c : Payment) (s : Chain) : Chain := s.credited c.account nativeToken c.amount

/-- The payments that are made, up to the first required one that does not fit. -/
def made : List Payment → Chain → List Payment
  | [], _ => []
  | c :: rest, s =>
    if c.Fits s then c :: made rest (c.pay s)
    else if c.required then [] else made rest s

/-- Whether every required payment fits when its turn comes. -/
def completes : List Payment → Chain → Bool
  | [], _ => true
  | c :: rest, s =>
    if c.Fits s then completes rest (c.pay s)
    else if c.required then false else completes rest s

/-- The state after the payments that are made. -/
def after : List Payment → Chain → Chain
  | [], s => s
  | c :: rest, s =>
    if c.Fits s then after rest (c.pay s)
    else if c.required then s else after rest s

section Payments

variable {W : Footprint} {l l₁ l₂ : List Payment}

@[simp] theorem getAccount_after (l : List Payment) (s : Chain) (a : String) :
    (after l s).getAccount a = s.getAccount a := by
  fun_induction after l s <;> simp_all [Payment.pay]

@[simp] theorem getStake_after (l : List Payment) (s : Chain) (a : String) :
    (after l s).getStake a = s.getStake a := by
  fun_induction after l s <;> simp_all [Payment.pay]

@[simp] theorem state_after (l : List Payment) (s : Chain) (f : Family) :
    (after l s).state f = s.state f := by
  fun_induction after l s <;> simp_all [Payment.pay]

theorem row_pay (c : Payment) (s : Chain) (k : String) :
    (c.pay s).row k = s.row k + if k = balanceKey c.account nativeToken then c.amount else 0 :=
  s.row_credited c.account nativeToken c.amount k

theorem row_le_after (l : List Payment) (s : Chain) (k : String) : s.row k ≤ (after l s).row k := by
  fun_induction after l s with
  | case1 s => exact le_rfl
  | case2 c rest s hfit ih =>
    rw [row_pay] at ih
    exact (Nat.le_add_right _ _).trans ih
  | case3 c rest s hfit hreq => exact le_rfl
  | case4 c rest s hfit hreq ih => exact ih

/-- Payments are not seen exactly when all that are made are empty. -/
theorem holdings_after_iff (l : List Payment) (s : Chain) :
    holdings (after l s) = holdings s ↔ ∀ c ∈ made l s, c.amount = 0 := by
  have hrows : holdings (after l s) = holdings s ↔ ∀ k, (after l s).row k = s.row k := by
    constructor
    · exact row_eq_of_holdings
    · intro h
      ext1 <;> funext k <;> simp [holdings, h, Chain.stateGet]
  rw [hrows]
  clear hrows
  fun_induction after l s with
  | case1 s => simp [made]
  | case2 c rest s hfit ih =>
    have ih' : (∀ k, (after rest (c.pay s)).row k = (c.pay s).row k) ↔
        ∀ c' ∈ made rest (c.pay s), c'.amount = 0 := ih
    rw [made, if_pos hfit, List.forall_mem_cons, ← ih']
    have hle : ∀ k, (c.pay s).row k ≤ (after rest (c.pay s)).row k := row_le_after rest (c.pay s)
    constructor
    · intro h
      have hpay : ∀ k, (c.pay s).row k = s.row k := by
        intro k
        refine le_antisymm ((hle k).trans (h k).le) ?_
        rw [row_pay]
        exact Nat.le_add_right _ _
      have hzero := hpay (balanceKey c.account nativeToken)
      rw [row_pay, if_pos rfl] at hzero
      exact ⟨by omega, fun k => (h k).trans (hpay k).symm⟩
    · rintro ⟨hzero, h⟩ k
      rw [h k, row_pay, hzero]
      simp
  | case3 c rest s hfit hreq => simp [made, hfit, hreq]
  | case4 c rest s hfit hreq ih => simpa [made, hfit, hreq] using ih

theorem completes_congr (l : List Payment) {s t : Chain} (h : ∀ k, t.row k = s.row k) :
    completes l t = completes l s := by
  induction l generalizing s t with
  | nil => rfl
  | cons c rest ih =>
    have hfit : c.Fits t ↔ c.Fits s := by
      simp only [Payment.Fits, getBalance_eq_row, h]
    have hpay : completes rest (c.pay t) = completes rest (c.pay s) := ih (by simp [row_pay, h])
    simp only [completes, hfit, hpay, ih h]

theorem row_after_congr (l : List Payment) {s t : Chain} (h : ∀ k, t.row k = s.row k) (k : String) :
    (after l t).row k = (after l s).row k := by
  induction l generalizing s t with
  | nil => exact h k
  | cons c rest ih =>
    have hfit : c.Fits t ↔ c.Fits s := by
      simp only [Payment.Fits, getBalance_eq_row, h]
    simp only [after, hfit]
    split
    · exact ih (by simp [row_pay, h])
    · split
      · exact h k
      · exact ih h

/-- The program makes the payments of the list and fails at the first it cannot. -/
def Pays (m : Prog W Unit) (l : List Payment) (s : Chain) : Prop :=
  (completes l s → m.run s = (.ok (), after l s)) ∧
    (¬ completes l s → ∃ e, m.run s = (.error e, after l s))

theorem pays_pure : Pays (pure () : Prog W Unit) [] s := by
  simp [Pays, completes, after]

theorem run_payment (c : Payment) (s : Chain) :
    (credit c.account nativeToken c.amount : Prog W Unit).run s =
      if c.Fits s then (.ok (), c.pay s)
      else (.error (.err s!"balance overflow for '{c.account}' {nativeToken}"), s) := rfl

theorem pays_credit (a : String) (n : ℕ) :
    Pays (credit a nativeToken n : Prog W Unit) [⟨a, n, true⟩] s := by
  have hrun := run_payment (W := W) ⟨a, n, true⟩ s
  by_cases h : (⟨a, n, true⟩ : Payment).Fits s <;> simp_all [Pays, completes, after]

theorem pays_ignoreErr_credit (a : String) (n : ℕ) :
    Pays (ignoreErr (credit a nativeToken n) : Prog W Unit) [⟨a, n, false⟩] s := by
  have hrun := run_payment (W := W) ⟨a, n, false⟩ s
  by_cases h : (⟨a, n, false⟩ : Payment).Fits s <;> simp_all [Pays, completes, after]

theorem completes_append (l₁ l₂ : List Payment) (s : Chain) :
    completes (l₁ ++ l₂) s = (completes l₁ s && completes l₂ (after l₁ s)) := by
  induction l₁ generalizing s with
  | nil => rfl
  | cons c rest ih =>
    simp only [List.cons_append, completes, after]
    split_ifs <;> simp [ih]

theorem after_append (l₁ l₂ : List Payment) (s : Chain) :
    after (l₁ ++ l₂) s = if completes l₁ s then after l₂ (after l₁ s) else after l₁ s := by
  induction l₁ generalizing s with
  | nil => rfl
  | cons c rest ih =>
    simp only [List.cons_append, completes, after]
    split_ifs <;> simp_all

theorem Pays.bind {m : Prog W Unit} {f : Unit → Prog W Unit} (h₁ : Pays m l₁ s)
    (h₂ : Pays (f ()) l₂ (after l₁ s)) : Pays (m >>= f) (l₁ ++ l₂) s := by
  unfold Pays
  rw [completes_append, after_append]
  by_cases hc : completes l₁ s = true
  · rw [run_bind_ok (h₁.1 hc), hc, Bool.true_and, if_pos rfl]
    exact h₂
  · obtain ⟨e, he⟩ := h₁.2 hc
    rw [run_bind_error he]
    simp [hc]

theorem Pays.after_ok {α : Type} {m : Prog W α} {f : α → Prog W Unit} {a : α}
    (h : m.run s = (.ok a, s)) (h' : Pays (f a) l s) : Pays (m >>= f) l s := by
  unfold Pays
  rw [run_bind_ok h]
  exact h'

theorem failsIn_pays_bind {β : Type} {P : Chain → Prop} {m : Prog W Unit} {f : Unit → Prog W β}
    (h : Pays m l s) :
    FailsIn P (m >>= f) s ↔
      if completes l s then FailsIn P (f ()) (after l s) else P (after l s) := by
  split
  · next hc => exact failsIn_bind_of_ok (h.1 hc)
  · next hc =>
    obtain ⟨e, he⟩ := h.2 hc
    exact failsIn_bind_of_error he

theorem pays_when {c : Prop} [Decidable c] {m : Prog W Unit} (h : c → Pays m l s) :
    Pays (when c m) (if c then l else []) s := by
  unfold when
  split
  · next hc => exact h hc
  · exact pays_pure

/-- What the yield stakers of a device are paid of `pot`; zero shares are skipped. -/
def shares (pot totalStake : ℕ) (stakers : List (String × ℕ)) : List Payment :=
  stakers.flatMap fun st =>
    let payout := pot * st.2 / totalStake % 2 ^ 64
    if 0 < payout then [⟨st.1, payout, true⟩] else []

theorem pays_payShares (pot totalStake : ℕ) (stakers : List (String × ℕ)) (s : Chain) :
    Pays (payShares pot totalStake (fun a n => credit a nativeToken n) stakers : Prog W Unit)
      (shares pot totalStake stakers) s := by
  induction stakers generalizing s with
  | nil => exact pays_pure
  | cons st rest ih => exact (pays_when fun _ => pays_credit _ _).bind (ih _)

end Payments

/-- The payments of an overbid that is high enough. -/
def overbidPayments (s : Chain) (serial : String) (amount : ℕ) (old : DeviceClaim) :
    List Payment :=
  let premium := amount - old.stake
  let stakerShare := premium * 5000 / 10000 % 2 ^ 64
  let recycleShare := premium - stakerShare
  let rows := (s.state .yieldStake).scan (hasPrefix s!"{serial}:")
  let stakers := (rows.map fun r => (r.2.staker, r.2.amount)).filter fun st => 0 < st.2
  let totalYield := (stakers.map (·.2)).sum % 2 ^ 64
  let premiumPayments :=
    if 0 < totalYield ∧ 0 < stakerShare then shares stakerShare totalYield stakers
    else [⟨recycleFund, stakerShare, false⟩]
  let recyclePayments : List Payment :=
    if 0 < recycleShare then [⟨recycleFund, recycleShare, false⟩] else []
  ⟨old.owner, old.stake, true⟩ ::
    if 0 < premium then premiumPayments ++ recyclePayments else []

/-- The claim by somebody else that the entry has to outbid. -/
def rivalClaim (s : Chain) (p : DeviceClaimStake) : Option DeviceClaim :=
  (s.stateGet .deviceClaim p.deviceSerial).filter fun old => old.owner ≠ "" ∧ old.owner ≠ p.owner

/-- One and a half times the stake of the claim. -/
def overbidMinimum (old : DeviceClaim) : ℕ := old.stake * 3 / 2 % 2 ^ 64

/-- The payments made for the claim before the owner is charged. -/
def claimPayments (s : Chain) (p : DeviceClaimStake) : List Payment :=
  match rivalClaim s p with
  | some old => overbidPayments s p.deviceSerial p.amount old
  | none => []

/-- The claim goes through; or its owner has a record and it fails before a positive
payment, the bid being too low or the payments empty. -/
def ClaimKeeps (s : Chain) (p : DeviceClaimStake) : Prop :=
  ((∀ old ∈ rivalClaim s p, overbidMinimum old ≤ p.amount) ∧ completes (claimPayments s p) s ∧
      p.amount ≤ (after (claimPayments s p) s).getBalance p.owner nativeToken) ∨
    ((s.getAccount p.owner).isSome ∧
      ((∃ old ∈ rivalClaim s p, p.amount < overbidMinimum old) ∨
        ∀ c ∈ made (claimPayments s p) s, c.amount = 0))

theorem run_settleOverbid_low {W : Footprint} (serial : String) {amount : ℕ} {old : DeviceClaim}
    (h : amount < overbidMinimum old) :
    ∃ e, (settleOverbid serial amount old : Prog W Unit).run s = (.error e, s) := by
  unfold settleOverbid
  exact ⟨_, run_bind_error (by rw [run_ensure, if_neg (by unfold overbidMinimum at h; omega)])⟩

theorem pays_settleOverbid {W : Footprint} {serial : String} {amount : ℕ} {old : DeviceClaim}
    (h : overbidMinimum old ≤ amount) :
    Pays (settleOverbid serial amount old : Prog W Unit) (overbidPayments s serial amount old) s := by
  have henough : (ensure (overbidMinimum old ≤ amount)
      s!"device '{serial}' claimed by '{old.owner}' (stake {old.stake}); overbid requires ≥ {overbidMinimum old} (1.5×)" :
      Prog W Unit).run s = (.ok (), s) := by rw [run_ensure, if_pos h]
  unfold settleOverbid overbidPayments
  refine Pays.after_ok henough ?_
  rw [← List.singleton_append]
  refine Pays.bind (pays_credit _ _) ?_
  by_cases hpremium : 0 < amount - old.stake
  · simp only [hpremium, if_true]
    refine Pays.after_ok (run_stateScan _ _ _) ?_
    rw [state_after]
    split
    · exact (pays_payShares _ _ _ _).bind (pays_when fun _ => pays_ignoreErr_credit _ _)
    · exact (pays_ignoreErr_credit _ _).bind (pays_when fun _ => pays_ignoreErr_credit _ _)
  · simp only [hpremium, if_false]
    exact pays_pure

theorem holdings_after_withAccount_iff (l : List Payment) (account : String) (epoch : ℕ) :
    holdings (after l (s.withAccount account epoch)) = holdings s ↔
      (s.getAccount account).isSome ∧ ∀ c ∈ made l s, c.amount = 0 := by
  by_cases hacc : (s.getAccount account).isSome
  · rw [s.withAccount_of_isSome account epoch hacc, holdings_after_iff]
    simp [hacc]
  · simp only [hacc, false_and, iff_false, Bool.false_eq_true]
    intro h
    have hrec := congrFun (congrArg Holdings.records h) account
    simp only [holdings, getAccount_after] at hrec
    exact s.getAccount_withAccount_ne account epoch (by simpa using hacc) hrec

/-- Once the payments are through, the claim fails only for want of the owner's funds. -/
theorem failsIn_charge_iff (p : DeviceClaimStake) (l : List Payment) (claim : DeviceClaim) :
    FailsIn (holdings · = holdings s) (do
        debit p.owner nativeToken p.amount
        stateSet .deviceClaim p.deviceSerial claim :
      Prog { pays := {balanceKey p.owner nativeToken} } Unit) (after l (s.withAccount p.owner p.epoch))
      ↔ p.amount ≤ (after l s).getBalance p.owner nativeToken ∨
        ((s.getAccount p.owner).isSome ∧ ∀ c ∈ made l s, c.amount = 0) := by
  have hb : (after l (s.withAccount p.owner p.epoch)).getBalance p.owner nativeToken
      = (after l s).getBalance p.owner nativeToken :=
    row_after_congr l (by simp) _
  rw [failsIn_debit_bind, hb, ← holdings_after_withAccount_iff l p.owner p.epoch]
  by_cases h : p.amount ≤ (after l s).getBalance p.owner nativeToken
  · simp only [h, if_true, true_or, iff_true]
    exact failsIn_of_ok (run_stateSet _ _ _ _ _)
  · simp only [h, if_false, false_or]

theorem keeps_deviceClaimStake_iff (p : DeviceClaimStake) :
    Keeps env now (.deviceClaimStake p) s ↔ ClaimKeeps s p := by
  rw [keeps_iff_failsIn (by simp)]
  show FailsIn _ (applyDeviceClaimStake p) s ↔ _
  have hfree (h : rivalClaim s p = none) :
      (p.amount ≤ (after [] s).getBalance p.owner nativeToken ∨
        ((s.getAccount p.owner).isSome ∧ ∀ c ∈ made [] s, c.amount = 0)) ↔ ClaimKeeps s p := by
    simp [ClaimKeeps, claimPayments, h, completes, made]
  unfold applyDeviceClaimStake
  rw [failsIn_bind_of_ok (run_ensureAccount _ _ _), failsIn_bind_of_ok (run_stateGet _ _ _),
    Chain.stateGet_withAccount]
  cases hex : s.stateGet .deviceClaim p.deviceSerial with
  | none =>
    rw [← hfree (by simp [rivalClaim, hex])]
    exact failsIn_charge_iff p [] _
  | some old =>
    by_cases hriv : old.owner ≠ "" ∧ old.owner ≠ p.owner
    · have hr : rivalClaim s p = some old := by simp [rivalClaim, hex, hriv]
      have hl : claimPayments s p = overbidPayments (s.withAccount p.owner p.epoch) p.deviceSerial
          p.amount old := by
        simp [claimPayments, hr, overbidPayments]
      have hc : completes (claimPayments s p) (s.withAccount p.owner p.epoch)
          = completes (claimPayments s p) s := completes_congr _ (by simp)
      simp only [ClaimKeeps, hr, Option.mem_def, Option.some.injEq, forall_eq', exists_eq_left']
      by_cases hlow : overbidMinimum old ≤ p.amount
      · have hpays : Pays (when (old.owner ≠ "" ∧ old.owner ≠ p.owner)
            (settleOverbid p.deviceSerial p.amount old) :
              Prog { pays := {balanceKey p.owner nativeToken} } Unit)
            (claimPayments s p) (s.withAccount p.owner p.epoch) := by
          rw [hl, when, if_pos hriv]
          exact pays_settleOverbid hlow
        simp only [failsIn_pays_bind hpays, hc, not_lt.2 hlow, false_or, hlow, true_and]
        split
        · next hcomp =>
          simp only [hcomp, true_and]
          exact failsIn_charge_iff p _ _
        · next hcomp =>
          simp only [hcomp, false_and, false_or, holdings_after_withAccount_iff,
            Bool.false_eq_true]
      · obtain ⟨e, he⟩ := run_settleOverbid_low (W := { pays := {balanceKey p.owner nativeToken} })
          (s := s.withAccount p.owner p.epoch) p.deviceSerial (not_le.1 hlow)
        simp only [hlow, false_and, false_or, not_le.1 hlow, true_or, and_true,
          ← holdings_withAccount_iff p.owner p.epoch]
        exact failsIn_bind_of_error (by rw [when, if_pos hriv, he])
    · rw [← hfree (by simpa [rivalClaim, hex] using hriv)]
      simp only
      rw [failsIn_bind_of_ok (by rw [when, if_neg hriv]; exact run_pure _ _)]
      exact failsIn_charge_iff p [] _

/-! ## The four arms together -/

/-- An entry of one of the four arms, its amount a `u64`. -/
def Watched : LedgerEntry → Prop
  | .transfer p => p.amount < 2 ^ 64
  | .stake p => p.amount < 2 ^ 64
  | .deviceClaimStake p => p.amount < 2 ^ 64
  | .externalSignerTransfer p => p.amount < 2 ^ 64
  | _ => False

def KeepsWhen (env : Env) (now : ℕ) (s : Chain) : LedgerEntry → Prop
  | .transfer p => TransferKeeps s p
  | .stake p => StakeKeeps s p
  | .deviceClaimStake p => ClaimKeeps s p
  | .externalSignerTransfer p => SignerTransferKeeps env now s p
  | _ => True

/-- A failing call keeps the holdings exactly when it fails before its first write to
them, or does not fail at all. -/
theorem failed_entry_keeps_iff (env : Env) (now : ℕ) (s : Chain) (e : LedgerEntry)
    (h : Watched e) : Keeps env now e s ↔ KeepsWhen env now s e := by
  cases e with
  | transfer p => exact keeps_transfer_iff p
  | stake p => exact keeps_stake_iff p
  | deviceClaimStake p => exact keeps_deviceClaimStake_iff p
  | externalSignerTransfer p => exact keeps_signerTransfer_iff h
  | _ => exact absurd h id

/-- A poor sender's transfer to a known account is rejected without a trace. -/
theorem failed_entry_keeps_poor_sender :
    let s : Chain := ({} : Chain).withAccount "bob" 0
    let e : LedgerEntry := .transfer ⟨"alice", "bob", 5, "HONE", none, 1, "alice", 1, none⟩
    Watched e ∧ (applyEntry .bare 0 e s).1 ≠ .ok () ∧ Keeps .bare 0 e s := by
  refine ⟨by unfold Watched; decide, by decide, ?_⟩
  exact (failed_entry_keeps_iff .bare 0 _ _ (by unfold Watched; decide)).2
    (.inr (.inr (by rw [if_neg (by decide)]; decide)))

/-- A recipient with an EVM gate turns the transfer away after the sender was debited. -/
theorem failed_transfer_burns :
    let s : Chain := (({} : Chain).setBalance "alice" "GOLD" 5).stateSet .spamGate "bob:GOLD"
      ⟨0, "", some "0xab", some 1⟩
    let e : LedgerEntry := .transfer ⟨"alice", "bob", 5, "GOLD", none, 1, "alice", 1, none⟩
    Watched e ∧ ¬ Keeps .bare 0 e s := by
  refine ⟨by unfold Watched; decide, ?_⟩
  intro h
  have hrow := row_eq_of_holdings (h _ _ rfl) (balanceKey "alice" "GOLD")
  revert hrow
  decide

end HoneNode.Atomicity
