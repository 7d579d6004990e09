import HoneNode.Supply
import HoneNode.Lib.Trace

/-!
# Bridge.Supply — the counter of wrapped HONE

The bridge counts wHONE in a record of its own; the tokens are in balances and
in pending transfers. Funding and wrapping add to both, unwrapping takes from
both, and a transfer only moves tokens. The cap test adds without a check, and
a transfer debits the sender before it knows whether the amount can be
delivered, so the two agree only while `Sound` is kept to.
-/

namespace HoneNode.Bridge

open Entry Prog Within Trace Supply

/-! ## The component -/

/-- Bridge entries, and the entries that move wHONE. -/
inductive WrapOp where
  | fund (p : BridgeFund)
  | wrap (p : BridgeWrap)
  | unwrap (p : BridgeUnwrap)
  | transfer (p : Entry.Transfer) (h : p.token = whoneToken)
  | accept (p : TokenAccept) (h : p.token = whoneToken)
  | reject (p : TokenReject) (h : p.token = whoneToken)

def WrapOp.entry : WrapOp → LedgerEntry
  | .fund p => .bridgeFund p
  | .wrap p => .bridgeWrap p
  | .unwrap p => .bridgeUnwrap p
  | .transfer p _ => .transfer p
  | .accept p _ => .tokenAccept p
  | .reject p _ => .tokenReject p

/-- What accounts and pending transfers hold of wHONE. -/
def whoneHeld (s : Chain) : ℕ := balancesOf whoneToken s + held whoneToken .pendingTransfer s

/-- No wHONE at first; the rest of the node leaves it and its counter alone. -/
def circulation (env : Env) (now : ℕ) : Component Chain WrapOp where
  init := fun s => bridgeSupply s = 0 ∧ whoneHeld s = 0
  step := fun s op => (applyEntry env now op.entry s).2
  other := fun s s' => bridgeSupply s' = bridgeSupply s ∧ whoneHeld s' = whoneHeld s

/-- The sender is charged. -/
def Sends (s : Chain) (p : Entry.Transfer) : Prop :=
  0 < p.amount ∧ p.nonce = s.expectedNonce p.from_ ∧ p.amount ≤ s.getBalance p.from_ p.token

instance (s : Chain) (p : Entry.Transfer) : Decidable (Sends s p) :=
  inferInstanceAs (Decidable (_ ∧ _ ∧ _))

/-- The fee of the gate can be paid, or the amount is parked where no wHONE is. -/
def Passes (s : Chain) (p : Entry.Transfer) : Option SpamGate → Prop
  | some (.onChain fee feeToken) =>
    fee ≤ (s.debited p.from_ p.token p.amount).getBalance p.from_ feeToken ∧
      ((s.debited p.from_ p.token p.amount).debited p.from_ feeToken fee).getBalance p.to_
        feeToken + fee < 2 ^ 64
  | some (.evm _ _) => False
  | none => worthAt whoneToken .pendingTransfer (pendingKey p.to_ p.token p.from_ p.nonce) s = 0

instance decidablePasses (s : Chain) (p : Entry.Transfer) : ∀ gate, Decidable (Passes s p gate)
  | some (.onChain _ _) => inferInstanceAs (Decidable (_ ∧ _))
  | some (.evm _ _) => .isFalse id
  | none => inferInstanceAs (Decidable (_ = _))

/-- What is charged arrives: it was approved or passes the gate. -/
def Arrives (s : Chain) (p : Entry.Transfer) : Prop :=
  s.tokenApproved p.to_ p.token p.from_ = false → Passes s p (s.spamGate p.to_ p.token)

instance (s : Chain) (p : Entry.Transfer) : Decidable (Arrives s p) :=
  inferInstanceAs (Decidable (_ → _))

/-- The record that an acceptance or a rejection takes is one of wHONE. -/
def OfWhone (s : Chain) (key : String) : Prop :=
  ∀ r ∈ s.stateGet .pendingTransfer key, r.token = whoneToken

instance (s : Chain) (key : String) : Decidable (OfWhone s key) :=
  inferInstanceAs (Decidable (∀ r ∈ s.stateGet .pendingTransfer key, _))

/-- What is minted does not wrap the counter, what is sent arrives, and what is accepted or
rejected was sent. -/
def Sound (s : Chain) : WrapOp → Prop
  | .fund p => s.stateGet .bridgeFundTx p.externalTxHash = none →
      wrapAdd (bridgeSupply s) p.amountHunits ≤ bridgeCapHunits →
      s.getBalance p.custodian whoneToken + p.amountHunits < 2 ^ 64 →
      bridgeSupply s + p.amountHunits < 2 ^ 64
  | .wrap p => wrapAdd (bridgeSupply s) p.amountHunits ≤ bridgeCapHunits →
      p.amountHunits ≤ s.getBalance p.account nativeToken →
      s.getBalance p.account whoneToken + p.amountHunits < 2 ^ 64 →
      bridgeSupply s + p.amountHunits < 2 ^ 64
  | .unwrap _ => True
  | .transfer p _ => Sends s p → Arrives s p
  | .accept p _ => OfWhone s (pendingKey p.to_ p.token p.from_ p.pendingNonce)
  | .reject p _ => OfWhone s (pendingKey p.to_ p.token p.from_ p.pendingNonce)

instance decidableSound (s : Chain) : ∀ op, Decidable (Sound s op)
  | .fund _ => inferInstanceAs (Decidable (_ → _ → _ → _))
  | .wrap _ => inferInstanceAs (Decidable (_ → _ → _ → _))
  | .unwrap _ => .isTrue trivial
  | .transfer _ _ => inferInstanceAs (Decidable (Sends s _ → Arrives s _))
  | .accept _ _ => inferInstanceAs (Decidable (OfWhone s _))
  | .reject _ _ => inferInstanceAs (Decidable (OfWhone s _))

/-! ## What a write does to what is held -/

/-- A row counts as wHONE by its token alone, whatever the account is called. -/
def isWhone (token : String) : Bool :=
  ("\x00" ++ whoneToken).toList.isSuffixOf ("\x00" ++ token).toList

theorem rowOf_whone (account token : String) :
    rowOf whoneToken (balanceKey account token) = isWhone token := by
  have hkey : (balanceKey account token).toList = account.toList ++ ("\x00" ++ token).toList := by
    simp [balanceKey]
  have hwhone : ("\x00" ++ whoneToken).toList = '\x00' :: whoneToken.toList := by simp
  have htoken : ("\x00" ++ token).toList = '\x00' :: token.toList := by simp
  unfold rowOf isWhone
  rw [Bool.eq_iff_iff, List.isSuffixOf_iff_suffix, List.isSuffixOf_iff_suffix, hkey]
  constructor
  · intro h
    rcases List.suffix_or_suffix_of_suffix h (List.suffix_append _ _) with h | h
    · exact h
    · -- a token that is longer would have a NUL
      rw [hwhone, htoken, List.suffix_cons_iff] at h
      rcases h with h | h
      · rw [hwhone, htoken, h]
      · have hmem : '\x00' ∈ whoneToken.toList := h.subset List.mem_cons_self
        exact absurd hmem (by decide)
  · intro h
    exact h.trans (List.suffix_append _ _)

theorem isWhone_whone : isWhone whoneToken = true := by decide

theorem isWhone_native : isWhone nativeToken = false := by decide

theorem whone_key_ne_native (a b : String) :
    balanceKey a whoneToken ≠ balanceKey b nativeToken := by
  intro h
  have hrow := rowOf_whone a whoneToken
  rw [h, rowOf_whone, isWhone_native, isWhone_whone] at hrow
  cases hrow

section Writes

variable (s : Chain) (account token key : String) (n : ℕ)

theorem whoneHeld_setBalance :
    whoneHeld (s.setBalance account token n) +
        (if isWhone token then s.getBalance account token else 0) =
      whoneHeld s + if isWhone token then n else 0 := by
  have h := Kv.sumBy_put (fun k n => if rowOf whoneToken k then n else 0) s.balances
    (balanceKey account token) n
  have hold : (s.balances.get (balanceKey account token)).elim 0
        (fun n => if isWhone token then n else 0) =
      if isWhone token then s.getBalance account token else 0 := by
    rw [Chain.getBalance]
    cases s.balances.get (balanceKey account token) <;> simp
  simp only [rowOf_whone] at h
  rw [hold] at h
  have hbal : balancesOf whoneToken (s.setBalance account token n) +
      (if isWhone token then s.getBalance account token else 0) =
        balancesOf whoneToken s + if isWhone token then n else 0 := h
  have hheld : held whoneToken .pendingTransfer (s.setBalance account token n) =
      held whoneToken .pendingTransfer s := rfl
  unfold whoneHeld
  omega

theorem whoneHeld_credited :
    whoneHeld (s.credited account token n) = whoneHeld s + if isWhone token then n else 0 := by
  have h := whoneHeld_setBalance s account token (s.getBalance account token + n)
  unfold Chain.credited
  split_ifs at h ⊢ <;> omega

variable {s account token n} in
theorem whoneHeld_debited (hle : n ≤ s.getBalance account token) :
    whoneHeld (s.debited account token n) + (if isWhone token then n else 0) = whoneHeld s := by
  have h := whoneHeld_setBalance s account token (s.getBalance account token - n)
  unfold Chain.debited
  split_ifs at h ⊢ <;> omega

/-- A balance of wHONE is part of what is held. -/
theorem getBalance_le_whoneHeld : s.getBalance account whoneToken ≤ whoneHeld s := by
  have h := whoneHeld_setBalance s account whoneToken 0
  rw [isWhone_whone, if_pos rfl, if_pos rfl] at h
  omega

/-- Parking trades what was under the key for the new record. -/
theorem whoneHeld_park (r : PendingTransfer) :
    whoneHeld (s.stateSet .pendingTransfer key r) + worthAt whoneToken .pendingTransfer key s =
      whoneHeld s + worth whoneToken .pendingTransfer r := by
  have h := Kv.sumBy_put (fun _ v => worth whoneToken .pendingTransfer v)
    (s.state .pendingTransfer) key r
  have hheld : held whoneToken .pendingTransfer (s.stateSet .pendingTransfer key r) +
      worthAt whoneToken .pendingTransfer key s =
        held whoneToken .pendingTransfer s + worth whoneToken .pendingTransfer r := by
    simpa [held, worthAt, Chain.stateGet] using h
  have hbal : balancesOf whoneToken (s.stateSet .pendingTransfer key r) =
      balancesOf whoneToken s := rfl
  unfold whoneHeld
  omega

theorem whoneHeld_take :
    whoneHeld (s.stateDelete .pendingTransfer key) + worthAt whoneToken .pendingTransfer key s =
      whoneHeld s := by
  have h := Kv.sumBy_del (fun _ v => worth whoneToken .pendingTransfer v)
    (s.state .pendingTransfer) key
  have hheld : held whoneToken .pendingTransfer (s.stateDelete .pendingTransfer key) +
      worthAt whoneToken .pendingTransfer key s = held whoneToken .pendingTransfer s := by
    simpa [held, worthAt, Chain.stateGet] using h
  have hbal : balancesOf whoneToken (s.stateDelete .pendingTransfer key) =
      balancesOf whoneToken s := rfl
  unfold whoneHeld
  omega

end Writes

/-! ## The counter and what is held -/

/-- The counter is what is held, and within the cap. -/
structure Balanced (s : Chain) : Prop where
  counted : bridgeSupply s = whoneHeld s
  capped : bridgeSupply s ≤ bridgeCapHunits

/-- A write that changes neither. -/
structure Quiet (s t : Chain) : Prop where
  counter : bridgeSupply t = bridgeSupply s
  held : whoneHeld t = whoneHeld s

instance : IsPreorder Chain Quiet where
  refl := fun _ => ⟨rfl, rfl⟩
  trans := fun _ _ _ h h' => ⟨h'.counter.trans h.counter, h'.held.trans h.held⟩

section Quiet

variable {s t : Chain}

theorem Balanced.of_quiet (h : Balanced s) (hq : Quiet s t) : Balanced t :=
  ⟨hq.counter.trans (h.counted.trans hq.held.symm), hq.counter.trans_le h.capped⟩

theorem quiet_of_state (hb : t.balances = s.balances)
    (hp : t.state .pendingTransfer = s.state .pendingTransfer)
    (hc : t.state .bridgeSupply = s.state .bridgeSupply) : Quiet s t := by
  constructor
  · unfold bridgeSupply
    rw [stateGet_of_state hc]
  · unfold whoneHeld balancesOf Supply.held
    rw [hb, hp]

theorem quiet_stateSet (s : Chain) {f : Family} (key : String) (v : f.Val)
    (hp : .pendingTransfer ≠ f) (hc : .bridgeSupply ≠ f) : Quiet s (s.stateSet f key v) :=
  quiet_of_state rfl (state_stateSet_of_ne _ hp _ _) (state_stateSet_of_ne _ hc _ _)

theorem Balanced.stateSet (h : Balanced s) {f : Family} (key : String) (v : f.Val)
    (hp : .pendingTransfer ≠ f) (hc : .bridgeSupply ≠ f) : Balanced (s.stateSet f key v) :=
  h.of_quiet (quiet_stateSet s key v hp hc)

theorem quiet_noted (h : Noted s t) : Quiet s t :=
  quiet_of_state h.balances (h.state _ (by decide)) (h.state _ (by decide))

theorem quiet_bumpNonce (s : Chain) (account : String) : Quiet s (s.bumpNonce account) := by
  unfold Chain.bumpNonce
  split
  · exact quiet_of_state rfl rfl rfl
  · exact refl_of Quiet s

end Quiet

/-! ## One entry -/

section Entries

variable {env : Env} {now : ℕ} {s : Chain}

theorem bridgeSupply_stateSet (s : Chain) (n : ℕ) :
    bridgeSupply (s.stateSet .bridgeSupply "" n) = n := by
  unfold bridgeSupply
  rw [stateGet_stateSet, if_pos rfl, Option.getD_some]

/-- The counter is not among what is held. -/
theorem whoneHeld_count (s : Chain) (n : ℕ) :
    whoneHeld (s.stateSet .bridgeSupply "" n) = whoneHeld s := by
  unfold whoneHeld Supply.held
  rw [state_stateSet_of_ne _ (by decide)]
  rfl

theorem Balanced.of_refused {r : Except Fault Unit × Chain} (h : Balanced s) (hr : Refused s r) :
    Balanced r.2 := by
  obtain ⟨msg, rfl⟩ := hr
  exact h

/-- Tokens are minted and counted. -/
theorem Balanced.mint (h : Balanced s) {t : Chain} (account : String) {n : ℕ} (hq : Quiet s t)
    (hcap : wrapAdd (bridgeSupply s) n ≤ bridgeCapHunits) (hfit : bridgeSupply s + n < 2 ^ 64) :
    Balanced ((t.credited account whoneToken n).stateSet .bridgeSupply ""
      (wrapAdd (bridgeSupply s) n)) := by
  have hcredit := whoneHeld_credited t account whoneToken n
  rw [isWhone_whone, if_pos rfl] at hcredit
  have hsum : wrapAdd (bridgeSupply s) n = bridgeSupply s + n := Nat.mod_eq_of_lt hfit
  have hcounted := h.counted
  have hquiet := hq.held
  constructor
  · rw [bridgeSupply_stateSet, whoneHeld_count]
    omega
  · rw [bridgeSupply_stateSet]
    exact hcap

theorem balanced_fund (h : Balanced s) (p : BridgeFund) (hsound : Sound s (.fund p)) :
    Balanced ((applyBridgeFund p).run s).2 := by
  unfold applyBridgeFund
  rw [run_stateGet_bind]
  rcases refused_or_ensure (s := s) ((s.stateGet .bridgeFundTx p.externalTxHash).isNone = true) _ _
    with hr | ⟨hnew, hrun⟩
  · exact h.of_refused hr
  rw [hrun, run_inspect_bind]
  rcases refused_or_ensure (s := s)
    (wrapAdd (bridgeSupply s) p.amountHunits ≤ bridgeCapHunits) _ _ with hr | ⟨hcap, hrun⟩
  · exact h.of_refused hr
  rw [hrun]
  by_cases hroom : s.getBalance p.custodian whoneToken + p.amountHunits < 2 ^ 64
  · have hfit := hsound (Option.isNone_iff_eq_none.1 hnew) hcap hroom
    rw [run_credit_bind hroom, run_stateSet_bind,
      run_stateSet_bind, run_stateSet]
    have hmint := h.mint p.custodian (refl_of Quiet s) hcap hfit
    have hseen := hmint.stateSet (f := .bridgeFundTx) p.externalTxHash p.epoch (by decide) (by decide)
    exact hseen.stateSet (f := .bridgeFund) _ _ (by decide) (by decide)
  · rw [run_bind_error (by rw [run_credit, if_neg hroom])]
    exact h

theorem balanced_wrap (h : Balanced s) (p : BridgeWrap) (hsound : Sound s (.wrap p)) :
    Balanced ((applyBridgeWrap p).run s).2 := by
  unfold applyBridgeWrap
  rw [run_inspect_bind]
  rcases refused_or_ensure (s := s)
    (wrapAdd (bridgeSupply s) p.amountHunits ≤ bridgeCapHunits) _ _ with hr | ⟨hcap, hrun⟩
  · exact h.of_refused hr
  rw [hrun]
  rcases refused_or_debit (s := s) p.account nativeToken p.amountHunits _ _ with
    hr | ⟨hfunds, hrun⟩
  · exact h.of_refused hr
  rw [hrun]
  have hquiet : Quiet s (s.debited p.account nativeToken p.amountHunits) := by
    refine ⟨rfl, ?_⟩
    have hdebit := whoneHeld_debited hfunds
    rw [isWhone_native] at hdebit
    exact hdebit
  by_cases hroom : (s.debited p.account nativeToken p.amountHunits).getBalance p.account whoneToken
      + p.amountHunits < 2 ^ 64
  · have hbal : (s.debited p.account nativeToken p.amountHunits).getBalance p.account whoneToken =
        s.getBalance p.account whoneToken := by
      rw [getBalance_eq_row, row_debited, if_neg (whone_key_ne_native _ _)]
      rfl
    have hfit := hsound hcap hfunds (hbal ▸ hroom)
    rw [run_credit_bind hroom, run_stateSet_bind,
      run_stateSet]
    have hmint := h.mint p.account hquiet hcap hfit
    exact hmint.stateSet (f := .bridgeWrap) _ _ (by decide) (by decide)
  · rw [run_bind_error (by rw [run_credit, if_neg hroom])]
    exact h.of_quiet hquiet

theorem balanced_unwrap (h : Balanced s) (p : BridgeUnwrap) :
    Balanced ((applyBridgeUnwrap env p).run s).2 := by
  unfold applyBridgeUnwrap
  rcases refused_or_debit (s := s) p.account whoneToken p.amountHunits _ _ with
    hr | ⟨hfunds, hrun⟩
  · exact h.of_refused hr
  rw [hrun, run_inspect_bind, run_stateSet_bind,
    run_stateGet_bind, run_stateSet_bind, run_logPrefix_snd]
  -- what is burnt was held, so it was counted
  have hburn : Balanced ((s.debited p.account whoneToken p.amountHunits).stateSet .bridgeSupply ""
      (bridgeSupply s - p.amountHunits)) := by
    have hdebit := whoneHeld_debited hfunds
    rw [isWhone_whone, if_pos rfl] at hdebit
    have hcounted := h.counted
    have hcapped := h.capped
    constructor
    · rw [bridgeSupply_stateSet, whoneHeld_count]
      omega
    · rw [bridgeSupply_stateSet]
      omega
  exact hburn.stateSet (f := .bridgeUnlockQueue) _ _ (by decide) (by decide)

/-- A pending record of wHONE becomes a balance. -/
theorem balanced_settlePending (h : Balanced s) {key : String} (account : String)
    (hrec : OfWhone s key) :
    Balanced ((settlePending key account whoneToken).run s).2 := by
  unfold settlePending
  rw [run_stateGet_bind]
  rcases refused_or_orBail (s := s) (s.stateGet .pendingTransfer key) _ _ with hr | ⟨r, hget, hrun⟩
  · exact h.of_refused hr
  rw [hrun, run_stateDelete_bind]
  have htake := whoneHeld_take s key
  rw [worthAt, hget, Option.elim_some, worth, if_pos (hrec r hget)] at htake
  have hle := getBalance_le_whoneHeld (s.stateDelete .pendingTransfer key) account
  have hcounted := h.counted
  have hcapped := h.capped
  have hroom : (s.stateDelete .pendingTransfer key).getBalance account whoneToken + r.amount <
      2 ^ 64 := by
    unfold bridgeCapHunits at hcapped
    omega
  rw [run_credit, if_pos hroom]
  dsimp only
  have hcredit := whoneHeld_credited (s.stateDelete .pendingTransfer key) account whoneToken r.amount
  rw [isWhone_whone, if_pos rfl] at hcredit
  have hcount : bridgeSupply ((s.stateDelete .pendingTransfer key).credited account whoneToken
      r.amount) = bridgeSupply s := by
    unfold bridgeSupply
    rw [Chain.stateGet_credited,
      stateGet_of_state (Chain.state_stateDelete_of_ne s (by decide) key)]
  constructor
  · rw [hcount]
    omega
  · rw [hcount]
    exact hcapped

/-- What a sender was charged arrives, or is parked. -/
theorem balanced_deliverTransfer (h : Balanced s) {t : Chain} {p : Entry.Transfer}
    (htoken : p.token = whoneToken) (hnote : Noted s t)
    (hfunds : p.amount ≤ s.getBalance p.from_ p.token) (harrives : Arrives s p) :
    Balanced ((deliverTransfer p).run (t.debited p.from_ p.token p.amount)).2 := by
  have hdebited := hnote.debited p.from_ p.token p.amount
  have hquiet := quiet_noted hdebited
  have hdebit := whoneHeld_debited hfunds
  rw [htoken, isWhone_whone, if_pos rfl, ← htoken] at hdebit
  have hcounted := h.counted
  have hcapped := h.capped
  have hcap : bridgeCapHunits < 2 ^ 64 := by decide
  have hcounter : bridgeSupply (t.debited p.from_ p.token p.amount) = bridgeSupply s :=
    hquiet.counter
  have hheld := hquiet.held
  generalize t.debited p.from_ p.token p.amount = u at hdebited hcounter hheld
  -- wHONE that is held together with the amount on its way fits
  have harrived : ∀ v : Chain, bridgeSupply v = bridgeSupply s → whoneHeld v = whoneHeld u →
      Balanced ((credit p.to_ p.token p.amount : Prog { pays := rowsOf p.from_ } Unit).run v).2 := by
    intro v hv hvheld
    have hle := getBalance_le_whoneHeld v p.to_
    have hcredit := whoneHeld_credited v p.to_ p.token p.amount
    rw [htoken, isWhone_whone, if_pos rfl] at hcredit
    rw [htoken, run_credit, if_pos (by omega)]
    exact ⟨by rw [hcredit]; exact hv.trans (by omega), hv.le.trans hcapped⟩
  have happroved : u.tokenApproved p.to_ p.token p.from_ = s.tokenApproved p.to_ p.token p.from_ := by
    unfold Chain.tokenApproved
    simp only [hdebited.stateGet (f := .tokenApproval) (by decide)]
    rfl
  have hgate : u.spamGate p.to_ p.token = s.spamGate p.to_ p.token := by
    unfold Chain.spamGate
    simp only [hdebited.stateGet (f := .spamGate) (by decide)]
    rfl
  have hnative : decide (p.token = nativeToken) = false := by
    rw [htoken]
    decide
  unfold deliverTransfer
  rw [run_inspect_bind, run_inspect_bind, happroved, hgate, hnative,
    Bool.false_or]
  unfold Arrives at harrives
  cases happ : s.tokenApproved p.to_ p.token p.from_ with
  | true => exact harrived u hcounter rfl
  | false =>
    have harrives := harrives happ
    rw [if_neg Bool.false_ne_true]
    cases hg : s.spamGate p.to_ p.token with
    | none =>
      rw [hg] at harrives
      dsimp only [Passes] at harrives ⊢
      rw [run_stateSet]
      have hpark := whoneHeld_park u (pendingKey p.to_ p.token p.from_ p.nonce)
        { from_ := p.from_, to_ := p.to_, token := p.token, amount := p.amount,
          expiresEpoch := wrapAdd p.epoch 30 }
      have hworth : worthAt whoneToken .pendingTransfer (pendingKey p.to_ p.token p.from_ p.nonce) u
          = 0 := by
        rw [← harrives]
        unfold worthAt
        rw [hdebited.stateGet (by decide)]
        rfl
      rw [hworth, worth, if_pos htoken] at hpark
      dsimp only at hpark
      have hcount : ∀ r, bridgeSupply (u.stateSet .pendingTransfer
          (pendingKey p.to_ p.token p.from_ p.nonce) r) = bridgeSupply u := by
        intro r
        unfold bridgeSupply
        rw [stateGet_stateSet_of_ne _ (by decide)]
      constructor
      · rw [hcount]
        dsimp only
        omega
      · rw [hcount, hcounter]
        exact hcapped
    | some gate =>
      rw [hg] at harrives
      cases gate with
      | evm addr cid => exact absurd harrives id
      | onChain fee feeToken =>
        obtain ⟨hfee, hfeeRoom⟩ := harrives
        have hfee' : fee ≤ u.getBalance p.from_ feeToken := by
          rw [hdebited.getBalance]
          exact hfee
        have hfeeRoom' : (u.debited p.from_ feeToken fee).getBalance p.to_ feeToken + fee <
            2 ^ 64 := by
          rw [(hdebited.debited p.from_ feeToken fee).getBalance]
          exact hfeeRoom
        dsimp only
        rw [run_inspect_bind, run_ensure_bind hfee',
          run_debit_bind hfee',
          run_credit_bind hfeeRoom']
        have hpaid := whoneHeld_debited hfee'
        have hgot := whoneHeld_credited (u.debited p.from_ feeToken fee) p.to_ feeToken fee
        exact harrived _ hcounter (hgot.trans hpaid)

theorem balanced_transfer (h : Balanced s) {p : Entry.Transfer} (htoken : p.token = whoneToken)
    (hsound : Sends s p → Arrives s p) :
    Balanced (applyEntry env now (.transfer p) s).2 := by
  have hnote := noted_touched s p.from_ p.epoch
  have hrun : Balanced ((applyTransfer p).run s).2 := by
    have hrefused : ∀ {t : Chain} {r : Except Fault Unit × Chain}, Noted s t → Refused t r →
        Balanced r.2 := by
      rintro t r hnote ⟨msg, rfl⟩
      exact h.of_quiet (quiet_noted hnote)
    unfold applyTransfer
    rw [run_touchAlive_bind]
    have hexpected : (s.touched p.from_ p.epoch).expectedNonce p.from_ =
        s.expectedNonce p.from_ := by
      unfold Chain.expectedNonce
      rw [Chain.getAccount_touched]
    generalize s.touched p.from_ p.epoch = t at hnote hexpected
    rcases refused_or_ensure (s := t) (0 < p.amount) _ _ with hr | ⟨hpos, hrun⟩
    · exact hrefused hnote hr
    rw [hrun]
    by_cases hnonce : p.nonce = t.expectedNonce p.from_
    · rw [run_bind_ok (by rw [run_checkNonce, if_pos hnonce]),
        run_ensureAccount_bind]
      have hnote := hnote.withAccount p.to_ p.epoch
      rcases refused_or_debit (s := t.withAccount p.to_ p.epoch) p.from_ p.token p.amount _ _ with
        hr | ⟨hfunds, hrun⟩
      · exact hrefused hnote hr
      rw [hrun]
      rw [hnote.getBalance] at hfunds
      exact balanced_deliverTransfer h htoken hnote hfunds
        (hsound ⟨hpos, hnonce.trans hexpected, hfunds⟩)
    · exact hrefused hnote ⟨_, run_bind_error (by rw [run_checkNonce, if_neg hnonce])⟩
  rw [applyEntry_transfer]
  split
  · next t ht =>
    rw [ht] at hrun
    exact hrun.of_quiet (quiet_bumpNonce t p.from_)
  · next f t ht =>
    rw [ht] at hrun
    exact hrun

theorem balanced_entry (h : Balanced s) (op : WrapOp) (hsound : Sound s op) :
    Balanced (applyEntry env now op.entry s).2 := by
  cases op with
  | fund p => exact balanced_fund h p hsound
  | wrap p => exact balanced_wrap h p hsound
  | unwrap p => exact balanced_unwrap h p
  | transfer p htoken => exact balanced_transfer h htoken hsound
  | accept p htoken =>
    have hrun := balanced_settlePending h p.to_ hsound
    rw [← htoken] at hrun
    exact hrun
  | reject p htoken =>
    have hrun := balanced_settlePending h p.from_ hsound
    rw [← htoken] at hrun
    exact hrun

/-- In every run of sound entries the counter is the wHONE that is held, within the cap. -/
theorem supply_counts_whone {hist : List (Chain × WrapOp)}
    (hrun : Run (circulation env now) Sound hist s) :
    bridgeSupply s = whoneHeld s ∧ bridgeSupply s ≤ bridgeCapHunits := by
  have h : Balanced s := by
    refine hrun.invariant ?_ ?_ ?_
    · rintro s ⟨hzero, hnone⟩
      exact ⟨hzero.trans hnone.symm, hzero.le.trans (Nat.zero_le _)⟩
    · intro s op hsound h
      exact balanced_entry h op hsound
    · rintro s t ⟨hcounter, hheld⟩ h
      exact h.of_quiet ⟨hcounter, hheld⟩
  exact ⟨h.counted, h.capped⟩

end Entries

/-! ### Alice, bob and a custodian -/

def fundOf (custodian tx : String) (n : ℕ) : WrapOp :=
  .fund ⟨"b1", custodian, n, tx, "eth", 1, 1, custodian, none⟩

def sendOf (n nonce : ℕ) : WrapOp :=
  .transfer ⟨"alice", "bob", n, whoneToken, none, 1, "alice", nonce, none⟩ rfl

/-- Alice has native tokens to wrap and a record that counts her nonces. -/
def aliceRich : Chain := (({} : Chain).withAccount "alice" 0).setBalance "alice" nativeToken 1000

/-- Funded and wrapped, sent and accepted, sent and rejected, unwrapped. -/
theorem supply_counts_whone_moved :
    let ops := [fundOf "custodian" "0x1" 300,
      .wrap ⟨"alice", 500, "0xA", "eth", 1, 1, "alice", none⟩, sendOf 200 1,
      .accept ⟨"bob", whoneToken, "alice", 1, 2, 1, "bob"⟩ rfl, sendOf 50 2,
      .reject ⟨"bob", whoneToken, "alice", 2, 2, 2, "bob"⟩ rfl,
      .unwrap ⟨"bob", 120, "0xB", "eth", 3, 3, "bob", none⟩]
    let s := (circulation .bare 0).exec aliceRich ops
    (s.getBalance "alice" whoneToken = 300 ∧ s.getBalance "bob" whoneToken = 80 ∧
      bridgeSupply s = 680) ∧ bridgeSupply s = whoneHeld s ∧ bridgeSupply s ≤ bridgeCapHunits := by
  intro ops s
  have hlegal : Legal (circulation .bare 0) Sound aliceRich ops := by decide
  refine ⟨by decide, supply_counts_whone (Run.exec (.start ?_) hlegal)⟩
  exact ⟨rfl, by decide⟩

/-- The cap test wraps, and a counter of nothing stands for 2 ^ 64 tokens; tokens sent to a
gate on another chain are gone; a sender without a record overwrites what it parked; and an
acceptance of wHONE takes a pending record of another token. -/
theorem supply_miscounts_whone :
    let M := circulation .bare 0
    let huge := M.exec {} [fundOf "custodian" "0x1" 1, fundOf "vault" "0x2" (2 ^ 64 - 1)]
    let gated := ({} : Chain).stateSet .spamGate "bob:wHONE" ⟨0, "HONE", some "0xE", some 1⟩
    let lost := M.exec gated [fundOf "alice" "0x1" 10, sendOf 5 1]
    let parked := M.exec {} [fundOf "alice" "0x1" 10, sendOf 4 1, sendOf 6 1]
    let other := (applyEntry .bare 0
      (.transfer ⟨"wHONE:carol", "bob", 1000, "x", none, 1, "wHONE:carol", 1, none⟩)
      (({} : Chain).setBalance "wHONE:carol" "x" 1000)).2
    let taken := M.exec other [.accept ⟨"bob:x", whoneToken, "carol", 1, 1, 1, "bob:x"⟩ rfl]
    (bridgeSupply huge = 0 ∧ whoneHeld huge = 2 ^ 64 ∧ bridgeCapHunits < whoneHeld huge) ∧
      (bridgeSupply lost = 10 ∧ whoneHeld lost = 5) ∧
      (bridgeSupply parked = 10 ∧ whoneHeld parked = 6) ∧
      (bridgeSupply other = 0 ∧ whoneHeld other = 0) ∧
      bridgeSupply taken = 0 ∧ whoneHeld taken = 1000 := by
  decide

end HoneNode.Bridge
