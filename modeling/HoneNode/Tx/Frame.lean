import HoneNode.Tx

/-!
# Tx.Frame — what one call of `validate_and_apply` can touch

The footprint of the arm, the row the fee is taken from, and nonces. Every call
stays within this reach, whatever it returns.
-/

namespace HoneNode

open Entry

/-! ## Footprints up to nonces -/

namespace Footprint

/-- `s'` comes from `s` by changes that `W` names and by moving nonces. -/
structure Permits (W : Footprint) (s s' : Chain) : Prop where
  balance : ∀ k, k ∉ W.pays → s.row k ≤ s'.row k
  stake : ∀ a, a ∉ W.unstakes → s.getStake a ≤ s'.getStake a
  record : ∀ a r, s.getAccount a = some r →
    ∃ r', s'.getAccount a = some r' ∧ (a ∉ W.rekeys → r'.keys = r.keys)
  fresh : ∀ a r', s.getAccount a = none → s'.getAccount a = some r' →
    a ∉ W.rekeys → r'.keys = ∅
  family : ∀ f : Family, f.guarded = true → f ∉ W.grants → s'.state f = s.state f

variable {W W' : Footprint} {s s' s'' : Chain}

theorem Allows.permits (h : W.Allows s s') : W.Permits s s' where
  balance := h.balance
  stake := h.stake
  record := by
    intro a r hr
    obtain ⟨r', hr', -, hk⟩ := h.record a r hr
    exact ⟨r', hr', hk⟩
  fresh := fun a r' hs hs' => (h.fresh a r' hs hs').2
  family := h.family

theorem Permits.refl (W : Footprint) (s : Chain) : W.Permits s s := (Allows.refl W s).permits

theorem Permits.trans (h : W.Permits s s') (h' : W.Permits s' s'') : W.Permits s s'' where
  balance := fun k hk => (h.balance k hk).trans (h'.balance k hk)
  stake := fun a ha => (h.stake a ha).trans (h'.stake a ha)
  record := by
    intro a r hr
    obtain ⟨r₁, hr₁, hk₁⟩ := h.record a r hr
    obtain ⟨r₂, hr₂, hk₂⟩ := h'.record a r₁ hr₁
    exact ⟨r₂, hr₂, fun ha => (hk₂ ha).trans (hk₁ ha)⟩
  fresh := by
    intro a r'' hnone hr'' ha
    cases hmid : s'.getAccount a with
    | none => exact h'.fresh a r'' hmid hr'' ha
    | some r' =>
      -- created in the first half, kept in the second
      obtain ⟨r₂, hr₂, hk₂⟩ := h'.record a r' hmid
      rw [hr''] at hr₂
      cases hr₂
      exact (hk₂ ha).trans (h.fresh a r' hnone hmid ha)
  family := fun f hg hf => (h'.family f hg hf).trans (h.family f hg hf)

theorem Permits.mono (hp : W.pays ⊆ W'.pays) (hu : W.unstakes ⊆ W'.unstakes)
    (hr : W.rekeys ⊆ W'.rekeys) (hg : W.grants ⊆ W'.grants) (h : W.Permits s s') :
    W'.Permits s s' where
  balance := fun k hk => h.balance k fun hk' => hk (hp hk')
  stake := fun a ha => h.stake a fun ha' => ha (hu ha')
  record := by
    intro a r hs
    obtain ⟨r', hr', hk⟩ := h.record a r hs
    exact ⟨r', hr', fun ha => hk fun ha' => ha (hr ha')⟩
  fresh := fun a r' hs hs' ha => h.fresh a r' hs hs' fun ha' => ha (hr ha')
  family := fun f hf hf' => h.family f hf fun hf'' => hf' (hg hf'')

/-- Advancing a nonce touches nothing else. -/
theorem permits_bumpNonce (a : String) : W.Permits s (s.bumpNonce a) := by
  unfold Chain.bumpNonce
  split
  · rename_i r hr
    exact {
      balance := fun _ _ => le_rfl
      stake := fun _ _ => le_rfl
      record := by
        intro b r₁ hr₁
        by_cases hab : a = b
        · subst hab
          rw [hr] at hr₁
          cases hr₁
          exact ⟨_, Kv.get_put_self _ _ _, fun _ => rfl⟩
        · exact ⟨r₁, by simpa [Chain.getAccount, Kv.get_put_of_ne _ _ hab] using hr₁,
            fun _ => rfl⟩
      fresh := by
        intro b r₁ hnone hsome
        by_cases hab : a = b
        · subst hab
          rw [hr] at hnone
          cases hnone
        · simp only [Chain.getAccount, Chain.setAccount_accounts,
            Kv.get_put_of_ne _ _ hab] at hnone hsome
          rw [hnone] at hsome
          cases hsome
      family := fun _ _ _ => rfl }
  · exact Permits.refl W s

end Footprint

/-! ## One entry -/

variable (env : Env) (now : ℕ) (s : Chain)

theorem applyEntry_permits (e : LedgerEntry) :
    (arm env now e).footprint.Permits s (applyEntry env now e s).2 := by
  unfold applyEntry
  split
  · rename_i p
    have hw := ((applyTransfer p).within s).permits
    rcases h : (applyTransfer p).run s with ⟨_ | _, s'⟩
    · rw [h] at hw
      exact hw
    · rw [h] at hw
      exact hw.trans (Footprint.permits_bumpNonce _)
  · exact ((arm env now e).prog.within s).permits

namespace Contracts

variable (p : ContractCall)

/-- The rows a call can lower: the signer's HONE and all of the contract's. -/
def callReach : Footprint :=
  { pays := {balanceKey p.signer nativeToken} ∪ rowsOf p.contractId }

variable {p s} in
theorem permits_callReach {s' : Chain} (h : (callFootprint p).Permits s s') :
    (callReach p).Permits s s' := by
  refine h.mono ?_ (Set.empty_subset _) (Set.empty_subset _) (Set.empty_subset _)
  rintro k (rfl | rfl)
  · exact .inl rfl
  · exact .inr (balanceKey_mem_rowsOf _ _)

/-- Each transfer of a call is one of the contract. -/
theorem payTransfers_permits (l : List (String × ℕ)) :
    (callReach p).Permits s (payTransfers env now p l s).2 := by
  induction l generalizing s with
  | nil => exact Footprint.Permits.refl _ _
  | cons t rest ih =>
    obtain ⟨recipient, amount⟩ := t
    have hstep : (callReach p).Permits s
        (applyEntry env now (.transfer (contractTransfer p recipient amount)) s).2 :=
      (applyEntry_permits env now s _).mono (fun k hk => .inr hk) (Set.empty_subset _)
        (Set.empty_subset _) (Set.empty_subset _)
    simp only [payTransfers]
    rcases h : applyEntry env now (.transfer (contractTransfer p recipient amount)) s with
      ⟨(msg | msg) | _, s'⟩
    · rw [h] at hstep
      exact hstep.trans (permits_callReach ((refundDeposit p).within s').permits)
    · rw [h] at hstep
      exact hstep
    · rw [h] at hstep
      exact hstep.trans (ih s')

theorem applyContractCall_permits :
    (callReach p).Permits s (applyContractCall env now p s).2 := by
  have hexec := permits_callReach ((executeCall env p).within s).permits
  unfold applyContractCall
  rcases h : (executeCall env p).run s with ⟨_ | result, s₁⟩
  · rw [h] at hexec
    exact hexec
  · rw [h] at hexec
    have hpay := payTransfers_permits env now s₁ p result.pendingTransfers
    simp only
    rcases h₂ : payTransfers env now p result.pendingTransfers s₁ with ⟨_ | _, s₂⟩
    · rw [h₂] at hpay
      exact hexec.trans hpay
    · rw [h₂] at hpay
      have hcommit : (callReach p).Permits s₂
          ((commitStorage p.contractId result : Prog {} Unit).run s₂).2 :=
        ((commitStorage p.contractId result : Prog {} Unit).within s₂).permits.mono
          (Set.empty_subset _) (Set.empty_subset _) (Set.empty_subset _) (Set.empty_subset _)
      exact (hexec.trans hpay).trans (hcommit.trans (Footprint.permits_bumpNonce _))

theorem applyContractDeploy_permits (q : ContractDeploy) :
    ({} : Footprint).Permits s (applyContractDeploy env q s).2 := by
  have hdep := ((contractDeploy env q).within s).permits
  unfold applyContractDeploy
  rcases h : (contractDeploy env q).run s with ⟨_ | _, s'⟩
  · rw [h] at hdep
    exact hdep
  · rw [h] at hdep
    exact hdep.trans (Footprint.permits_bumpNonce _)

end Contracts

namespace Tx

/-! ## The fee -/

/-- Whom the fee is taken from. -/
def feePayer : LedgerEntry → Option String
  | .accountCreate _ => some testnetFund
  | e => entryFeePayer e

/-- The balance row the fee is taken from. -/
def feeRow (e : LedgerEntry) : Set String :=
  { k | ∃ payer, feePayer e = some payer ∧ k = balanceKey payer nativeToken }

variable {env s} in
theorem payFee_permits {payer : String} {fee : ℕ} {W : Footprint}
    (h : balanceKey payer nativeToken ∈ W.pays) : W.Permits s (payFee payer fee s) := by
  unfold payFee
  split
  · have hdebit : W.Permits s (s.debited payer nativeToken fee) :=
      (Footprint.allows_setBalance (.inl h)).permits
    simp only
    split
    · exact hdebit.trans (Footprint.allows_setBalance (.inr (Nat.le_add_right _ _))).permits
    · exact hdebit
  · exact Footprint.Permits.refl W s

variable {env s} in
theorem deductFee_permits {e : LedgerEntry} {W : Footprint} (h : feeRow e ⊆ W.pays) :
    W.Permits s (deductFee env e s) := by
  unfold deductFee
  split
  · exact Footprint.Permits.refl W s
  · split
    · exact payFee_permits (h ⟨testnetFund, rfl, rfl⟩)
    · rename_i e hne
      split
      · rename_i payer hpayer
        refine payFee_permits (h ⟨payer, ?_, rfl⟩)
        unfold feePayer
        split
        · exact absurd rfl (hne _)
        · exact hpayer
      · exact Footprint.Permits.refl W s

variable (e : LedgerEntry)

/-- The fee moves balances and nothing else. -/
theorem deductFee_eq : ∃ b, deductFee env e s = { s with balances := b } := by
  have hpay : ∀ payer fee, ∃ b, payFee payer fee s = { s with balances := b } := by
    intro payer fee
    unfold payFee
    dsimp only
    split
    · split <;> exact ⟨_, rfl⟩
    · exact ⟨_, rfl⟩
  unfold deductFee
  split
  · exact ⟨_, rfl⟩
  · split
    · exact hpay _ _
    · split
      · exact hpay _ _
      · exact ⟨_, rfl⟩

/-- A nonce is a field of an account record. -/
theorem advance_eq : ∃ accounts, advance e s = { s with accounts := accounts } := by
  unfold advance
  split
  · unfold Chain.bumpNonce
    split <;> exact ⟨_, rfl⟩
  · exact ⟨_, rfl⟩

@[simp] theorem state_deductFee : (deductFee env e s).state = s.state := by
  obtain ⟨b, hb⟩ := deductFee_eq env s e
  rw [hb]

@[simp] theorem accounts_deductFee : (deductFee env e s).accounts = s.accounts := by
  obtain ⟨b, hb⟩ := deductFee_eq env s e
  rw [hb]

@[simp] theorem state_advance : (advance e s).state = s.state := by
  obtain ⟨accounts, ha⟩ := advance_eq s e
  rw [ha]

/-! ## The whole call -/

/-- What the arm of an entry can touch. -/
def armReach (env : Env) (now : ℕ) : LedgerEntry → Footprint
  | .contractCall p => Contracts.callReach p
  | e => (arm env now e).footprint

/-- What a call can touch: the reach of the arm and the row of the fee. -/
def reach (env : Env) (now : ℕ) (e : LedgerEntry) : Footprint :=
  { armReach env now e with pays := (armReach env now e).pays ∪ feeRow e }

variable {env s} in
theorem advance_permits {W : Footprint} (e : LedgerEntry) : W.Permits s (advance e s) := by
  unfold advance
  split
  · exact Footprint.permits_bumpNonce _
  · exact Footprint.Permits.refl W s

theorem settleReveal_permits {W : Footprint} (m : Moment) (p : AgentTaskVerifierReveal) :
    W.Permits s (commit.settleReveal m p s).2 := by
  have h := ((trySettle m.order p.taskId : Prog {} Unit).within s).permits.mono
    (Set.empty_subset W.pays) (Set.empty_subset W.unstakes) (Set.empty_subset W.rekeys)
    (Set.empty_subset W.grants)
  unfold commit.settleReveal
  rcases hrun : (trySettle m.order p.taskId : Prog {} Unit).run s with ⟨(_ | _) | _, s'⟩
  all_goals
    rw [hrun] at h
    exact h

theorem armReach_of_ne_call {e : LedgerEntry} (h : ∀ p, e ≠ .contractCall p) :
    armReach env now e = (arm env now e).footprint := by
  unfold armReach
  split
  · exact absurd rfl (h _)
  · rfl

theorem commit_permits (m : Moment) (e : LedgerEntry) :
    (armReach env m.now e).Permits s (commit env m e s).2 := by
  have happ := applyEntry_permits env m.now s e
  unfold commit
  split
  · exact (Footprint.allows_stateSet (.inl rfl)).permits
  · exact Contracts.applyContractDeploy_permits env s _
  · exact Contracts.applyContractCall_permits env m.now s _
  · rename_i p
    rcases h : applyEntry env m.now (.agentTaskVerifierReveal p) s with ⟨_ | _, s'⟩
    · rw [h] at happ
      exact happ
    · rw [h] at happ
      exact (happ.trans (advance_permits (.agentTaskVerifierReveal p))).trans
        (settleReveal_permits _ m p)
  · rename_i hne _
    rw [armReach_of_ne_call env m.now hne]
    rcases h : applyEntry env m.now e s with ⟨_ | _, s'⟩
    · rw [h] at happ
      exact happ
    · rw [h] at happ
      exact happ.trans (advance_permits _)

theorem validateAndApply_permits (m : Moment) (e : LedgerEntry) (sig : Option String) :
    (reach env m.now e).Permits s (validateAndApply env m e sig s).2 := by
  have hcommit : (reach env m.now e).Permits s (commit env m e s).2 :=
    (commit_permits env s m e).mono Set.subset_union_left le_rfl le_rfl le_rfl
  unfold validateAndApply
  split
  · exact Footprint.Permits.refl _ s
  · rcases h : commit env m e s with ⟨_ | _, s'⟩
    · rw [h] at hcommit
      exact hcommit
    · rw [h] at hcommit
      exact hcommit.trans (deductFee_permits Set.subset_union_right)

end Tx

/-! ## Families that moves of coin leave alone -/

section Coin

open Prog Within

variable {f : Family}

theorem keeps_transfer (ha : f ≠ .alive) (hp : f ≠ .pendingTransfer) (p : Entry.Transfer) :
    Keeps (·.state f) (applyTransfer p) := by
  have hnoted : ∀ s t : Chain, Noted s t → t.state f = s.state f := fun s t h => h.state _ ha
  refine Keeps.bind (fun s => hnoted _ _ (noted_touched s _ _)) fun _ => ?_
  refine keeps_ensure.bind fun _ => ?_
  refine Keeps.bind (keeps_inspect.bind fun _ => keeps_ensure) fun _ => ?_
  refine Keeps.bind (fun s => hnoted _ _ ((noted_refl s).withAccount _ _)) fun _ => ?_
  refine keeps_debit.bind fun _ => ?_
  refine keeps_inspect.bind fun _ => keeps_inspect.bind fun gate => ?_
  refine Keeps.ite keeps_credit ?_
  rcases gate with _ | ⟨fee, feeToken⟩ | ⟨addr, cid⟩
  · exact keeps_stateSet hp _ _ _
  · exact keeps_inspect.bind fun _ => keeps_ensure.bind fun _ =>
      keeps_debit.bind fun _ => keeps_credit.bind fun _ => keeps_credit
  · exact keeps_bail _

theorem state_transfer {env : Env} {now : ℕ} {s : Chain} {p : Entry.Transfer} (ha : f ≠ .alive)
    (hp : f ≠ .pendingTransfer) : (applyEntry env now (.transfer p) s).2.state f = s.state f := by
  have hkept := keeps_transfer ha hp p s
  rw [applyEntry_transfer]
  rcases hrun : (applyTransfer p).run s with ⟨_ | _, t⟩
  · rw [hrun] at hkept
    exact hkept
  · rw [hrun] at hkept
    refine Eq.trans ?_ hkept
    dsimp only
    unfold Chain.bumpNonce
    split <;> rfl

theorem keeps_stake (ha : f ≠ .alive) (p : Stake) : Keeps (·.state f) (applyStake p) := by
  refine Keeps.bind (fun s => (noted_touched s _ _).state _ ha) fun _ => ?_
  refine keeps_ensure.bind fun _ => keeps_debit.bind fun _ => ?_
  intro s
  rw [run_addStake]
  split <;> rfl

theorem keeps_unstake (ha : f ≠ .alive) (hu : f ≠ .unbonding) (p : Unstake) :
    Keeps (·.state f) (applyUnstake p) := by
  refine Keeps.bind (fun s => (noted_touched s _ _).state _ ha) fun _ => ?_
  exact keeps_inspect.bind fun _ => keeps_ensure.bind fun _ =>
    (keeps_setStake _).bind fun _ => keeps_stateGet.bind fun _ => keeps_stateSet hu _ _ _

end Coin

end HoneNode
