import HoneNode.Contracts.Storage
import HoneNode.Rewards.Holdings

/-!
# Contracts.Calls — what a contract call leaves behind

A call takes the deposit, executes, sends the transfers one by one and commits
the storage last; a failure on the way hands the deposit back. The transfers of a
contract carry nonce `0`, so they pass only where the nonce of the contract wraps
to it, and there only the first one does. A call that fails behind the first
transfer has moved money for good.
-/

namespace HoneNode.Contracts

open Entry Prog Within

/-! ## The books a call keeps -/

def nonceOf (s : Chain) (account : String) : ℕ := (s.getAccount account).elim 0 (·.nonce)

/-- Balance rows, contract storage, nonces and the native supply. -/
@[ext] structure Ledger where
  row : String → ℕ
  storage : Kv String Bytes
  nonce : String → ℕ
  supply : ℕ

def ledgerOf (s : Chain) : Ledger := ⟨s.row, s.state .contract, nonceOf s, s.holdings⟩

/-- The storage with the writes and then the deletions of an execution. -/
def committedStorage (contractId : String) (result : ContractResult) (m : Kv String Bytes) :
    Kv String Bytes :=
  result.storageDeletes.foldl (fun m hexKey => m.del (storageKey contractId hexKey))
    (result.storageWrites.foldl (fun m w => m.put (storageKey contractId w.1) w.2) m)

/-- What the transfers of an execution add up to. -/
def sent (result : ContractResult) : ℕ := (result.pendingTransfers.map Prod.snd).sum

/-- What an executed call takes out of a balance row. -/
def takenFrom (p : ContractCall) (result : ContractResult) (row : String) : ℕ :=
  (if row = balanceKey p.signer nativeToken then p.deposit else 0) +
    if row = balanceKey p.contractId nativeToken then sent result else 0

/-- What an executed call puts into a balance row. -/
def putInto (p : ContractCall) (result : ContractResult) (row : String) : ℕ :=
  (if row = balanceKey p.contractId nativeToken then p.deposit else 0) +
    (result.pendingTransfers.map fun t =>
      if row = balanceKey t.1 nativeToken then t.2 else 0).sum

/-- What the runtime answers to a call, if the contract can be loaded. -/
def resultOf (env : Env) (p : ContractCall) (s : Chain) : Option ContractResult :=
  match ((loadContractState env p.contractId : Prog (callFootprint p) _).run s).1 with
  | .ok storage => some (env.executeCall p storage (s.getBalance p.contractId nativeToken))
  | .error _ => none

/-- A call that fails leaves the books; one that succeeds has applied the deposit, every
transfer, write and deletion once, and the supply is the same. -/
def Atomic (env : Env) (now : ℕ) (p : ContractCall) (s : Chain) : Prop :=
  let out := applyContractCall env now p s
  match out.1 with
  | .error _ => ledgerOf out.2 = ledgerOf s
  | .ok () => ∃ result ∈ resultOf env p s,
      (∀ row, out.2.row row + takenFrom p result row = s.row row + putInto p result row) ∧
      out.2.state .contract = committedStorage p.contractId result (s.state .contract) ∧
      out.2.holdings = s.holdings

/-! ## When a call goes wrong -/

/-- The deposit is there and fits into the balance of the contract. -/
def Deposits (p : ContractCall) (s : Chain) : Prop :=
  0 < p.deposit → p.deposit ≤ s.getBalance p.signer nativeToken ∧
    (s.debited p.signer nativeToken p.deposit).getBalance p.contractId nativeToken +
      p.deposit < 2 ^ 64

/-- The chain with the deposit moved. -/
def deposited (p : ContractCall) (s : Chain) : Chain :=
  if 0 < p.deposit then
    (s.debited p.signer nativeToken p.deposit).credited p.contractId nativeToken p.deposit
  else s

/-- The call gets to its transfers. -/
structure Reaches (env : Env) (p : ContractCall) (s : Chain) (result : ContractResult) :
    Prop where
  nonce : p.nonce = s.expectedNonce p.signer
  answer : resultOf env p s = some result
  deposits : Deposits p s
  success : result.success = true

/-- A deposit of a contract to itself, handed back when it is no longer there. -/
def Regains (p : ContractCall) (s : Chain) (amount : ℕ) : Prop :=
  p.signer = p.contractId ∧ p.deposit = amount ∧
    s.getBalance p.contractId nativeToken < 2 * amount

/-- The amount taken from the contract does not fit into the balance it is sent to. -/
def Overflows (p : ContractCall) (s : Chain) (recipient : String) (amount : ℕ) : Prop :=
  2 ^ 64 ≤ ((deposited p s).debited p.contractId nativeToken amount).getBalance recipient
    nativeToken + amount

/-- The nonce of the contract wraps to the one its transfers carry, and something behind the
debit of the first transfer fails. -/
def Strands (env : Env) (p : ContractCall) (s : Chain) : Prop :=
  ∃ result, Reaches env p s result ∧ s.expectedNonce p.contractId = 0 ∧
    ∃ recipient amount rest, result.pendingTransfers = (recipient, amount) :: rest ∧ 0 < amount ∧
      (Overflows p s recipient amount ∧ ¬ Regains p s amount ∨
        ¬ Overflows p s recipient amount ∧ rest ≠ [])

section Calls

variable {env : Env} {now : ℕ} {p : ContractCall} {s t : Chain}

/-! ## Notes and money in the books -/

variable {W : Footprint} {result : ContractResult} {recipient : String} {amount : ℕ}
  {rest : List (String × ℕ)} (account : String)

@[simp] theorem nonceOf_touched (epoch : ℕ) (a : String) :
    nonceOf (s.touched account epoch) a = nonceOf s a := by
  unfold nonceOf
  rw [Chain.getAccount_touched]

@[simp] theorem nonceOf_withAccount (epoch : ℕ) (a : String) :
    nonceOf (s.withAccount account epoch) a = nonceOf s a := by
  unfold nonceOf
  by_cases hsome : (s.getAccount account).isSome = true
  · rw [Chain.withAccount, if_pos hsome]
  · by_cases ha : a = account
    · -- a new account starts at nonce zero
      subst ha
      have hnone : s.getAccount a = none := by simpa using hsome
      rw [Chain.getAccount_withAccount_of_none _ _ _ hnone, hnone]
      rfl
    · rw [Chain.withAccount, if_neg hsome]
      unfold Chain.getAccount Chain.setAccount
      rw [Kv.get_put_of_ne _ _ (Ne.symm ha)]

theorem holdings_touched (epoch : ℕ) : (s.touched account epoch).holdings = s.holdings := by
  unfold Chain.touched
  split
  · exact holdings_stateSet_other _ _ _ (by decide)
  · rfl

theorem ledgerOf_touched (epoch : ℕ) :
    ledgerOf (s.touched account epoch) = ledgerOf s := by
  refine Ledger.ext (funext fun k => ?_) ?_ (funext fun a => ?_) ?_
  · exact s.row_touched ..
  · exact s.state_touched _ _ (by decide)
  · exact nonceOf_touched ..
  · exact holdings_touched _ _

/-- Chains with the same rows, storage, nonces and supply have the same books. -/
theorem ledgerOf_congr (hrow : ∀ k, t.row k = s.row k) (hstate : t.state .contract = s.state .contract)
    (hnonce : t.accounts = s.accounts) (hsupply : t.holdings = s.holdings) :
    ledgerOf t = ledgerOf s := by
  have hnonceOf : nonceOf t = nonceOf s := by
    unfold nonceOf Chain.getAccount
    rw [hnonce]
  unfold ledgerOf
  rw [funext hrow, hstate, hnonceOf, hsupply]

/-- An amount taken from an account and put back. -/
theorem ledgerOf_returned {account : String} {n : ℕ} (hle : n ≤ s.getBalance account nativeToken) :
    ledgerOf ((s.debited account nativeToken n).credited account nativeToken n) = ledgerOf s := by
  have hdebited := holdings_debited_native hle
  refine ledgerOf_congr (fun k => ?_) rfl rfl ?_
  · rw [row_credited, row_debited]
    rw [getBalance_eq_row] at hle
    split
    · rename_i hk
      rw [hk]
      omega
    · omega
  · rw [holdings_credited_native, hdebited]

/-! ## Errors -/

theorem run_mapErr_ok {α : Type} {g : String → String} {m : Prog W α} {a : α}
    (h : m.run s = (.ok a, t)) : (mapErr g m).run s = (.ok a, t) := by
  simp only [mapErr, h]

theorem run_mapErr_err {α : Type} {g : String → String} {m : Prog W α}
    {msg : String} (h : m.run s = (.error (.err msg), t)) :
    (mapErr g m).run s = (.error (.err (g msg)), t) := by
  simp only [mapErr, h]

theorem run_onError_ok {α : Type} {m : Prog W α} {cleanup : Prog W Unit} {a : α}
    (h : m.run s = (.ok a, t)) : (onError m cleanup).run s = (.ok a, t) := by
  simp only [onError, h]

theorem run_onError_error {α : Type} {m : Prog W α} {cleanup : Prog W Unit}
    {f : Fault} (h : m.run s = (.error f, t)) :
    (onError m cleanup).run s = (.error f, (cleanup.run t).2) := by
  simp only [onError, h]

/-! ## The deposit -/

theorem row_deposited (k : String) : (deposited p s).row k =
    s.row k - (if k = balanceKey p.signer nativeToken then p.deposit else 0) +
      if k = balanceKey p.contractId nativeToken then p.deposit else 0 := by
  unfold deposited
  by_cases hpos : 0 < p.deposit
  · rw [if_pos hpos, row_credited, row_debited]
  · rw [if_neg hpos, Nat.eq_zero_of_not_pos hpos, ite_self, ite_self]
    rfl

theorem holdings_deposited (hdep : Deposits p s) : (deposited p s).holdings = s.holdings := by
  unfold deposited
  split
  · rename_i hpos
    rw [holdings_credited_native]
    exact holdings_debited_native (hdep hpos).1
  · rfl

theorem getAccount_deposited (a : String) : (deposited p s).getAccount a = s.getAccount a := by
  unfold deposited
  split <;> rfl

/-- The deposit is moved, or the call is refused with the books as they were. -/
theorem run_takeDeposit (hword : ∀ k, s.row k < 2 ^ 64) :
    Deposits p s ∧ (takeDeposit p).run s = (.ok (), deposited p s) ∨
      ¬ Deposits p s ∧ ∃ f t, (takeDeposit p).run s = (.error f, t) ∧ ledgerOf t = ledgerOf s := by
  unfold takeDeposit deposited
  rw [run_when]
  by_cases hpos : 0 < p.deposit
  swap
  · rw [if_neg hpos, if_neg hpos]
    exact .inl ⟨fun h => absurd h hpos, rfl⟩
  rw [if_pos hpos, if_pos hpos]
  by_cases hle : p.deposit ≤ s.getBalance p.signer nativeToken
  swap
  · refine .inr ⟨fun hdep => hle (hdep hpos).1, ?_⟩
    rw [run_bind_error (run_mapErr_err (by rw [run_debit, if_neg hle]))]
    exact ⟨_, s, rfl, rfl⟩
  rw [run_bind_ok (run_mapErr_ok (by rw [run_debit, if_pos hle]))]
  by_cases hfits : (s.debited p.signer nativeToken p.deposit).getBalance p.contractId nativeToken +
      p.deposit < 2 ^ 64
  · left
    refine ⟨fun _ => ⟨hle, hfits⟩, ?_⟩
    exact run_mapErr_ok (run_onError_ok (by rw [run_credit, if_pos hfits]))
  right
  refine ⟨fun hdep => hfits (hdep hpos).2, ?_⟩
  refine ⟨_, _, run_mapErr_err (run_onError_error (by rw [run_credit, if_neg hfits])), ?_⟩
  -- the signer gets back what was taken
  have hback : (s.debited p.signer nativeToken p.deposit).getBalance p.signer nativeToken +
      p.deposit < 2 ^ 64 := by
    have hsigner := hword (balanceKey p.signer nativeToken)
    rw [getBalance_eq_row] at hle
    rw [getBalance_eq_row, row_debited, if_pos rfl]
    omega
  rw [run_ignoreErr, run_credit, if_pos hback]
  exact ledgerOf_returned hle

/-- Handing the deposit back undoes it, whatever else was noted since. -/
theorem ledgerOf_refundDeposit (hword : ∀ k, s.row k < 2 ^ 64) (hdep : Deposits p s)
    (ht : ledgerOf t = ledgerOf (deposited p s)) :
    ledgerOf ((refundDeposit p).run t).2 = ledgerOf s := by
  have hrow : ∀ k, t.row k = (deposited p s).row k := fun k => congrFun (congrArg Ledger.row ht) k
  have hnonce : ∀ a, nonceOf t a = nonceOf s a := by
    intro a
    have hsame : nonceOf t a = nonceOf (deposited p s) a :=
      congrFun (congrArg Ledger.nonce ht) a
    rw [hsame]
    unfold nonceOf
    rw [getAccount_deposited]
  have hstorage : t.state .contract = s.state .contract := by
    have hsame : t.state .contract = (deposited p s).state .contract := congrArg Ledger.storage ht
    rw [hsame]
    unfold deposited
    split <;> rfl
  have hsupply : t.holdings = s.holdings :=
    (congrArg Ledger.supply ht).trans (holdings_deposited hdep)
  unfold refundDeposit
  rw [run_when]
  by_cases hpos : 0 < p.deposit
  swap
  · rw [if_neg hpos]
    refine Ledger.ext (funext fun k => ?_) hstorage (funext hnonce) hsupply
    rw [show (ledgerOf t).row k = t.row k from rfl, hrow k, deposited, if_neg hpos]
    rfl
  rw [if_pos hpos]
  have hle := (hdep hpos).1
  have hsigner := hword (balanceKey p.signer nativeToken)
  rw [getBalance_eq_row] at hle
  -- the contract still has the deposit
  have hheld : p.deposit ≤ t.getBalance p.contractId nativeToken := by
    rw [getBalance_eq_row, hrow, row_deposited, if_pos rfl]
    omega
  have hfits : (t.debited p.contractId nativeToken p.deposit).getBalance p.signer nativeToken +
      p.deposit < 2 ^ 64 := by
    rw [getBalance_eq_row, row_debited, hrow, row_deposited, if_pos rfl]
    split <;> omega
  rw [run_bind_ok (by rw [run_ignoreErr, run_debit, if_pos hheld]), run_ignoreErr, run_credit,
    if_pos hfits]
  refine Ledger.ext (funext fun k => ?_) hstorage (funext hnonce) ?_
  · change ((t.debited p.contractId nativeToken p.deposit).credited p.signer nativeToken
      p.deposit).row k = s.row k
    rw [row_credited, row_debited, hrow, row_deposited]
    split_ifs <;> subst_vars <;> omega
  · change ((t.debited p.contractId nativeToken p.deposit).credited p.signer nativeToken
      p.deposit).holdings = s.holdings
    have hdebited := holdings_debited_native hheld
    rw [holdings_credited_native, hdebited, hsupply]

/-! ## Loading and executing -/

theorem keeps_foldlM {τ α β : Type} {g : Chain → τ} {body : β → α → Prog W β}
    (h : ∀ b a, Keeps g (body b a)) (l : List α) (b : β) : Keeps g (l.foldlM body b) := by
  induction l generalizing b with
  | nil => exact keeps_pure b
  | cons a rest ih =>
    rw [List.foldlM_cons]
    exact (h b a).bind fun b' => ih b'

/-- Loading a contract reads only. -/
theorem run_loadContractState (contractId : String) :
    ((loadContractState env contractId : Prog W _).run s).2 = s := by
  have horBail : ∀ {α : Type} (o : Option α) (msg : String),
      Keeps (fun s : Chain => s) (orBail o msg : Prog W α) := by
    intro α o msg
    cases o with
    | none => exact keeps_fail
    | some a => exact keeps_pure a
  have hkeeps : Keeps (fun s : Chain => s) (loadContractState env contractId : Prog W _) := by
    unfold loadContractState
    refine keeps_inspect.bind fun entries => Keeps.bind ?_ fun storage => ?_
    · exact keeps_foldlM (fun acc entry => (horBail _ _).bind fun _ => keeps_pure _) entries []
    · exact keeps_inspect.bind fun found => (horBail _ _).bind fun _ => keeps_pure _
  exact hkeeps s

theorem run_refundDeposit (t : Chain) : ((refundDeposit p).run t).1 = .ok () := by
  unfold refundDeposit
  rw [run_when]
  split
  · rw [run_bind_ok (run_ignoreErr _ _)]
    rfl
  · rfl

/-- The call gets to its transfers with the deposit moved, or is refused with the books as they
were. -/
theorem run_executeCall (hword : ∀ k, s.row k < 2 ^ 64)
    (henabled : contractTokenTransfersEnabled s = true) :
    (∃ result, Reaches env p s result ∧ (executeCall env p).run s = (.ok result, deposited p s)) ∨
      (∀ result, ¬ Reaches env p s result) ∧
        ∃ f t, (executeCall env p).run s = (.error f, t) ∧ ledgerOf t = ledgerOf s := by
  unfold executeCall
  by_cases hnonce : p.nonce = s.expectedNonce p.signer
  swap
  · refine .inr ⟨fun result h => hnonce h.nonce, ?_⟩
    rw [run_bind_error (by rw [run_checkNonce, if_neg hnonce])]
    exact ⟨_, s, rfl, rfl⟩
  rw [run_bind_ok (by rw [run_checkNonce, if_pos hnonce]), run_inspect_bind,
    run_ensure_bind (.inr henabled)]
  have hload := @run_loadContractState env s (callFootprint p) p.contractId
  rcases hrun : (loadContractState env p.contractId : Prog (callFootprint p) _).run s with
    ⟨f | storage, u⟩
  · rw [hrun] at hload
    refine .inr ⟨fun result h => ?_, ?_⟩
    · have hanswer := h.answer
      unfold resultOf at hanswer
      rw [hrun] at hanswer
      cases hanswer
    · rw [run_bind_error hrun]
      exact ⟨f, u, rfl, congrArg ledgerOf hload⟩
  rw [hrun] at hload
  cases hload
  have hanswer : resultOf env p u =
      some (env.executeCall p storage (u.getBalance p.contractId nativeToken)) := by
    unfold resultOf
    rw [hrun]
  rw [run_bind_ok hrun, run_inspect_bind]
  rcases run_takeDeposit hword with ⟨hdep, htake⟩ | ⟨hdep, f, t, htake, ht⟩
  swap
  · refine .inr ⟨fun result h => hdep h.deposits, ?_⟩
    rw [run_bind_error htake]
    exact ⟨f, t, rfl, ht⟩
  rw [run_bind_ok htake]
  dsimp only
  generalize env.executeCall p storage (u.getBalance p.contractId nativeToken) = result at hanswer
  by_cases hsuccess : result.success = true
  · left
    refine ⟨result, ⟨hnonce, hanswer, hdep, hsuccess⟩, ?_⟩
    rw [if_neg (not_not.2 hsuccess), if_neg fun h => h.1 henabled]
    rfl
  · right
    refine ⟨fun other h => ?_, ?_⟩
    · have hsame : result = other := Option.some.inj (hanswer.symm.trans h.answer)
      exact hsuccess (hsame ▸ h.success)
    · rw [if_pos hsuccess]
      have hrefund : (refundDeposit p).run (deposited p u) =
        (.ok (), ((refundDeposit p).run (deposited p u)).2) :=
        Prod.ext (run_refundDeposit _) rfl
      rw [run_bind_ok hrefund]
      exact ⟨_, _, rfl, ledgerOf_refundDeposit hword hdep rfl⟩

/-! ## One transfer -/

/-- A transfer of nothing, or against another nonce than zero, is only noted. -/
theorem transfer_refused (h : amount = 0 ∨ t.expectedNonce p.contractId ≠ 0) : ∃ msg,
      applyEntry env now (.transfer (contractTransfer p recipient amount)) t =
        (.error (.err msg), t.touched p.contractId p.epoch) := by
  rw [applyEntry_transfer]
  unfold applyTransfer
  rw [run_touchAlive_bind]
  by_cases hpos : 0 < (contractTransfer p recipient amount).amount
  swap
  · rw [run_bind_error (by rw [run_ensure, if_neg hpos])]
    exact ⟨_, rfl⟩
  rw [run_ensure_bind hpos]
  have hnonce : ¬ (contractTransfer p recipient amount).nonce =
      (t.touched p.contractId p.epoch).expectedNonce p.contractId := by
    intro heq
    have hamount : amount ≠ 0 := by
      rintro rfl
      exact absurd hpos (by simp [contractTransfer])
    have hexpected := h.resolve_left hamount
    unfold Chain.expectedNonce at heq hexpected
    rw [Chain.getAccount_touched] at heq
    exact hexpected heq.symm
  rw [run_bind_error (by rw [run_checkNonce]; exact if_neg hnonce)]
  exact ⟨_, rfl⟩

/-- The chain behind the debit of a transfer. -/
def drawn (p : ContractCall) (recipient : String) (amount : ℕ) (t : Chain) : Chain :=
  ((t.touched p.contractId p.epoch).withAccount recipient p.epoch).debited p.contractId nativeToken
    amount

theorem contractTransfer_amount (hword : amount < 2 ^ 64) :
    (contractTransfer p recipient amount).amount = amount :=
  Nat.min_eq_left (by unfold u64Max; omega)

/-- HONE is delivered at once. -/
theorem run_deliver (hword : amount < 2 ^ 64) (u : Chain) :
    (deliverTransfer (contractTransfer p recipient amount)).run u =
      if u.getBalance recipient nativeToken + amount < 2 ^ 64 then
        (.ok (), u.credited recipient nativeToken amount)
      else (.error (.err s!"balance overflow for '{recipient}' {nativeToken}"), u) := by
  unfold deliverTransfer
  rw [run_inspect_bind, run_inspect_bind,
    contractTransfer_amount hword]
  have happroved : (decide ((contractTransfer p recipient amount).token = nativeToken) ||
      u.tokenApproved (contractTransfer p recipient amount).to_
        (contractTransfer p recipient amount).token
        (contractTransfer p recipient amount).from_) = true := by
    rw [Bool.or_eq_true]
    exact .inl (decide_eq_true rfl)
  rw [if_pos happroved]
  exact run_credit _ _ _ _

/-- A transfer that the contract can pay for is sent, or fails behind the debit. -/
theorem run_transfer (hpos : 0 < amount) (hnonce : t.expectedNonce p.contractId = 0)
    (hle : amount ≤ t.getBalance p.contractId nativeToken) (hword : amount < 2 ^ 64) :
    if (t.debited p.contractId nativeToken amount).getBalance recipient nativeToken + amount <
        2 ^ 64 then
      applyEntry env now (.transfer (contractTransfer p recipient amount)) t =
        (.ok (), ((drawn p recipient amount t).credited recipient nativeToken amount).bumpNonce
          p.contractId)
    else ∃ msg, applyEntry env now (.transfer (contractTransfer p recipient amount)) t =
        (.error (.err msg), drawn p recipient amount t) := by
  have hamount : (contractTransfer p recipient amount).amount = amount :=
    contractTransfer_amount hword
  have hsame : (drawn p recipient amount t).getBalance recipient nativeToken =
      (t.debited p.contractId nativeToken amount).getBalance recipient nativeToken := by
    unfold drawn
    rw [getBalance_eq_row, getBalance_eq_row, row_debited, row_debited,
      Chain.row_withAccount, Chain.row_touched]
  have hexpected : (contractTransfer p recipient amount).nonce =
      (t.touched p.contractId p.epoch).expectedNonce p.contractId := by
    unfold Chain.expectedNonce at hnonce ⊢
    rw [Chain.getAccount_touched]
    exact hnonce.symm
  have hheld : amount ≤ ((t.touched p.contractId p.epoch).withAccount recipient
      p.epoch).getBalance p.contractId nativeToken := by
    rw [Chain.getBalance_withAccount, Chain.getBalance_touched]
    exact hle
  have hrun : (applyTransfer (contractTransfer p recipient amount)).run t =
      (deliverTransfer (contractTransfer p recipient amount)).run (drawn p recipient amount t) := by
    unfold applyTransfer
    rw [hamount, run_touchAlive_bind, run_ensure_bind hpos,
      run_bind_ok (by rw [run_checkNonce]; exact if_pos hexpected),
      run_ensureAccount_bind,
      run_bind_ok (by rw [run_debit]; exact if_pos hheld)]
    rfl
  have hdeliver := @run_deliver p recipient _ hword
    (drawn p recipient amount t)
  rw [hsame] at hdeliver
  rw [applyEntry_transfer, hrun]
  split
  · rename_i hfits
    rw [if_pos hfits] at hdeliver
    rw [hdeliver]
    rfl
  · rename_i hover
    rw [if_neg hover] at hdeliver
    refine ⟨s!"balance overflow for '{recipient}' {nativeToken}", ?_⟩
    rw [hdeliver]

theorem row_drawn (recipient : String) (amount : ℕ) (k : String) :
    (drawn p recipient amount t).row k =
      t.row k - if k = balanceKey p.contractId nativeToken then amount else 0 := by
  unfold drawn
  rw [row_debited, Chain.row_withAccount, Chain.row_touched]

theorem state_drawn (recipient : String) (amount : ℕ) :
    (drawn p recipient amount t).state .contract = t.state .contract :=
  (Chain.state_withAccount ..).trans (t.state_touched _ _ (by decide))

theorem nonceOf_drawn (recipient : String) (amount : ℕ) (a : String) :
    nonceOf (drawn p recipient amount t) a = nonceOf t a :=
  (nonceOf_withAccount ..).trans (nonceOf_touched ..)

theorem holdings_drawn (hle : amount ≤ t.getBalance p.contractId nativeToken) :
    (drawn p recipient amount t).holdings + amount = t.holdings := by
  unfold drawn
  rw [holdings_debited_native, holdings_withAccount, holdings_touched]
  rw [Chain.getBalance_withAccount, Chain.getBalance_touched]
  exact hle

/-! ## Ending a call -/

theorem row_bumpNonce (account k : String) : (s.bumpNonce account).row k = s.row k := by
  unfold Chain.bumpNonce
  split <;> rfl

theorem state_bumpNonce (f : Family) : (s.bumpNonce account).state f = s.state f := by
  unfold Chain.bumpNonce
  split <;> rfl

theorem holdings_setAccount (r : Account) : (s.setAccount account r).holdings = s.holdings := by
  unfold Chain.holdings
  rfl

theorem holdings_bumpNonce : (s.bumpNonce account).holdings = s.holdings := by
  unfold Chain.bumpNonce
  split
  · exact holdings_setAccount _ _
  · rfl

/-- The nonce that wraps is not what it was. -/
theorem nonceOf_bumpNonce_of_wraps {account : String} (h : s.expectedNonce account = 0) :
    nonceOf (s.bumpNonce account) account = 0 ∧ nonceOf s account ≠ 0 := by
  unfold Chain.expectedNonce at h
  unfold nonceOf Chain.bumpNonce
  cases hget : s.getAccount account with
  | none =>
    rw [hget] at h
    cases h
  | some r =>
    rw [hget] at h
    dsimp only at h ⊢
    have hput : (s.setAccount account { r with nonce := (r.nonce + 1) % 2 ^ 64 }).getAccount
        account = some { r with nonce := (r.nonce + 1) % 2 ^ 64 } := Kv.get_put_self _ _ _
    rw [hput]
    refine ⟨h, fun hzero => ?_⟩
    rw [show r.nonce = 0 from hzero] at h
    cases h

theorem expectedNonce_of_nonceOf_eq_zero {account : String} (h : nonceOf s account = 0) :
    s.expectedNonce account ≠ 0 := by
  unfold nonceOf at h
  unfold Chain.expectedNonce
  cases hget : s.getAccount account with
  | none => exact Nat.one_ne_zero
  | some r =>
    rw [hget] at h
    have hzero : r.nonce = 0 := h
    dsimp only
    rw [hzero]
    exact Nat.one_ne_zero

/-- A wrapped nonce is one of an account that is there, so no debit changes it. -/
theorem expectedNonce_drawn (recipient : String) (amount : ℕ)
    (h : t.expectedNonce p.contractId = 0) :
    (drawn p recipient amount t).expectedNonce p.contractId = 0 := by
  have hsome : (t.getAccount p.contractId).isSome = true := by
    unfold Chain.expectedNonce at h
    cases hget : t.getAccount p.contractId with
    | none =>
      rw [hget] at h
      cases h
    | some r => rfl
  have hsame : (drawn p recipient amount t).getAccount p.contractId =
      t.getAccount p.contractId := by
    have htouched : (t.touched p.contractId p.epoch).getAccount p.contractId =
      t.getAccount p.contractId := t.getAccount_touched ..
    rw [← htouched] at hsome ⊢
    change ((t.touched p.contractId p.epoch).withAccount recipient p.epoch).getAccount
      p.contractId = _
    by_cases hto : ((t.touched p.contractId p.epoch).getAccount recipient).isSome = true
    · rw [Chain.withAccount, if_pos hto]
    · rw [Chain.withAccount, if_neg hto]
      refine Kv.get_put_of_ne _ _ ?_
      rintro rfl
      exact hto hsome
  unfold Chain.expectedNonce at h ⊢
  rw [hsame]
  exact h

/-- The end of a call changes the storage and the signer's nonce. -/
theorem commit_end (result : ContractResult) (u : Chain) :
    let w := (((commitStorage p.contractId result : Prog {} Unit).run u).2).bumpNonce p.signer
    w.row = u.row ∧ w.state .contract = committedStorage p.contractId result (u.state .contract) ∧
      w.holdings = u.holdings := by
  have hwrites : ∀ (writes : List (String × Bytes)) (u : Chain),
      (withWrites p.contractId writes u).row = u.row ∧
      (withWrites p.contractId writes u).state .contract = writes.foldl
        (fun m w => m.put (storageKey p.contractId w.1) w.2) (u.state .contract) ∧
      (withWrites p.contractId writes u).holdings = u.holdings := by
    intro writes
    induction writes with
    | nil => exact fun u => ⟨rfl, rfl, rfl⟩
    | cons b rest ih =>
      intro u
      obtain ⟨hrow, hstate, hhold⟩ :=
        ih (u.stateSet .contract (storageKey p.contractId b.1) b.2)
      refine ⟨hrow, hstate.trans ?_, hhold.trans ?_⟩
      · rw [state_stateSet_self]
        rfl
      · exact holdings_stateSet_other _ _ _ (by decide)
  have hdeletes : ∀ (deletes : List String) (u : Chain),
      (withDeletes p.contractId deletes u).row = u.row ∧
      (withDeletes p.contractId deletes u).state .contract = deletes.foldl
        (fun m hexKey => m.del (storageKey p.contractId hexKey)) (u.state .contract) ∧
      (withDeletes p.contractId deletes u).holdings = u.holdings := by
    intro deletes
    induction deletes with
    | nil => exact fun u => ⟨rfl, rfl, rfl⟩
    | cons hexKey rest ih =>
      intro u
      obtain ⟨hrow, hstate, hhold⟩ :=
        ih (u.stateDelete .contract (storageKey p.contractId hexKey))
      refine ⟨hrow, hstate.trans ?_, hhold.trans ?_⟩
      · rw [Chain.stateDelete_state, Function.update_self]
        rfl
      · exact holdings_stateDelete_other _ _ (by decide)
  intro w
  obtain ⟨hrow, hstate, hhold⟩ := hwrites result.storageWrites u
  obtain ⟨hrow', hstate', hhold'⟩ :=
    hdeletes result.storageDeletes (withWrites p.contractId result.storageWrites u)
  have hrun : w = (withDeletes p.contractId result.storageDeletes
      (withWrites p.contractId result.storageWrites u)).bumpNonce p.signer := by
    dsimp only [w]
    rw [run_commitStorage]
  rw [hrun]
  refine ⟨funext fun k => ?_, ?_, ?_⟩
  · rw [row_bumpNonce, hrow', hrow]
  · rw [state_bumpNonce, hstate', hstate]
    rfl
  · rw [holdings_bumpNonce, hhold', hhold]

/-! ## Where the transfers fail behind a debit -/

theorem expectedNonce_deposited (a : String) :
    (deposited p s).expectedNonce a = s.expectedNonce a := by
  unfold Chain.expectedNonce
  rw [getAccount_deposited]

/-- The deposit does not take from the contract. -/
theorem row_contract_deposited (hdep : Deposits p s) :
    (deposited p s).row (balanceKey p.contractId nativeToken) =
      s.row (balanceKey p.contractId nativeToken) +
        if p.signer = p.contractId then 0 else p.deposit := by
  rw [row_deposited, if_pos rfl]
  by_cases hself : p.signer = p.contractId
  · rw [if_pos (by rw [hself]), if_pos hself]
    by_cases hpos : 0 < p.deposit
    · have hle := (hdep hpos).1
      rw [hself, getBalance_eq_row] at hle
      omega
    · omega
  · rw [if_neg fun h => hself (balanceKey_native_inj.1 h).symm, if_neg hself]
    omega

/-- Handing back a deposit, step by step. -/
theorem run_refundDeposit_of_pos (hpos : 0 < p.deposit) (t : Chain) :
    let u := if p.deposit ≤ t.getBalance p.contractId nativeToken then
      t.debited p.contractId nativeToken p.deposit else t
    ((refundDeposit p).run t).2 = if u.getBalance p.signer nativeToken + p.deposit < 2 ^ 64 then
      u.credited p.signer nativeToken p.deposit else u := by
  intro u
  have hdebit : (ignoreErr (debit p.contractId nativeToken p.deposit (by simp)) :
      Prog (callFootprint p) Unit).run t = (.ok (), u) := by
    rw [run_ignoreErr, run_debit]
    dsimp only [u]
    split <;> rfl
  unfold refundDeposit
  rw [run_when, if_pos hpos, run_bind_ok hdebit, run_ignoreErr, run_credit]
  split <;> rfl

/-- A transfer that fails behind its debit leaves the books only where the deposit that is handed
back makes up for it. -/
theorem ledgerOf_overflowed (hword : ∀ k, s.row k < 2 ^ 64)
    (hdep : Deposits p s) (hpos : 0 < amount)
    (hle : amount ≤ s.getBalance p.contractId nativeToken) :
    ledgerOf ((refundDeposit p).run (drawn p recipient amount (deposited p s))).2 = ledgerOf s ↔
      Regains p s amount := by
  have hcontract := hword (balanceKey p.contractId nativeToken)
  have hdrawn := row_drawn (p := p) (t := deposited p s) recipient amount
    (balanceKey p.contractId nativeToken)
  rw [row_contract_deposited hdep, if_pos rfl] at hdrawn
  have hle' : amount ≤ s.row (balanceKey p.contractId nativeToken) := hle
  generalize ht : drawn p recipient amount (deposited p s) = t at hdrawn ⊢
  constructor
  · intro hsame
    have hrow : ((refundDeposit p).run t).2.row (balanceKey p.contractId nativeToken) =
        s.row (balanceKey p.contractId nativeToken) :=
      congrFun (congrArg Ledger.row hsame) _
    by_cases hdeposit : 0 < p.deposit
    swap
    · unfold refundDeposit at hrow
      rw [run_when, if_neg hdeposit, hdrawn] at hrow
      split at hrow <;> omega
    have hrefund := run_refundDeposit_of_pos hdeposit t
    dsimp only at hrefund
    rw [hrefund] at hrow
    by_cases hself : p.signer = p.contractId
    · rw [if_pos hself] at hdrawn
      rw [hself] at hrow
      by_cases hheld : p.deposit ≤ t.getBalance p.contractId nativeToken
      · -- the deposit is taken out before it is handed back
        rw [if_pos hheld] at hrow
        rw [getBalance_eq_row] at hheld
        split at hrow
        · rw [row_credited, row_debited, if_pos rfl] at hrow
          omega
        · rw [row_debited, if_pos rfl] at hrow
          omega
      · rw [if_neg hheld] at hrow
        rw [getBalance_eq_row] at hheld
        split at hrow
        · rw [row_credited, if_pos rfl] at hrow
          refine ⟨hself, ?_, ?_⟩
          · omega
          · rw [getBalance_eq_row]
            omega
        · omega
    · rw [if_neg hself] at hdrawn
      have hother : balanceKey p.contractId nativeToken ≠ balanceKey p.signer nativeToken :=
        fun h => hself (balanceKey_native_inj.1 h).symm
      have hheld : p.deposit ≤ t.getBalance p.contractId nativeToken := by
        rw [getBalance_eq_row]
        omega
      rw [if_pos hheld] at hrow
      split at hrow
      · rw [row_credited, row_debited, if_pos rfl, if_neg hother] at hrow
        omega
      · rw [row_debited, if_pos rfl] at hrow
        omega
  · rintro ⟨hself, hamount, htwice⟩
    rw [getBalance_eq_row] at htwice
    rw [if_pos hself] at hdrawn
    have hdeposit : 0 < p.deposit := by omega
    have hrefund := run_refundDeposit_of_pos hdeposit t
    dsimp only at hrefund
    have hgone : ¬ p.deposit ≤ t.getBalance p.contractId nativeToken := by
      rw [getBalance_eq_row]
      omega
    have hfits : t.getBalance p.contractId nativeToken + p.deposit < 2 ^ 64 := by
      rw [getBalance_eq_row]
      omega
    rw [if_neg hgone, hself, if_pos hfits] at hrefund
    rw [hrefund]
    have hlesame : p.deposit ≤ s.row (balanceKey p.signer nativeToken) := (hdep hdeposit).1
    refine Ledger.ext (funext fun k => ?_) ?_ (funext fun a => ?_) ?_
    · change (t.credited p.contractId nativeToken p.deposit).row k = s.row k
      rw [row_credited, ← ht, row_drawn, row_deposited]
      rw [hself] at hlesame ⊢
      by_cases hk : k = balanceKey p.contractId nativeToken
      · subst hk
        rw [if_pos rfl, if_pos rfl]
        omega
      · rw [if_neg hk, if_neg hk]
        rfl
    · change t.state .contract = s.state .contract
      rw [← ht, state_drawn]
      unfold deposited
      split <;> rfl
    · change nonceOf t a = nonceOf s a
      rw [← ht, nonceOf_drawn]
      unfold nonceOf
      rw [getAccount_deposited]
    · change (t.credited p.contractId nativeToken p.deposit).holdings = s.holdings
      have hheld := @holdings_drawn p (deposited p s) recipient amount (by
          rw [getBalance_eq_row, row_contract_deposited hdep]
          omega)
      rw [holdings_deposited hdep] at hheld
      rw [holdings_credited_native, ← ht, hamount]
      exact hheld

/-- What a deposit moves. -/
theorem row_deposited_add (hdep : Deposits p s) (k : String) :
    (deposited p s).row k + (if k = balanceKey p.signer nativeToken then p.deposit else 0) =
      s.row k + if k = balanceKey p.contractId nativeToken then p.deposit else 0 := by
  rw [row_deposited]
  by_cases hpos : 0 < p.deposit
  · have hle := (hdep hpos).1
    rw [getBalance_eq_row] at hle
    by_cases hk : k = balanceKey p.signer nativeToken
    · rw [if_pos hk, hk]
      omega
    · rw [if_neg hk]
      omega
  · rw [Nat.eq_zero_of_not_pos hpos, ite_self, ite_self]
    rfl

/-! ## The call as a whole -/

theorem atomic_iff_of_error {f : Fault} (h : applyContractCall env now p s = (.error f, t)) :
    Atomic env now p s ↔ ledgerOf t = ledgerOf s := by
  unfold Atomic
  rw [h]

/-- A call whose transfers fail ends as they do. -/
theorem call_of_unpaid {f : Fault} {u : Chain} (hrun : (executeCall env p).run s = (.ok result, u))
    (hpay : payTransfers env now p result.pendingTransfers u = (.error f, t)) :
    applyContractCall env now p s = (.error f, t) := by
  unfold applyContractCall
  rw [hrun]
  dsimp only
  rw [hpay]

/-- A call whose transfers are paid has applied what the execution asked for. -/
theorem atomic_of_paid (hreach : Reaches env p s result)
    (hrun : (executeCall env p).run s = (.ok result, deposited p s))
    (hpay : payTransfers env now p result.pendingTransfers (deposited p s) = (.ok (), t))
    (hrow : ∀ k, t.row k + takenFrom p result k = s.row k + putInto p result k)
    (hstate : t.state .contract = s.state .contract) (hsupply : t.holdings = s.holdings) :
    Atomic env now p s := by
  obtain ⟨hrow', hstate', hsupply'⟩ := commit_end (p := p) result t
  unfold Atomic applyContractCall
  rw [hrun]
  dsimp only
  rw [hpay]
  refine ⟨result, hreach.answer, fun k => ?_, ?_, ?_⟩
  · rw [hrow']
    exact hrow k
  · rw [hstate', hstate]
  · rw [hsupply', hsupply]

/-- A first transfer that fails hands the deposit back. -/
theorem payTransfers_of_first {msg : String} {u : Chain}
    (h : applyEntry env now (.transfer (contractTransfer p recipient amount)) u =
      (.error (.err msg), t)) :
    ∃ msg', payTransfers env now p ((recipient, amount) :: rest) u =
      (.error (.err msg'), ((refundDeposit p).run t).2) := by
  unfold payTransfers
  dsimp only
  rw [h]
  exact ⟨_, rfl⟩

/-- A first transfer that is sent leaves the others to the nonce it has moved on. -/
theorem payTransfers_behind_first
    {u : Chain} (h : applyEntry env now (.transfer (contractTransfer p recipient amount)) u =
      (.ok (), t)) :
    payTransfers env now p ((recipient, amount) :: rest) u = payTransfers env now p rest t := by
  rw [payTransfers, h]

theorem nonceOf_refundDeposit (t : Chain) (a : String) :
    nonceOf ((refundDeposit p).run t).2 a = nonceOf t a := by
  by_cases hpos : 0 < p.deposit
  · rw [run_refundDeposit_of_pos hpos t]
    split <;> split <;> rfl
  · unfold refundDeposit
    rw [run_when, if_neg hpos]

theorem strands_iff (hreach : Reaches env p s result)
    (htransfers : result.pendingTransfers = (recipient, amount) :: rest) :
    Strands env p s ↔ s.expectedNonce p.contractId = 0 ∧ 0 < amount ∧
      (Overflows p s recipient amount ∧ ¬ Regains p s amount ∨
        ¬ Overflows p s recipient amount ∧ rest ≠ []) := by
  constructor
  · rintro ⟨other, hother, hnonce, recipient', amount', rest', htransfers', hcase⟩
    have hsame : result = other := Option.some.inj (hreach.answer.symm.trans hother.answer)
    subst hsame
    rw [htransfers] at htransfers'
    cases htransfers'
    exact ⟨hnonce, hcase⟩
  · rintro ⟨hnonce, hcase⟩
    exact ⟨result, hreach, hnonce, recipient, amount, rest, htransfers, hcase⟩

end Calls

/-- With transfers enabled, and transfers that the balance given to the runtime covers, a call is
atomic unless it fails behind the debit of its first transfer. -/
theorem call_is_atomic_iff {env : Env} {now : ℕ} {p : ContractCall} {s : Chain}
    (hword : ∀ row, s.row row < 2 ^ 64) (henabled : contractTokenTransfersEnabled s = true)
    (hgiven : ∀ result ∈ resultOf env p s, sent result ≤ s.getBalance p.contractId nativeToken) :
    Atomic env now p s ↔ ¬ Strands env p s := by
  rcases @run_executeCall env p _ hword henabled with
    ⟨result, hreach, hrun⟩ | ⟨hnone, f, t, hrun, ht⟩
  swap
  · refine iff_of_true ?_ ?_
    · refine (atomic_iff_of_error (f := f) (t := t) ?_).2 ht
      unfold applyContractCall
      rw [hrun]
    · rintro ⟨result, hreach, -⟩
      exact hnone result hreach
  have hcovered := hgiven result hreach.answer
  cases htransfers : result.pendingTransfers with
  | nil =>
    refine iff_of_true ?_ ?_
    · refine atomic_of_paid hreach hrun (by rw [htransfers]; rfl) (fun k => ?_) ?_
        (holdings_deposited hreach.deposits)
      · have hmoved := row_deposited_add hreach.deposits k
        unfold takenFrom putInto sent
        rw [htransfers, List.map_nil, List.map_nil, List.sum_nil, ite_self]
        exact hmoved
      · unfold deposited
        split <;> rfl
    · rintro ⟨other, hother, -, recipient, amount, rest, hcons, -⟩
      have hsame : result = other := Option.some.inj (hreach.answer.symm.trans hother.answer)
      rw [← hsame, htransfers] at hcons
      cases hcons
  | cons first rest =>
    obtain ⟨recipient, amount⟩ := first
    rw [strands_iff hreach htransfers]
    have hsent : sent result = amount + (rest.map Prod.snd).sum := by
      unfold sent
      rw [htransfers]
      exact List.sum_cons
    by_cases hrefused : amount = 0 ∨ s.expectedNonce p.contractId ≠ 0
    · -- nothing was sent
      refine iff_of_true ?_ ?_
      · obtain ⟨msg, hfirst⟩ := @transfer_refused env now p (deposited p s) recipient amount (by
            rw [expectedNonce_deposited]
            exact hrefused)
        obtain ⟨msg', hpay⟩ := @payTransfers_of_first _ _ _ _ _ _ rest _ _ hfirst
        rw [← htransfers] at hpay
        refine (atomic_iff_of_error (call_of_unpaid hrun hpay)).2 ?_
        exact ledgerOf_refundDeposit hword hreach.deposits (ledgerOf_touched _ _)
      · rintro ⟨hnonce, hpos, -⟩
        exact hrefused.elim (fun h => by omega) (fun h => h hnonce)
    rw [not_or, not_not] at hrefused
    obtain ⟨hzero, hnonce⟩ := hrefused
    have hpos : 0 < amount := Nat.pos_of_ne_zero hzero
    have hle : amount ≤ s.getBalance p.contractId nativeToken := by omega
    have hle' : amount ≤ (deposited p s).getBalance p.contractId nativeToken := by
      rw [getBalance_eq_row] at hle ⊢
      rw [row_contract_deposited hreach.deposits]
      omega
    have hamount : amount < 2 ^ 64 := lt_of_le_of_lt hle (hword _)
    have hfirst := @run_transfer env now _ _ recipient _ hpos
      ((expectedNonce_deposited _).trans hnonce) hle' hamount
    by_cases hover : Overflows p s recipient amount
    · rw [if_neg (Nat.not_lt.2 hover)] at hfirst
      obtain ⟨msg, hfirst⟩ := hfirst
      obtain ⟨msg', hpay⟩ := @payTransfers_of_first _ _ _ _ _ _ rest _ _ hfirst
      rw [← htransfers] at hpay
      rw [atomic_iff_of_error (call_of_unpaid hrun hpay),
        ledgerOf_overflowed hword hreach.deposits hpos hle]
      constructor
      · rintro hregains ⟨-, -, ⟨-, hnot⟩ | ⟨hnot, -⟩⟩
        · exact hnot hregains
        · exact hnot hover
      · intro hnot
        by_contra hregains
        exact hnot ⟨hnonce, hpos, .inl ⟨hover, hregains⟩⟩
    rw [if_pos (Nat.not_le.1 hover)] at hfirst
    have hbehind := @payTransfers_behind_first _ _ _ _ _ _ rest _ hfirst
    rw [← htransfers] at hbehind
    generalize hv : ((drawn p recipient amount (deposited p s)).credited recipient nativeToken
      amount).bumpNonce p.contractId = v at hbehind
    have hexpected : ((drawn p recipient amount (deposited p s)).credited recipient nativeToken
        amount).expectedNonce p.contractId = 0 :=
      expectedNonce_drawn recipient amount ((expectedNonce_deposited _).trans hnonce)
    cases rest with
    | nil =>
      refine iff_of_true ?_ ?_
      · refine atomic_of_paid hreach hrun hbehind (fun k => ?_) ?_ ?_
        · have hmoved := row_deposited_add hreach.deposits k
          unfold takenFrom putInto
          rw [hsent, htransfers, ← hv, row_bumpNonce, row_credited, row_drawn]
          rw [getBalance_eq_row] at hle'
          simp only [List.map_cons, List.map_nil, List.sum_cons, List.sum_nil, Nat.add_zero]
          by_cases hk : k = balanceKey p.contractId nativeToken
          · rw [← hk] at hle'
            rw [if_pos hk, if_pos hk] at *
            omega
          · rw [if_neg hk, if_neg hk] at *
            omega
        · rw [← hv, state_bumpNonce]
          refine (state_drawn recipient amount).trans ?_
          unfold deposited
          split <;> rfl
        · have hheld := @holdings_drawn _ _ recipient _ hle'
          rw [holdings_deposited hreach.deposits] at hheld
          rw [← hv, holdings_bumpNonce, holdings_credited_native]
          exact hheld
      · rintro ⟨-, -, ⟨hnot, -⟩ | ⟨-, hnot⟩⟩
        · exact hover hnot
        · exact hnot rfl
    | cons second rest =>
      -- the nonce has moved on, and nothing moves it back
      have hmoved : nonceOf v p.contractId = 0 := by
        rw [← hv]
        exact (nonceOf_bumpNonce_of_wraps hexpected).1
      obtain ⟨msg, hsecond⟩ := @transfer_refused env now p v second.1 second.2
        (.inr (expectedNonce_of_nonceOf_eq_zero hmoved))
      obtain ⟨msg', hpay⟩ := @payTransfers_of_first _ _ _ _ _ _ rest _ _ hsecond
      rw [← hbehind] at hpay
      refine iff_of_false (fun hatomic => ?_) (not_not.2 ⟨hnonce, hpos, .inr ⟨hover, nofun⟩⟩)
      rw [atomic_iff_of_error (call_of_unpaid hrun hpay)] at hatomic
      have hsame : nonceOf ((refundDeposit p).run (v.touched p.contractId p.epoch)).2 p.contractId =
          nonceOf s p.contractId := congrFun (congrArg Ledger.nonce hatomic) _
      rw [nonceOf_refundDeposit, nonceOf_touched, hmoved] at hsame
      exact (nonceOf_bumpNonce_of_wraps hnonce).2 hsame.symm

/-! ### A shop that pays two suppliers -/

/-- A contract with its nonce, and a customer. -/
def shop (nonce : ℕ) : Chain :=
  let accounts := Chain.setAccount {} "shop" { accountId := "shop", createdEpoch := 0, nonce := nonce }
  (((accounts.setBalance "shop" nativeToken 100).setBalance "ann" nativeToken 50).stateSet .wasm
    "shop" []).stateSet .chainParam contractTokenTransfersParam "true"

/-- Whatever is called, it asks for two transfers of five. -/
def supplying : Env :=
  { Env.bare with
    executeCall := fun _ _ _ =>
      { success := true, pendingTransfers := [("bob", 5), ("cyd", 5)] } }

def order : ContractCall :=
  { signer := "ann", contractId := "shop", method := "buy", args := .null, deposit := 10
    gas := 1, epoch := 7, nonce := 1 }

theorem row_shop (nonce : ℕ) (row : String) : (shop nonce).row row < 2 ^ 64 := by
  unfold shop
  rw [Chain.row_stateSet, Chain.row_stateSet, Chain.row_setBalance, Chain.row_setBalance]
  split
  · decide
  · split
    · decide
    · exact Nat.two_pow_pos 64

/-- The transfers are refused for their nonce, and the deposit goes back. -/
theorem call_is_atomic_shop : Atomic supplying 0 order (shop 0) := by
  refine (call_is_atomic_iff (row_shop 0) ?_ ?_).2 ?_
  · decide
  · decide
  · rintro ⟨result, -, hnonce, -⟩
    exact absurd hnonce (by decide)

/-- Where the nonce wraps, the first supplier is paid and the call fails at the second. -/
theorem call_fails_behind_payment :
    let s := shop (2 ^ 64 - 1)
    let out := applyContractCall supplying 0 order s
    (contractTokenTransfersEnabled s = true ∧
      ∀ result ∈ resultOf supplying order s, sent result ≤ s.getBalance "shop" nativeToken) ∧
    (out.1.isOk = false ∧ out.2.getBalance "bob" nativeToken = 5 ∧
      out.2.getBalance "shop" nativeToken = 95 ∧ out.2.getBalance "ann" nativeToken = 50) ∧
    ¬ Atomic supplying 0 order s := by
  intro s out
  have hgiven : contractTokenTransfersEnabled s = true ∧
      ∀ result ∈ resultOf supplying order s, sent result ≤ s.getBalance "shop" nativeToken := by
    decide
  have hout : out.1.isOk = false ∧ out.2.getBalance "bob" nativeToken = 5 ∧
      out.2.getBalance "shop" nativeToken = 95 ∧ out.2.getBalance "ann" nativeToken = 50 := by
    decide
  refine ⟨hgiven, hout, fun hatomic => ?_⟩
  rcases hcall : out with ⟨f | ⟨⟩, t⟩
  · have hbooks := (atomic_iff_of_error hcall).1 hatomic
    have hbob : t.getBalance "bob" nativeToken = s.getBalance "bob" nativeToken :=
      congrFun (congrArg Ledger.row hbooks) _
    rw [hcall] at hout
    exact absurd (hout.2.1.symm.trans hbob) (by decide)
  · rw [hcall] at hout
    cases hout.1

end HoneNode.Contracts
