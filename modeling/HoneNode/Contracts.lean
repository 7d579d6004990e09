import HoneNode.Apply

/-!
# Contracts — deploying and calling contracts

`contracts.rs`: what a contract execution does to the ledger. The runtime itself
is a parameter of the environment; it reports storage writes and transfers, and
the ledger commits them. A transfer is an entry of its own with nonce `0`, so it
goes through the `Transfer` arm, nonce check included.
-/

namespace HoneNode.Contracts

open Entry Prog Within

/-- The parameter that switches token movement on. -/
def contractTokenTransfersParam : String := "contracts_token_transfers_enabled"

def contractTokenTransfersEnabled (s : Chain) : Bool := s.flag contractTokenTransfersParam

def storageKey (contractId hexKey : String) : String := s!"{contractId}:{hexKey}"

/-- Commit the storage changes of an execution. -/
def commitStorage {W : Footprint} (contractId : String) (result : ContractResult) :
    Prog W Unit := do
  result.storageWrites.forM fun (hexKey, value) =>
    stateSet .contract (storageKey contractId hexKey) value
  result.storageDeletes.forM fun hexKey => stateDelete .contract (storageKey contractId hexKey)

/-! ## Deploying -/

/-- The deployment up to the nonce bump that ends it. -/
def contractDeploy (env : Env) (p : ContractDeploy) : Prog {} Unit := do
  checkNonce p.deployer p.nonce
  let wasm ← orBail (env.base64Decode p.wasmB64)
    s!"invalid base64 WASM: {env.base64Error p.wasmB64}"
  let contractId := env.contractAddress p.deployer p.epoch p.nonce
  let result := env.executeDeploy p
  ensure result.success ("contract deploy failed: " ++ result.error.getD "unknown error")
  commitStorage contractId result
  stateSet .wasm contractId wasm

def applyContractDeploy (env : Env) (p : ContractDeploy) (s : Chain) :
    Except Fault Unit × Chain :=
  match (contractDeploy env p).run s with
  | (.ok (), s') => (.ok (), s'.bumpNonce p.deployer)
  | (.error f, s') => (.error f, s')

/-! ## Calling -/

/-- A call moves the signer's HONE and the contract's own. -/
abbrev callFootprint (p : ContractCall) : Footprint :=
  { pays := {balanceKey p.signer nativeToken, balanceKey p.contractId nativeToken} }

/-- The committed storage of a contract with its code under `__wasm`. -/
def loadContractState {W : Footprint} (env : Env) (contractId : String) :
    Prog W (List (Bytes × Bytes)) := do
  let entries ← stateScan .contract s!"{contractId}:"
  let storage ← entries.foldlM (fun acc (key, value) => do
    let hexKey := dropPrefix s!"{contractId}:" key
    let rawKey ← orBail (hexDecode hexKey)
      s!"corrupted storage key '{hexKey}': {env.hexError hexKey}"
    pure (acc ++ [(rawKey, value)])) []
  let found ← stateGet .wasm contractId
  let wasm ← orBail found s!"contract '{contractId}' not found (no WASM stored)"
  pure (storage ++ [(Text.bytes "__wasm", wasm)])

/-- Move the deposit to the contract; a credit that fails is undone. -/
def takeDeposit (p : ContractCall) : Prog (callFootprint p) Unit :=
  when (0 < p.deposit) do
    mapErr ("deposit debit failed: " ++ ·) (debit p.signer nativeToken p.deposit)
    mapErr ("deposit credit failed: " ++ ·)
      (onError (credit p.contractId nativeToken p.deposit)
        (ignoreErr (credit p.signer nativeToken p.deposit)))

/-- Hand the deposit back, as far as the contract still has it. -/
def refundDeposit (p : ContractCall) : Prog (callFootprint p) Unit :=
  when (0 < p.deposit) do
    ignoreErr (debit p.contractId nativeToken p.deposit)
    ignoreErr (credit p.signer nativeToken p.deposit)

/-- The call up to its transfers: checks, deposit, execution, and the gate behind it. -/
def executeCall (env : Env) (p : ContractCall) : Prog (callFootprint p) ContractResult := do
  checkNonce p.signer p.nonce
  let enabled ← inspect contractTokenTransfersEnabled
  ensure (p.deposit = 0 ∨ enabled)
    (s!"contract token movement disabled: call attaches a deposit but "
      ++ s!"'chain_param:{contractTokenTransfersParam}' is not enabled")
  let storage ← loadContractState env p.contractId
  let balance ← inspect (·.getBalance p.contractId nativeToken)
  takeDeposit p
  let result := env.executeCall p storage balance
  if ¬ result.success then do
    refundDeposit p
    bail ("contract call failed: " ++ result.error.getD "unknown error")
  else if ¬ enabled ∧ result.pendingTransfers ≠ [] then do
    refundDeposit p
    let count := result.pendingTransfers.length
    bail (s!"contract token movement disabled: contract emitted {count} transfer(s) but "
      ++ s!"'chain_param:{contractTokenTransfersParam}' is not enabled")
  else pure result

/-- The entry a transfer of the contract becomes. -/
def contractTransfer (p : ContractCall) (recipient : String) (amount : ℕ) :
    Entry.Transfer where
  from_ := p.contractId
  to_ := recipient
  amount := min amount u64Max
  token := nativeToken
  memo := some s!"contract transfer from {p.contractId}"
  epoch := p.epoch
  signedBy := p.contractId
  nonce := 0
  twofactor := none

/-- The transfers of a call, in order up to the first that fails. -/
def payTransfers (env : Env) (now : ℕ) (p : ContractCall) :
    List (String × ℕ) → Chain → Except Fault Unit × Chain
  | [], s => (.ok (), s)
  | (recipient, amount) :: rest, s =>
    let t := contractTransfer p recipient amount
    match applyEntry env now (.transfer t) s with
    | (.ok (), s') => payTransfers env now p rest s'
    | (.error (.err msg), s') => (.error (.err
        (s!"contract pending transfer failed ({p.contractId} -> {recipient} {t.amount}): "
          ++ msg)), ((refundDeposit p).run s').2)
    | (.error (.panic msg), s') => (.error (.panic msg), s')

def applyContractCall (env : Env) (now : ℕ) (p : ContractCall) (s : Chain) :
    Except Fault Unit × Chain :=
  match (executeCall env p).run s with
  | (.error f, s₁) => (.error f, s₁)
  | (.ok result, s₁) => match payTransfers env now p result.pendingTransfers s₁ with
    | (.error f, s₂) => (.error f, s₂)
    | (.ok (), s₂) =>
      -- storage writes cannot fail, so the call ends with the nonce bump
      (.ok (), (((commitStorage p.contractId result : Prog {} Unit).run s₂).2).bumpNonce p.signer)

end HoneNode.Contracts
