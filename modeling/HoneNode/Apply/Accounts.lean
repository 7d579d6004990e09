import HoneNode.Env

/-!
# Apply.Accounts — identities, keys and delegated authority

Account records and their key slots, chain links, key policies, scoped
delegation, and the delegated external signer whose TON signature can move an
account's funds. Only here do keys change, and only here are the delegation and
external-signer families written.
-/

namespace HoneNode

open Entry Prog Within

/-! ## Records and keys -/

def linksOf (proofs : List ChainProof) : Kv String ChainLink :=
  proofs.foldl (fun m p => m.put p.chain { commitment := p.commitment, mode := p.mode }) ∅

/-- The stake for a name, taken from whoever funds the account, when the parameter is on. -/
def payNameStake {W : Footprint} (p : AccountCreate)
    (h : ∀ f, p.fundedBy = some f → balanceKey f nativeToken ∈ W.pays) : Prog W Unit := do
  let enabled ← inspect (·.flag "name_stake_enabled")
  let amount ← inspect (·.numParam "name_stake_amount" nameRegistrationStake)
  when (p.account ∉ stakeExemptAccounts ∧ enabled) <|
    match hf : p.fundedBy with
    | some funder => debit funder nativeToken amount (h funder hf)
    | none => pure ()

/-- Idempotent: an existing record is left alone. -/
def applyAccountCreate (p : AccountCreate) :
    Prog { pays := { k | ∃ f, p.fundedBy = some f ∧ k = balanceKey f nativeToken },
           rekeys := {p.account} } Unit := do
  let existing ← inspect (·.getAccount p.account)
  if existing.isSome then pure ()
  else do
    payNameStake p fun f hf => ⟨f, hf, rfl⟩
    createAccount p.account
      { accountId := p.account, createdEpoch := p.epoch, keys := p.keys,
        chainProofs := linksOf p.chainProofs } rfl
    touchAlive p.account p.epoch

/-- Register or replace one key slot; no other slot changes. -/
def applyAccountUpdateKey (p : AccountUpdateKey) :
    Prog { rekeys := {p.account} } Unit := do
  ensureAccount p.account p.epoch
  rekeyAccount p.account fun r => { r with keys := r.keys.put p.role p.newPublicKey }

theorem chainParam_open :
    Family.chainParam.guarded = false ∨ Family.chainParam ∈ ({} : Footprint).grants :=
  .inl rfl

def applyChainParameterSet (p : ChainParameterSet) : Prog {} Unit :=
  stateSet .chainParam p.key p.value chainParam_open

/-- A chain link whose address, recovered from the signature, matches the commitment. -/
def applyVerifyChainLink (env : Env) (p : VerifyChainLink) : Prog {} Unit := do
  let record ← inspect (·.getAccount p.account)
  let _ ← orBail record s!"account '{p.account}' not found"
  match env.recoverChainAddress p.sigType p.signedMessage p.signature with
  | .error _ => bail s!"signature recovery failed for {p.chain} link on '{p.account}'"
  | .ok address => do
    let nonce ← orBail (Text.split ':' p.signedMessage)[4]?
      "malformed signed_message — expected hone:link:account:chain:nonce"
    ensure (env.sha256Hex s!"{p.chain}:{address}:{nonce}" = p.commitment)
      "commitment mismatch: recovered address does not match submitted commitment"
    let link : ChainLink :=
      { commitment := p.commitment, mode := "hard", sigType := some p.sigType,
        signedMessage := some p.signedMessage, signature := some p.signature }
    modifyAccount p.account fun r => { r with chainProofs := r.chainProofs.put p.chain link }

/-- Set or clear the second factor of a key slot. -/
def applySetKeyPolicy (p : SetKeyPolicy) : Prog {} Unit := do
  let found ← inspect (·.getAccount p.account)
  let record ← orBail found s!"account '{p.account}' not found"
  match p.twofactorChain with
  | some chain => do
    ensure (record.chainProofs.get chain).isSome
      s!"no chain proof for '{chain}' on account '{p.account}' — link the chain first"
    modifyAccount p.account fun r => { r with keyPolicies := r.keyPolicies.put p.role chain }
  | none => modifyAccount p.account fun r => { r with keyPolicies := r.keyPolicies.del p.role }

def applyAccountSetPrimary (p : AccountSetPrimary) : Prog {} Unit := do
  let found ← inspect (·.getAccount p.account)
  let _ ← orBail found s!"account '{p.account}' not found"
  modifyAccount p.account fun r => { r with primary := some p.primary }

/-- The rows of an account, as `(token, amount)`. -/
def Chain.scanBalances (s : Chain) (account : String) : List (String × ℕ) :=
  (s.balances.scan (hasPrefix (balanceKey account ""))).map fun r =>
    (dropPrefix (balanceKey account "") r.1, r.2)

/-- Sweep every balance to the declared primary, then hand the identity over to new keys. -/
def applyAccountTransfer (p : AccountTransfer) :
    Prog { pays := rowsOf p.account, rekeys := {p.account} } Unit := do
  let found ← inspect (·.getAccount p.account)
  let record ← orBail found s!"cannot transfer non-existent account '{p.account}'"
  match record.primary with
  | some primary => do
    let rows ← inspect (·.scanBalances p.account)
    rows.forM fun r => when (0 < r.2) do
      debit p.account r.1 r.2
      credit primary r.1 r.2
  | none => pure ()
  rekeyAccount p.account fun r =>
    { r with keys := p.newKeys, transferredEpoch := some p.epoch, primary := none }

/-! ## Delegation -/

def delegationKey (from_ to_ : String) : String := s!"{from_}:{to_}"

def applyDelegationGrant (p : DelegationGrant) : Prog { grants := {.delegation} } Unit :=
  stateSet .delegation (delegationKey p.from_ p.to_)
    ⟨p.from_, p.to_, p.capabilities, p.expiresEpoch⟩

def applyDelegationRevoke (p : DelegationRevoke) : Prog { grants := {.delegation} } Unit :=
  stateDelete .delegation (delegationKey p.from_ p.to_)

/-! ## External signers -/

def externalSignerKey (account chain pubkey : String) : String := s!"{account}:{chain}:{pubkey}"

def tonConnectDomains : List String := ["hone.network", "app.hone.network"]

def tonSignatureMaxAgeS : ℕ := 300

/-- 32 bytes of hex, in either case. -/
def decodeHex32 (text : String) : Option Bytes :=
  (hexDecode text).filter (·.length = 32)

def applyGrantExternalSigner (p : GrantExternalSigner) :
    Prog { grants := {.externalSigner} } Unit := do
  ensure (p.externalChain = "ton")
    s!"unsupported external_chain '{p.externalChain}' — only 'ton' implemented"
  ensure (decodeHex32 p.externalPubkey).isSome "external_pubkey must be 32 bytes hex (Ed25519)"
  ensure (p.externalAddress ≠ "") "external_address must not be empty"
  stateSet .externalSigner (externalSignerKey p.account p.externalChain p.externalPubkey)
    ⟨p.externalAddress, p.label, p.caps, false⟩

/-- The record stays, marked dead. -/
def applyRevokeExternalSigner (p : RevokeExternalSigner) :
    Prog { grants := {.externalSigner} } Unit := do
  let key := externalSignerKey p.account p.externalChain p.externalPubkey
  let found ← stateGet .externalSigner key
  let record ← orBail found
    s!"no grant found for account='{p.account}' chain='{p.externalChain}' pubkey='{p.externalPubkey}'"
  stateSet .externalSigner key { record with revoked := true }

/-- The text whose TON preimage the wallet signed. -/
def tonMessage (p : ExternalSignerTransfer) (address : String) : String :=
  s!"{address}|{p.tonDomain}|{p.tonTimestamp}|{p.tonPayloadKind}|{p.tonPayload}"

/-- The stored key of a grant; its last colon segment is read as the public key. -/
def grantText (key : String) : String := Family.tag .externalSigner ++ key

/-- A live grant whose key verifies the transfer's signature. -/
def grantVerifies (env : Env) (p : ExternalSignerTransfer)
    (g : String × ExternalSigner) : Bool :=
  !g.2.revoked && match decodeHex32 (Text.lastPiece ':' (grantText g.1)) with
    | some pk => TonSignData.verifyWithPubkey env (tonMessage p g.2.address) p.tonSignature pk
    | none => false

/-- The hunit limit a cap stands for; a cap in dollars fails closed. -/
def resolveCapHunits {W : Footprint} : SignerCap → Prog W ℕ
  | .hunits n => pure n
  | .usd _ _ => bail ("Usd-denominated caps are not yet implemented (see "
      ++ "EXTERNAL_SIGNER_DELEGATION.md build phasing step 6) — fail closed rather than treat as "
      ++ "uncapped")

/-- The text a transfer's payload must encode. -/
def payloadText (p : ExternalSignerTransfer) : String :=
  let memo := p.memo.getD ""
  s!"{p.account}|{p.to_}|{p.amount}|{memo}|{p.nonce}"

def nonceMarkerKey (grant : String) (nonce : ℕ) : String := s!"{grantText grant}:{nonce}"

def spentKey (grant : String) (epoch : ℕ) : String := s!"{grantText grant}:{epoch / 2880}"

/-- One transfer may not exceed the per-transaction cap. -/
def checkPerTx {W : Footprint} (p : ExternalSignerTransfer) (caps : ExternalSignerCaps) :
    Prog W Unit :=
  match caps.perTxMax with
  | some cap => do
    let limit ← resolveCapHunits cap
    ensure (p.amount ≤ limit) "amount exceeds per-tx cap for this grant"
  | none => pure ()

/-- Count the transfer against the daily cap. -/
def spendDaily {W : Footprint} (p : ExternalSignerTransfer) (grant : String)
    (caps : ExternalSignerCaps) : Prog W Unit :=
  match caps.dailyMax with
  | some cap => do
    let limit ← resolveCapHunits cap
    let spent ← stateGet .externalSignerSpent (spentKey grant p.epoch)
    let total := wrapAdd (spent.getD 0) p.amount
    ensure (total ≤ limit) "amount exceeds remaining daily cap for this grant"
    stateSet .externalSignerSpent (spentKey grant p.epoch) total
  | none => pure ()

/-- The recipient must be on the allowlist and the grant not expired. -/
def screenGrant {W : Footprint} (now : ℕ) (p : ExternalSignerTransfer)
    (caps : ExternalSignerCaps) : Prog W Unit := do
  match caps.allowlist with
  | some allowed =>
    ensure (p.to_ ∈ allowed) s!"recipient '{p.to_}' is not on this grant's allowlist"
  | none => pure ()
  match caps.expiresAt with
  | some t => ensure (now ≤ t) "grant has expired"
  | none => pure ()

/-- A transfer authorised by a TON signature under a granted key. -/
def applyExternalSignerTransfer (env : Env) (now : ℕ) (p : ExternalSignerTransfer) :
    Prog { pays := {balanceKey p.account nativeToken}, grants := {.externalSignerNonce} }
      Unit := do
  ensure (p.externalChain = "ton") s!"unsupported external_chain '{p.externalChain}'"
  ensure (0 < p.amount) "transfer amount must be positive"
  ensureAccount p.to_ p.epoch
  let grants ← stateScan .externalSigner s!"{p.account}:{p.externalChain}:"
  ensure (grants ≠ [])
    s!"no external signer granted for account='{p.account}' chain='{p.externalChain}'"
  let grant ← orBail (grants.find? (grantVerifies env p))
    "no granted signer verifies this ExternalSignerTransfer"
  ensure (p.tonDomain ∈ tonConnectDomains)
    s!"ton_domain '{p.tonDomain}' is not a recognized HONE surface"
  ensure (now - p.tonTimestamp ≤ tonSignatureMaxAgeS)
    "ton_timestamp too old — signature has expired"
  ensure (p.tonPayload = hexEncode (Text.bytes (payloadText p)))
    "ton_payload does not encode this transfer — signed a different transaction"
  let used ← stateGet .externalSignerNonce (nonceMarkerKey grant.1 p.nonce)
  ensure used.isNone "nonce already used for this grant"
  checkPerTx p grant.2.caps
  -- the counter is written before the allowlist and the expiry are looked at
  spendDaily p grant.1 grant.2.caps
  screenGrant now p grant.2.caps
  stateSet .externalSignerNonce (nonceMarkerKey grant.1 p.nonce) ()
  debit p.account nativeToken p.amount
  credit p.to_ nativeToken p.amount

/-! ## Liveness, wallets and devices of an account -/

def applyLivenessProof (p : LivenessProof) : Prog {} Unit := do
  let record ← inspect (·.getAccount p.account)
  ensure record.isSome s!"account '{p.account}' does not exist"
  touchAlive p.account p.epoch

def applyEntropyWitness (env : Env) (p : EntropyWitness) : Prog {} Unit := do
  let record ← inspect (·.getAccount p.account)
  ensure record.isSome s!"account '{p.account}' does not exist"
  touchAlive p.account p.epoch
  logSlice env.info p.address 12
  logSlice env.info p.txHash 16

/-- Replace the account's API key and the index from key to account. -/
def applyAccountApiKeySet (p : AccountApiKeySet) : Prog {} Unit := do
  touchAlive p.account p.epoch
  let old ← stateGet .accountApiKey p.account
  match old with
  | some key => stateDelete .apiKey key
  | none => pure ()
  stateSet .apiKey p.apiKey p.account
  stateSet .accountApiKey p.account p.apiKey

/-- Add the addresses the family does not list yet, each with its reverse index. -/
def addWallets (account : String) :
    List ChainAddress → List WalletAddress → Prog {} (List WalletAddress)
  | [], family => pure family
  | ca :: rest, family =>
    if family.any fun w => w.chain = ca.chain && w.address = ca.address then
      addWallets account rest family
    else do
      stateSet .walletAddr s!"{ca.chain}:{ca.address}" account
      addWallets account rest (family ++ [⟨ca.chain, ca.address, ca.derivationPath⟩])

def publishWallets (account : String) (chains : List ChainAddress) (epoch : ℕ) :
    Prog {} Unit := do
  touchAlive account epoch
  let existing ← stateGet .walletFamily account
  let family ← addWallets account chains (existing.getD [])
  stateSet .walletFamily account family

def applyWalletFamilyPublish (p : WalletFamilyPublish) : Prog {} Unit :=
  publishWallets p.account p.chains p.epoch

def applyWalletFamilyAdd (p : WalletFamilyAdd) : Prog {} Unit :=
  publishWallets p.account p.chains p.epoch

/-- A hardware fingerprint belongs to the first account that claims it. -/
def applyHardwareClaim (env : Env) (p : HardwareClaim) : Prog {} Unit := do
  ensure (p.fingerprint ≠ "") "empty hardware fingerprint"
  let existing ← stateGet .hwClaim p.fingerprint
  match existing with
  | some owner => do
    ensure (owner = p.account) s!"hardware fingerprint already claimed by account '{owner}'"
    stateSet .hwClaim p.fingerprint p.account
  | none => do
    stateSet .hwClaim p.fingerprint p.account
    stateSet .hwAccount p.account p.fingerprint
    logSlice env.info p.fingerprint 16
  touchAlive p.account p.epoch

end HoneNode
