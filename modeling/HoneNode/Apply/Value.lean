import HoneNode.Env

/-!
# Apply.Value — the value-moving core

Transfers with the permissive token model (approvals, spam gates, pending
transfers), stakes and unbonding, node-role and device-yield backing, device
claims. Each arm of `apply_entry` is a program of the same name; the two sweeps
at the end run once per epoch seal.
-/

namespace HoneNode

open Entry Prog Within

/-! ## Keys -/

/-- `to:token:from:nonce`, all from free text. -/
def pendingKey (to_ token from_ : String) (nonce : ℕ) : String :=
  s!"{to_}:{token}:{from_}:{nonce}"

def unbondingKey (releaseEpoch : ℕ) (account : String) : String := s!"{releaseEpoch}:{account}"

def yieldKey (serial staker : String) : String := s!"{serial}:{staker}"

def roleKey (role node staker : String) : String := s!"{role}:{node}:{staker}"

/-! ## Transfers -/

/-- Whether `to_` approved `token` from `from_`, by any of the four wildcards. -/
def Chain.tokenApproved (s : Chain) (to_ token from_ : String) : Bool :=
  (s.stateGet .tokenApproval s!"{to_}:{token}:{from_}").isSome
    || (s.stateGet .tokenApproval s!"{to_}:*:{from_}").isSome
    || (s.stateGet .tokenApproval s!"{to_}:{token}:*").isSome
    || (s.stateGet .tokenApproval s!"{to_}:*:*").isSome

inductive SpamGate where
  | onChain (fee : ℕ) (feeToken : String)
  | evm (address : String) (chainId : ℕ)

/-- The gate a stored record stands for: an EVM address takes priority over the fee. -/
def SpamGateRecord.gate (g : SpamGateRecord) : SpamGate :=
  match g.evmAddress, g.evmChainId with
  | some addr, some cid => if addr ≠ "" then .evm addr cid else .onChain g.fee g.feeToken
  | _, _ => .onChain g.fee g.feeToken

/-- The gate in front of `to_` for `token`: the exact token first, then the wildcard. -/
def Chain.spamGate (s : Chain) (to_ token : String) : Option SpamGate :=
  match s.stateGet .spamGate s!"{to_}:{token}" with
  | some g => some g.gate
  | none => (s.stateGet .spamGate s!"{to_}:*").map (·.gate)

/-- How a debited amount reaches the recipient: at once, through the fee gate, or parked. -/
def deliverTransfer (p : Entry.Transfer) : Prog { pays := rowsOf p.from_ } Unit := do
  let approved ← inspect fun s =>
    decide (p.token = nativeToken) || s.tokenApproved p.to_ p.token p.from_
  let gate ← inspect (·.spamGate p.to_ p.token)
  if approved then
    credit p.to_ p.token p.amount
  else match gate with
    | some (.onChain fee feeToken) => do
      let has ← inspect (·.getBalance p.from_ feeToken)
      ensure (fee ≤ has)
        s!"sender '{p.from_}' needs {fee} {feeToken} to pass spam gate for '{p.to_}'"
      debit p.from_ feeToken fee
      credit p.to_ feeToken fee
      credit p.to_ p.token p.amount
    | some (.evm addr cid) =>
      bail s!"recipient '{p.to_}' requires EVM payment to {addr} on chain {cid}; use SpamGatePayEvm"
    | none =>
      stateSet .pendingTransfer (pendingKey p.to_ p.token p.from_ p.nonce)
        { from_ := p.from_, to_ := p.to_, token := p.token, amount := p.amount,
          expiresEpoch := wrapAdd p.epoch 30 }

/-- The transfer up to the nonce bump that ends the arm. -/
def applyTransfer (p : Entry.Transfer) : Prog { pays := rowsOf p.from_ } Unit := do
  touchAlive p.from_ p.epoch
  ensure (0 < p.amount) "transfer amount must be positive"
  checkNonce p.from_ p.nonce
  ensureAccount p.to_ p.epoch
  debit p.from_ p.token p.amount
  deliverTransfer p

def applyGenesisAlloc (p : GenesisAlloc) : Prog {} Unit := do
  ensureAccount p.account 0
  credit p.account p.token p.amount

/-! ## Token approvals, gates and pending transfers -/

def applySpamGateSet (p : SpamGateSet) : Prog {} Unit :=
  stateSet .spamGate s!"{p.account}:{p.token}" ⟨p.fee, p.feeToken, p.evmAddress, p.evmChainId⟩

def applySpamGateClear (p : SpamGateClear) : Prog {} Unit :=
  stateDelete .spamGate s!"{p.account}:{p.token}"

def applySpamGatePayEvm (p : SpamGatePayEvm) :
    Prog { pays := {balanceKey p.from_ p.token} } Unit := do
  let gate ← inspect (·.spamGate p.to_ p.token)
  let open_ : Bool := match gate with
    | some (.evm _ cid) => cid = p.evmChainId
    | _ => false
  ensure open_ s!"no EVM spam gate on chain {p.evmChainId} for '{p.to_}' receiving '{p.token}'"
  debit p.from_ p.token p.amount
  stateSet .pendingTransfer (pendingKey p.to_ p.token p.from_ p.nonce)
    { from_ := p.from_, to_ := p.to_, token := p.token, amount := p.amount,
      expiresEpoch := wrapAdd p.epoch 30, evmTxHash := some p.evmTxHash,
      evmChainId := some p.evmChainId }

def applyTokenApprove (p : TokenApprove) : Prog {} Unit :=
  stateSet .tokenApproval s!"{p.account}:{p.token}:{p.from_}" ()

def applyTokenRevoke (p : TokenRevoke) : Prog {} Unit :=
  stateDelete .tokenApproval s!"{p.account}:{p.token}:{p.from_}"

/-- Take the pending record under `key` and pay its amount out, in the token the
entry names, to `account`. -/
def settlePending (key account token : String) : Prog {} Unit := do
  let found ← stateGet .pendingTransfer key
  let rec_ ← orBail found "no pending transfer found"
  stateDelete .pendingTransfer key
  credit account token rec_.amount

def applyTokenAccept (p : TokenAccept) : Prog {} Unit :=
  settlePending (pendingKey p.to_ p.token p.from_ p.pendingNonce) p.to_ p.token

def applyTokenReject (p : TokenReject) : Prog {} Unit :=
  settlePending (pendingKey p.to_ p.token p.from_ p.pendingNonce) p.from_ p.token

/-! ## Stakes -/

def applyStake (p : Stake) : Prog { pays := {balanceKey p.account nativeToken} } Unit := do
  touchAlive p.account p.epoch
  ensure (0 < p.amount) "stake amount must be positive"
  debit p.account nativeToken p.amount
  addStake p.account p.amount

/-- Queue tokens for release after the slash window; the sum is not checked. -/
def queueUnbonding {W : Footprint} (account : String) (amount epoch : ℕ) : Prog W Unit := do
  let release := wrapAdd epoch unbondingEpochs
  let prev ← stateGet .unbonding (unbondingKey release account)
  let prevAmount := (prev.map (·.amount)).getD 0
  stateSet .unbonding (unbondingKey release account)
    ⟨account, wrapAdd prevAmount amount, release⟩

def applyUnstake (p : Unstake) : Prog { unstakes := {p.account} } Unit := do
  touchAlive p.account p.epoch
  let current ← inspect (·.getStake p.account)
  ensure (p.amount ≤ current) "insufficient stake"
  setStake p.account (current - p.amount)
  queueUnbonding p.account p.amount p.epoch

/-! ## Device yield and node roles -/

def applyDeviceYieldStake (p : DeviceYieldStake) :
    Prog { pays := {balanceKey p.staker nativeToken} } Unit := do
  ensureAccount p.staker p.epoch
  debit p.staker nativeToken p.amount
  let prev ← stateGet .yieldStake (yieldKey p.deviceSerial p.staker)
  stateSet .yieldStake (yieldKey p.deviceSerial p.staker)
    ⟨p.deviceSerial, p.staker, wrapAdd ((prev.map (·.amount)).getD 0) p.amount⟩

def applyDeviceYieldUnstake (p : DeviceYieldUnstake) : Prog {} Unit := do
  let key := yieldKey p.deviceSerial p.staker
  let prev ← stateGet .yieldStake key
  let current := (prev.map (·.amount)).getD 0
  ensure (p.amount ≤ current) "insufficient yield stake to unstake"
  if current - p.amount = 0 then stateDelete .yieldStake key
  else stateSet .yieldStake key ⟨p.deviceSerial, p.staker, current - p.amount⟩
  credit p.staker nativeToken p.amount

def applyDeviceYieldOptIn (p : DeviceYieldOptIn) : Prog {} Unit := do
  let claim ← stateGet .deviceClaim p.deviceSerial
  ensure (claim.map (·.owner) = some p.owner) "only the device owner can opt in to yield sharing"
  stateSet .yieldConfig p.deviceSerial ⟨p.owner, p.maxStakers⟩

def applyDeviceYieldOptOut (p : DeviceYieldOptOut) : Prog {} Unit := do
  let config ← stateGet .yieldConfig p.deviceSerial
  ensure (config.map (·.owner) = some p.owner) "only the device owner can opt out of yield sharing"
  stateDelete .yieldConfig p.deviceSerial

def applyNodeRoleOptIn (p : NodeRoleOptIn) : Prog {} Unit := do
  ensureAccount p.node p.epoch
  stateSet .roleOpt s!"{p.role}:{p.node}"
    ⟨p.node, p.role, some (min p.backerShareBps 5000), some (max 1 (min p.maxBackers 50)), false,
      p.epoch⟩

def applyNodeRoleOptOut (p : NodeRoleOptOut) : Prog {} Unit :=
  stateSet .roleOpt s!"{p.role}:{p.node}" ⟨p.node, p.role, none, none, true, p.epoch⟩

def applyNodeRoleStake (p : NodeRoleStake) :
    Prog { pays := {balanceKey p.staker nativeToken} } Unit := do
  ensureAccount p.staker p.epoch
  debit p.staker nativeToken p.amount
  -- a node staking on itself is opted in to backer sharing unless configured
  let opt ← stateGet .roleOpt s!"{p.role}:{p.node}"
  when (p.staker = p.node ∧ opt.isNone) <|
    stateSet .roleOpt s!"{p.role}:{p.node}" ⟨p.node, p.role, some 1000, some 20, false, p.epoch⟩
  let prev ← stateGet .roleStake (roleKey p.role p.node p.staker)
  stateSet .roleStake (roleKey p.role p.node p.staker)
    ⟨p.node, p.role, p.staker, wrapAdd ((prev.map (·.amount)).getD 0) p.amount, some p.epoch⟩

def applyNodeRoleUnstake (p : NodeRoleUnstake) : Prog {} Unit := do
  let key := roleKey p.role p.node p.staker
  let prev ← stateGet .roleStake key
  let current := (prev.map (·.amount)).getD 0
  ensure (p.amount ≤ current)
    s!"cannot unstake {p.amount} hunits: only {current} staked on '{p.node}' role '{p.role}'"
  if current - p.amount = 0 then stateDelete .roleStake key
  else stateSet .roleStake key ⟨p.node, p.role, p.staker, current - p.amount, none⟩
  credit p.staker nativeToken p.amount

/-- Pay each `(account, stake)` its share of `pot`, rounded down; zero shares are skipped. -/
def payShares {W : Footprint} (pot totalStake : ℕ) (pay : String → ℕ → Prog W Unit)
    (stakers : List (String × ℕ)) : Prog W Unit :=
  stakers.forM fun st => do
    let payout := pot * st.2 / totalStake % 2 ^ 64
    when (0 < payout) (pay st.1 payout)

/-- Pay the backers of a node their part of a reward; what is left is the node's. -/
def distributeRoleBackerReward {W : Footprint} (role node : String) (total : ℕ) :
    Prog W ℕ := do
  let opt ← stateGet .roleOpt s!"{role}:{node}"
  let bps := min ((opt.bind (·.backerShareBps)).getD 0) 5000
  let backerTotal := total * bps / 10000 % 2 ^ 64
  let rows ← stateScan .roleStake s!"{role}:{node}:"
  let stakers := (rows.map fun r => (r.2.staker, r.2.amount)).filter fun st => 0 < st.2
  let totalStake := (stakers.map (·.2)).sum % 2 ^ 64
  if opt.isSome ∧ 0 < bps ∧ 0 < totalStake ∧ 0 < backerTotal then do
    payShares backerTotal totalStake (fun a n => ignoreErr (credit a nativeToken n)) stakers
    pure (total - backerTotal)
  else pure total

/-! ## Device claims -/

/-- Return the old owner's principal and split the premium of an overbid between the
device's yield stakers and the recycle fund. -/
def settleOverbid {W : Footprint} (serial : String) (amount : ℕ) (old : DeviceClaim) :
    Prog W Unit := do
  let required := old.stake * 3 / 2 % 2 ^ 64
  ensure (required ≤ amount)
    s!"device '{serial}' claimed by '{old.owner}' (stake {old.stake}); overbid requires ≥ {required} (1.5×)"
  credit old.owner nativeToken old.stake
  let premium := amount - old.stake
  if 0 < premium then do
    let stakerShare := premium * 5000 / 10000 % 2 ^ 64
    let recycleShare := premium - stakerShare
    let rows ← stateScan .yieldStake s!"{serial}:"
    let stakers := (rows.map fun r => (r.2.staker, r.2.amount)).filter fun st => 0 < st.2
    let totalYield := (stakers.map (·.2)).sum % 2 ^ 64
    if 0 < totalYield ∧ 0 < stakerShare then
      payShares stakerShare totalYield (fun a n => credit a nativeToken n) stakers
    else
      ignoreErr (credit recycleFund nativeToken stakerShare)
    when (0 < recycleShare) (ignoreErr (credit recycleFund nativeToken recycleShare))
  else pure ()

instance isPreorder_claimStake (p : DeviceClaimStake) :
    IsPreorder Chain ({ pays := {balanceKey p.owner nativeToken} } : Footprint).Allows :=
  inferInstance

theorem owner_pays (p : DeviceClaimStake) :
    balanceKey p.owner nativeToken ∈ ({balanceKey p.owner nativeToken} : Set String) :=
  rfl

theorem deviceClaim_open (p : DeviceClaimStake) : Family.deviceClaim.guarded = false ∨
    Family.deviceClaim ∈ ({ pays := {balanceKey p.owner nativeToken} } : Footprint).grants :=
  .inl rfl

def applyDeviceClaimStake (p : DeviceClaimStake) :
    Prog { pays := {balanceKey p.owner nativeToken} } Unit := do
  ensureAccount p.owner p.epoch
  let existing ← stateGet .deviceClaim p.deviceSerial
  match existing with
  | some old => when (old.owner ≠ "" ∧ old.owner ≠ p.owner) (settleOverbid p.deviceSerial p.amount old)
  | none => pure ()
  debit p.owner nativeToken p.amount (owner_pays p)
  stateSet .deviceClaim p.deviceSerial ⟨p.deviceSerial, p.owner, p.amount, p.epoch⟩
    (deviceClaim_open p)

def applyDeviceClaimUnstake (p : DeviceClaimUnstake) : Prog {} Unit := do
  let found ← stateGet .deviceClaim p.deviceSerial
  let claim ← orBail (found.filter (·.owner = p.owner))
    s!"no active claim for serial '{p.deviceSerial}' by '{p.owner}'"
  stateDelete .deviceClaim p.deviceSerial
  ensureAccount p.owner p.epoch
  queueUnbonding p.owner claim.stake p.epoch

/-! ## Sweeps -/

/-- Credit and, when that works, drop one due unbonding record. -/
def releaseUnbonding (key : String) (u : Unbonding) : Prog {} Unit :=
  ignoreErr do
    credit u.account nativeToken u.amount
    stateDelete .unbonding key

/-- Release the unbonding records of an epoch. -/
def drainUnbonding (currentEpoch : ℕ) : Prog {} Unit := do
  let rows ← stateScan .unbonding s!"{currentEpoch}:"
  rows.forM fun r => when (0 < r.2.amount) (releaseUnbonding r.1 r.2)

/-- Drop an expired pending record and refund its sender, if the credit fits. -/
def expirePending (key : String) (t : PendingTransfer) : Prog {} Unit := do
  stateDelete .pendingTransfer key
  ignoreErr (credit t.from_ t.token t.amount)

/-- Refund every pending transfer that has expired. -/
def sweepExpiredPendingTransfers (epoch : ℕ) : Prog {} Unit := do
  let rows ← stateScan .pendingTransfer ""
  rows.forM fun r =>
    when (r.2.expiresEpoch ≤ epoch ∧ r.2.from_ ≠ "" ∧ r.2.token ≠ "" ∧ r.2.amount ≠ 0)
      (expirePending r.1 r.2)

end HoneNode
