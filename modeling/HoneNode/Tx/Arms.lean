import HoneNode.Apply.Value
import HoneNode.Tx.Checks
import HoneNode.Tx.Fees

/-!
# Tx.Arms — which checks each entry goes through

The arms of `validate_and_apply` up to the point where they write. Most of them
follow one of four patterns, which differ in whether the signer has to be the
account that acts and whether a nonce is asked for; `unbound` is the pattern
that checks the nonce of the acting account but the key of the signer.
-/

namespace HoneNode.Tx

open Entry

/-! ## Patterns -/

def same (a b msg : String) : Check := .holds (a = b) msg

/-- The actor signs, with a nonce. -/
def bound (signedBy actor : String) (nonce : ℕ) (role msg : String) (sig : Option String) :
    List Check :=
  [same signedBy actor msg, .requireKey actor, .nonce actor nonce, .signature signedBy role sig]

/-- The signer need not be the actor whose nonce is checked. -/
def unbound (signedBy actor : String) (nonce : ℕ) (sig : Option String) : List Check :=
  [.requireKey signedBy, .nonce actor nonce, .signature signedBy "active" sig]

/-- The actor signs, without a nonce. -/
def attributed (signedBy actor msg : String) (sig : Option String) : List Check :=
  [same signedBy actor msg, .signature signedBy "posting" sig]

/-- As `attributed`, for accounts that must have a key. -/
def keyed (signedBy actor msg : String) (sig : Option String) : List Check :=
  [same signedBy actor msg, .requireKey actor, .signature signedBy "posting" sig]

def notEmpty (text field : String) : Check :=
  .holds (trim text ≠ "") s!"field '{field}' must not be empty"

/-- The owner acts, or somebody with a live delegation of the capability. -/
def delegable (s : Chain) (signedBy owner capability msg : String) : Check :=
  .holds (signedBy = owner || hasDelegation s owner signedBy capability s.currentEpoch) msg

def covers (s : Chain) (account token : String) (amount : ℕ) (msg : String) : Check :=
  .holds (amount ≤ s.getBalance account token) msg

/-! ## Value moves -/

section Short

variable (env : Env) (s : Chain)

def shortTransfer (p : Entry.Transfer) : String :=
  let balance := env.honeText (s.getBalance p.from_ p.token)
  let need := env.honeText p.amount
  s!"insufficient balance: {p.from_} has {balance} {p.token} (need {need})"

def shortStake (p : Stake) : String :=
  let balance := env.honeText (s.getBalance p.account nativeToken)
  s!"insufficient balance for stake: {p.account} has {balance} HONE"

def shortUnstake (p : Unstake) : String :=
  let staked := env.honeText (s.getStake p.account)
  s!"insufficient stake: {p.account} has {staked} HONE staked"

end Short

def deviceYieldStakeChecks (s : Chain) (p : DeviceYieldStake) (sig : Option String) :
    List Check :=
  let config := s.stateGet .yieldConfig p.deviceSerial
  let most := config.elim 10 (·.maxStakers)
  let stakers := ((s.state .yieldStake).scan (hasPrefix s!"{p.deviceSerial}:")).length
  [delegable s p.signedBy p.staker "DeviceYield"
      "signed_by must be the staker or a DeviceYield delegate",
    .requireKey p.signedBy, .nonce p.staker p.nonce, .signature p.signedBy "active" sig,
    .holds config.isSome s!"device '{p.deviceSerial}' has not opted in to yield sharing",
    .holds (stakers < most)
      s!"device '{p.deviceSerial}' is at maximum staker capacity ({stakers}/{most})",
    covers s p.staker nativeToken p.amount "insufficient balance for yield stake"]

/-- What a backer other than the node itself has to meet. -/
def backerChecks (s : Chain) (p : NodeRoleStake) : List Check :=
  let opt := s.stateGet .roleOpt s!"{p.role}:{p.node}"
  let most := (opt.bind (·.maxBackers)).getD 20
  let count := ((s.state .roleStake).scan (hasPrefix s!"{p.role}:{p.node}:")).length
  let existing := (s.stateGet .roleStake (roleKey p.role p.node p.staker)).isSome
  if p.staker = p.node then []
  else
    [.holds (opt.elim true (! ·.optedOut))
        s!"node '{p.node}' has opted out of backer sharing for role '{p.role}'",
      .holds (existing || count < most)
        s!"node '{p.node}' role '{p.role}' is at backer capacity ({count}/{most})"]

def nodeRoleStakeChecks (s : Chain) (p : NodeRoleStake) (sig : Option String) :
    List Check :=
  [delegable s p.signedBy p.staker "NodeRoleStake"
      s!"signed_by must be the staker or a NodeRoleStake delegate of '{p.staker}'",
    .holds (p.amount ≠ 0) "stake amount must be positive",
    .requireKey p.signedBy, .nonce p.staker p.nonce, .signature p.signedBy "active" sig] ++
  backerChecks s p ++
  [covers s p.staker nativeToken p.amount
    (let balance := s.getBalance p.staker nativeToken
     s!"insufficient balance for role stake: {p.staker} has {balance} hunits")]

def nodeRoleUnstakeChecks (s : Chain) (p : NodeRoleUnstake) (sig : Option String) :
    List Check :=
  let current := (s.stateGet .roleStake (roleKey p.role p.node p.staker)).elim 0 (·.amount)
  [delegable s p.signedBy p.staker "NodeRoleStake"
      s!"signed_by must be the staker or a NodeRoleStake delegate of '{p.staker}'",
    .holds (p.amount ≠ 0) "unstake amount must be positive",
    .requireKey p.signedBy, .nonce p.staker p.nonce, .signature p.signedBy "active" sig,
    .holds (p.amount ≤ current)
      (s!"cannot unstake {p.amount} hunits: only {current} staked on '{p.node}' role "
        ++ s!"'{p.role}'")]

/-! ## Accounts and keys -/

/-- A 32-byte key in hex. -/
def isKeyHex (key : String) : Bool := key.utf8ByteSize = 64 && key.toList.all Text.isHexDigit

/-- The name stake, where it is switched on. -/
def nameStakeChecks (s : Chain) (p : AccountCreate) : List Check :=
  let amount := s.numParam "name_stake_amount" nameRegistrationStake
  let funder := p.fundedBy.filter (· ≠ "")
  let balance := s.getBalance (funder.getD "") nativeToken
  let name := funder.getD ""
  if p.account ∈ stakeExemptAccounts ∨ ¬ s.flag "name_stake_enabled" then []
  else
    [.holds funder.isSome s!"name registration requires a funded_by account with {amount} hunits",
      .holds (amount ≤ balance)
        s!"funded_by '{name}' has {balance} hunits, need {amount} for name registration"]

def accountCreateChecks (s : Chain) (p : AccountCreate) (sig : Option String) :
    List Check :=
  let owner := (p.keys.get "owner").filter (trim · ≠ "")
  [notEmpty p.account "account",
    .holds (¬ (p.account.utf8ByteSize = 3 ∧ p.account.toList.all Char.isDigit))
      "3-digit numeric names (000-999) are reserved and cannot be registered yet",
    .holds owner.isSome "account creation requires an owner public key"] ++
  p.keys.bindings.map (fun (role, key) => .holds (isKeyHex key)
    s!"account creation key '{role}' must be a 64-char ed25519 public key hex string") ++
  .createSignature (owner.getD "") sig :: nameStakeChecks s p

/-- The owner key signs, where it or the posting key is set. -/
def ownerSigned (s : Chain) (account : String) (sig : Option String) : List Check :=
  if (signingKey s account "owner").isSome then [.signature account "owner" sig] else []

def accountSetPrimaryChecks (s : Chain) (p : AccountSetPrimary) (sig : Option String) :
    List Check :=
  let posting := keyOf s p.account "posting"
  [same p.signedBy p.account s!"signed_by '{p.signedBy}' must equal account '{p.account}'",
    .holds (p.account ≠ p.primary) "primary cannot be the same as account",
    .holds (s.getAccount p.account).isSome s!"account '{p.account}' not found",
    .holds (s.getAccount p.primary).isSome
      s!"primary '{p.primary}' does not exist — create it with your keys first",
    .holds (posting.isNone ∨ posting = keyOf s p.primary "posting")
      (s!"primary '{p.primary}' must share the same posting key as '{p.account}' — "
        ++ "both must be controlled by your wallet")] ++
  if posting.isSome then [.signature p.account "posting" sig] else []

def accountTransferChecks (s : Chain) (p : AccountTransfer) (sig : Option String) :
    List Check :=
  let primary := ((s.getAccount p.account).bind (·.primary)).filter (· ≠ "")
  let name := primary.getD ""
  [same p.signedBy p.account
      s!"signed_by '{p.signedBy}' must equal account '{p.account}' for AccountTransfer",
    .holds (p.newKeys.bindings ≠ []) "new_keys must not be empty",
    .holds (s.getAccount p.account).isSome
      s!"cannot transfer non-existent account '{p.account}'",
    .holds primary.isSome
      ("call AccountSetPrimary first — declare your other identity (e.g. 'joshua') "
        ++ "before transferring 'josh'. This protects you from losing chain presence."),
    .holds (s.getAccount name).isSome s!"declared primary '{name}' no longer exists"] ++
  ownerSigned s p.account sig

/-- The second factor for a change of the owner slot's own policy. -/
def ownerSlot (s : Chain) (p : SetKeyPolicy) : List Check :=
  let auth := p.ownerAuth
  if p.role ≠ "owner" then []
  else
    .holds (s.getAccount p.account).isSome s!"account '{p.account}' not found" ::
      if ((s.getAccount p.account).bind (·.keyPolicies.get "owner")).isSome then
        .holds (auth.owner2fa.isSome ∨ auth.corroborantKey.isSome ∧ auth.corroborantSig.isSome)
            ("owner slot has 2FA enabled — provide owner_2fa or corroborant_key+sig "
              ++ "to change owner slot policy") ::
          match auth.corroborantKey, auth.corroborantSig with
          | some role, some sig => [.signature p.account role (some sig)]
          | _, _ => []
      else []

/-- An account without keys signs with the key it registers; without one it need not. -/
def clockNodeRegisterChecks (s : Chain) (p : ClockNodeRegister) (sig : Option String) :
    List Check :=
  if (keyOf s p.nodeId "posting").isSome ∨ (keyOf s p.nodeId "active").isSome then
    [.activeOrPosting p.nodeId sig]
  else match p.pubkey with
    | some pubkey => [.embeddedKey pubkey sig]
    | none => []

/-! ## Governance -/

def governanceKeys (env : Env) (s : Chain) : List String :=
  ((s.param "governance_keys").bind env.decodeStrings).getD
    ["shindevlin", "natoshisakamoto", "josh"]

/-- A stake minimum may only rise by the capped share at a time. -/
def rateLimit (env : Env) (s : Chain) (p : ChainParameterSet) : List Check :=
  let read (key : String) (default : ℕ) := ((s.param key).bind env.decodeU64).getD default
  let current := read p.key (100 * hunitsPerHone)
  let capBps := read "stake_increase_cap_bps" 2500
  let maxAllowed := satAdd current (satMul current capBps / 10000)
  let proposed := parseU64 (trim p.value)
  let amount := proposed.getD 0
  if Text.hasSuffix "_min_stake" p.key then
    [.holds proposed.isSome s!"stake minimum param '{p.key}' must be an integer",
      .holds (amount ≤ maxAllowed)
        (s!"proposed {p.key} ({amount}) exceeds per-action rate limit of {maxAllowed} "
          ++ s!"(cap_bps={capBps}; set via chain param stake_increase_cap_bps)")]
  else []

/-! ## Names -/

def identityNftActivationEpoch : ℕ := 400000

def identityActive (s : Chain) : Check :=
  .holds (identityNftActivationEpoch ≤ s.currentEpoch)
    (s!"identity NFTs are not active until epoch {identityNftActivationEpoch} "
      ++ s!"(current {s.currentEpoch})")

/-- The name is minted and belongs to the signer. -/
def owned (s : Chain) (name signedBy : String) : List Check :=
  let nft := s.stateGet .nameNft name
  [.holds nft.isSome s!"name '{name}' is not minted",
    .holds (nft.map (·.owner) = some signedBy) s!"signed_by '{signedBy}' does not own '{name}'"]

/-- The recovery authority of the name agrees. -/
def recoverable (s : Chain) (name signedBy : String) (sig : Option String)
    (cosignatures : List (String × String)) (msg : String) : List Check :=
  match s.stateGet .nameNft name with
  | none => [.holds false s!"name '{name}' is not minted"]
  | some nft => match nft.recovery with
    | none => [.holds false msg]
    | some r => [.recovery r signedBy sig cosignatures]

/-! ## The arms -/

def runtimeMinBond : ℕ := 5 * hunitsPerHone

/-- The checks of an entry, in the order of the source. -/
def checks (env : Env) (s : Chain) (sig : Option String) : LedgerEntry → List Check
  | .transfer p =>
    [notEmpty p.from_ "from", notEmpty p.to_ "to",
      .holds (p.amount ≠ 0) "transfer amount must be positive",
      delegable s p.signedBy p.from_ "Transfer"
        s!"signed_by '{p.signedBy}' is neither 'from' nor a Transfer delegate of '{p.from_}'",
      .requireKey p.signedBy, .nonce p.from_ p.nonce, .signature p.signedBy "active" sig,
      .slot2fa p.from_ "active" p.epoch p.twofactor,
      covers s p.from_ p.token p.amount (shortTransfer env s p)]
  | .stake p =>
    [.holds (p.amount ≠ 0) "stake amount must be positive",
      delegable s p.signedBy p.account "Stake"
        s!"signed_by '{p.signedBy}' is neither 'account' nor a Stake delegate of '{p.account}'",
      .requireKey p.signedBy, .nonce p.account p.nonce, .signature p.signedBy "active" sig,
      covers s p.account nativeToken p.amount (shortStake env s p)]
  | .unstake p =>
    [.holds (p.amount ≠ 0) "unstake amount must be positive",
      delegable s p.signedBy p.account "Stake"
        s!"signed_by '{p.signedBy}' is neither 'account' nor a Stake delegate of '{p.account}'",
      .requireKey p.signedBy, .nonce p.account p.nonce, .signature p.signedBy "active" sig,
      .holds (p.amount ≤ s.getStake p.account) (shortUnstake env s p)]
  | .accountCreate p => accountCreateChecks s p sig
  | .chainParameterSet p =>
    [.holds (p.signedBy ∈ governanceKeys env s)
        s!"'{p.signedBy}' is not in the governance council",
      .signature p.signedBy "posting" sig] ++ rateLimit env s p
  | .epochSeal p =>
    [.holds (p.epoch ≤ wrapAdd s.currentEpoch 3)
        (s!"EpochSeal epoch {p.epoch} is too far ahead of current {s.currentEpoch} "
          ++ "— max drift is +3"),
      .holds (s.currentEpoch ≤ 10 ∨ s.currentEpoch - 10 ≤ p.epoch)
        s!"EpochSeal epoch {p.epoch} is too far behind current {s.currentEpoch}",
      .signature p.nodeId "posting" (sig.or p.signature)]
  | .accountUpdateKey p =>
    same p.signedBy p.account s!"signed_by '{p.signedBy}' must equal account '{p.account}'"
      :: ownerSigned s p.account sig
  | .accountSetPrimary p => accountSetPrimaryChecks s p sig
  | .accountTransfer p => accountTransferChecks s p sig
  | .sensorReading p =>
    [.signature (if p.signedBy = "" then p.owner else p.signedBy) "posting" sig]
  | .sensorRegister p => [.signature p.signedBy "posting" sig]
  | .gatewayHeartbeat p => [.signature p.signedBy "posting" sig]
  | .trackerClaim p =>
    attributed p.signedBy p.claimer "TrackerClaim: signed_by must equal claimer" sig
  | .trackerSubscription p =>
    attributed p.signedBy p.claimer "TrackerSubscription: signed_by must equal claimer" sig
  | .trackerLostMode p =>
    attributed p.signedBy p.claimer "TrackerLostMode: signed_by must equal claimer" sig
  | .trackerFoundConfirm p =>
    attributed p.signedBy p.claimer
      ("TrackerFoundConfirm: signed_by must equal claimer "
        ++ "(only the bounty owner may release escrow)") sig
  | .deviceYieldUnstake p =>
    attributed p.signedBy p.staker "DeviceYieldUnstake: signed_by must equal staker" sig
  | .sensorDataCommit p =>
    attributed p.signedBy p.owner "SensorDataCommit: signed_by must equal owner" sig
  | .storageHeartbeat p =>
    attributed p.signedBy p.nodeId "StorageHeartbeat: signed_by must equal node_id" sig
  | .storeUpdate p =>
    attributed p.signedBy p.seller "commerce entry: signed_by must equal seller" sig
  | .productCreate p =>
    attributed p.signedBy p.seller "commerce entry: signed_by must equal seller" sig
  | .productUpdate p =>
    attributed p.signedBy p.seller "commerce entry: signed_by must equal seller" sig
  | .flashSale p => attributed p.signedBy p.seller "commerce entry: signed_by must equal seller" sig
  | .deviceKeyRegister p =>
    attributed p.signedBy p.owner "key register: signed_by must equal owner" sig
  | .sensorKeyRegister p =>
    attributed p.signedBy p.owner "key register: signed_by must equal owner" sig
  | .sensorVouch p =>
    attributed p.signedBy p.voucher "SensorVouch: signed_by must equal voucher" sig
  | .trackerClaimRelease p =>
    attributed p.signedBy p.claimer "TrackerClaimRelease: signed_by must equal claimer" sig
  | .trackerFoundReport p =>
    attributed p.signedBy p.finder "TrackerFoundReport: signed_by must equal finder" sig
  | .trackerAcousticProof p => [.signature p.signedBy "posting" sig]
  | .linkGitRepoCreate p => attributed p.signedBy p.owner "LinkGit: signed_by must equal owner" sig
  | .linkGitRefUpdate p => attributed p.signedBy p.owner "LinkGit: signed_by must equal owner" sig
  | .linkGitStorageExtend p =>
    attributed p.signedBy p.owner "LinkGit: signed_by must equal owner" sig
  | .linkGitAccessGrant p =>
    attributed p.signedBy p.grantor "LinkGit: signed_by must equal grantor" sig
  | .linkGitAccessRevoke p =>
    attributed p.signedBy p.grantor "LinkGit: signed_by must equal grantor" sig
  | .linkGitPruneProof p =>
    attributed p.signedBy p.nodeId "LinkGitPruneProof: signed_by must equal node_id" sig
  | .linkGitPrMerge p => attributed p.signedBy p.actor "LinkGit: signed_by must equal actor" sig
  | .linkGitPrClose p => attributed p.signedBy p.actor "LinkGit: signed_by must equal actor" sig
  | .linkGitIssueClose p => attributed p.signedBy p.actor "LinkGit: signed_by must equal actor" sig
  | .linkGitIssueReopen p => attributed p.signedBy p.actor "LinkGit: signed_by must equal actor" sig
  | .linkGitIssueCreate p =>
    attributed p.signedBy p.author "LinkGit: signed_by must equal author" sig
  | .linkGitIssueComment p =>
    attributed p.signedBy p.author "LinkGit: signed_by must equal author" sig
  | .linkGitPrCreate p => attributed p.signedBy p.author "LinkGit: signed_by must equal author" sig
  | .linkGitPrComment p => attributed p.signedBy p.author "LinkGit: signed_by must equal author" sig
  | .blobStore _ | .orderPlace _ | .orderFulfill _ | .orderCancel _ | .orderDispute _
  | .escrowRelease _ | .linkGitServeHeartbeat _ | .linkGitServeReward _ | .linkGitBuildReward _
  | .trackerSightingCommit _ | .trackerSightingData _ | .trackerHint _ => []
  | .contractDeploy p => [.requireKey p.deployer, .signature p.deployer "active" sig]
  | .contractCall p => [.requireKey p.signer, .signature p.signer "active" sig]
  | .inferenceJobPost p =>
    bound p.signedBy p.requester p.nonce "posting" "signed_by must equal requester" sig
  | .inferenceJobBid p =>
    bound p.signedBy p.bidder p.nonce "posting" "signed_by must equal bidder" sig
  | .inferenceJobComplete p => keyed p.signedBy p.worker "signed_by must equal worker" sig
  | .inferenceJobCommit p => keyed p.signedBy p.verifier "signed_by must equal verifier" sig
  | .inferenceJobVerify p => keyed p.signedBy p.verifier "signed_by must equal verifier" sig
  | .inferenceJobClaim p =>
    bound p.signedBy p.claimant p.nonce "posting" "signed_by must equal claimant" sig
  | .inferenceReviewVote p => keyed p.signedBy p.reviewer "signed_by must equal reviewer" sig
  | .inferenceJobCancel p =>
    bound p.signedBy p.cancelledBy p.nonce "posting" "signed_by must equal cancelled_by" sig
  | .mine _ | .mineReward _ | .clockReward _ | .inferenceJobAward _ | .inferenceJobPay _
  | .genesisAlloc _ | .epochFinalize _ | .testnetReward _ | .storageReward _ | .sensorReward _
  | .verifierReward _ | .serviceReward _ | .runtimeReward _ | .gatewayRewardSplit _
  | .tonWalletActivated _ => [.holds false "entry type is not externally submittable"]
  | .agentRegister p =>
    bound p.signedBy p.account p.nonce "posting" "signed_by must equal account" sig
  | .agentDeregister p =>
    bound p.signedBy p.account p.nonce "posting" "signed_by must equal account" sig
  | .agentCreditDeposit p =>
    bound p.signedBy p.account p.nonce "posting" "signed_by must equal account" sig
  | .agentCreditWithdraw p =>
    bound p.signedBy p.account p.nonce "posting" "signed_by must equal account" sig
  | .agentTaskPost p =>
    bound p.signedBy p.requester p.nonce "posting" "signed_by must equal requester" sig
  | .agentTaskBid p => bound p.signedBy p.agent p.nonce "posting" "signed_by must equal agent" sig
  | .agentTaskAssign p =>
    [.requireKey p.signedBy, .nonce p.signedBy p.nonce,
      .holds (s.stateGet .agentTask p.taskId).isSome s!"task '{p.taskId}' not found",
      .holds ((s.stateGet .agentTask p.taskId).map (·.requester) = some p.signedBy)
        "only the requester can assign",
      .signature p.signedBy "posting" sig]
  | .agentTaskSubmit p =>
    bound p.signedBy p.agent p.nonce "posting" "signed_by must equal agent" sig
  | .agentTaskVerifierCommit p =>
    bound p.signedBy p.verifier p.nonce "posting" "signed_by must equal verifier" sig
  | .agentTaskVerifierReveal p =>
    bound p.signedBy p.verifier p.nonce "posting" "signed_by must equal verifier" sig
  | .tonActivationIntent p =>
    bound p.signedBy p.honeAccount p.nonce "posting"
      s!"signed_by '{p.signedBy}' must equal hone_account '{p.honeAccount}'" sig
  | .serviceHeartbeat p => keyed p.signedBy p.nodeId "signed_by must match node_id" sig
  | .runtimeRegister p =>
    keyed p.signedBy p.owner "signed_by must match owner" sig ++
      [.holds (runtimeMinBond ≤ p.bond)
          s!"bond {p.bond} is below minimum {runtimeMinBond} hunits",
        covers s p.owner nativeToken p.bond
          s!"insufficient balance for bond: have {s.getBalance p.owner nativeToken} need {p.bond}"]
  | .runtimeDeploy p => keyed p.signedBy p.owner "signed_by must match owner" sig
  | .runtimeUndeploy p => keyed p.signedBy p.owner "signed_by must match owner" sig
  | .runtimeJobEnqueue p =>
    [.requireKey p.signedBy, .signature p.signedBy "posting" sig,
      covers s p.signedBy nativeToken p.fee
        (let balance := s.getBalance p.signedBy nativeToken
         s!"insufficient balance for job fee: have {balance} need {p.fee}")]
  | .runtimeClaim p => keyed p.signedBy p.hostId "signed_by must match host_id" sig
  | .runtimeAttest p => keyed p.signedBy p.hostId "signed_by must match host_id" sig
  | .runtimeChallenge p => keyed p.signedBy p.challenger "signed_by must match challenger" sig
  | .runtimeSlash p => [.requireKey p.signedBy, .signature p.signedBy "posting" sig]
  | .coverageReport p => keyed p.signedBy p.reporter "signed_by must match reporter" sig
  | .inferenceVerifyClaim p => keyed p.signedBy p.verifier "signed_by must match verifier" sig
  | .sensorDataPurchase p =>
    bound p.signedBy p.buyer p.nonce "active" "signed_by must match buyer" sig ++
      [covers s p.buyer nativeToken p.fee "insufficient balance for sensor data purchase"]
  | .testnetOperatorRegister p =>
    keyed p.signedBy p.mainnetAccount "signed_by must match mainnet_account" sig
  | .testnetOperatorDeregister p =>
    keyed p.signedBy p.mainnetAccount "signed_by must match mainnet_account" sig
  | .mempoolOperatorRegister p =>
    bound p.signedBy p.operator p.nonce "active" "signed_by must match operator" sig ++
      [covers s p.operator nativeToken p.amount "insufficient balance for mempool operator stake"]
  | .mempoolHeartbeat p => keyed p.signedBy p.operator "signed_by must match operator" sig
  | .deviceClaimStake p =>
    bound p.signedBy p.owner p.nonce "posting" "signed_by must match owner" sig ++
      [covers s p.owner nativeToken p.amount "insufficient balance for device claim stake"]
  | .deviceClaimUnstake p =>
    bound p.signedBy p.owner p.nonce "posting" "signed_by must match owner" sig
  | .deviceYieldStake p => deviceYieldStakeChecks s p sig
  | .delegationGrant p => bound p.signedBy p.from_ p.nonce "active" "signed_by must equal from" sig
  | .delegationRevoke p => bound p.signedBy p.from_ p.nonce "active" "signed_by must equal from" sig
  | .deviceYieldOptIn p =>
    bound p.signedBy p.owner p.nonce "active" "signed_by must equal owner" sig
  | .deviceYieldOptOut p =>
    bound p.signedBy p.owner p.nonce "active" "signed_by must equal owner" sig
  | .nodeRoleOptIn p =>
    [same p.signedBy p.node "NodeRoleOptIn: signed_by must equal node",
      .holds (p.backerShareBps ≤ 5000) "backer_share_bps must be ≤ 5000 (50%)",
      .requireKey p.node, .nonce p.node p.nonce, .signature p.signedBy "posting" sig]
  | .nodeRoleOptOut p =>
    bound p.signedBy p.node p.nonce "posting" "NodeRoleOptOut: signed_by must equal node" sig
  | .nodeRoleStake p => nodeRoleStakeChecks s p sig
  | .nodeRoleUnstake p => nodeRoleUnstakeChecks s p sig
  | .spamGateSet p => bound p.signedBy p.account p.nonce "active" "signed_by must equal account" sig
  | .spamGatePayEvm p =>
    bound p.signedBy p.from_ p.nonce "active" "signed_by must equal from" sig ++
      [covers s p.from_ p.token p.amount s!"insufficient {p.token} balance for SpamGatePayEvm"]
  | .spamGateClear p =>
    bound p.signedBy p.account p.nonce "active" "signed_by must equal account" sig
  | .tokenApprove p =>
    bound p.signedBy p.account p.nonce "active" "signed_by must equal account" sig
  | .tokenRevoke p => bound p.signedBy p.account p.nonce "active" "signed_by must equal account" sig
  | .tokenAccept p =>
    bound p.signedBy p.to_ p.nonce "active"
      "signed_by must equal to (recipient accepts their own tokens)" sig
  | .tokenReject p =>
    bound p.signedBy p.to_ p.nonce "active"
      "signed_by must equal to (recipient rejects their own tokens)" sig
  | .walletFamilyPublish p =>
    bound p.signedBy p.account p.nonce "owner"
      "signed_by must equal account for wallet family entries" sig
  | .walletFamilyAdd p =>
    bound p.signedBy p.account p.nonce "owner"
      "signed_by must equal account for wallet family entries" sig
  | .accountApiKeySet p =>
    [same p.signedBy p.account
        s!"signed_by '{p.signedBy}' must equal account '{p.account}' for AccountApiKeySet",
      .holds (isKeyHex p.apiKey) "api_key must be a 64-char hex string (32 random bytes)",
      .requireKey p.account, .nonce p.account p.nonce, .signature p.signedBy "active" sig]
  | .setKeyPolicy p =>
    [same p.signedBy p.account "signed_by must equal account for SetKeyPolicy",
      .requireKey p.account, .signature p.account "owner" (sig.or p.signature)] ++ ownerSlot s p
  | .verifyChainLink p =>
    [same p.signedBy p.account "signed_by must equal account for VerifyChainLink",
      .requireKey p.account]
  | .grantExternalSigner p =>
    [same p.signedBy p.account "signed_by must equal account for GrantExternalSigner",
      .requireKey p.account, .nonce p.account p.nonce, .signature p.account "active" sig]
  | .revokeExternalSigner p =>
    [same p.signedBy p.account "signed_by must equal account for RevokeExternalSigner",
      .requireKey p.account, .nonce p.account p.nonce, .signature p.account "active" sig]
  | .externalSignerTransfer p => [.requireKey p.account]
  | .livenessProof p =>
    [same p.signedBy p.account "signed_by must equal account for LivenessProof",
      .requireKey p.account, .nonce p.account p.nonce,
      .signature p.account p.keyRole (sig.or p.signature)]
  | .entropyWitness p =>
    [.requireKey p.signedBy,
      .holds (s.stateGet .walletAddr s!"{p.chain}:{p.address}" = some p.account)
        s!"address '{p.chain}:{p.address}' is not in {p.account}'s published wallet family",
      .signature p.signedBy "posting" sig]
  | .mempoolReward _ =>
    [.holds false "MempoolReward is system-only and cannot be submitted externally"]
  | .trackerCoverageReward _ =>
    [.holds false "TrackerCoverageReward is system-only and cannot be submitted externally"]
  | .hardwareClaim _ => []
  | .governancePropose p => [.requireKey p.proposer, .signature p.proposer "posting" sig]
  | .governanceVote p =>
    [.requireKey p.voter, .nonce p.voter p.nonce, .signature p.voter "posting" sig]
  | .governanceFinalize _ =>
    [.holds false "GovernanceFinalize is system-only — emitted automatically at epoch seal"]
  | .agentTaskSettle _ =>
    [.holds false "AgentTaskSettle is system-only — emitted automatically on verifier consensus"]
  | .clockNodeRegister p => clockNodeRegisterChecks s p sig
  | .clockDoubleSignEvidence p => [.requireKey p.submitter, .signature p.submitter "posting" sig]
  | .projectCreate p => unbound p.signedBy p.creator p.nonce sig
  | .projectTask p => unbound p.signedBy p.creator p.nonce sig
  | .taskClaim p => unbound p.signedBy p.claimant p.nonce sig
  | .taskSubmit p => unbound p.signedBy p.submitter p.nonce sig
  | .taskApprove p => unbound p.signedBy p.approver p.nonce sig
  | .oracleFeedCreate p => unbound p.signedBy p.creator p.nonce sig
  | .oracleReport p => unbound p.signedBy p.reporter p.nonce sig
  | .oracleFeedFinalize p => unbound p.signedBy p.finalizer p.nonce sig
  | .sessionListingCreate p => unbound p.signedBy p.seller p.nonce sig
  | .sessionListingBuy p => unbound p.signedBy p.buyer p.nonce sig
  | .sessionListingCancel p => unbound p.signedBy p.seller p.nonce sig
  | .agentSessionOpen p => unbound p.signedBy p.client p.nonce sig
  | .agentSessionClose p => unbound p.signedBy p.client p.nonce sig
  | .vrfCommit p => unbound p.signedBy p.committer p.nonce sig
  | .vrfReveal p => unbound p.signedBy p.committer p.nonce sig
  | .ensembleJobPost p => unbound p.signedBy p.requester p.nonce sig
  | .ensembleVote p => unbound p.signedBy p.worker p.nonce sig
  | .slashValidator p => unbound p.signedBy p.reporter p.nonce sig
  | .slashAppeal p => unbound p.signedBy p.panelist p.nonce sig
  | .bridgeFund p => unbound p.signedBy p.custodian p.nonce sig
  | .bridgeWrap p => unbound p.signedBy p.account p.nonce sig
  | .bridgeUnwrap p => unbound p.signedBy p.account p.nonce sig
  | .bridgeUnlock p => unbound p.signedBy p.custodian p.nonce sig
  | .phoneMineSubmit p => unbound p.signedBy p.account p.nonce sig
  | .nameAuctionOpen p => unbound p.signedBy p.opener p.nonce sig
  | .nameAuctionBid p => unbound p.signedBy p.bidder p.nonce sig
  | .nameAuctionSettle p => unbound p.signedBy p.settler p.nonce sig
  | .nameAuctionCancel p => unbound p.signedBy p.opener p.nonce sig
  | .freeportAuctionOpen p => unbound p.signedBy p.seller p.nonce sig
  | .freeportAuctionBid p => unbound p.signedBy p.bidder p.nonce sig
  | .freeportAuctionSettle p => unbound p.signedBy p.settler p.nonce sig
  | .privateAuthEnroll p => unbound p.signedBy p.member p.nonce sig
  | .privateAuthApprove p => unbound p.signedBy p.approver p.nonce sig
  | .memorySet p => unbound p.signedBy p.account p.nonce sig
  | .memoryDelete p => unbound p.signedBy p.account p.nonce sig
  | .amberPillMint p => unbound p.signedBy p.account p.nonce sig
  | .identityNftMint p =>
    [identityActive s, .requireKey p.signedBy, .nonce p.signedBy p.nonce,
      if p.signedBy = issuerAccount ∨ p.to_ ≠ p.signedBy ∨ isReserved p.name then
        .valueSignature p.signedBy sig
      else .signature p.signedBy "posting" sig]
  | .identityNftTransfer p =>
    [identityActive s,
      same p.signedBy p.from_ s!"signed_by '{p.signedBy}' must equal from '{p.from_}'",
      .holds (p.from_ ≠ p.to_) "cannot transfer a name to its current owner",
      .requireKey p.signedBy, .nonce p.from_ p.nonce, .valueSignature p.signedBy sig]
  | .identityNftAccept p =>
    [identityActive s,
      same p.signedBy p.to_ s!"signed_by '{p.signedBy}' must equal recipient '{p.to_}'",
      .requireKey p.signedBy, .nonce p.to_ p.nonce, .signature p.signedBy "posting" sig]
  | .identityNftReject p =>
    [identityActive s, .requireKey p.signedBy, .nonce p.signedBy p.nonce,
      .signature p.signedBy "posting" sig]
  | .identityNftSetRecovery p =>
    [identityActive s, .requireKey p.signedBy, .nonce p.signedBy p.nonce,
      .holds (validateRecovery p.guardians p.threshold p.destination).isNone
        ((validateRecovery p.guardians p.threshold p.destination).getD "")] ++
      owned s p.name p.signedBy ++ [.valueSignature p.signedBy sig]
  | .identityNftLock p =>
    [identityActive s, .requireKey p.signedBy, .nonce p.signedBy p.nonce] ++
      owned s p.name p.signedBy ++ [.valueSignature p.signedBy sig]
  | .identityNftUnlock p =>
    [identityActive s, .requireKey p.signedBy, .nonce p.signedBy p.nonce] ++
      recoverable s p.name p.signedBy sig p.cosignatures
        s!"'{p.name}' has no recovery authority to unlock it"
  | .identityNftRecover p =>
    [identityActive s, .requireKey p.signedBy, .nonce p.signedBy p.nonce] ++
      recoverable s p.name p.signedBy sig p.cosignatures
        s!"'{p.name}' has no recovery authority"
  | .identityNftSetBackstop p =>
    [identityActive s, .requireKey p.signedBy, .nonce p.signedBy p.nonce] ++
      owned s p.name p.signedBy ++ [.valueSignature p.signedBy sig]
  | .identityNftSetPrimary p =>
    [identityActive s,
      same p.signedBy p.account s!"signed_by '{p.signedBy}' must equal account '{p.account}'",
      .requireKey p.signedBy, .nonce p.account p.nonce, .signature p.signedBy "posting" sig]
  | .soulboundIssue p =>
    [identityActive s, .requireKey p.signedBy, .nonce p.signedBy p.nonce,
      .signature p.signedBy "posting" sig]
  | .soulboundAccept p =>
    [identityActive s, .requireKey p.signedBy, .nonce p.signedBy p.nonce,
      .signature p.signedBy "posting" sig]
  | .soulboundReject p =>
    [identityActive s, .requireKey p.signedBy, .nonce p.signedBy p.nonce,
      .signature p.signedBy "posting" sig]
  | .soulboundRevoke p =>
    [identityActive s, .requireKey p.signedBy, .nonce p.signedBy p.nonce,
      .signature p.signedBy "posting" sig]
  | .phoneStorageProof p => unbound p.signedBy p.account p.nonce sig
  | .fineTuneJobPost p => unbound p.signedBy p.requester p.nonce sig
  | .fineTuneJobComplete p => unbound p.signedBy p.worker p.nonce sig
  | .computerUseJobPost p => unbound p.signedBy p.requester p.nonce sig
  | .computerUseJobComplete p => unbound p.signedBy p.worker p.nonce sig
  | .blobServeProof p => unbound p.signedBy p.nodeId p.nonce sig
  | .hiveReplicaCommit p =>
    [same p.signedBy p.nodeId "HiveReplicaCommit signed_by must equal node_id",
      .requireKey p.signedBy, .nonce p.nodeId p.nonce,
      .signature p.signedBy "active" (sig.or p.signature)]
  | .hiveReplicaVerify p =>
    [same p.signedBy p.verifier "HiveReplicaVerify signed_by must equal verifier",
      .holds (p.verifier ≠ p.nodeId) "Hive replica verifier must be independent from node_id",
      .requireKey p.signedBy, .nonce p.verifier p.nonce,
      .signature p.signedBy "active" (sig.or p.signature)]
  | .snapshotSave p => unbound p.signedBy p.account p.nonce sig
  | .scientificResult _ =>
    [.holds false "ScientificResult is emitted automatically by the ScientificEngine"]
  | .crossChainFinalityAnnounce _ =>
    [.holds false "CrossChainFinalityAnnounce is emitted automatically by the cross-chain module"]
/-- The account whose nonce the arm advances once the entry is applied. A transfer
advances it inside `apply_entry`; projects and their tasks never do. -/
def bumped : LedgerEntry → Option String
  | .stake p => some p.account
  | .unstake p => some p.account
  | .agentTaskAssign p => some p.signedBy
  | .agentTaskVerifierReveal p => some p.verifier
  | .tonActivationIntent p => some p.honeAccount
  | .sensorDataPurchase p => some p.buyer
  | .mempoolOperatorRegister p => some p.operator
  | .deviceClaimStake p => some p.owner
  | .deviceYieldStake p => some p.staker
  | .nodeRoleOptIn p => some p.node
  | .nodeRoleStake p => some p.staker
  | .nodeRoleUnstake p => some p.staker
  | .spamGatePayEvm p => some p.from_
  | .accountApiKeySet p => some p.account
  | .livenessProof p => some p.account
  | .identityNftMint p => some p.signedBy
  | .identityNftTransfer p => some p.from_
  | .identityNftSetRecovery p => some p.signedBy
  | .identityNftLock p => some p.signedBy
  | .identityNftUnlock p => some p.signedBy
  | .identityNftRecover p => some p.signedBy
  | .identityNftSetBackstop p => some p.signedBy
  | .hiveReplicaVerify p => some p.verifier
  | .inferenceJobPost p => some p.requester
  | .inferenceJobBid p => some p.bidder
  | .inferenceJobClaim p => some p.claimant
  | .inferenceJobCancel p => some p.cancelledBy
  | .agentRegister p => some p.account
  | .agentDeregister p => some p.account
  | .agentCreditDeposit p => some p.account
  | .agentCreditWithdraw p => some p.account
  | .agentTaskPost p => some p.requester
  | .agentTaskBid p => some p.agent
  | .agentTaskSubmit p => some p.agent
  | .agentTaskVerifierCommit p => some p.verifier
  | .deviceClaimUnstake p => some p.owner
  | .delegationGrant p => some p.from_
  | .delegationRevoke p => some p.from_
  | .deviceYieldOptIn p => some p.owner
  | .deviceYieldOptOut p => some p.owner
  | .nodeRoleOptOut p => some p.node
  | .spamGateSet p => some p.account
  | .spamGateClear p => some p.account
  | .tokenApprove p => some p.account
  | .tokenRevoke p => some p.account
  | .tokenAccept p => some p.to_
  | .tokenReject p => some p.to_
  | .walletFamilyPublish p => some p.account
  | .walletFamilyAdd p => some p.account
  | .grantExternalSigner p => some p.account
  | .revokeExternalSigner p => some p.account
  | .governanceVote p => some p.voter
  | .oracleFeedCreate p => some p.creator
  | .oracleReport p => some p.reporter
  | .oracleFeedFinalize p => some p.finalizer
  | .sessionListingCreate p => some p.seller
  | .sessionListingBuy p => some p.buyer
  | .sessionListingCancel p => some p.seller
  | .agentSessionOpen p => some p.client
  | .agentSessionClose p => some p.client
  | .vrfCommit p => some p.committer
  | .vrfReveal p => some p.committer
  | .ensembleJobPost p => some p.requester
  | .ensembleVote p => some p.worker
  | .slashValidator p => some p.reporter
  | .slashAppeal p => some p.panelist
  | .bridgeFund p => some p.custodian
  | .bridgeWrap p => some p.account
  | .bridgeUnwrap p => some p.account
  | .bridgeUnlock p => some p.custodian
  | .phoneMineSubmit p => some p.account
  | .nameAuctionOpen p => some p.opener
  | .nameAuctionBid p => some p.bidder
  | .nameAuctionSettle p => some p.settler
  | .nameAuctionCancel p => some p.opener
  | .freeportAuctionOpen p => some p.seller
  | .freeportAuctionBid p => some p.bidder
  | .freeportAuctionSettle p => some p.settler
  | .privateAuthEnroll p => some p.member
  | .privateAuthApprove p => some p.approver
  | .memorySet p => some p.account
  | .memoryDelete p => some p.account
  | .amberPillMint p => some p.account
  | .identityNftAccept p => some p.to_
  | .identityNftReject p => some p.signedBy
  | .identityNftSetPrimary p => some p.account
  | .soulboundIssue p => some p.signedBy
  | .soulboundAccept p => some p.signedBy
  | .soulboundReject p => some p.signedBy
  | .soulboundRevoke p => some p.signedBy
  | .phoneStorageProof p => some p.account
  | .fineTuneJobPost p => some p.requester
  | .fineTuneJobComplete p => some p.worker
  | .computerUseJobPost p => some p.requester
  | .computerUseJobComplete p => some p.worker
  | .blobServeProof p => some p.nodeId
  | .hiveReplicaCommit p => some p.nodeId
  | .snapshotSave p => some p.account
  | _ => none

end HoneNode.Tx
