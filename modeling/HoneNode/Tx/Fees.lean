import HoneNode.Env

/-!
# Tx.Fees — who pays for an entry, and how much

Entry weights of the fee market, the account that pays, the epoch the staleness
guard reads and the entries only the node itself emits. Fee = weight × base fee.
-/

namespace HoneNode.Tx

def entryWeightSystem : ℕ := 0
def entryWeightMicro : ℕ := 1
def entryWeightStandard : ℕ := 3
def entryWeightHeavy : ℕ := 5
def entryWeightBulk : ℕ := 10
def entryWeightRegistration : ℕ := 20
def baseFeeInitialHunits : ℕ := 10000000

/-- Entries older than this many epochs are rejected. -/
def staleWindow : ℕ := 5

def entryWeight : LedgerEntry → ℕ
  | .epochSeal _ | .epochFinalize _ | .mineReward _ | .clockReward _ | .storageReward _
  | .sensorReward _ | .verifierReward _ | .serviceReward _ | .mempoolReward _
  | .trackerCoverageReward _ | .genesisAlloc _ | .testnetReward _ => entryWeightSystem
  | .transfer _ | .livenessProof _ | .entropyWitness _ | .walletFamilyPublish _
  | .walletFamilyAdd _ | .accountApiKeySet _ | .verifyChainLink _ | .grantExternalSigner _
  | .externalSignerTransfer _ | .revokeExternalSigner _ | .setKeyPolicy _ | .delegationGrant _
  | .delegationRevoke _ | .chainParameterSet _ | .accountTransfer _ => entryWeightMicro
  | .stake _ | .unstake _ | .nodeRoleStake _ | .nodeRoleUnstake _ | .mine _
  | .sensorDataCommit _ | .coverageReport _ | .gatewayHeartbeat _ | .serviceHeartbeat _
  | .mempoolHeartbeat _ | .trackerSightingCommit _ | .trackerClaim _ | .trackerClaimRelease _
  | .trackerHint _ | .trackerFoundReport _ | .trackerFoundConfirm _ | .deviceClaimUnstake _
  | .deviceYieldUnstake _ | .deviceYieldOptOut _ | .runtimeUndeploy _ | .spamGateClear _
  | .tokenAccept _ | .tokenReject _ | .storeUpdate _ | .productUpdate _ | .orderFulfill _
  | .orderCancel _ => entryWeightStandard
  | .storageHeartbeat _ | .hiveReplicaCommit _ | .hiveReplicaVerify _ | .inferenceJobPost _
  | .inferenceJobBid _ | .inferenceJobAward _ | .inferenceJobComplete _ | .inferenceJobCommit _
  | .inferenceJobVerify _ | .inferenceJobPay _ | .inferenceJobCancel _ | .inferenceJobClaim _
  | .inferenceReviewVote _ | .inferenceVerifyClaim _ | .runtimeJobEnqueue _ | .runtimeClaim _
  | .runtimeAttest _ | .runtimeChallenge _ | .runtimeSlash _ | .trackerAcousticProof _
  | .trackerSubscription _ | .trackerSightingData _ | .trackerLostMode _ | .orderPlace _
  | .orderDispute _ | .escrowRelease _ | .spamGatePayEvm _ | .sensorDataPurchase _ => entryWeightHeavy
  | .phoneMineSubmit _ | .slashAppeal _ | .ensembleVote _ => entryWeightStandard
  | .oracleReport _ | .vrfCommit _ | .vrfReveal _ | .sessionListingBuy _
  | .sessionListingCancel _ | .agentSessionClose _ => entryWeightStandard
  | .ensembleJobPost _ | .slashValidator _ | .bridgeFund _ | .bridgeWrap _ | .bridgeUnwrap _
  | .bridgeUnlock _ | .oracleFeedCreate _ | .oracleFeedFinalize _ | .sessionListingCreate _
  | .agentSessionOpen _ => entryWeightHeavy
  | .blobStore _ | .linkGitRefUpdate _ | .linkGitRepoCreate _ | .linkGitAccessGrant _
  | .linkGitAccessRevoke _ | .linkGitPruneProof _ | .linkGitStorageExtend _
  | .linkGitIssueCreate _ | .linkGitPrCreate _ => entryWeightBulk
  | .linkGitIssueComment _ | .linkGitIssueClose _ | .linkGitIssueReopen _ | .linkGitPrComment _
  | .linkGitPrMerge _ | .linkGitPrClose _ | .linkGitServeReward _ | .linkGitBuildReward _ => entryWeightStandard
  | .linkGitServeHeartbeat _ => entryWeightMicro
  | .accountCreate _ | .accountUpdateKey _ | .accountSetPrimary _ | .clockNodeRegister _
  | .clockDoubleSignEvidence _ | .sensorRegister _ | .sensorKeyRegister _ | .sensorVouch _
  | .sensorReading _ | .deviceKeyRegister _ | .deviceClaimStake _ | .deviceYieldStake _
  | .deviceYieldOptIn _ | .nodeRoleOptIn _ | .nodeRoleOptOut _ | .runtimeRegister _
  | .runtimeDeploy _ | .mempoolOperatorRegister _ | .hardwareClaim _ | .scientificResult _
  | .governancePropose _ | .governanceVote _ | .contractDeploy _ | .contractCall _
  | .flashSale _ | .productCreate _ | .testnetOperatorRegister _ | .testnetOperatorDeregister _
  | .spamGateSet _ | .tokenApprove _ | .tokenRevoke _ | .projectCreate _ | .projectTask _ => entryWeightRegistration
  | .taskClaim _ | .taskSubmit _ | .taskApprove _ => entryWeightStandard
  | .fineTuneJobPost _ | .computerUseJobPost _ => entryWeightHeavy
  | .memorySet _ | .memoryDelete _ | .amberPillMint _ | .phoneStorageProof _
  | .fineTuneJobComplete _ | .computerUseJobComplete _ | .blobServeProof _ | .snapshotSave _ => entryWeightStandard
  | .nameAuctionOpen _ | .freeportAuctionOpen _ | .privateAuthEnroll _ => entryWeightHeavy
  | .nameAuctionBid _ | .nameAuctionSettle _ | .nameAuctionCancel _ | .freeportAuctionBid _
  | .freeportAuctionSettle _ | .privateAuthApprove _ => entryWeightStandard
  | .agentRegister _ => entryWeightRegistration
  | .agentDeregister _ => entryWeightStandard
  | .agentTaskPost _ => entryWeightHeavy
  | .agentCreditDeposit _ | .agentCreditWithdraw _ | .agentTaskBid _ | .agentTaskAssign _
  | .agentTaskSubmit _ | .agentTaskVerifierCommit _ | .agentTaskVerifierReveal _ => entryWeightStandard
  | .tonActivationIntent _ => entryWeightStandard
  | .runtimeReward _ | .governanceFinalize _ | .crossChainFinalityAnnounce _
  | .gatewayRewardSplit _ | .tonWalletActivated _ | .agentTaskSettle _ => entryWeightSystem
  | .identityNftMint _ => entryWeightRegistration
  | .identityNftTransfer _ | .identityNftAccept _ | .identityNftReject _
  | .identityNftSetRecovery _ | .identityNftLock _ | .identityNftUnlock _
  | .identityNftRecover _ | .identityNftSetBackstop _ | .identityNftSetPrimary _
  | .soulboundIssue _ | .soulboundAccept _ | .soulboundReject _ | .soulboundRevoke _ => entryWeightStandard

/-- The `signed_by` of an entry that has one. -/
def signedBy : LedgerEntry → Option String
  | .accountUpdateKey p => some p.signedBy
  | .accountSetPrimary p => some p.signedBy
  | .chainParameterSet p => some p.signedBy
  | .accountTransfer p => some p.signedBy
  | .verifyChainLink p => some p.signedBy
  | .grantExternalSigner p => some p.signedBy
  | .revokeExternalSigner p => some p.signedBy
  | .setKeyPolicy p => some p.signedBy
  | .transfer p => some p.signedBy
  | .stake p => some p.signedBy
  | .unstake p => some p.signedBy
  | .nodeRoleOptIn p => some p.signedBy
  | .nodeRoleOptOut p => some p.signedBy
  | .nodeRoleStake p => some p.signedBy
  | .nodeRoleUnstake p => some p.signedBy
  | .sensorReading p => some p.signedBy
  | .coverageReport p => some p.signedBy
  | .inferenceJobPost p => some p.signedBy
  | .inferenceJobBid p => some p.signedBy
  | .inferenceJobComplete p => some p.signedBy
  | .inferenceVerifyClaim p => some p.signedBy
  | .inferenceJobCommit p => some p.signedBy
  | .inferenceJobVerify p => some p.signedBy
  | .inferenceJobClaim p => some p.signedBy
  | .inferenceReviewVote p => some p.signedBy
  | .inferenceJobCancel p => some p.signedBy
  | .mempoolOperatorRegister p => some p.signedBy
  | .mempoolHeartbeat p => some p.signedBy
  | .deviceClaimStake p => some p.signedBy
  | .deviceClaimUnstake p => some p.signedBy
  | .storeUpdate p => some p.signedBy
  | .productCreate p => some p.signedBy
  | .productUpdate p => some p.signedBy
  | .orderPlace p => some p.signedBy
  | .orderFulfill p => some p.signedBy
  | .orderCancel p => some p.signedBy
  | .orderDispute p => some p.signedBy
  | .flashSale p => some p.signedBy
  | .sensorRegister p => some p.signedBy
  | .sensorKeyRegister p => some p.signedBy
  | .sensorVouch p => some p.signedBy
  | .sensorDataCommit p => some p.signedBy
  | .deviceKeyRegister p => some p.signedBy
  | .deviceYieldStake p => some p.signedBy
  | .deviceYieldUnstake p => some p.signedBy
  | .gatewayHeartbeat p => some p.signedBy
  | .storageHeartbeat p => some p.signedBy
  | .hiveReplicaCommit p => some p.signedBy
  | .hiveReplicaVerify p => some p.signedBy
  | .serviceHeartbeat p => some p.signedBy
  | .runtimeRegister p => some p.signedBy
  | .runtimeDeploy p => some p.signedBy
  | .runtimeUndeploy p => some p.signedBy
  | .runtimeJobEnqueue p => some p.signedBy
  | .runtimeClaim p => some p.signedBy
  | .runtimeAttest p => some p.signedBy
  | .runtimeChallenge p => some p.signedBy
  | .runtimeSlash p => some p.signedBy
  | .sensorDataPurchase p => some p.signedBy
  | .linkGitRepoCreate p => some p.signedBy
  | .linkGitRefUpdate p => some p.signedBy
  | .linkGitAccessGrant p => some p.signedBy
  | .linkGitAccessRevoke p => some p.signedBy
  | .linkGitPruneProof p => some p.signedBy
  | .linkGitStorageExtend p => some p.signedBy
  | .linkGitIssueCreate p => some p.signedBy
  | .linkGitIssueComment p => some p.signedBy
  | .linkGitIssueClose p => some p.signedBy
  | .linkGitIssueReopen p => some p.signedBy
  | .linkGitPrCreate p => some p.signedBy
  | .linkGitPrComment p => some p.signedBy
  | .linkGitPrMerge p => some p.signedBy
  | .linkGitPrClose p => some p.signedBy
  | .projectCreate p => some p.signedBy
  | .projectTask p => some p.signedBy
  | .taskClaim p => some p.signedBy
  | .taskSubmit p => some p.signedBy
  | .taskApprove p => some p.signedBy
  | .testnetOperatorRegister p => some p.signedBy
  | .testnetOperatorDeregister p => some p.signedBy
  | .trackerSightingCommit p => some p.signedBy
  | .trackerClaim p => some p.signedBy
  | .trackerClaimRelease p => some p.signedBy
  | .trackerAcousticProof p => some p.signedBy
  | .trackerSubscription p => some p.signedBy
  | .trackerSightingData p => some p.signedBy
  | .trackerHint p => some p.signedBy
  | .trackerLostMode p => some p.signedBy
  | .trackerFoundReport p => some p.signedBy
  | .trackerFoundConfirm p => some p.signedBy
  | .delegationGrant p => some p.signedBy
  | .delegationRevoke p => some p.signedBy
  | .deviceYieldOptIn p => some p.signedBy
  | .deviceYieldOptOut p => some p.signedBy
  | .spamGateSet p => some p.signedBy
  | .spamGatePayEvm p => some p.signedBy
  | .spamGateClear p => some p.signedBy
  | .tokenApprove p => some p.signedBy
  | .tokenRevoke p => some p.signedBy
  | .tokenAccept p => some p.signedBy
  | .tokenReject p => some p.signedBy
  | .walletFamilyPublish p => some p.signedBy
  | .walletFamilyAdd p => some p.signedBy
  | .accountApiKeySet p => some p.signedBy
  | .livenessProof p => some p.signedBy
  | .entropyWitness p => some p.signedBy
  | .hardwareClaim p => some p.signedBy
  | .scientificResult p => some p.signedBy
  | .crossChainFinalityAnnounce p => some p.signedBy
  | .ensembleJobPost p => some p.signedBy
  | .ensembleVote p => some p.signedBy
  | .slashValidator p => some p.signedBy
  | .slashAppeal p => some p.signedBy
  | .tonActivationIntent p => some p.signedBy
  | .agentCreditDeposit p => some p.signedBy
  | .agentCreditWithdraw p => some p.signedBy
  | .agentTaskPost p => some p.signedBy
  | .agentTaskBid p => some p.signedBy
  | .agentTaskAssign p => some p.signedBy
  | .agentTaskSubmit p => some p.signedBy
  | .agentTaskVerifierCommit p => some p.signedBy
  | .agentTaskVerifierReveal p => some p.signedBy
  | .agentRegister p => some p.signedBy
  | .agentDeregister p => some p.signedBy
  | .bridgeFund p => some p.signedBy
  | .bridgeWrap p => some p.signedBy
  | .bridgeUnwrap p => some p.signedBy
  | .bridgeUnlock p => some p.signedBy
  | .oracleFeedCreate p => some p.signedBy
  | .oracleReport p => some p.signedBy
  | .oracleFeedFinalize p => some p.signedBy
  | .sessionListingCreate p => some p.signedBy
  | .sessionListingBuy p => some p.signedBy
  | .sessionListingCancel p => some p.signedBy
  | .agentSessionOpen p => some p.signedBy
  | .agentSessionClose p => some p.signedBy
  | .vrfCommit p => some p.signedBy
  | .vrfReveal p => some p.signedBy
  | .phoneMineSubmit p => some p.signedBy
  | .governancePropose p => some p.signedBy
  | .governanceVote p => some p.signedBy
  | .governanceFinalize p => some p.signedBy
  | .nameAuctionOpen p => some p.signedBy
  | .nameAuctionBid p => some p.signedBy
  | .nameAuctionSettle p => some p.signedBy
  | .nameAuctionCancel p => some p.signedBy
  | .freeportAuctionOpen p => some p.signedBy
  | .freeportAuctionBid p => some p.signedBy
  | .freeportAuctionSettle p => some p.signedBy
  | .privateAuthEnroll p => some p.signedBy
  | .privateAuthApprove p => some p.signedBy
  | .memorySet p => some p.signedBy
  | .memoryDelete p => some p.signedBy
  | .amberPillMint p => some p.signedBy
  | .phoneStorageProof p => some p.signedBy
  | .fineTuneJobPost p => some p.signedBy
  | .fineTuneJobComplete p => some p.signedBy
  | .computerUseJobPost p => some p.signedBy
  | .computerUseJobComplete p => some p.signedBy
  | .blobServeProof p => some p.signedBy
  | .snapshotSave p => some p.signedBy
  | .identityNftMint p => some p.signedBy
  | .identityNftTransfer p => some p.signedBy
  | .identityNftAccept p => some p.signedBy
  | .identityNftReject p => some p.signedBy
  | .identityNftSetRecovery p => some p.signedBy
  | .identityNftLock p => some p.signedBy
  | .identityNftUnlock p => some p.signedBy
  | .identityNftRecover p => some p.signedBy
  | .identityNftSetBackstop p => some p.signedBy
  | .identityNftSetPrimary p => some p.signedBy
  | .soulboundIssue p => some p.signedBy
  | .soulboundAccept p => some p.signedBy
  | .soulboundReject p => some p.signedBy
  | .soulboundRevoke p => some p.signedBy
  | _ => none

/-- The account that pays the fee: the actor where the field has another name, else
`signed_by`. -/
def entryFeePayer : LedgerEntry → Option String
  | .transfer p => some p.from_
  | .stake p => some p.account
  | .unstake p => some p.account
  | .mine p => some p.miner
  | e => signedBy e

/-- The epoch of an entry that the staleness guard looks at. -/
def entryEpoch : LedgerEntry → Option ℕ
  | .transfer p => some p.epoch
  | .stake p => some p.epoch
  | .unstake p => some p.epoch
  | .mine p => some p.epoch
  | .inferenceJobPost p => some p.epoch
  | .inferenceJobBid p => some p.epoch
  | .coverageReport p => some p.epoch
  | .inferenceJobComplete p => some p.epoch
  | .inferenceJobCommit p => some p.epoch
  | .inferenceJobVerify p => some p.epoch
  | .inferenceJobClaim p => some p.epoch
  | .inferenceJobCancel p => some p.epoch
  | .inferenceReviewVote p => some p.epoch
  | .storageHeartbeat p => some p.epoch
  | .hiveReplicaCommit p => some p.epoch
  | .hiveReplicaVerify p => some p.epoch
  | .sensorDataCommit p => some p.epoch
  | .trackerSightingCommit p => some p.epoch
  | .serviceHeartbeat p => some p.epoch
  | .mempoolHeartbeat p => some p.epoch
  | .deviceClaimStake p => some p.epoch
  | .deviceClaimUnstake p => some p.epoch
  | .deviceYieldStake p => some p.epoch
  | .delegationGrant p => some p.epoch
  | .delegationRevoke p => some p.epoch
  | .accountTransfer p => some p.epoch
  | .livenessProof p => some p.epoch
  | .clockNodeRegister p => some p.epoch
  | .clockDoubleSignEvidence p => some p.epoch
  | .nodeRoleOptIn p => some p.epoch
  | .nodeRoleOptOut p => some p.epoch
  | .nodeRoleStake p => some p.epoch
  | .nodeRoleUnstake p => some p.epoch
  | .tonActivationIntent p => some p.epoch
  | .identityNftMint p => some p.epoch
  | .identityNftTransfer p => some p.epoch
  | .identityNftAccept p => some p.epoch
  | .identityNftReject p => some p.epoch
  | .identityNftSetRecovery p => some p.epoch
  | .identityNftLock p => some p.epoch
  | .identityNftUnlock p => some p.epoch
  | .identityNftRecover p => some p.epoch
  | .identityNftSetBackstop p => some p.epoch
  | .identityNftSetPrimary p => some p.epoch
  | .soulboundIssue p => some p.epoch
  | .soulboundAccept p => some p.epoch
  | .soulboundReject p => some p.epoch
  | .soulboundRevoke p => some p.epoch
  | _ => none

/-- Entries the node emits itself; they are never queued. -/
def isSystemEntry : LedgerEntry → Bool
  | .epochSeal _ | .epochFinalize _ | .mineReward _ | .clockReward _ | .storageReward _
  | .sensorReward _ | .verifierReward _ | .serviceReward _ | .mempoolReward _
  | .trackerCoverageReward _ | .runtimeReward _ | .linkGitServeReward _ | .linkGitBuildReward _
  | .gatewayRewardSplit _ | .genesisAlloc _ | .tonWalletActivated _ | .agentTaskSettle _ => true
  | _ => false

def readBaseFee (env : Env) (s : Chain) : ℕ :=
  ((s.param "base_fee").bind env.decodeFee).getD baseFeeInitialHunits

/-- The whole fee of an entry. -/
def totalFee (env : Env) (s : Chain) (e : LedgerEntry) : ℕ :=
  satMul (readBaseFee env s) (entryWeight e)

/-- Move the fee to the recycle fund; a debit that no credit follows stays. -/
def payFee (payer : String) (fee : ℕ) (s : Chain) : Chain :=
  if fee ≤ s.getBalance payer nativeToken then
    let s' := s.debited payer nativeToken fee
    if s'.getBalance recycleFund nativeToken + fee < 2 ^ 64 then
      s'.credited recycleFund nativeToken fee
    else s'
  else s

/-- The fee is taken after the entry, as far as it goes. An account creation is paid for
by the testnet fund. -/
def deductFee (env : Env) (e : LedgerEntry) (s : Chain) : Chain :=
  if totalFee env s e = 0 then s
  else match e with
    | .accountCreate _ => payFee testnetFund (totalFee env s e) s
    | e => match entryFeePayer e with
      | some payer => payFee payer (totalFee env s e) s
      | none => s

end HoneNode.Tx
