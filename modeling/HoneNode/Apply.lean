import HoneNode.Apply.Epochs
import HoneNode.Apply.Runtime
import HoneNode.Apply.Community
import HoneNode.Apply.Market
import HoneNode.Apply.Voting
import HoneNode.Apply.Services
import HoneNode.Apply.Names
import HoneNode.Apply.Inference

/-!
# Apply — `Chain::apply_entry`

One arm per entry. An arm is a program together with its footprint, so what an
entry can touch is read off its arm. The arms never write nonces: the `Transfer`
arm advances the sender's, here and nowhere else below `validate_and_apply`.
-/

namespace HoneNode

/-- An arm of `apply_entry`. -/
structure Arm where
  footprint : Footprint
  prog : Prog footprint Unit

/-- The arm of an entry; the last ones are recorded only. -/
def arm (env : Env) (now : ℕ) : LedgerEntry → Arm
  | .accountCreate p => ⟨_, applyAccountCreate p⟩
  | .accountUpdateKey p => ⟨_, applyAccountUpdateKey p⟩
  | .accountSetPrimary p => ⟨_, applyAccountSetPrimary p⟩
  | .chainParameterSet p => ⟨_, applyChainParameterSet p⟩
  | .accountTransfer p => ⟨_, applyAccountTransfer p⟩
  | .verifyChainLink p => ⟨_, applyVerifyChainLink env p⟩
  | .grantExternalSigner p => ⟨_, applyGrantExternalSigner p⟩
  | .externalSignerTransfer p => ⟨_, applyExternalSignerTransfer env now p⟩
  | .revokeExternalSigner p => ⟨_, applyRevokeExternalSigner p⟩
  | .setKeyPolicy p => ⟨_, applySetKeyPolicy p⟩
  | .transfer p => ⟨_, applyTransfer p⟩
  | .stake p => ⟨_, applyStake p⟩
  | .unstake p => ⟨_, applyUnstake p⟩
  | .nodeRoleOptIn p => ⟨_, applyNodeRoleOptIn p⟩
  | .nodeRoleOptOut p => ⟨_, applyNodeRoleOptOut p⟩
  | .nodeRoleStake p => ⟨_, applyNodeRoleStake p⟩
  | .nodeRoleUnstake p => ⟨_, applyNodeRoleUnstake p⟩
  | .mine p => ⟨_, applyMine env p⟩
  | .mineReward p => ⟨_, applyMineReward p⟩
  | .epochSeal p => ⟨_, applyEpochSeal env p⟩
  | .epochFinalize p => ⟨_, applyEpochFinalize env p⟩
  | .clockNodeRegister p => ⟨_, applyClockNodeRegister env p⟩
  | .clockDoubleSignEvidence p => ⟨_, applyClockDoubleSignEvidence env p⟩
  | .sensorReading p => ⟨_, applySensorReading env p⟩
  | .coverageReport p => ⟨_, applyCoverageReport env p⟩
  | .inferenceJobPost p => ⟨_, applyInferenceJobPost p⟩
  | .inferenceJobBid p => ⟨_, applyInferenceJobBid p⟩
  | .inferenceJobAward p => ⟨_, applyInferenceJobAward p⟩
  | .inferenceJobComplete p => ⟨_, applyInferenceJobComplete p⟩
  | .inferenceVerifyClaim p => ⟨_, applyInferenceVerifyClaim p⟩
  | .inferenceJobCommit p => ⟨_, applyInferenceJobCommit p⟩
  | .inferenceJobVerify p => ⟨_, applyInferenceJobVerify env p⟩
  | .inferenceJobClaim p => ⟨_, applyInferenceJobClaim p⟩
  | .inferenceReviewVote p => ⟨_, applyInferenceReviewVote p⟩
  | .inferenceJobPay p => ⟨_, applyInferenceJobPay p⟩
  | .inferenceJobCancel p => ⟨_, applyInferenceJobCancel p⟩
  | .clockReward p => ⟨_, applyClockReward env p⟩
  | .storageReward p => ⟨_, applyStorageReward p⟩
  | .sensorReward p => ⟨_, applySensorReward p⟩
  | .verifierReward p => ⟨_, applyVerifierReward p⟩
  | .serviceReward p => ⟨_, applyServiceReward p⟩
  | .mempoolReward p => ⟨_, applyMempoolReward p⟩
  | .mempoolOperatorRegister p => ⟨_, applyMempoolOperatorRegister p⟩
  | .mempoolHeartbeat p => ⟨_, applyMempoolHeartbeat p⟩
  | .deviceClaimStake p => ⟨_, applyDeviceClaimStake p⟩
  | .deviceClaimUnstake p => ⟨_, applyDeviceClaimUnstake p⟩
  | .sensorRegister p => ⟨_, applySensorRegister p⟩
  | .sensorDataCommit p => ⟨_, applySensorDataCommit p⟩
  | .gatewayRewardSplit p => ⟨_, applyGatewayRewardSplit p⟩
  | .deviceYieldStake p => ⟨_, applyDeviceYieldStake p⟩
  | .deviceYieldUnstake p => ⟨_, applyDeviceYieldUnstake p⟩
  | .gatewayHeartbeat p => ⟨_, applyGatewayHeartbeat p⟩
  | .storageHeartbeat p => ⟨_, applyStorageHeartbeat env p⟩
  | .hiveReplicaCommit p => ⟨_, applyHiveReplicaCommit env p⟩
  | .hiveReplicaVerify p => ⟨_, applyHiveReplicaVerify env p⟩
  | .serviceHeartbeat p => ⟨_, applyServiceHeartbeat p⟩
  | .runtimeRegister p => ⟨_, applyRuntimeRegister p⟩
  | .runtimeDeploy p => ⟨_, applyRuntimeDeploy p⟩
  | .runtimeUndeploy p => ⟨_, applyRuntimeUndeploy p⟩
  | .runtimeJobEnqueue p => ⟨_, applyRuntimeJobEnqueue p⟩
  | .runtimeClaim p => ⟨_, applyRuntimeClaim p⟩
  | .runtimeAttest p => ⟨_, applyRuntimeAttest p⟩
  | .runtimeChallenge p => ⟨_, applyRuntimeChallenge p⟩
  | .runtimeSlash p => ⟨_, applyRuntimeSlash p⟩
  | .runtimeReward p => ⟨_, applyRuntimeReward p⟩
  | .sensorDataPurchase p => ⟨_, applySensorDataPurchase p⟩
  | .linkGitRepoCreate p => ⟨_, applyLinkGitRepoCreate p⟩
  | .linkGitRefUpdate p => ⟨_, applyLinkGitRefUpdate p⟩
  | .linkGitAccessGrant p => ⟨_, applyLinkGitAccessGrant p⟩
  | .linkGitAccessRevoke p => ⟨_, applyLinkGitAccessRevoke p⟩
  | .linkGitServeHeartbeat p => ⟨_, applyLinkGitServeHeartbeat p⟩
  | .linkGitServeReward p => ⟨_, applyLinkGitServeReward p⟩
  | .linkGitBuildReward p => ⟨_, applyLinkGitBuildReward p⟩
  | .linkGitIssueCreate p => ⟨_, applyLinkGitIssueCreate p⟩
  | .linkGitIssueComment p => ⟨_, applyLinkGitIssueComment p⟩
  | .linkGitIssueClose p => ⟨_, applyLinkGitIssueClose p⟩
  | .linkGitIssueReopen p => ⟨_, applyLinkGitIssueReopen p⟩
  | .linkGitPrCreate p => ⟨_, applyLinkGitPrCreate p⟩
  | .linkGitPrComment p => ⟨_, applyLinkGitPrComment p⟩
  | .linkGitPrMerge p => ⟨_, applyLinkGitPrMerge p⟩
  | .linkGitPrClose p => ⟨_, applyLinkGitPrClose p⟩
  | .projectCreate p => ⟨_, applyProjectCreate p⟩
  | .projectTask p => ⟨_, applyProjectTask p⟩
  | .taskClaim p => ⟨_, applyTaskClaim p⟩
  | .taskSubmit p => ⟨_, applyTaskSubmit p⟩
  | .taskApprove p => ⟨_, applyTaskApprove p⟩
  | .testnetOperatorRegister p => ⟨_, applyTestnetOperatorRegister p⟩
  | .testnetOperatorDeregister p => ⟨_, applyTestnetOperatorDeregister p⟩
  | .testnetReward p => ⟨_, applyTestnetReward p⟩
  | .trackerSightingCommit p => ⟨_, applyTrackerSightingCommit env p⟩
  | .trackerClaim p => ⟨_, applyTrackerClaim p⟩
  | .trackerClaimRelease p => ⟨_, applyTrackerClaimRelease p⟩
  | .trackerAcousticProof p => ⟨_, applyTrackerAcousticProof p⟩
  | .trackerSubscription p => ⟨_, applyTrackerSubscription p⟩
  | .trackerSightingData p => ⟨_, applyTrackerSightingData p⟩
  | .trackerLostMode p => ⟨_, applyTrackerLostMode p⟩
  | .trackerFoundReport p => ⟨_, applyTrackerFoundReport p⟩
  | .trackerFoundConfirm p => ⟨_, applyTrackerFoundConfirm p⟩
  | .trackerCoverageReward p => ⟨_, applyTrackerCoverageReward p⟩
  | .genesisAlloc p => ⟨_, applyGenesisAlloc p⟩
  | .delegationGrant p => ⟨_, applyDelegationGrant p⟩
  | .delegationRevoke p => ⟨_, applyDelegationRevoke p⟩
  | .deviceYieldOptIn p => ⟨_, applyDeviceYieldOptIn p⟩
  | .deviceYieldOptOut p => ⟨_, applyDeviceYieldOptOut p⟩
  | .spamGateSet p => ⟨_, applySpamGateSet p⟩
  | .spamGatePayEvm p => ⟨_, applySpamGatePayEvm p⟩
  | .spamGateClear p => ⟨_, applySpamGateClear p⟩
  | .tokenApprove p => ⟨_, applyTokenApprove p⟩
  | .tokenRevoke p => ⟨_, applyTokenRevoke p⟩
  | .tokenAccept p => ⟨_, applyTokenAccept p⟩
  | .tokenReject p => ⟨_, applyTokenReject p⟩
  | .walletFamilyPublish p => ⟨_, applyWalletFamilyPublish p⟩
  | .walletFamilyAdd p => ⟨_, applyWalletFamilyAdd p⟩
  | .accountApiKeySet p => ⟨_, applyAccountApiKeySet p⟩
  | .livenessProof p => ⟨_, applyLivenessProof p⟩
  | .entropyWitness p => ⟨_, applyEntropyWitness env p⟩
  | .hardwareClaim p => ⟨_, applyHardwareClaim env p⟩
  | .scientificResult p => ⟨_, applyScientificResult p⟩
  | .crossChainFinalityAnnounce p => ⟨_, applyCrossChainFinalityAnnounce p⟩
  | .ensembleJobPost p => ⟨_, applyEnsembleJobPost env p⟩
  | .ensembleVote p => ⟨_, applyEnsembleVote env p⟩
  | .slashValidator p => ⟨_, applySlashValidator p⟩
  | .slashAppeal p => ⟨_, applySlashAppeal p⟩
  | .tonActivationIntent p => ⟨_, applyTonActivationIntent p⟩
  | .tonWalletActivated p => ⟨_, applyTonWalletActivated p⟩
  | .agentCreditDeposit p => ⟨_, applyAgentCreditDeposit p⟩
  | .agentCreditWithdraw p => ⟨_, applyAgentCreditWithdraw p⟩
  | .agentTaskPost p => ⟨_, applyAgentTaskPost p⟩
  | .agentTaskBid p => ⟨_, applyAgentTaskBid p⟩
  | .agentTaskAssign p => ⟨_, applyAgentTaskAssign p⟩
  | .agentTaskSubmit p => ⟨_, applyAgentTaskSubmit env p⟩
  | .agentTaskVerifierCommit p => ⟨_, applyAgentTaskVerifierCommit p⟩
  | .agentTaskVerifierReveal p => ⟨_, applyAgentTaskVerifierReveal env p⟩
  | .agentRegister p => ⟨_, applyAgentRegister p⟩
  | .agentDeregister p => ⟨_, applyAgentDeregister p⟩
  | .bridgeFund p => ⟨_, applyBridgeFund p⟩
  | .bridgeWrap p => ⟨_, applyBridgeWrap p⟩
  | .bridgeUnwrap p => ⟨_, applyBridgeUnwrap env p⟩
  | .bridgeUnlock p => ⟨_, applyBridgeUnlock env p⟩
  | .oracleFeedCreate p => ⟨_, applyOracleFeedCreate p⟩
  | .oracleReport p => ⟨_, applyOracleReport p⟩
  | .oracleFeedFinalize p => ⟨_, applyOracleFeedFinalize env p⟩
  | .sessionListingCreate p => ⟨_, applySessionListingCreate p⟩
  | .sessionListingBuy p => ⟨_, applySessionListingBuy p⟩
  | .sessionListingCancel p => ⟨_, applySessionListingCancel p⟩
  | .agentSessionOpen p => ⟨_, applyAgentSessionOpen p⟩
  | .agentSessionClose p => ⟨_, applyAgentSessionClose p⟩
  | .vrfCommit p => ⟨_, applyVrfCommit p⟩
  | .vrfReveal p => ⟨_, applyVrfReveal env p⟩
  | .phoneMineSubmit p => ⟨_, applyPhoneMineSubmit p⟩
  | .governancePropose p => ⟨_, applyGovernancePropose env p⟩
  | .governanceVote p => ⟨_, applyGovernanceVote p⟩
  | .governanceFinalize p => ⟨_, applyGovernanceFinalize env p⟩
  | .nameAuctionOpen p => ⟨_, applyNameAuctionOpen p⟩
  | .nameAuctionBid p => ⟨_, applyNameAuctionBid p⟩
  | .nameAuctionSettle p => ⟨_, applyNameAuctionSettle p⟩
  | .nameAuctionCancel p => ⟨_, applyNameAuctionCancel p⟩
  | .freeportAuctionOpen p => ⟨_, applyFreeportAuctionOpen p⟩
  | .freeportAuctionBid p => ⟨_, applyFreeportAuctionBid p⟩
  | .freeportAuctionSettle p => ⟨_, applyFreeportAuctionSettle p⟩
  | .privateAuthEnroll p => ⟨_, applyPrivateAuthEnroll p⟩
  | .privateAuthApprove p => ⟨_, applyPrivateAuthApprove p⟩
  | .memorySet p => ⟨_, applyMemorySet p⟩
  | .memoryDelete p => ⟨_, applyMemoryDelete p⟩
  | .amberPillMint p => ⟨_, applyAmberPillMint p⟩
  | .phoneStorageProof p => ⟨_, applyPhoneStorageProof p⟩
  | .fineTuneJobPost p => ⟨_, applyFineTuneJobPost p⟩
  | .fineTuneJobComplete p => ⟨_, applyFineTuneJobComplete p⟩
  | .computerUseJobPost p => ⟨_, applyComputerUseJobPost env p⟩
  | .computerUseJobComplete p => ⟨_, applyComputerUseJobComplete p⟩
  | .blobServeProof p => ⟨_, applyBlobServeProof env p⟩
  | .snapshotSave p => ⟨_, applySnapshotSave env p⟩
  | .identityNftMint p => ⟨_, applyIdentityNftMint p⟩
  | .identityNftTransfer p => ⟨_, applyIdentityNftTransfer p⟩
  | .identityNftAccept p => ⟨_, applyIdentityNftAccept p⟩
  | .identityNftReject p => ⟨_, applyIdentityNftReject p⟩
  | .identityNftSetRecovery p => ⟨_, applyIdentityNftSetRecovery p⟩
  | .identityNftLock p => ⟨_, applyIdentityNftLock p⟩
  | .identityNftUnlock p => ⟨_, applyIdentityNftUnlock p⟩
  | .identityNftRecover p => ⟨_, applyIdentityNftRecover p⟩
  | .identityNftSetBackstop p => ⟨_, applyIdentityNftSetBackstop p⟩
  | .identityNftSetPrimary p => ⟨_, applyIdentityNftSetPrimary p⟩
  | .soulboundIssue p => ⟨_, applySoulboundIssue p⟩
  | .soulboundAccept p => ⟨_, applySoulboundAccept p⟩
  | .soulboundReject p => ⟨_, applySoulboundReject p⟩
  | .soulboundRevoke p => ⟨_, applySoulboundRevoke p⟩
  | .contractDeploy _ | .contractCall _ | .blobStore _ | .storeUpdate _ | .productCreate _
  | .productUpdate _ | .orderPlace _ | .orderFulfill _ | .orderCancel _ | .orderDispute _
  | .escrowRelease _ | .flashSale _ | .sensorKeyRegister _ | .sensorVouch _
  | .deviceKeyRegister _ | .linkGitPruneProof _ | .linkGitStorageExtend _ | .trackerHint _
  | .agentTaskSettle _ => ⟨{}, pure ()⟩

/-- Apply one entry. On an error the writes made so far stay: the store has no
transactions. -/
def applyEntry (env : Env) (now : ℕ) (e : LedgerEntry) (s : Chain) : Except Fault Unit × Chain :=
  match e with
  | .transfer p =>
    match (applyTransfer p).run s with
    | (.ok (), s') => (.ok (), s'.bumpNonce p.from_)
    | (.error f, s') => (.error f, s')
  | e => (arm env now e).prog.run s

variable {env : Env} {now : ℕ} {s : Chain}

/-- A transfer advances the sender's nonce once its program succeeds. -/
theorem applyEntry_transfer (p : Entry.Transfer) :
    applyEntry env now (.transfer p) s = match (applyTransfer p).run s with
      | (.ok (), s') => (.ok (), s'.bumpNonce p.from_)
      | (.error f, s') => (.error f, s') := rfl

/-- Every arm but that of a transfer is its program. -/
theorem applyEntry_of_ne_transfer {e : LedgerEntry} (h : ∀ p, e ≠ .transfer p) :
    applyEntry env now e s = (arm env now e).prog.run s := by
  unfold applyEntry
  split
  · exact absurd rfl (h _)
  · rfl

end HoneNode
