import HoneNode.Lib.Kv
import Mathlib.Data.String.Basic

/-!
# Entry — ledger entries

Every state change is an entry (`entry.rs`). Each variant has a payload
structure of its own with the fields of the source, and `LedgerEntry` is the
sum of them. Machine integers are natural numbers here; the operations that
wrap or saturate say so where they are modelled. A `BTreeMap` is a `Kv`.
-/

namespace HoneNode

/-- The bit pattern of an `f64`. -/
abbrev F64 := UInt64

/-- `serde_json::Value`. -/
inductive Json where
  | null
  | bool (b : Bool)
  | num (n : ℤ)
  | float (x : F64)
  | str (s : String)
  | arr (items : List Json)
  | obj (fields : List (String × Json))

/-- A cryptographic commitment to an external-chain address. -/
structure ChainProof where
  chain : String
  commitment : String
  mode : String

/-- Cross-chain 2FA factor attached to a protected transaction. -/
structure TwoFactor where
  chain : String
  signature : String

/-- A single spending cap, in hunits or in US cents. -/
inductive SignerCap where
  | hunits (amount : ℕ)
  | usd (cents maxStalenessS : ℕ)

/-- Spending caps on a delegated external signer grant; `none` is uncapped. -/
structure ExternalSignerCaps where
  perTxMax : Option SignerCap
  dailyMax : Option SignerCap
  allowlist : Option (List String)
  expiresAt : Option ℕ

/-- Response to a per-epoch storage challenge. -/
structure MerkleRangeProof where
  challengeHash : String
  rangeStart : ℕ
  rangeEnd : ℕ
  totalChunks : ℕ
  leafHash : String
  merkleRoot : String
  proofNodes : List String

/-- Oracle reveal record, supplied when a feed is finalized. -/
structure OracleReveal where
  reporter : String
  value : ℕ
  nonce : String

/-- Owner-level authority bundle for key policy changes. -/
structure OwnerAuth where
  owner2fa : Option TwoFactor
  corroborantKey : Option String
  corroborantSig : Option String

/-- An address of a wallet family. -/
structure ChainAddress where
  chain : String
  address : String
  derivationPath : Option String
  signature : Option String

/-! ## Payloads -/

namespace Entry

/-- A new account with its first keys. -/
structure AccountCreate where
  (account : String) (keys : Kv String String) (chainProofs : List ChainProof) (epoch : ℕ)
  (fundedBy machineFingerprint : Option String)

/-- One role gets a new key. -/
structure AccountUpdateKey where
  (account role newPublicKey : String) (epoch : ℕ) (signedBy : String)

/-- The account that stands for another one. -/
structure AccountSetPrimary where
  (account primary : String) (epoch : ℕ) (signedBy : String) (signature : Option String)

/-- A parameter of the chain is set. -/
structure ChainParameterSet where
  (key value signedBy : String) (epoch : ℕ) (signature : Option String)

/-- All keys of an account are replaced. -/
structure AccountTransfer where
  (account : String) (newKeys : Kv String String) (epoch : ℕ) (signedBy : String)
  (nonce : ℕ) (signature : Option String)

/-- Evidence for an external address. -/
structure VerifyChainLink where
  (account chain commitment signedMessage signature sigType : String) (epoch : ℕ)
  (signedBy : String)

/-- A key of another chain may spend, up to its caps. -/
structure GrantExternalSigner where
  (account externalChain externalPubkey externalAddress : String) (label : Option String)
  (caps : ExternalSignerCaps) (epoch : ℕ) (signedBy : String) (nonce : ℕ) (signature : String)

/-- A payment signed by a granted TON wallet. -/
structure ExternalSignerTransfer where
  (account externalChain to_ : String) (amount : ℕ) (memo : Option String) (nonce : ℕ)
  (tonDomain : String) (tonTimestamp : ℕ) (tonPayloadKind tonPayload tonSignature : String)
  (epoch : ℕ)

/-- The grant is taken back. -/
structure RevokeExternalSigner where
  (account externalChain externalPubkey : String) (externalAddress : Option String) (epoch : ℕ)
  (signedBy : String) (nonce : ℕ) (signature : String)

/-- The second factor that a role asks for. -/
structure SetKeyPolicy where
  (account role : String) (twofactorChain : Option String) (ownerAuth : OwnerAuth) (epoch : ℕ)
  (signedBy : String) (signature : Option String)

structure Transfer where
  (from_ to_ : String) (amount : ℕ) (token : String) (memo : Option String) (epoch : ℕ)
  (signedBy : String) (nonce : ℕ) (twofactor : Option TwoFactor)

structure Stake where
  (account : String) (amount epoch nonce : ℕ) (signedBy : String)

structure Unstake where
  (account : String) (amount epoch nonce : ℕ) (signedBy : String)

/-- A node takes backers for a share of its rewards. -/
structure NodeRoleOptIn where
  (node role : String) (backerShareBps maxBackers epoch nonce : ℕ) (signedBy : String)

structure NodeRoleOptOut where
  (node role : String) (epoch nonce : ℕ) (signedBy : String)

/-- A backer stakes on a role of a node. -/
structure NodeRoleStake where
  (node role staker : String) (amount epoch nonce : ℕ) (signedBy : String)

structure NodeRoleUnstake where
  (node role staker : String) (amount epoch nonce : ℕ) (signedBy : String)

/-- Tokens a miner has generated in an epoch. -/
structure Mine where
  (miner : String) (epoch : ℕ) (model : String) (inputTokens outputTokens toolCalls hwTier : ℕ)
  (outputHash : String) (jobId nodeVersion softwareHash modelHash : Option String)

structure MineReward where
  (miner : String) (amount epoch : ℕ)

/-- What a clock node makes of an epoch. -/
structure EpochSeal where
  (nodeId : String) (epoch timestamp : ℕ) (sealHash : String)
  (signature nodeVersion : Option String)

/-- The head of an epoch that a quorum has sealed. -/
structure EpochFinalize where
  (epoch : ℕ) (nodeId rewardsHash : String) (quorum : ℕ) (sealedBy : List String)
  (stateRoot : String) (timestamp : ℕ)

/-- A stake makes a clock node. -/
structure ClockNodeRegister where
  (nodeId : String) (stake epoch : ℕ) (pubkey signature : Option String)

/-- Two seals of one node for one epoch. -/
structure ClockDoubleSignEvidence where
  (submitter offender : String) (epoch : ℕ) (sealHashA : String) (timestampA : ℕ)
  (sigA sealHashB : String) (timestampB : ℕ) (sigB : String) (signature : Option String)

structure ContractDeploy where
  (deployer contractId wasmB64 : String) (initMethod : Option String) (initArgs : Option Json)
  (gas epoch nonce : ℕ)

structure ContractCall where
  (signer contractId method : String) (args : Json) (deposit gas epoch nonce : ℕ)

structure SensorReading where
  (sensorId owner : String) (epoch : ℕ) (value : F64) (dataHash : String) (metadata : Option Json)
  (signedBy : String)

structure CoverageReport where
  (reporter : String) (lat lon : F64) (signalDbm : Option ℤ)
  (carrierMccMnc technology dataHash : String) (epoch : ℕ) (signedBy : String)

/-- The fee of the job goes into escrow. -/
structure InferenceJobPost where
  (jobId requester model mode inputHash : String)
  (maxFee minReputation bidWindowEpochs deadlineEpoch epoch nonce : ℕ) (signedBy : String)
  (persistOnFs : Option Bool) (fsFee minVerifiers : Option ℕ) (nodeFingerprint : Option String)

structure InferenceJobBid where
  (jobId bidder : String) (fee : ℕ) (role : String) (epoch nonce : ℕ) (signedBy : String)

/-- The job is given to a bidder. -/
structure InferenceJobAward where
  (jobId winner role : String) (fee epoch : ℕ)

structure InferenceJobComplete where
  (jobId worker resultHash : String) (latencyMs epoch : ℕ) (signedBy : String)

/-- A verifier takes a seat on the board. -/
structure InferenceVerifyClaim where
  (jobId verifier : String) (epoch : ℕ) (signedBy : String)

/-- A verdict, hashed with a salt. -/
structure InferenceJobCommit where
  (jobId verifier commitHash : String) (epoch : ℕ) (signedBy : String)

/-- The verdict itself. -/
structure InferenceJobVerify where
  (jobId verifier verdict : String) (valueScore : ℕ) (reason revealSalt : Option String)
  (epoch : ℕ) (signedBy : String)

/-- The worker contests a verdict. -/
structure InferenceJobClaim where
  (jobId claimant : String) (evidenceHash : Option String) (epoch nonce : ℕ) (signedBy : String)

structure InferenceReviewVote where
  (jobId reviewer : String) (approved : Bool) (epoch : ℕ) (signedBy : String)

/-- How the escrow of a job is paid out, and who is slashed. -/
structure InferenceJobPay where
  (jobId worker : String) (workerAmount : ℕ)
  (verifierPayments reviewerPayments : List (String × ℕ)) (recycleAmount refundAmount : ℕ)
  (dissenterSlashes : List (String × ℕ)) (epoch : ℕ)

/-- The escrow goes back to the requester. -/
structure InferenceJobCancel where
  (jobId cancelledBy reason : String) (epoch nonce : ℕ) (signedBy : String)

structure ClockReward where
  (nodeId : String) (amount epoch : ℕ)

structure StorageReward where
  (nodeId : String) (amount epoch : ℕ)

structure SensorReward where
  (nodeId : String) (amount epoch : ℕ)

structure VerifierReward where
  (nodeId : String) (amount epoch : ℕ)

structure ServiceReward where
  (nodeId : String) (amount epoch : ℕ)

structure MempoolReward where
  (operator : String) (amount epoch : ℕ)

structure MempoolOperatorRegister where
  (operator : String) (amount epoch nonce : ℕ) (signedBy : String)

/-- What an operator says it has relayed. -/
structure MempoolHeartbeat where
  (operator : String) (epoch propagationLatencyMs entriesRelayed : ℕ) (signedBy : String)

/-- A device is claimed, or a claim on it is overbid. -/
structure DeviceClaimStake where
  (deviceSerial owner : String) (amount epoch nonce : ℕ) (signedBy : String)

structure DeviceClaimUnstake where
  (deviceSerial owner : String) (epoch nonce : ℕ) (signedBy : String)

/-- A blob is stored for a fee. -/
structure BlobStore where
  (cid uploader : String) (sizeBytes epoch fee : ℕ)

structure StoreUpdate where
  (seller storeId : String) (name description onionAddress : Option String)
  (metadata : Option Json) (epoch : ℕ) (signedBy : String)

structure ProductCreate where
  (seller productId storeId title : String) (price : ℕ) (token productType : String)
  (deliveryCid : Option String) (stock : Option ℕ) (metadata : Option Json) (epoch : ℕ)
  (signedBy : String)

structure ProductUpdate where
  (seller productId : String) (price stock : Option ℕ) (active : Option Bool)
  (metadata : Option Json) (epoch : ℕ) (signedBy : String)

/-- The price of an order goes into escrow. -/
structure OrderPlace where
  (orderId buyer seller productId : String) (quantity totalPrice : ℕ) (token : String)
  (buyerPubkey : Option String) (epoch nonce : ℕ) (signedBy : String)

/-- The seller has delivered. -/
structure OrderFulfill where
  (orderId seller : String) (deliveryCid tracking : Option String) (epoch : ℕ) (signedBy : String)

structure OrderCancel where
  (orderId cancelledBy : String) (reason : Option String) (epoch nonce : ℕ) (signedBy : String)

/-- The buyer objects to an order. -/
structure OrderDispute where
  (orderId buyer reason : String) (evidenceHash : Option String) (epoch : ℕ) (signedBy : String)

/-- The seller of an order is paid. -/
structure EscrowRelease where
  (orderId seller : String) (amount : ℕ) (token : String) (epoch : ℕ)

/-- A lower price until an epoch. -/
structure FlashSale where
  (seller productId : String) (salePrice expiresEpoch epoch : ℕ) (signedBy : String)

structure SensorRegister where
  (sensorId owner sensorType : String) (location : Option String) (metadata : Option Json)
  (epoch : ℕ) (signedBy : String)

structure SensorKeyRegister where
  (sensorId owner devicePubkey : String) (epoch : ℕ) (signedBy : String)

/-- Another account vouches for a sensor. -/
structure SensorVouch where
  (sensorId voucher : String) (epoch : ℕ) (signedBy : String)

/-- The hash of a batch of readings. -/
structure SensorDataCommit where
  (sensorId owner batchHash : String) (readingCount : ℕ) (sensorType : String) (epoch : ℕ)
  (signedBy : String) (gatewayAccount : Option String)

/-- A reward shared by a sensor and its gateway. -/
structure GatewayRewardSplit where
  (sensorAccount gatewayAccount : String) (sensorAmount gatewayAmount epoch : ℕ)

structure DeviceKeyRegister where
  (deviceId owner devicePubkey : String) (hardwareHash : Option String) (epoch : ℕ)
  (signedBy : String)

/-- A stake on the yield of a device. -/
structure DeviceYieldStake where
  (deviceSerial staker : String) (amount epoch nonce : ℕ) (signedBy : String)

structure DeviceYieldUnstake where
  (deviceSerial staker : String) (amount epoch nonce : ℕ) (signedBy : String)

structure GatewayHeartbeat where
  (gatewayId owner : String) (epoch : ℕ) (signedBy : String)

/-- What a node has stored, with a proof for its challenge. -/
structure StorageHeartbeat where
  (nodeId : String) (epoch bytesProven queryCount : ℕ)
  (challengeResponse : Option MerkleRangeProof) (tier : Option ℕ) (signedBy : String)

/-- A node has stored what a Hive operation names. -/
structure HiveReplicaCommit where
  (nodeId cid hiveAccount customJsonId : String) (hiveBlockNum : ℕ) (hiveTxId : String)
  (opIndex : ℕ) (payloadSha256 merkleRoot : String) (bytesReplicated : ℕ) (replicaKind : String)
  (confirmations epoch nonce : ℕ) (signedBy : String) (signature : Option String)

/-- Another node has read the replica. -/
structure HiveReplicaVerify where
  (verifier nodeId cid hiveAccount customJsonId : String) (hiveBlockNum : ℕ) (hiveTxId : String)
  (opIndex : ℕ) (payloadSha256 merkleRoot : String) (bytesVerified : ℕ)
  (replicaKind challengeHash : String) (epoch nonce : ℕ) (signedBy : String)
  (signature : Option String)

structure ServiceHeartbeat where
  (nodeId : String) (epoch containerHours : ℕ) (signedBy : String)

/-- A runtime, with the bond of its owner. -/
structure RuntimeRegister where
  (runtimeId owner manifestCid runtimeClass nonce : String) (bond epoch : ℕ) (signedBy : String)

structure RuntimeDeploy where
  (runtimeId owner hostId : String) (manifestCid : Option String) (epoch : ℕ) (signedBy : String)

structure RuntimeUndeploy where
  (runtimeId owner : String) (epoch : ℕ) (signedBy : String)

/-- A job for a runtime, its fee in escrow. -/
structure RuntimeJobEnqueue where
  (jobId runtimeId jobClass : String) (dueEpoch : ℕ) (payloadCid : Option String) (fee epoch : ℕ)
  (signedBy : String)

/-- A host takes a job under a lease. -/
structure RuntimeClaim where
  (leaseId runtimeId jobId hostId : String) (expiresEpoch epoch : ℕ) (signedBy : String)

/-- The host commits to the output of a job. -/
structure RuntimeAttest where
  (attestationId runtimeId jobId hostId outputCommitment : String) (runtimeSha : Option String)
  (epoch : ℕ) (signedBy : String)

/-- An attestation is called into question. -/
structure RuntimeChallenge where
  (challengeId attestationId runtimeId challenger reason : String) (evidenceCid : Option String)
  (epoch : ℕ) (signedBy : String)

/-- Part of the bond is taken. -/
structure RuntimeSlash where
  (slashId runtimeId hostId : String) (amount : ℕ) (reason : String) (epoch : ℕ)
  (signedBy : String)

structure RuntimeReward where
  (hostId : String) (amount epoch : ℕ)

/-- A batch of readings is paid for. -/
structure SensorDataPurchase where
  (sensorId buyer owner batchHash : String) (fee epoch nonce : ℕ) (signedBy : String)

structure LinkGitRepoCreate where
  (repoId owner name visibility : String) (hideKey : Option String) (epoch : ℕ)
  (signedBy : String)

/-- A branch or tag moves to a commit. -/
structure LinkGitRefUpdate where
  (repoId owner refName commitHash : String) (prevHash : Option String) (epoch : ℕ)
  (signedBy : String)

/-- The key of a repository, encrypted to the grantee. -/
structure LinkGitAccessGrant where
  (repoId grantor grantee encryptedKey : String) (epoch : ℕ) (signedBy : String)

structure LinkGitAccessRevoke where
  (repoId grantor grantee : String) (epoch : ℕ) (signedBy : String)

/-- Objects a node has dropped. -/
structure LinkGitPruneProof where
  (repoId nodeId prunedRoot : String) (bytesFreed epoch : ℕ) (signedBy : String)

/-- A fee keeps objects longer. -/
structure LinkGitStorageExtend where
  (repoId owner : String) (cids : List String) (keepUntilEpoch fee epoch : ℕ) (signedBy : String)

structure LinkGitServeHeartbeat where
  (repoId owner requesterHash : String) (epoch : ℕ)

structure LinkGitServeReward where
  (repoId owner : String) (amount serveCount epoch : ℕ)

structure LinkGitBuildReward where
  (builder : String) (amount pushCount epoch : ℕ)

structure LinkGitIssueCreate where
  (repoId issueId title body : String) (labels : List String) (author : String) (epoch : ℕ)
  (signedBy : String)

structure LinkGitIssueComment where
  (repoId issueId commentId body author : String) (epoch : ℕ) (signedBy : String)

structure LinkGitIssueClose where
  (repoId issueId actor : String) (resolution : Option String) (epoch : ℕ) (signedBy : String)

structure LinkGitIssueReopen where
  (repoId issueId actor : String) (epoch : ℕ) (signedBy : String)

structure LinkGitPrCreate where
  (repoId prId title body sourceBranch targetBranch headCommit author : String) (epoch : ℕ)
  (signedBy : String)

structure LinkGitPrComment where
  (repoId prId commentId body author : String) (epoch : ℕ) (signedBy : String)

structure LinkGitPrMerge where
  (repoId prId mergeCommit actor : String) (epoch : ℕ) (signedBy : String)

structure LinkGitPrClose where
  (repoId prId actor : String) (epoch : ℕ) (signedBy : String)

structure ProjectCreate where
  (projectId name description : String) (repo : Option String) (creator : String)
  (epoch nonce : ℕ) (signedBy : String) (signature : Option String)

/-- A piece of work with a bounty. -/
structure ProjectTask where
  (projectId taskId title description taskType : String) (bounty : ℕ) (tags : List String)
  (deadlineEpoch : ℕ) (creator : String) (epoch nonce : ℕ) (signedBy : String)
  (signature : Option String)

structure TaskClaim where
  (projectId taskId claimant : String) (epoch nonce : ℕ) (signedBy : String)
  (signature : Option String)

structure TaskSubmit where
  (projectId taskId submitter link : String) (notes : Option String) (epoch nonce : ℕ)
  (signedBy : String) (signature : Option String)

/-- The bounty of a task is paid. -/
structure TaskApprove where
  (projectId taskId approver recipient : String) (payout : Option ℕ) (epoch nonce : ℕ)
  (signedBy : String) (signature : Option String)

/-- The mainnet account of a node on a test network. -/
structure TestnetOperatorRegister where
  (mainnetAccount testnetNodeId testnetChainId : String) (epoch : ℕ) (signedBy : String)

structure TestnetOperatorDeregister where
  (mainnetAccount testnetChainId : String) (epoch : ℕ) (signedBy : String)

structure TestnetReward where
  (mainnetAccount testnetNodeId : String) (amount epoch : ℕ)

/-- The tags an observer has seen, by kind. -/
structure TrackerSightingCommit where
  (observerId owner : String) (airtagCount androidFmdCount tileCount samsungCount otherCount : ℕ)
  (batchHash : String) (epoch : ℕ) (signedBy : String)

/-- A tag is claimed under a commitment. -/
structure TrackerClaim where
  (serialCommitment tagType claimer : String) (fee epoch nonce : ℕ) (signedBy : String)

structure TrackerClaimRelease where
  (serialCommitment claimer : String) (epoch nonce : ℕ) (signedBy : String)

/-- A witness has heard the tag. -/
structure TrackerAcousticProof where
  (serialCommitment witnessId proofHash claimer : String) (epoch : ℕ) (signedBy : String)

/-- A fee per epoch for the sightings of a tag. -/
structure TrackerSubscription where
  (serialCommitment claimer : String) (feePerEpoch expiresEpoch epoch nonce : ℕ)
  (signedBy : String)

structure TrackerSightingData where
  (serialCommitment observerId cid plaintextHash : String) (epoch : ℕ) (signedBy : String)

/-- A commitment for a window of epochs. -/
structure TrackerHint where
  (serialCommitment windowCommitment : String) (epochWindow : ℕ) (claimer : String) (epoch : ℕ)
  (signedBy : String)

/-- A bounty for the finder, in escrow. -/
structure TrackerLostMode where
  (serialCommitment claimer : String) (bountyHunits expiresEpoch : ℕ)
  (contactEncrypted : Option String) (epoch nonce : ℕ) (signedBy : String)

/-- A finder commits to a place. -/
structure TrackerFoundReport where
  (serialCommitment finder gpsCommitment : String) (acousticProofHash : Option String)
  (epoch nonce : ℕ) (signedBy : String)

/-- The owner pays the finder. -/
structure TrackerFoundConfirm where
  (serialCommitment finder claimer : String) (epoch nonce : ℕ) (signedBy : String)

structure TrackerCoverageReward where
  (observerId : String) (amount epoch : ℕ)

/-- Money that is there from the start. -/
structure GenesisAlloc where
  (account : String) (amount : ℕ) (token : String)

/-- Another account may act for this one. -/
structure DelegationGrant where
  (from_ to_ : String) (capabilities : List String) (expiresEpoch epoch nonce : ℕ)
  (signedBy : String)

structure DelegationRevoke where
  (from_ to_ : String) (epoch nonce : ℕ) (signedBy : String)

/-- The owner lets others stake on a device. -/
structure DeviceYieldOptIn where
  (deviceSerial owner : String) (maxStakers epoch nonce : ℕ) (signedBy : String)

structure DeviceYieldOptOut where
  (deviceSerial owner : String) (epoch nonce : ℕ) (signedBy : String)

/-- What a sender pays to deliver a token. -/
structure SpamGateSet where
  (account token : String) (fee : ℕ) (feeToken : String) (evmAddress : Option String)
  (evmChainId : Option ℕ) (epoch nonce : ℕ) (signedBy : String)

/-- The fee, said to be paid on an EVM chain. -/
structure SpamGatePayEvm where
  (from_ to_ token : String) (amount : ℕ) (evmTxHash : String) (evmChainId epoch nonce : ℕ)
  (signedBy : String)

structure SpamGateClear where
  (account token : String) (epoch nonce : ℕ) (signedBy : String)

structure TokenApprove where
  (account token from_ : String) (epoch nonce : ℕ) (signedBy : String)

structure TokenRevoke where
  (account token from_ : String) (epoch nonce : ℕ) (signedBy : String)

/-- A pending transfer is taken. -/
structure TokenAccept where
  (to_ token from_ : String) (pendingNonce epoch nonce : ℕ) (signedBy : String)

/-- A pending transfer goes back. -/
structure TokenReject where
  (to_ token from_ : String) (pendingNonce epoch nonce : ℕ) (signedBy : String)

/-- The addresses of an account on other chains. -/
structure WalletFamilyPublish where
  (account : String) (chains : List ChainAddress) (epoch nonce : ℕ) (signedBy : String)

structure WalletFamilyAdd where
  (account : String) (chains : List ChainAddress) (epoch nonce : ℕ) (signedBy : String)

structure AccountApiKeySet where
  (account apiKey : String) (epoch nonce : ℕ) (signedBy : String)

/-- The account is alive. -/
structure LivenessProof where
  (account : String) (epoch nonce : ℕ) (keyRole signedBy : String) (signature : Option String)

/-- A transaction seen on another chain. -/
structure EntropyWitness where
  (account chain address txHash : String) (blockHeight epoch : ℕ) (signedBy : String)

structure HardwareClaim where
  (account fingerprint hwInfo : String) (epoch : ℕ) (signedBy : String)

structure ScientificResult where
  (jobId requester jobType title : String) (model : Option String) (inputHash resultHash : String)
  (resultBlobCid : Option String) (feePaid : ℕ) (contributingNodes : List String) (epoch : ℕ)
  (signedBy : String)

/-- What a node says of an epoch to another chain. -/
structure CrossChainFinalityAnnounce where
  (targetChain : String) (finalityEpoch cutoffEpoch : ℕ)
  (stateRoot finalityHash inferenceFinalityHash announcementHash : String)
  (finalizedJobCount epoch : ℕ) (signedBy : String)

/-- One job for several workers, who vote on the output. -/
structure EnsembleJobPost where
  (jobId requester model inputHash : String) (maxFee nWorkers epoch nonce : ℕ) (signedBy : String)
  (signature : Option String)

structure EnsembleVote where
  (jobId worker outputHash : String) (epoch nonce : ℕ) (signedBy : String)
  (signature : Option String)

/-- A report of misbehaviour. -/
structure SlashValidator where
  (slashId reporter accused violation evidence : String) (epoch nonce : ℕ) (signedBy : String)
  (signature : Option String)

/-- The vote of a panelist on a report. -/
structure SlashAppeal where
  (slashId panelist : String) (overturn : Bool) (epoch nonce : ℕ) (signedBy : String)
  (signature : Option String)

/-- A deposit that is to open a TON wallet. -/
structure TonActivationIntent where
  (honeAccount tonAddress sourceChain sourceAddress : String) (usdtAmount epoch nonce : ℕ)
  (signedBy : String)

/-- The relay has opened it. -/
structure TonWalletActivated where
  (honeAccount tonAddress sourceChain sourceAddress : String) (usdtReceived tonSent feeUsdt : ℕ)
  (txHash : String) (epoch : ℕ) (relay : String)

/-- Money goes into the agent credit. -/
structure AgentCreditDeposit where
  (account : String) (amount epoch nonce : ℕ) (signedBy : String)

structure AgentCreditWithdraw where
  (account : String) (amount epoch nonce : ℕ) (signedBy : String)

/-- A task for an agent, paid from the credit. -/
structure AgentTaskPost where
  (taskId requester description : String) (toolsAllowed : List String)
  (maxFee minVerifiers bidWindowEpochs deadlineEpoch epoch nonce : ℕ) (signedBy : String)

structure AgentTaskBid where
  (taskId agent : String) (proposedFee epoch nonce : ℕ) (signedBy : String)

structure AgentTaskAssign where
  (taskId agent : String) (fee epoch nonce : ℕ) (signedBy : String)

structure AgentTaskSubmit where
  (taskId agent resultHash outputCid : String) (epoch nonce : ℕ) (signedBy : String)

/-- The hash of a result and a salt. -/
structure AgentTaskVerifierCommit where
  (taskId verifier commitHash : String) (epoch nonce : ℕ) (signedBy : String)

structure AgentTaskVerifierReveal where
  (taskId verifier resultHash salt : String) (epoch nonce : ℕ) (signedBy : String)

/-- The node pays the agent and its verifiers. -/
structure AgentTaskSettle where
  (taskId agent winningHash : String) (feePaid verifierCut epoch : ℕ)

structure AgentRegister where
  (account name description : String) (tools : List String) (model : String)
  (minFee epoch nonce : ℕ) (signedBy : String)

structure AgentDeregister where
  (account : String) (epoch nonce : ℕ) (signedBy : String)

/-- A custodian funds the bridge. -/
structure BridgeFund where
  (bridgeId custodian : String) (amountHunits : ℕ) (externalTxHash chain : String)
  (epoch nonce : ℕ) (signedBy : String) (signature : Option String)

/-- HONE becomes wHONE on another chain. -/
structure BridgeWrap where
  (account : String) (amountHunits : ℕ) (externalAddress chain : String) (epoch nonce : ℕ)
  (signedBy : String) (signature : Option String)

/-- wHONE comes back, into the queue. -/
structure BridgeUnwrap where
  (account : String) (amountHunits : ℕ) (recipientExternal chain : String) (epoch nonce : ℕ)
  (signedBy : String) (signature : Option String)

/-- A custodian serves a request of the queue. -/
structure BridgeUnlock where
  (requestId custodian externalTxHash : String) (epoch nonce : ℕ) (signedBy : String)
  (signature : Option String)

/-- A price feed, for a fee. -/
structure OracleFeedCreate where
  (feedId creator assetPair : String) (updateIntervalEpochs epoch nonce : ℕ) (signedBy : String)
  (signature : Option String)

/-- The hash of a price and a nonce. -/
structure OracleReport where
  (feedId reporter commitHash : String) (epoch nonce : ℕ) (signedBy : String)
  (signature : Option String)

/-- The prices are opened and the median is taken. -/
structure OracleFeedFinalize where
  (feedId finalizer : String) (reveals : List OracleReveal) (epoch nonce : ℕ) (signedBy : String)
  (signature : Option String)

structure SessionListingCreate where
  (listingId seller : String) (priceHunits : ℕ) (model summaryHash : String)
  (turnCount epoch nonce : ℕ) (signedBy : String) (signature : Option String)

/-- A listed session is paid for. -/
structure SessionListingBuy where
  (listingId buyer : String) (epoch nonce : ℕ) (signedBy : String) (signature : Option String)

structure SessionListingCancel where
  (listingId seller : String) (epoch nonce : ℕ) (signedBy : String) (signature : Option String)

/-- A session with an agent, its fee in escrow. -/
structure AgentSessionOpen where
  (sessionId client clientPubkey model : String) (feeEscrow epoch nonce : ℕ) (signedBy : String)
  (systemPrompt signature : Option String)

structure AgentSessionClose where
  (sessionId client : String) (epoch nonce : ℕ) (signedBy : String) (signature : Option String)

/-- The hash of a secret for the beacon. -/
structure VrfCommit where
  (committer commitHash : String) (epoch nonce : ℕ) (signedBy : String)
  (signature : Option String)

/-- The secret. -/
structure VrfReveal where
  (committer secretHex : String) (epoch nonce : ℕ) (signedBy : String) (signature : Option String)

structure PhoneMineSubmit where
  (account : String) (nonce : ℕ) (deviceId workHash promptHash : String) (epoch : ℕ)
  (signedBy : String) (signature : Option String)

/-- A proposal with the action it stands for. -/
structure GovernancePropose where
  (proposalId proposer title description action : String) (actionKey actionValue : Option String)
  (votingEndsEpoch epoch : ℕ) (signedBy : String) (signature : Option String)

structure GovernanceVote where
  (proposalId voter : String) (approve : Bool) (epoch nonce : ℕ) (signedBy : String)
  (signature : Option String)

/-- The outcome, as the drain emits it. -/
structure GovernanceFinalize where
  (proposalId outcome : String) (yesVotes noVotes epoch : ℕ) (signedBy : String)

/-- A name is put up for auction. -/
structure NameAuctionOpen where
  (auctionId name opener : String) (minBid endEpoch epoch nonce : ℕ) (signedBy : String)
  (signature : Option String)

/-- A bid, in escrow until it is overbid. -/
structure NameAuctionBid where
  (auctionId bidder : String) (amount epoch nonce : ℕ) (signedBy : String)
  (signature : Option String)

/-- The name goes to the top bidder. -/
structure NameAuctionSettle where
  (auctionId settler : String) (epoch nonce : ℕ) (signedBy : String) (signature : Option String)

structure NameAuctionCancel where
  (auctionId opener : String) (epoch nonce : ℕ) (signedBy : String) (signature : Option String)

structure FreeportAuctionOpen where
  (auctionId itemType itemId seller : String) (minBid endEpoch epoch nonce : ℕ)
  (signedBy : String) (signature : Option String)

structure FreeportAuctionBid where
  (auctionId bidder : String) (amount epoch nonce : ℕ) (signedBy : String)
  (signature : Option String)

structure FreeportAuctionSettle where
  (auctionId settler : String) (epoch nonce : ℕ) (signedBy : String) (signature : Option String)

/-- A key joins a group of approvers. -/
structure PrivateAuthEnroll where
  (groupId member memberPubkey : String) (thresholdN thresholdM epoch nonce : ℕ)
  (signedBy : String) (signature : Option String)

structure PrivateAuthApprove where
  (groupId txHash approver : String) (epoch nonce : ℕ) (signedBy : String)
  (signature : Option String)

/-- A value under a key of the account. -/
structure MemorySet where
  (account key value : String) (epoch nonce : ℕ) (signedBy : String) (signature : Option String)

structure MemoryDelete where
  (account key : String) (epoch nonce : ℕ) (signedBy : String) (signature : Option String)

/-- A token that cannot be transferred. -/
structure AmberPillMint where
  (account pillId : String) (epoch nonce : ℕ) (signedBy : String) (signature : Option String)

structure PhoneStorageProof where
  (account deviceId proofHash : String) (bytesProven epoch nonce : ℕ) (signedBy : String)
  (signature : Option String)

structure FineTuneJobPost where
  (jobId requester baseModel datasetCid : String) (maxFee epoch nonce : ℕ) (signedBy : String)
  (signature : Option String)

structure FineTuneJobComplete where
  (jobId worker adapterCid : String) (epoch nonce : ℕ) (signedBy : String)
  (signature : Option String)

structure ComputerUseJobPost where
  (jobId requester taskJson : String) (maxFee epoch nonce : ℕ) (signedBy : String)
  (signature : Option String)

structure ComputerUseJobComplete where
  (jobId worker resultCid : String) (epoch nonce : ℕ) (signedBy : String)
  (signature : Option String)

/-- A blob was served to someone. -/
structure BlobServeProof where
  (nodeId cid : String) (bytesServed : ℕ) (proofHash : String) (epoch nonce : ℕ)
  (signedBy : String) (signature : Option String)

/-- A named snapshot of the chain. -/
structure SnapshotSave where
  (account slug cid : String) (epoch nonce : ℕ) (signedBy : String) (signature : Option String)

/-- A name becomes a token. -/
structure IdentityNftMint where
  (name to_ : String) (epoch nonce : ℕ) (signedBy : String) (signature : Option String)

/-- An offer; the receiver has to accept. -/
structure IdentityNftTransfer where
  (name from_ to_ : String) (epoch nonce : ℕ) (signedBy : String) (signature : Option String)

structure IdentityNftAccept where
  (name to_ : String) (epoch nonce : ℕ) (signedBy : String) (signature : Option String)

structure IdentityNftReject where
  (name : String) (epoch nonce : ℕ) (signedBy : String) (signature : Option String)

/-- Guardians, and where they may move the name. -/
structure IdentityNftSetRecovery where
  (name : String) (guardians : List String) (threshold : ℕ) (destination : String)
  (founderBackstop : Bool) (seq epoch nonce : ℕ) (signedBy : String) (signature : Option String)
  (cosignatures : List (String × String))

/-- No transfer until it is unlocked. -/
structure IdentityNftLock where
  (name : String) (epoch nonce : ℕ) (signedBy : String) (signature : Option String)

structure IdentityNftUnlock where
  (name : String) (seq epoch nonce : ℕ) (signedBy : String) (signature : Option String)
  (cosignatures : List (String × String))

/-- The guardians move the name. -/
structure IdentityNftRecover where
  (name : String) (seq epoch nonce : ℕ) (signedBy : String) (signature : Option String)
  (cosignatures : List (String × String))

/-- Whether the founders may stand in for the guardians. -/
structure IdentityNftSetBackstop where
  (name : String) (enabled : Bool) (seq epoch nonce : ℕ) (signedBy : String)
  (signature : Option String) (cosignatures : List (String × String))

structure IdentityNftSetPrimary where
  (account name : String) (epoch nonce : ℕ) (signedBy : String) (signature : Option String)

/-- A credential on a name. -/
structure SoulboundIssue where
  (tokenId name class_ : String) (walletBound : Bool) (data : String) (epoch nonce : ℕ)
  (signedBy : String) (signature : Option String)

structure SoulboundAccept where
  (tokenId : String) (epoch nonce : ℕ) (signedBy : String) (signature : Option String)

structure SoulboundReject where
  (tokenId : String) (epoch nonce : ℕ) (signedBy : String) (signature : Option String)

/-- The issuer takes it back. -/
structure SoulboundRevoke where
  (tokenId : String) (epoch nonce : ℕ) (signedBy : String) (signature : Option String)

end Entry

/-! ## The sum type -/

/-- `LedgerEntry`, tagged as in the source. -/
inductive LedgerEntry where
  | accountCreate (p : Entry.AccountCreate)
  | accountUpdateKey (p : Entry.AccountUpdateKey)
  | accountSetPrimary (p : Entry.AccountSetPrimary)
  | chainParameterSet (p : Entry.ChainParameterSet)
  | accountTransfer (p : Entry.AccountTransfer)
  | verifyChainLink (p : Entry.VerifyChainLink)
  | grantExternalSigner (p : Entry.GrantExternalSigner)
  | externalSignerTransfer (p : Entry.ExternalSignerTransfer)
  | revokeExternalSigner (p : Entry.RevokeExternalSigner)
  | setKeyPolicy (p : Entry.SetKeyPolicy)
  | transfer (p : Entry.Transfer)
  | stake (p : Entry.Stake)
  | unstake (p : Entry.Unstake)
  | nodeRoleOptIn (p : Entry.NodeRoleOptIn)
  | nodeRoleOptOut (p : Entry.NodeRoleOptOut)
  | nodeRoleStake (p : Entry.NodeRoleStake)
  | nodeRoleUnstake (p : Entry.NodeRoleUnstake)
  | mine (p : Entry.Mine)
  | mineReward (p : Entry.MineReward)
  | epochSeal (p : Entry.EpochSeal)
  | epochFinalize (p : Entry.EpochFinalize)
  | clockNodeRegister (p : Entry.ClockNodeRegister)
  | clockDoubleSignEvidence (p : Entry.ClockDoubleSignEvidence)
  | contractDeploy (p : Entry.ContractDeploy)
  | contractCall (p : Entry.ContractCall)
  | sensorReading (p : Entry.SensorReading)
  | coverageReport (p : Entry.CoverageReport)
  | inferenceJobPost (p : Entry.InferenceJobPost)
  | inferenceJobBid (p : Entry.InferenceJobBid)
  | inferenceJobAward (p : Entry.InferenceJobAward)
  | inferenceJobComplete (p : Entry.InferenceJobComplete)
  | inferenceVerifyClaim (p : Entry.InferenceVerifyClaim)
  | inferenceJobCommit (p : Entry.InferenceJobCommit)
  | inferenceJobVerify (p : Entry.InferenceJobVerify)
  | inferenceJobClaim (p : Entry.InferenceJobClaim)
  | inferenceReviewVote (p : Entry.InferenceReviewVote)
  | inferenceJobPay (p : Entry.InferenceJobPay)
  | inferenceJobCancel (p : Entry.InferenceJobCancel)
  | clockReward (p : Entry.ClockReward)
  | storageReward (p : Entry.StorageReward)
  | sensorReward (p : Entry.SensorReward)
  | verifierReward (p : Entry.VerifierReward)
  | serviceReward (p : Entry.ServiceReward)
  | mempoolReward (p : Entry.MempoolReward)
  | mempoolOperatorRegister (p : Entry.MempoolOperatorRegister)
  | mempoolHeartbeat (p : Entry.MempoolHeartbeat)
  | deviceClaimStake (p : Entry.DeviceClaimStake)
  | deviceClaimUnstake (p : Entry.DeviceClaimUnstake)
  | blobStore (p : Entry.BlobStore)
  | storeUpdate (p : Entry.StoreUpdate)
  | productCreate (p : Entry.ProductCreate)
  | productUpdate (p : Entry.ProductUpdate)
  | orderPlace (p : Entry.OrderPlace)
  | orderFulfill (p : Entry.OrderFulfill)
  | orderCancel (p : Entry.OrderCancel)
  | orderDispute (p : Entry.OrderDispute)
  | escrowRelease (p : Entry.EscrowRelease)
  | flashSale (p : Entry.FlashSale)
  | sensorRegister (p : Entry.SensorRegister)
  | sensorKeyRegister (p : Entry.SensorKeyRegister)
  | sensorVouch (p : Entry.SensorVouch)
  | sensorDataCommit (p : Entry.SensorDataCommit)
  | gatewayRewardSplit (p : Entry.GatewayRewardSplit)
  | deviceKeyRegister (p : Entry.DeviceKeyRegister)
  | deviceYieldStake (p : Entry.DeviceYieldStake)
  | deviceYieldUnstake (p : Entry.DeviceYieldUnstake)
  | gatewayHeartbeat (p : Entry.GatewayHeartbeat)
  | storageHeartbeat (p : Entry.StorageHeartbeat)
  | hiveReplicaCommit (p : Entry.HiveReplicaCommit)
  | hiveReplicaVerify (p : Entry.HiveReplicaVerify)
  | serviceHeartbeat (p : Entry.ServiceHeartbeat)
  | runtimeRegister (p : Entry.RuntimeRegister)
  | runtimeDeploy (p : Entry.RuntimeDeploy)
  | runtimeUndeploy (p : Entry.RuntimeUndeploy)
  | runtimeJobEnqueue (p : Entry.RuntimeJobEnqueue)
  | runtimeClaim (p : Entry.RuntimeClaim)
  | runtimeAttest (p : Entry.RuntimeAttest)
  | runtimeChallenge (p : Entry.RuntimeChallenge)
  | runtimeSlash (p : Entry.RuntimeSlash)
  | runtimeReward (p : Entry.RuntimeReward)
  | sensorDataPurchase (p : Entry.SensorDataPurchase)
  | linkGitRepoCreate (p : Entry.LinkGitRepoCreate)
  | linkGitRefUpdate (p : Entry.LinkGitRefUpdate)
  | linkGitAccessGrant (p : Entry.LinkGitAccessGrant)
  | linkGitAccessRevoke (p : Entry.LinkGitAccessRevoke)
  | linkGitPruneProof (p : Entry.LinkGitPruneProof)
  | linkGitStorageExtend (p : Entry.LinkGitStorageExtend)
  | linkGitServeHeartbeat (p : Entry.LinkGitServeHeartbeat)
  | linkGitServeReward (p : Entry.LinkGitServeReward)
  | linkGitBuildReward (p : Entry.LinkGitBuildReward)
  | linkGitIssueCreate (p : Entry.LinkGitIssueCreate)
  | linkGitIssueComment (p : Entry.LinkGitIssueComment)
  | linkGitIssueClose (p : Entry.LinkGitIssueClose)
  | linkGitIssueReopen (p : Entry.LinkGitIssueReopen)
  | linkGitPrCreate (p : Entry.LinkGitPrCreate)
  | linkGitPrComment (p : Entry.LinkGitPrComment)
  | linkGitPrMerge (p : Entry.LinkGitPrMerge)
  | linkGitPrClose (p : Entry.LinkGitPrClose)
  | projectCreate (p : Entry.ProjectCreate)
  | projectTask (p : Entry.ProjectTask)
  | taskClaim (p : Entry.TaskClaim)
  | taskSubmit (p : Entry.TaskSubmit)
  | taskApprove (p : Entry.TaskApprove)
  | testnetOperatorRegister (p : Entry.TestnetOperatorRegister)
  | testnetOperatorDeregister (p : Entry.TestnetOperatorDeregister)
  | testnetReward (p : Entry.TestnetReward)
  | trackerSightingCommit (p : Entry.TrackerSightingCommit)
  | trackerClaim (p : Entry.TrackerClaim)
  | trackerClaimRelease (p : Entry.TrackerClaimRelease)
  | trackerAcousticProof (p : Entry.TrackerAcousticProof)
  | trackerSubscription (p : Entry.TrackerSubscription)
  | trackerSightingData (p : Entry.TrackerSightingData)
  | trackerHint (p : Entry.TrackerHint)
  | trackerLostMode (p : Entry.TrackerLostMode)
  | trackerFoundReport (p : Entry.TrackerFoundReport)
  | trackerFoundConfirm (p : Entry.TrackerFoundConfirm)
  | trackerCoverageReward (p : Entry.TrackerCoverageReward)
  | genesisAlloc (p : Entry.GenesisAlloc)
  | delegationGrant (p : Entry.DelegationGrant)
  | delegationRevoke (p : Entry.DelegationRevoke)
  | deviceYieldOptIn (p : Entry.DeviceYieldOptIn)
  | deviceYieldOptOut (p : Entry.DeviceYieldOptOut)
  | spamGateSet (p : Entry.SpamGateSet)
  | spamGatePayEvm (p : Entry.SpamGatePayEvm)
  | spamGateClear (p : Entry.SpamGateClear)
  | tokenApprove (p : Entry.TokenApprove)
  | tokenRevoke (p : Entry.TokenRevoke)
  | tokenAccept (p : Entry.TokenAccept)
  | tokenReject (p : Entry.TokenReject)
  | walletFamilyPublish (p : Entry.WalletFamilyPublish)
  | walletFamilyAdd (p : Entry.WalletFamilyAdd)
  | accountApiKeySet (p : Entry.AccountApiKeySet)
  | livenessProof (p : Entry.LivenessProof)
  | entropyWitness (p : Entry.EntropyWitness)
  | hardwareClaim (p : Entry.HardwareClaim)
  | scientificResult (p : Entry.ScientificResult)
  | crossChainFinalityAnnounce (p : Entry.CrossChainFinalityAnnounce)
  | ensembleJobPost (p : Entry.EnsembleJobPost)
  | ensembleVote (p : Entry.EnsembleVote)
  | slashValidator (p : Entry.SlashValidator)
  | slashAppeal (p : Entry.SlashAppeal)
  | tonActivationIntent (p : Entry.TonActivationIntent)
  | tonWalletActivated (p : Entry.TonWalletActivated)
  | agentCreditDeposit (p : Entry.AgentCreditDeposit)
  | agentCreditWithdraw (p : Entry.AgentCreditWithdraw)
  | agentTaskPost (p : Entry.AgentTaskPost)
  | agentTaskBid (p : Entry.AgentTaskBid)
  | agentTaskAssign (p : Entry.AgentTaskAssign)
  | agentTaskSubmit (p : Entry.AgentTaskSubmit)
  | agentTaskVerifierCommit (p : Entry.AgentTaskVerifierCommit)
  | agentTaskVerifierReveal (p : Entry.AgentTaskVerifierReveal)
  | agentTaskSettle (p : Entry.AgentTaskSettle)
  | agentRegister (p : Entry.AgentRegister)
  | agentDeregister (p : Entry.AgentDeregister)
  | bridgeFund (p : Entry.BridgeFund)
  | bridgeWrap (p : Entry.BridgeWrap)
  | bridgeUnwrap (p : Entry.BridgeUnwrap)
  | bridgeUnlock (p : Entry.BridgeUnlock)
  | oracleFeedCreate (p : Entry.OracleFeedCreate)
  | oracleReport (p : Entry.OracleReport)
  | oracleFeedFinalize (p : Entry.OracleFeedFinalize)
  | sessionListingCreate (p : Entry.SessionListingCreate)
  | sessionListingBuy (p : Entry.SessionListingBuy)
  | sessionListingCancel (p : Entry.SessionListingCancel)
  | agentSessionOpen (p : Entry.AgentSessionOpen)
  | agentSessionClose (p : Entry.AgentSessionClose)
  | vrfCommit (p : Entry.VrfCommit)
  | vrfReveal (p : Entry.VrfReveal)
  | phoneMineSubmit (p : Entry.PhoneMineSubmit)
  | governancePropose (p : Entry.GovernancePropose)
  | governanceVote (p : Entry.GovernanceVote)
  | governanceFinalize (p : Entry.GovernanceFinalize)
  | nameAuctionOpen (p : Entry.NameAuctionOpen)
  | nameAuctionBid (p : Entry.NameAuctionBid)
  | nameAuctionSettle (p : Entry.NameAuctionSettle)
  | nameAuctionCancel (p : Entry.NameAuctionCancel)
  | freeportAuctionOpen (p : Entry.FreeportAuctionOpen)
  | freeportAuctionBid (p : Entry.FreeportAuctionBid)
  | freeportAuctionSettle (p : Entry.FreeportAuctionSettle)
  | privateAuthEnroll (p : Entry.PrivateAuthEnroll)
  | privateAuthApprove (p : Entry.PrivateAuthApprove)
  | memorySet (p : Entry.MemorySet)
  | memoryDelete (p : Entry.MemoryDelete)
  | amberPillMint (p : Entry.AmberPillMint)
  | phoneStorageProof (p : Entry.PhoneStorageProof)
  | fineTuneJobPost (p : Entry.FineTuneJobPost)
  | fineTuneJobComplete (p : Entry.FineTuneJobComplete)
  | computerUseJobPost (p : Entry.ComputerUseJobPost)
  | computerUseJobComplete (p : Entry.ComputerUseJobComplete)
  | blobServeProof (p : Entry.BlobServeProof)
  | snapshotSave (p : Entry.SnapshotSave)
  | identityNftMint (p : Entry.IdentityNftMint)
  | identityNftTransfer (p : Entry.IdentityNftTransfer)
  | identityNftAccept (p : Entry.IdentityNftAccept)
  | identityNftReject (p : Entry.IdentityNftReject)
  | identityNftSetRecovery (p : Entry.IdentityNftSetRecovery)
  | identityNftLock (p : Entry.IdentityNftLock)
  | identityNftUnlock (p : Entry.IdentityNftUnlock)
  | identityNftRecover (p : Entry.IdentityNftRecover)
  | identityNftSetBackstop (p : Entry.IdentityNftSetBackstop)
  | identityNftSetPrimary (p : Entry.IdentityNftSetPrimary)
  | soulboundIssue (p : Entry.SoulboundIssue)
  | soulboundAccept (p : Entry.SoulboundAccept)
  | soulboundReject (p : Entry.SoulboundReject)
  | soulboundRevoke (p : Entry.SoulboundRevoke)

/-- The epoch an entry was made for. -/
def LedgerEntry.epoch : LedgerEntry → ℕ
  | .accountCreate p => p.epoch
  | .accountUpdateKey p => p.epoch
  | .accountSetPrimary p => p.epoch
  | .chainParameterSet p => p.epoch
  | .accountTransfer p => p.epoch
  | .verifyChainLink p => p.epoch
  | .grantExternalSigner p => p.epoch
  | .externalSignerTransfer p => p.epoch
  | .revokeExternalSigner p => p.epoch
  | .setKeyPolicy p => p.epoch
  | .transfer p => p.epoch
  | .stake p => p.epoch
  | .unstake p => p.epoch
  | .nodeRoleOptIn p => p.epoch
  | .nodeRoleOptOut p => p.epoch
  | .nodeRoleStake p => p.epoch
  | .nodeRoleUnstake p => p.epoch
  | .mine p => p.epoch
  | .mineReward p => p.epoch
  | .epochSeal p => p.epoch
  | .epochFinalize p => p.epoch
  | .clockNodeRegister p => p.epoch
  | .clockDoubleSignEvidence p => p.epoch
  | .contractDeploy p => p.epoch
  | .contractCall p => p.epoch
  | .sensorReading p => p.epoch
  | .coverageReport p => p.epoch
  | .inferenceJobPost p => p.epoch
  | .inferenceJobBid p => p.epoch
  | .inferenceJobAward p => p.epoch
  | .inferenceJobComplete p => p.epoch
  | .inferenceVerifyClaim p => p.epoch
  | .inferenceJobCommit p => p.epoch
  | .inferenceJobVerify p => p.epoch
  | .inferenceJobClaim p => p.epoch
  | .inferenceReviewVote p => p.epoch
  | .inferenceJobPay p => p.epoch
  | .inferenceJobCancel p => p.epoch
  | .clockReward p => p.epoch
  | .storageReward p => p.epoch
  | .sensorReward p => p.epoch
  | .verifierReward p => p.epoch
  | .serviceReward p => p.epoch
  | .mempoolReward p => p.epoch
  | .mempoolOperatorRegister p => p.epoch
  | .mempoolHeartbeat p => p.epoch
  | .deviceClaimStake p => p.epoch
  | .deviceClaimUnstake p => p.epoch
  | .blobStore p => p.epoch
  | .storeUpdate p => p.epoch
  | .productCreate p => p.epoch
  | .productUpdate p => p.epoch
  | .orderPlace p => p.epoch
  | .orderFulfill p => p.epoch
  | .orderCancel p => p.epoch
  | .orderDispute p => p.epoch
  | .escrowRelease p => p.epoch
  | .flashSale p => p.epoch
  | .sensorRegister p => p.epoch
  | .sensorKeyRegister p => p.epoch
  | .sensorVouch p => p.epoch
  | .sensorDataCommit p => p.epoch
  | .gatewayRewardSplit p => p.epoch
  | .deviceKeyRegister p => p.epoch
  | .deviceYieldStake p => p.epoch
  | .deviceYieldUnstake p => p.epoch
  | .gatewayHeartbeat p => p.epoch
  | .storageHeartbeat p => p.epoch
  | .hiveReplicaCommit p => p.epoch
  | .hiveReplicaVerify p => p.epoch
  | .serviceHeartbeat p => p.epoch
  | .runtimeRegister p => p.epoch
  | .runtimeDeploy p => p.epoch
  | .runtimeUndeploy p => p.epoch
  | .runtimeJobEnqueue p => p.epoch
  | .runtimeClaim p => p.epoch
  | .runtimeAttest p => p.epoch
  | .runtimeChallenge p => p.epoch
  | .runtimeSlash p => p.epoch
  | .runtimeReward p => p.epoch
  | .sensorDataPurchase p => p.epoch
  | .linkGitRepoCreate p => p.epoch
  | .linkGitRefUpdate p => p.epoch
  | .linkGitAccessGrant p => p.epoch
  | .linkGitAccessRevoke p => p.epoch
  | .linkGitPruneProof p => p.epoch
  | .linkGitStorageExtend p => p.epoch
  | .linkGitServeHeartbeat p => p.epoch
  | .linkGitServeReward p => p.epoch
  | .linkGitBuildReward p => p.epoch
  | .linkGitIssueCreate p => p.epoch
  | .linkGitIssueComment p => p.epoch
  | .linkGitIssueClose p => p.epoch
  | .linkGitIssueReopen p => p.epoch
  | .linkGitPrCreate p => p.epoch
  | .linkGitPrComment p => p.epoch
  | .linkGitPrMerge p => p.epoch
  | .linkGitPrClose p => p.epoch
  | .projectCreate p => p.epoch
  | .projectTask p => p.epoch
  | .taskClaim p => p.epoch
  | .taskSubmit p => p.epoch
  | .taskApprove p => p.epoch
  | .testnetOperatorRegister p => p.epoch
  | .testnetOperatorDeregister p => p.epoch
  | .testnetReward p => p.epoch
  | .trackerSightingCommit p => p.epoch
  | .trackerClaim p => p.epoch
  | .trackerClaimRelease p => p.epoch
  | .trackerAcousticProof p => p.epoch
  | .trackerSubscription p => p.epoch
  | .trackerSightingData p => p.epoch
  | .trackerHint p => p.epoch
  | .trackerLostMode p => p.epoch
  | .trackerFoundReport p => p.epoch
  | .trackerFoundConfirm p => p.epoch
  | .trackerCoverageReward p => p.epoch
  | .genesisAlloc _ => 0
  | .delegationGrant p => p.epoch
  | .delegationRevoke p => p.epoch
  | .deviceYieldOptIn p => p.epoch
  | .deviceYieldOptOut p => p.epoch
  | .spamGateSet p => p.epoch
  | .spamGatePayEvm p => p.epoch
  | .spamGateClear p => p.epoch
  | .tokenApprove p => p.epoch
  | .tokenRevoke p => p.epoch
  | .tokenAccept p => p.epoch
  | .tokenReject p => p.epoch
  | .walletFamilyPublish p => p.epoch
  | .walletFamilyAdd p => p.epoch
  | .accountApiKeySet p => p.epoch
  | .livenessProof p => p.epoch
  | .entropyWitness p => p.epoch
  | .hardwareClaim p => p.epoch
  | .scientificResult p => p.epoch
  | .crossChainFinalityAnnounce p => p.epoch
  | .ensembleJobPost p => p.epoch
  | .ensembleVote p => p.epoch
  | .slashValidator p => p.epoch
  | .slashAppeal p => p.epoch
  | .tonActivationIntent p => p.epoch
  | .tonWalletActivated p => p.epoch
  | .agentCreditDeposit p => p.epoch
  | .agentCreditWithdraw p => p.epoch
  | .agentTaskPost p => p.epoch
  | .agentTaskBid p => p.epoch
  | .agentTaskAssign p => p.epoch
  | .agentTaskSubmit p => p.epoch
  | .agentTaskVerifierCommit p => p.epoch
  | .agentTaskVerifierReveal p => p.epoch
  | .agentTaskSettle p => p.epoch
  | .agentRegister p => p.epoch
  | .agentDeregister p => p.epoch
  | .bridgeFund p => p.epoch
  | .bridgeWrap p => p.epoch
  | .bridgeUnwrap p => p.epoch
  | .bridgeUnlock p => p.epoch
  | .oracleFeedCreate p => p.epoch
  | .oracleReport p => p.epoch
  | .oracleFeedFinalize p => p.epoch
  | .sessionListingCreate p => p.epoch
  | .sessionListingBuy p => p.epoch
  | .sessionListingCancel p => p.epoch
  | .agentSessionOpen p => p.epoch
  | .agentSessionClose p => p.epoch
  | .vrfCommit p => p.epoch
  | .vrfReveal p => p.epoch
  | .phoneMineSubmit p => p.epoch
  | .governancePropose p => p.epoch
  | .governanceVote p => p.epoch
  | .governanceFinalize p => p.epoch
  | .nameAuctionOpen p => p.epoch
  | .nameAuctionBid p => p.epoch
  | .nameAuctionSettle p => p.epoch
  | .nameAuctionCancel p => p.epoch
  | .freeportAuctionOpen p => p.epoch
  | .freeportAuctionBid p => p.epoch
  | .freeportAuctionSettle p => p.epoch
  | .privateAuthEnroll p => p.epoch
  | .privateAuthApprove p => p.epoch
  | .memorySet p => p.epoch
  | .memoryDelete p => p.epoch
  | .amberPillMint p => p.epoch
  | .phoneStorageProof p => p.epoch
  | .fineTuneJobPost p => p.epoch
  | .fineTuneJobComplete p => p.epoch
  | .computerUseJobPost p => p.epoch
  | .computerUseJobComplete p => p.epoch
  | .blobServeProof p => p.epoch
  | .snapshotSave p => p.epoch
  | .identityNftMint p => p.epoch
  | .identityNftTransfer p => p.epoch
  | .identityNftAccept p => p.epoch
  | .identityNftReject p => p.epoch
  | .identityNftSetRecovery p => p.epoch
  | .identityNftLock p => p.epoch
  | .identityNftUnlock p => p.epoch
  | .identityNftRecover p => p.epoch
  | .identityNftSetBackstop p => p.epoch
  | .identityNftSetPrimary p => p.epoch
  | .soulboundIssue p => p.epoch
  | .soulboundAccept p => p.epoch
  | .soulboundReject p => p.epoch
  | .soulboundRevoke p => p.epoch

end HoneNode
