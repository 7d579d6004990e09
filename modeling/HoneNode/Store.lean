import HoneNode.Entry

/-!
# Store — what the node stores

The column families of `store.rs`. Account records, balances, stakes and epoch
meta have a map each. The `meta` column holds everything else under string keys
that start with a literal tag (`"delegation:"`, `"role_stake:"`, ...); a
`Family` is such a tag, and its map is keyed by the rest of the key text, with
names joined by colons exactly as the source joins them. No tag is an initial
part of another, so two families never share a key, while two pairs of names
inside one family can.
-/

namespace HoneNode

/-! ## Records -/

/-- A chain link as kept in the account record; a hard-mode link also keeps the
signature it was verified with. -/
structure ChainLink where
  (commitment mode : String) (sigType signedMessage signature : Option String := none)
deriving DecidableEq, Repr

/-- The JSON account record. `keys` maps a role to a hex public key; a record
without a `keys` object reads as one with no keys. -/
structure Account where
  accountId : String
  createdEpoch : ℕ
  keys : Kv String String := ∅
  chainProofs : Kv String ChainLink := ∅
  keyPolicies : Kv String String := ∅
  primary : Option String := none
  transferredEpoch : Option ℕ := none
  nonce : ℕ := 0
deriving DecidableEq

/-- Finalization meta of one epoch. -/
structure EpochMeta where
  (rewardsHash : String) (quorum : ℕ) (stateRoot : String) (finalizedAt : ℕ)
  (sealedBy : List String)
deriving DecidableEq, Repr

/-- Scoped delegation from one account to another. -/
structure Delegation where
  (from_ to_ : String) (capabilities : List String) (expiresEpoch : ℕ)
deriving DecidableEq, Repr

/-- A delegated external signer. -/
structure ExternalSigner where
  (address : String) (label : Option String) (caps : ExternalSignerCaps) (revoked : Bool)

/-- A transfer parked until the recipient accepts it. -/
structure PendingTransfer where
  (from_ to_ token : String) (amount expiresEpoch : ℕ)
  (evmTxHash : Option String := none) (evmChainId : Option ℕ := none)
deriving DecidableEq, Repr

/-- Stake on its way out, with the epoch of its release. -/
structure Unbonding where
  (account : String) (amount releaseEpoch : ℕ)
deriving DecidableEq, Repr

/-- What a staker has put on a device. -/
structure YieldStake where
  (deviceSerial staker : String) (amount : ℕ)
deriving DecidableEq, Repr

/-- How many may stake on a device. -/
structure YieldConfig where
  (owner : String) (maxStakers : ℕ)

/-- Who holds a device, and at which price. -/
structure DeviceClaim where
  (deviceSerial owner : String) (stake claimedEpoch : ℕ)
deriving DecidableEq, Repr

/-- Backer sharing of a node role; `optedOut` closes it. -/
structure RoleOpt where
  (node role : String) (backerShareBps maxBackers : Option ℕ) (optedOut : Bool) (sinceEpoch : ℕ)

/-- What a backer has on a role. -/
structure RoleStake where
  (node role staker : String) (amount : ℕ) (stakedEpoch : Option ℕ)
deriving DecidableEq, Repr

/-- The fee an account asks of strangers. -/
structure SpamGateRecord where
  (fee : ℕ) (feeToken : String) (evmAddress : Option String) (evmChainId : Option ℕ)
deriving DecidableEq, Repr

/-- A finalized head and its quorum. -/
structure ForkHead where
  (rewardsHash : String) (quorum : ℕ)

/-- Two finalized heads of one epoch, and the one kept. -/
structure ForkEvidence where
  (epoch : ℕ) (headA headB : ForkHead) (winner : String)

/-- What a miner did in an epoch. -/
structure MineRecord where
  (miner : String) (epoch : ℕ) (model : String) (inputTokens outputTokens toolCalls hwTier : ℕ)
  (outputHash : String) (jobId : Option String)

structure GnssFix where
  (lat lon : F64) (epoch : ℕ)

structure CoverageRecord where
  (reporter : String) (epoch : ℕ) (lat lon : F64) (latQ lonQ : ℤ) (signalDbm : Option ℤ)
  (isDeadSpot : Bool) (carrierMccMnc technology dataHash : String)

/-- Who has reported a cell of the map. -/
structure CoverageCell where
  (reporters : List String) (deadSpotCount : ℕ) (corroborated : Bool)

/-- Storage proof of one node in one epoch; a verified Hive replica fills the
optional fields. -/
structure StorageBeat where
  (nodeId : String) (epoch bytesProven queryCount : ℕ) (proofValid : Bool) (tier : ℕ)
  (backend storageDomain : Option String := none)
  (rawBytesVerified replicaCount : Option ℕ := none)
  (lastRefId lastCid lastHiveTxId lastVerifier lastReplicaKind : Option String := none)

/-- A batch of readings, by its hash. -/
structure SensorCommit where
  (sensorId owner : String) (epoch readingCount : ℕ) (sensorType : String)
  (gatewayAccount : Option String := none)

structure Sensor where
  (sensorId owner sensorType : String) (location : Option String) (metadata : Option Json)
  (registeredEpoch : ℕ)

/-- A gateway and its last heartbeat. -/
structure Gateway where
  (gatewayId owner : String) (lastHeartbeatEpoch : ℕ)

/-- A runtime and where it runs. -/
structure RuntimeRecord where
  (runtimeId owner manifestCid runtimeClass nonce : String) (bond : ℕ) (status : String)
  (deployHost : Option String) (createdEpoch : ℕ) (deployedEpoch undeployedEpoch : Option ℕ)
  (updatedEpoch : ℕ) (lastSlashEpoch lastSlashAmount : Option ℕ)

structure RuntimeHost where
  (hostId status : String) (lastDeployEpoch lastClaimEpoch : Option ℕ) (updatedEpoch : ℕ)

/-- A job and its lease. -/
structure RuntimeJob where
  (jobId runtimeId jobClass : String) (dueEpoch : ℕ) (payloadCid : Option String) (fee : ℕ)
  (status enqueuedBy : String) (enqueuedEpoch updatedEpoch : ℕ)
  (leaseId claimedBy attestedBy attestationId : Option String)

/-- A host works on a job until the lease expires. -/
structure RuntimeLease where
  (leaseId runtimeId jobId hostId status : String)
  (claimedEpoch expiresEpoch updatedEpoch : ℕ)

/-- What a host has attested. -/
structure RuntimeAttestation where
  (attestationId runtimeId jobId hostId outputCommitment : String) (epoch : ℕ)

structure RuntimeChallengeRecord where
  (challengeId attestationId runtimeId challenger reason : String)
  (evidenceCid : Option String) (epoch : ℕ)

structure RuntimeSlashRecord where
  (slashId runtimeId hostId : String) (amountRequested amountSlashed : ℕ) (reason : String)
  (epoch : ℕ)

/-- A repository and its owner. -/
structure GitRepo where
  (repoId owner name visibility : String) (hideKey : Option String) (refs : Kv String String)
  (createdEpoch : ℕ)

structure GitComment where
  (commentId body author : String) (epoch : ℕ)

/-- An issue with its comments. -/
structure GitIssue where
  (issueId repoId title body : String) (labels : List String) (author status : String)
  (comments : List GitComment) (createdEpoch updatedEpoch : ℕ) (resolution : Option String)
  (closedEpoch : Option ℕ)

structure GitPr where
  (prId repoId title body sourceBranch targetBranch headCommit author status : String)
  (comments : List GitComment) (createdEpoch updatedEpoch : ℕ) (mergeCommit : Option String)
  (mergedEpoch closedEpoch : Option ℕ)

/-- Registration of a clock node, with the stake the slash can reach. -/
structure ClockReg where
  (nodeId : String) (stake : ℕ) (registeredEpoch slashedEpoch : Option ℕ)
  (pubkey : Option String)

/-- Seals of a clock node over its last epochs. -/
structure Uptime where
  (seals epochs : ℕ)
deriving DecidableEq, Repr

/-- An operator of a test network. -/
structure TestnetOp where
  (mainnetAccount testnetNodeId testnetChainId : String) (registeredEpoch : ℕ)

/-- The hours of a service in an epoch. -/
structure ServiceBeat where
  (nodeId : String) (epoch containerHours : ℕ)

/-- A seat on the board of a job. -/
structure VerifyClaimRecord where
  (jobId verifier : String) (epoch : ℕ)

/-- A mempool operator and its bond. -/
structure MempoolOp where
  (operator : String) (stake registeredEpoch : ℕ)

structure MempoolBeat where
  (operator : String) (epoch latencyMs entriesRelayed : ℕ)

structure WalletAddress where
  (chain address : String) (derivationPath : Option String)

/-- The tags seen in an epoch. -/
structure TrackerSighting where
  (observerId owner : String)
  (airtagCount androidFmdCount tileCount samsungCount otherCount : ℕ)
  (batchHash : String) (epoch : ℕ)

structure TrackerClaimRecord where
  (serialCommitment tagType claimer : String) (fee epoch nonce : ℕ) (status : String)
  (witnessId proofHash : Option String) (verifiedEpoch : Option ℕ) (lostMode : Option Bool)
  (lostSince : Option ℕ)

/-- The prepaid fees of a subscription. -/
structure TrackerSubEscrow where
  (serialCommitment claimer : String)
  (feePerEpoch expiresEpoch startEpoch nonce totalEscrowed : ℕ) (paidOut : ℕ := 0)

structure TrackerRoute where
  (epoch : ℕ) (observerId cid plaintextHash : String)

/-- The bounty for a lost tag. -/
structure TrackerLostEscrow where
  (serialCommitment claimer : String) (bountyHunits expiresEpoch : ℕ)
  (contactEncrypted : Option String) (epoch nonce : ℕ) (status : String)
  (confirmedEpoch : Option ℕ)

/-- A report of a finder. -/
structure TrackerFoundRecord where
  (serialCommitment finder gpsCommitment : String) (acousticProofHash : Option String)
  (epoch nonce : ℕ)

/-- A proposal and its tally. -/
structure Proposal where
  (proposalId proposer title description action : String)
  (actionKey actionValue : Option String) (votingEndsEpoch submittedEpoch yesVotes noVotes : ℕ)
  (status : String) (finalizedEpoch : Option ℕ)

/-- A vote that was counted. -/
structure ProposalVote where
  (approve : Bool) (epoch : ℕ)

structure Project where
  (projectId name description : String) (repo : Option String) (creator : String)
  (createdEpoch : ℕ) (collaborators : List String)

/-- A task and who works on it. -/
structure ProjectTaskRecord where
  (projectId taskId title description taskType : String) (bounty : ℕ) (tags : List String)
  (deadlineEpoch : ℕ) (creator : String) (createdEpoch : ℕ) (status : String)
  (claimant submissionLink submissionNotes : Option String)
  (submittedEpoch approvedEpoch : Option ℕ) (approvedBy : Option String)

structure TonIntent where
  (tonAddress : String) (sourceChain sourceAddress : Option String) (epoch : ℕ)
  (status : String) (txHash relay : Option String) (tonSent feeUsdt usdtReceived : Option ℕ)

/-! ### Marketplace, oracle and session records -/

inductive AuctionKind where
  | name (name : String)
  | freeport (itemType itemId : String)

/-- An auction and its top bid. -/
structure AuctionState where
  (auctionId : String) (kind : AuctionKind) (opener : String) (minBid endEpoch : ℕ)
  (topBidder : Option String) (topBid : ℕ) (prevBidder : Option String) (prevBid : ℕ)
  (settled cancelled : Bool) (openedEpoch : ℕ)

/-- A wrapped token that is waiting for its release. -/
structure UnlockRequest where
  (requestId recipientExternal : String) (amountHunits queuedEpoch : ℕ) (chain : String)
  (fulfilled : Bool)

structure BridgeFundRecord where
  (bridgeId custodian : String) (amountHunits : ℕ) (externalTxHash chain : String) (epoch : ℕ)

structure BridgeWrapRecord where
  (account : String) (amountHunits : ℕ) (externalAddress chain : String) (epoch : ℕ)

/-- A request that was served. -/
structure BridgeUnlockRecord where
  (requestId custodian externalTxHash : String) (epoch : ℕ)

inductive TaskStatus where
  | open | assigned | submitted | verifying | settled | expired | cancelled
deriving DecidableEq, Repr

structure VerifierCommit where
  (verifier commitHash : String) (epoch : ℕ)

structure VerifierReveal where
  (verifier resultHash salt : String)

/-- A task from its posting to its settlement. -/
structure AgentTask where
  (taskId requester description : String) (toolsAllowed : List String)
  (maxFee agreedFee minVerifiers bidWindowEpochs deadlineEpoch postedEpoch : ℕ)
  (status : TaskStatus) (agent resultHash outputCid : Option String)
  (commits : List VerifierCommit) (reveals : List VerifierReveal)

inductive SlashStatus where
  | active | appealed | overturned | upheld
deriving DecidableEq, Repr

structure AppealVote where
  (panelist : String) (overturn : Bool) (epoch : ℕ)

/-- A report and the votes on it. -/
structure SlashRecord where
  (slashId reporter accused evidence violation : String)
  (slashEpoch appealDeadline slashedAmount : ℕ) (status : SlashStatus)
  (appealVotes : List AppealVote)

structure VrfCommitRecord where
  (committer commitHash : String) (revealedSecret : Option String) (depositRefunded : Bool)

/-- The commits of one epoch, and the beacon made of them. -/
structure VrfRound where
  (epoch : ℕ) (commits : List VrfCommitRecord) (beacon : Option String) (finalised : Bool)

structure OracleCommit where
  (reporter commitHash : String) (revealValue : Option ℕ) (revealNonce : Option String)
  (epoch : ℕ)

/-- A feed and the reports of its round. -/
structure OracleFeed where
  (feedId creator assetPair : String) (updateIntervalEpochs createdEpoch : ℕ)
  (lastPrice lastUpdatedEpoch : Option ℕ) (reportDeadline : ℕ) (reports : List OracleCommit)
  (active : Bool)

/-- The score of a reporter. -/
structure ReporterReputation where
  (reporter : String) (score : ℤ) (reportsTotal outliers : ℕ)

/-- The last median of a pair. -/
structure OraclePrice where
  (price epoch : ℕ) (feedId : String)

inductive ListingStatus where
  | active | sold | cancelled | expired
deriving DecidableEq, Repr

/-- A session for sale. -/
structure SessionListing where
  (listingId seller : String) (priceHunits : ℕ) (model summaryHash : String)
  (turnCount createdEpoch expiresEpoch : ℕ) (status : ListingStatus) (buyer : Option String)

inductive SessionStatus where
  | open | closed | expired
deriving DecidableEq, Repr

/-- One message of a session; its tool calls are never filled in. -/
structure SessionTurn where
  (role content : String) (turnNumber : ℕ)
deriving DecidableEq, Repr

/-- A session and its escrow. -/
structure AgentSession where
  (sessionId client clientPubkey serverPubkey model : String)
  (openedEpoch expiresEpoch turnCount feeEscrow : ℕ) (status : SessionStatus)
  (systemPrompt : Option String) (history : List SessionTurn) (summary : Option String)

inductive EnsembleStatus where
  | voting | finalized | cancelled
deriving DecidableEq, Repr

structure EnsembleVoteRecord where
  (worker outputHash : String) (epoch : ℕ)

/-- A job and the votes of its workers. -/
structure EnsembleJob where
  (jobId requester model inputHash : String) (maxFee nWorkers postedEpoch voteDeadline : ℕ)
  (votes : List EnsembleVoteRecord) (status : EnsembleStatus) (winnerOutputHash : Option String)

structure AmberPill where
  (account pillId : String) (mintedEpoch : ℕ)

inductive JobStatus where
  | open | awarded | complete | expired | failed
deriving DecidableEq, Repr

structure FineTuneJob where
  (jobId requester baseModel datasetCid : String) (maxFee : ℕ) (status : JobStatus)
  (postedEpoch : ℕ) (worker adapterCid : Option String) (completedEpoch : Option ℕ)

structure ComputerUseJob where
  (jobId requester taskJson : String) (maxFee : ℕ) (status : JobStatus)
  (postedEpoch : ℕ) (worker resultCid : Option String) (completedEpoch : Option ℕ)

/-- The proofs of a device so far. -/
structure ProofStats where
  (proofs bytesTotal : ℕ)

structure Snapshot where
  (account slug cid : String) (savedEpoch : ℕ)

structure MemberKey where
  (account pubkey : String)

/-- Members, and how many of them it takes. -/
structure AuthGroup where
  (groupId : String) (members : List MemberKey) (thresholdN thresholdM : ℕ)

/-- The approvals of one transaction. -/
structure ApprovalRecord where
  (groupId txHash : String) (approvals : List String) (finalized : Bool)

structure AgentRegistration where
  (account name description : String) (tools : List String) (model : String)
  (minFee registeredEpoch updatedEpoch tasksCompleted tasksVerified : ℕ) (active : Bool)

/-! ### Names, credentials, replicas, inference jobs, contracts -/

/-- Guardians, and where they may move a name. -/
structure Recovery where
  (guardians : List String) (threshold : ℕ) (destination : String) (founderBackstop : Bool)

/-- The token of a name. -/
structure NameNft where
  (name owner : String) (mintedEpoch : ℕ) (transferable : Bool) (recovery : Option Recovery)
  (recoverySeq : ℕ)

/-- A transfer that waits for its receiver. -/
structure PendingOffer where
  (from_ to_ : String) (offeredEpoch : ℕ)

inductive SbtClass where
  | holderScoped | provenance
deriving DecidableEq, Repr

/-- A credential on a name. -/
structure SoulboundToken where
  (tokenId name issuer : String) (class_ : SbtClass) (walletBound : Bool) (data : String)
  (issuedEpoch : ℕ) (accepted revoked stripped : Bool)

/-- A replica that a node has committed to. -/
structure HiveCommit where
  (refId nodeId cid hiveAccount customJsonId : String) (hiveBlockNum : ℕ) (hiveTxId : String)
  (opIndex : ℕ) (payloadSha256 merkleRoot : String) (bytesReplicated : ℕ) (replicaKind : String)
  (confirmations epoch : ℕ)

inductive InferenceStatus where
  | posted | awarded | completed | verified | disputed | claimed | reviewed | paid | rejected
  | noFee | cancelled | expired
deriving DecidableEq, Repr

/-- A job from its posting to its payment. -/
structure InferenceJob where
  (jobId requester model mode inputHash : String)
  (maxFee minReputation bidWindowEpochs deadlineEpoch postedEpoch : ℕ)
  (status : InferenceStatus) (winner : Option String) (awardedFee : Option ℕ)
  (verifiers : List String) (resultHash : Option String)
  (latencyMs disputedEpoch claimedEpoch settledEpoch completedEpoch : Option ℕ)
  (persistOnFs : Bool) (verdicts commits : List (String × String)) (minVerifiers : ℕ)
  (nodeFingerprint : Option String)

/-- A bid of a worker or verifier. -/
structure InferenceBid where
  (jobId bidder : String) (fee : ℕ) (role : String) (epoch : ℕ)

/-- The vote of a reviewer on a claim. -/
structure ReviewVote where
  (reviewer : String) (approved : Bool) (epoch : ℕ)

/-- How a worker has done so far. -/
structure NodeReputation where
  (nodeId : String) (jobsAccepted jobsCompleted jobsFailed totalLatencyMs : ℕ := 0)
  (score : ℕ := 5000)

structure VerifierReputation where
  (total approvedCount : ℕ) (weightHalved : Bool) (suspendedUntil : ℕ)

/-- The verdicts a verifier gave in an epoch. -/
structure VerifyTally where
  (verifier : String) (epoch count valueScoreTotal : ℕ)

/-- A fee that was paid. -/
structure FeeFlow where
  (from_ to_ : String) (amount : ℕ)

/-- Raw bytes, for values the ledger never looks into. -/
abbrev Bytes := List UInt8

/-! ## Families of meta keys -/

/-- The literal tags that meta keys start with. -/
inductive Family where
  | alive | chainParam | pendingParam | delegation | externalSigner | externalSignerNonce
  | externalSignerSpent | pendingTransfer | unbonding | yieldStake | yieldConfig | roleOpt
  | roleStake | deviceClaim | spamGate | tokenApproval | forkEvidence | epochNodeSeal
  | epochSealHash | clockReg | clockNode | clockStake | dblSlash | mine | sensor | sensorCommit
  | sensorLastGnss | coverageReport | coverageCell | coverageReporterCount | gateway
  | storageBeat | serviceBeat | mempoolOp | mempoolBeat | testnetOp | verifyClaim | runtime
  | runtimeHost | runtimeJob | runtimeLease | runtimeAttest | runtimeChallenge | runtimeSlash
  | linkGitRepo | linkGitByName | linkGitBuild | linkGitBuilders | linkGitAccess
  | linkGitServeDedup | linkGitServeCount | linkGitServedRepos | linkGitIssue | linkGitIssues
  | linkGitPr | linkGitPrs | trackerSighting | trackerClaim | trackerSubEscrow | trackerRoute
  | trackerLostEscrow | trackerFoundReport | walletFamily | walletAddr | apiKey | accountApiKey
  | hwClaim | hwAccount | sciResult | ccFinality | tonIntent | proposal | proposalVote | project
  | projectTask | phoneProofs | phoneLastReward | phoneWorkUsed | auction | nameAuctionActive
  | nameOwner | accountName | freeportOwner | bridgeFundTx | bridgeFund | bridgeWrap
  | bridgeUnlock | bridgeSupply | bridgeUnlockQueue | agentCredit | agentTask | agentTaskBid
  | agentRegistry | agentSession | serverPubkey | sessionListing | ensembleJob | slash
  | vrfLatestBeacon | vrfRound | oracleFeed | oraclePrice | oracleRep | privateAuthGroup
  | privateAuthApproval | memory | amberPill | amberPillId | phoneStoreProofUsed
  | phoneStoreStats | blobProofUsed | blobServeStats | blobServeBw | fineTuneJob
  | fineTuneEscrow | computerUseJob | computerUseEscrow | snapshot | nameNft | nameHeld
  | namePending | identityCount | sbt | sbtPending | sbtOn | hiveReplicaCommit
  | hiveReplicaRewarded | inferJob | inferBid | inferVotes | inferVerify | nodeRep | verifierRep
  | activeVerifierCount | epochEntropy | mineQueue | pruneReady | feeFlow | contract | wasm
  | clockUptime | emaCriticalMass | layerA | epochFinalizedDone | inferInput | job
deriving DecidableEq, Repr

/-- The tag itself, as it stands in the stored key. -/
def Family.tag : Family → String
  | .alive => "alive:"
  | .chainParam => "chain_param:"
  | .pendingParam => "pending_param:"
  | .delegation => "delegation:"
  | .externalSigner => "external_signer:"
  | .externalSignerNonce => "external_signer_nonce:"
  | .externalSignerSpent => "external_signer_spent:"
  | .pendingTransfer => "pending_transfer:"
  | .unbonding => "unbonding:"
  | .yieldStake => "yield_stake:"
  | .yieldConfig => "yield_config:"
  | .roleOpt => "role_opt:"
  | .roleStake => "role_stake:"
  | .deviceClaim => "device_claim:"
  | .spamGate => "spam_gate:"
  | .tokenApproval => "token_approval:"
  | .forkEvidence => "fork_evidence:"
  | .epochNodeSeal => "epoch_node_seal:"
  | .epochSealHash => "epoch_seal_hash:"
  | .clockReg => "clock_reg:"
  | .clockNode => "clock_node:"
  | .clockStake => "clock_stake:"
  | .dblSlash => "dbl_slash:"
  | .mine => "mine:"
  | .sensor => "sensor:"
  | .sensorCommit => "sensor_commit:"
  | .sensorLastGnss => "sensor_last_gnss:"
  | .coverageReport => "coverage_report:"
  | .coverageCell => "coverage_cell:"
  | .coverageReporterCount => "coverage_reporter_count:"
  | .gateway => "gateway:"
  | .storageBeat => "storage_beat:"
  | .serviceBeat => "service_beat:"
  | .mempoolOp => "mempool_op:"
  | .mempoolBeat => "mempool_beat:"
  | .testnetOp => "testnet_op:"
  | .verifyClaim => "verify_claim:"
  | .runtime => "runtime:"
  | .runtimeHost => "runtime_host:"
  | .runtimeJob => "runtime_job:"
  | .runtimeLease => "runtime_lease:"
  | .runtimeAttest => "runtime_attest:"
  | .runtimeChallenge => "runtime_challenge:"
  | .runtimeSlash => "runtime_slash:"
  | .linkGitRepo => "linkgit:repo:"
  | .linkGitByName => "linkgit:byname:"
  | .linkGitBuild => "linkgit:build:"
  | .linkGitBuilders => "linkgit:builders:"
  | .linkGitAccess => "linkgit:access:"
  | .linkGitServeDedup => "linkgit:serve_dedup:"
  | .linkGitServeCount => "linkgit:serve_count:"
  | .linkGitServedRepos => "linkgit:served_repos:"
  | .linkGitIssue => "linkgit:issue:"
  | .linkGitIssues => "linkgit:issues:"
  | .linkGitPr => "linkgit:pr:"
  | .linkGitPrs => "linkgit:prs:"
  | .trackerSighting => "tracker_sighting:"
  | .trackerClaim => "tracker_claim:"
  | .trackerSubEscrow => "tracker_sub_escrow:"
  | .trackerRoute => "tracker_route:"
  | .trackerLostEscrow => "tracker_lost_escrow:"
  | .trackerFoundReport => "tracker_found_report:"
  | .walletFamily => "wallet_family:"
  | .walletAddr => "wallet_addr:"
  | .apiKey => "api_key:"
  | .accountApiKey => "account_api_key:"
  | .hwClaim => "hw_claim:"
  | .hwAccount => "hw_account:"
  | .sciResult => "sci_result:"
  | .ccFinality => "cc_finality:"
  | .tonIntent => "ton_activation_intent:"
  | .proposal => "governance:proposal:"
  | .proposalVote => "governance:vote:"
  | .project => "project:"
  | .projectTask => "project_task:"
  | .phoneProofs => "phone_proofs:"
  | .phoneLastReward => "phone_last_reward:"
  | .phoneWorkUsed => "phone_work_used:"
  | .auction => "auction:"
  | .nameAuctionActive => "name_auction_active:"
  | .nameOwner => "name_owner:"
  | .accountName => "account_name:"
  | .freeportOwner => "freeport_owner:"
  | .bridgeFundTx => "bridge_fund_tx:"
  | .bridgeFund => "bridge_fund:"
  | .bridgeWrap => "bridge_wrap:"
  | .bridgeUnlock => "bridge_unlock:"
  | .bridgeSupply => "bridge_whone_supply"
  | .bridgeUnlockQueue => "bridge_unlock_queue"
  | .agentCredit => "agent_credit:"
  | .agentTask => "agent_task:"
  | .agentTaskBid => "agent_task_bid:"
  | .agentRegistry => "agent_registry:"
  | .agentSession => "agent_session:"
  | .serverPubkey => "node:server_pubkey"
  | .sessionListing => "session_listing:"
  | .ensembleJob => "ensemble_job:"
  | .slash => "slash:"
  | .vrfLatestBeacon => "vrf:latest_beacon"
  | .vrfRound => "vrf_round:"
  | .oracleFeed => "oracle_feed:"
  | .oraclePrice => "oracle_price:"
  | .oracleRep => "oracle_rep:"
  | .privateAuthGroup => "private_auth_group:"
  | .privateAuthApproval => "private_auth_approval:"
  | .memory => "memory:"
  | .amberPill => "amber_pill:"
  | .amberPillId => "amber_pill_id:"
  | .phoneStoreProofUsed => "phone_store_proof_used:"
  | .phoneStoreStats => "phone_store_stats:"
  | .blobProofUsed => "blob_proof_used:"
  | .blobServeStats => "blob_serve_stats:"
  | .blobServeBw => "blob_serve_bw:"
  | .fineTuneJob => "finetune_job:"
  | .fineTuneEscrow => "finetune_escrow:"
  | .computerUseJob => "computer_use_job:"
  | .computerUseEscrow => "computer_use_escrow:"
  | .snapshot => "snapshot:"
  | .nameNft => "name_nft:"
  | .nameHeld => "name_held:"
  | .namePending => "name_pending:"
  | .identityCount => "identity_registered_count"
  | .sbt => "sbt:"
  | .sbtPending => "sbt_pending:"
  | .sbtOn => "sbt_on:"
  | .hiveReplicaCommit => "hive_replica_commit:"
  | .hiveReplicaRewarded => "hive_replica_rewarded:"
  | .inferJob => "infer_job:"
  | .inferBid => "infer_bid:"
  | .inferVotes => "infer_votes:"
  | .inferVerify => "infer_verify:"
  | .nodeRep => "node_rep:"
  | .verifierRep => "verifier_rep:"
  | .activeVerifierCount => "active_verifier_count"
  | .epochEntropy => "epoch_entropy:"
  | .mineQueue => "mine_queue:"
  | .pruneReady => "prune_ready:"
  | .feeFlow => "fee_flow:"
  | .contract => "contract:"
  | .wasm => "wasm:"
  | .clockUptime => "clock_uptime:"
  | .emaCriticalMass => "ema_critical_mass:"
  | .layerA => "layer_a:"
  | .epochFinalizedDone => "epoch_finalized_done:"
  | .inferInput => "infer_input:"
  | .job => "job:"

/-- What is stored under the keys of a family. -/
@[reducible] def Family.Val : Family → Type
  | .alive | .externalSignerSpent | .clockStake | .coverageReporterCount | .linkGitBuild
  | .linkGitServeCount | .phoneProofs | .phoneLastReward | .phoneWorkUsed | .bridgeFundTx
  | .bridgeSupply | .agentCredit | .agentTaskBid | .phoneStoreProofUsed | .blobProofUsed
  | .blobServeBw | .fineTuneEscrow | .computerUseEscrow | .identityCount
  | .activeVerifierCount | .emaCriticalMass | .layerA => ℕ
  | .chainParam | .pendingParam | .epochNodeSeal | .epochSealHash | .linkGitByName
  | .linkGitAccess | .walletAddr | .apiKey | .accountApiKey | .hwClaim | .hwAccount
  | .nameAuctionActive | .nameOwner | .accountName | .freeportOwner | .serverPubkey
  | .memory | .amberPillId | .hiveReplicaRewarded | .epochEntropy | .mineQueue
  | .pruneReady | .inferInput => String
  | .delegation => Delegation
  | .externalSigner => ExternalSigner
  | .externalSignerNonce | .tokenApproval | .clockNode | .dblSlash | .linkGitServeDedup
  | .nameHeld | .sbtPending | .sbtOn | .epochFinalizedDone => Unit
  | .pendingTransfer => PendingTransfer
  | .unbonding => Unbonding
  | .yieldStake => YieldStake
  | .yieldConfig => YieldConfig
  | .roleOpt => RoleOpt
  | .roleStake => RoleStake
  | .deviceClaim => DeviceClaim
  | .spamGate => SpamGateRecord
  | .forkEvidence => ForkEvidence
  | .clockReg => ClockReg
  | .mine => MineRecord
  | .sensor => Sensor
  | .sensorCommit => SensorCommit
  | .sensorLastGnss => GnssFix
  | .coverageReport => CoverageRecord
  | .coverageCell => CoverageCell
  | .gateway => Gateway
  | .storageBeat => StorageBeat
  | .serviceBeat => ServiceBeat
  | .mempoolOp => MempoolOp
  | .mempoolBeat => MempoolBeat
  | .testnetOp => TestnetOp
  | .verifyClaim => VerifyClaimRecord
  | .runtime => RuntimeRecord
  | .runtimeHost => RuntimeHost
  | .runtimeJob => RuntimeJob
  | .runtimeLease => RuntimeLease
  | .runtimeAttest => RuntimeAttestation
  | .runtimeChallenge => RuntimeChallengeRecord
  | .runtimeSlash => RuntimeSlashRecord
  | .linkGitRepo => GitRepo
  | .linkGitBuilders | .linkGitServedRepos | .linkGitIssues | .linkGitPrs => List String
  | .linkGitIssue => GitIssue
  | .linkGitPr => GitPr
  | .trackerSighting => TrackerSighting
  | .trackerClaim => TrackerClaimRecord
  | .trackerSubEscrow => TrackerSubEscrow
  | .trackerRoute => TrackerRoute
  | .trackerLostEscrow => TrackerLostEscrow
  | .trackerFoundReport => TrackerFoundRecord
  | .walletFamily => List WalletAddress
  | .sciResult => Entry.ScientificResult
  | .ccFinality => Entry.CrossChainFinalityAnnounce
  | .tonIntent => TonIntent
  | .proposal => Proposal
  | .proposalVote => ProposalVote
  | .project => Project
  | .projectTask => ProjectTaskRecord
  | .auction => AuctionState
  | .bridgeFund => BridgeFundRecord
  | .bridgeWrap => BridgeWrapRecord
  | .bridgeUnlock => BridgeUnlockRecord
  | .bridgeUnlockQueue => List UnlockRequest
  | .agentTask => AgentTask
  | .agentRegistry => AgentRegistration
  | .agentSession => AgentSession
  | .sessionListing => SessionListing
  | .ensembleJob => EnsembleJob
  | .slash => SlashRecord
  | .vrfLatestBeacon => String × ℕ
  | .vrfRound => VrfRound
  | .oracleFeed => OracleFeed
  | .oraclePrice => OraclePrice
  | .oracleRep => ReporterReputation
  | .privateAuthGroup => AuthGroup
  | .privateAuthApproval => ApprovalRecord
  | .amberPill => AmberPill
  | .phoneStoreStats | .blobServeStats => ProofStats
  | .fineTuneJob => FineTuneJob
  | .computerUseJob => ComputerUseJob
  | .snapshot => Snapshot
  | .nameNft => NameNft
  | .namePending => PendingOffer
  | .sbt => SoulboundToken
  | .hiveReplicaCommit => HiveCommit
  | .inferJob => InferenceJob
  | .inferBid => InferenceBid
  | .inferVotes => List ReviewVote
  | .inferVerify => VerifyTally
  | .nodeRep => NodeReputation
  | .verifierRep => VerifierReputation
  | .feeFlow => FeeFlow
  | .contract | .wasm => Bytes
  | .clockUptime => Uptime
  | .job => Json

/-! ## The chain -/

/-- Everything `apply_entry` and `validate_and_apply` read and write. -/
structure Chain where
  accounts : Kv String Account := ∅
  balances : Kv String ℕ := ∅
  stakes : Kv String ℕ := ∅
  epochs : Kv ℕ EpochMeta := ∅
  state : (f : Family) → Kv String f.Val := fun _ => ∅
  currentEpoch : ℕ := 0

/-- A row of the balances column is keyed by account and token around a NUL. -/
def balanceKey (account token : String) : String := account ++ "\x00" ++ token

namespace Chain

variable (s : Chain)

def getAccount (account : String) : Option Account := s.accounts.get account

/-- `0` without a row. -/
def getBalance (account token : String) : ℕ :=
  (s.balances.get (balanceKey account token)).getD 0

def getStake (account : String) : ℕ := (s.stakes.get account).getD 0

def stateGet (f : Family) (key : String) : Option f.Val := (s.state f).get key

/-- A chain parameter as text. -/
def param (key : String) : Option String := s.stateGet .chainParam key

end Chain

end HoneNode
