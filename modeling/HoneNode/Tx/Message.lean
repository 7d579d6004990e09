import HoneNode.Env

/-!
# Tx.Message — what a client signs

The canonical signing message (`canonical_signing_message`): the chain id, the
type and the fields the client chooses, as JSON. The epoch is set by the server
and stays out; so does the nonce of the key rotations. Entries without an arm of
their own are signed whole.
-/

namespace HoneNode.Tx

/-! ## Fields as JSON -/

def optStr (o : Option String) : Json := o.elim .null .str

def optNum (o : Option ℕ) : Json := o.elim .null fun n => .num n

def optBool (o : Option Bool) : Json := o.elim .null .bool

def strs (l : List String) : Json := .arr (l.map .str)

def strMap (m : Kv String String) : Json := .obj (m.bindings.map fun b => (b.1, .str b.2))

/-- An address of a family as JSON. -/
def walletAddress (a : ChainAddress) : Json :=
  .obj [("address", .str a.address), ("chain", .str a.chain),
    ("derivation_path", optStr a.derivationPath), ("signature", optStr a.signature)]

def proofJson (c : ChainProof) : Json :=
  .obj [("chain", .str c.chain), ("commitment", .str c.commitment), ("mode", .str c.mode)]

/-! ## The message -/

/-- The message of a type, with the fields that its clients choose. -/
def signing (env : Env) (type : String) (fields : List (String × Json)) : String :=
  env.printJson (.obj (("chain_id", .str env.chainId) :: ("type", .str type) :: fields))

/-- By type; the fields come in the order of the source. -/
def canonicalSigningMessage (env : Env) : LedgerEntry → String
  | .accountCreate p => signing env "ACCOUNT_CREATE"
    [("account", .str p.account), ("keys", strMap p.keys),
      ("chain_proofs", .arr ((p.chainProofs.mergeSort fun a b => a.chain ≤ b.chain).map proofJson)),
      ("funded_by", optStr p.fundedBy)]
  | .walletFamilyPublish p => signing env "WALLET_FAMILY_PUBLISH"
    [("account", .str p.account), ("chains", .arr (p.chains.map walletAddress)),
      ("nonce", .num p.nonce)]
  | .walletFamilyAdd p => signing env "WALLET_FAMILY_ADD"
    [("account", .str p.account), ("chains", .arr (p.chains.map walletAddress)),
      ("nonce", .num p.nonce)]
  | .accountApiKeySet p => signing env "ACCOUNT_API_KEY_SET"
    [("account", .str p.account), ("api_key", .str p.apiKey), ("nonce", .num p.nonce)]
  | .transfer p => signing env "TRANSFER"
    [("from", .str p.from_), ("to", .str p.to_), ("amount", .num p.amount),
      ("token", .str p.token), ("nonce", .num p.nonce)]
  | .stake p => signing env "STAKE"
    [("account", .str p.account), ("amount", .num p.amount), ("nonce", .num p.nonce)]
  | .unstake p => signing env "UNSTAKE"
    [("account", .str p.account), ("amount", .num p.amount), ("nonce", .num p.nonce)]
  | .sensorReading p => signing env "SENSOR_READING"
    [("sensor_id", .str p.sensorId), ("owner", .str p.owner), ("value", .float p.value),
      ("data_hash", .str p.dataHash), ("signed_by", .str p.signedBy)]
  | .sensorRegister p => signing env "SENSOR_REGISTER"
    [("sensor_id", .str p.sensorId), ("owner", .str p.owner), ("sensor_type", .str p.sensorType),
      ("location", optStr p.location), ("signed_by", .str p.signedBy)]
  | .gatewayHeartbeat p => signing env "GATEWAY_HEARTBEAT"
    [("gateway_id", .str p.gatewayId), ("owner", .str p.owner), ("signed_by", .str p.signedBy)]
  | .trackerClaim p => signing env "TRACKER_CLAIM"
    [("serial_commitment", .str p.serialCommitment), ("tag_type", .str p.tagType),
      ("claimer", .str p.claimer), ("fee", .num p.fee), ("nonce", .num p.nonce)]
  | .trackerSubscription p => signing env "TRACKER_SUBSCRIPTION"
    [("serial_commitment", .str p.serialCommitment), ("claimer", .str p.claimer),
      ("fee_per_epoch", .num p.feePerEpoch), ("expires_epoch", .num p.expiresEpoch),
      ("nonce", .num p.nonce)]
  | .trackerLostMode p => signing env "TRACKER_LOST_MODE"
    [("serial_commitment", .str p.serialCommitment), ("claimer", .str p.claimer),
      ("bounty_hunits", .num p.bountyHunits), ("expires_epoch", .num p.expiresEpoch),
      ("contact_encrypted", optStr p.contactEncrypted), ("nonce", .num p.nonce)]
  | .trackerFoundConfirm p => signing env "TRACKER_FOUND_CONFIRM"
    [("serial_commitment", .str p.serialCommitment), ("finder", .str p.finder),
      ("claimer", .str p.claimer), ("nonce", .num p.nonce)]
  | .trackerClaimRelease p => signing env "TRACKER_CLAIM_RELEASE"
    [("serial_commitment", .str p.serialCommitment), ("claimer", .str p.claimer),
      ("nonce", .num p.nonce)]
  | .trackerAcousticProof p => signing env "TRACKER_ACOUSTIC_PROOF"
    [("serial_commitment", .str p.serialCommitment), ("witness_id", .str p.witnessId),
      ("proof_hash", .str p.proofHash), ("claimer", .str p.claimer),
      ("signed_by", .str p.signedBy)]
  | .trackerFoundReport p => signing env "TRACKER_FOUND_REPORT"
    [("serial_commitment", .str p.serialCommitment), ("finder", .str p.finder),
      ("gps_commitment", .str p.gpsCommitment),
      ("acoustic_proof_hash", optStr p.acousticProofHash), ("nonce", .num p.nonce)]
  | .deviceYieldUnstake p => signing env "DEVICE_YIELD_UNSTAKE"
    [("device_serial", .str p.deviceSerial), ("staker", .str p.staker),
      ("amount", .num p.amount), ("nonce", .num p.nonce)]
  | .sensorDataCommit p => signing env "SENSOR_DATA_COMMIT"
    [("sensor_id", .str p.sensorId), ("owner", .str p.owner), ("batch_hash", .str p.batchHash),
      ("reading_count", .num p.readingCount), ("sensor_type", .str p.sensorType),
      ("signed_by", .str p.signedBy)]
  | .storageHeartbeat p => signing env "STORAGE_HEARTBEAT"
    [("node_id", .str p.nodeId), ("bytes_proven", .num p.bytesProven),
      ("query_count", .num p.queryCount), ("signed_by", .str p.signedBy)]
  | .storeUpdate p => signing env "STORE_UPDATE"
    [("seller", .str p.seller), ("store_id", .str p.storeId), ("name", optStr p.name),
      ("description", optStr p.description), ("onion_address", optStr p.onionAddress),
      ("signed_by", .str p.signedBy)]
  | .productCreate p => signing env "PRODUCT_CREATE"
    [("seller", .str p.seller), ("product_id", .str p.productId), ("store_id", .str p.storeId),
      ("title", .str p.title), ("price", .num p.price), ("token", .str p.token),
      ("product_type", .str p.productType), ("signed_by", .str p.signedBy)]
  | .productUpdate p => signing env "PRODUCT_UPDATE"
    [("seller", .str p.seller), ("product_id", .str p.productId), ("price", optNum p.price),
      ("stock", optNum p.stock), ("active", optBool p.active), ("signed_by", .str p.signedBy)]
  | .flashSale p => signing env "FLASH_SALE"
    [("seller", .str p.seller), ("product_id", .str p.productId),
      ("sale_price", .num p.salePrice), ("expires_epoch", .num p.expiresEpoch),
      ("signed_by", .str p.signedBy)]
  | .deviceKeyRegister p => signing env "DEVICE_KEY_REGISTER"
    [("device_id", .str p.deviceId), ("owner", .str p.owner),
      ("device_pubkey", .str p.devicePubkey), ("hardware_hash", optStr p.hardwareHash),
      ("signed_by", .str p.signedBy)]
  | .sensorKeyRegister p => signing env "SENSOR_KEY_REGISTER"
    [("sensor_id", .str p.sensorId), ("owner", .str p.owner),
      ("device_pubkey", .str p.devicePubkey), ("signed_by", .str p.signedBy)]
  | .sensorVouch p => signing env "SENSOR_VOUCH"
    [("sensor_id", .str p.sensorId), ("voucher", .str p.voucher), ("signed_by", .str p.signedBy)]
  | .linkGitRepoCreate p => signing env "LINKGIT_REPO_CREATE"
    [("repo_id", .str p.repoId), ("owner", .str p.owner), ("name", .str p.name),
      ("visibility", .str p.visibility), ("signed_by", .str p.signedBy)]
  | .linkGitRefUpdate p => signing env "LINKGIT_REF_UPDATE"
    [("repo_id", .str p.repoId), ("owner", .str p.owner), ("ref_name", .str p.refName),
      ("commit_hash", .str p.commitHash), ("prev_hash", optStr p.prevHash),
      ("signed_by", .str p.signedBy)]
  | .linkGitStorageExtend p => signing env "LINKGIT_STORAGE_EXTEND"
    [("repo_id", .str p.repoId), ("owner", .str p.owner), ("cids", strs p.cids),
      ("keep_until_epoch", .num p.keepUntilEpoch), ("fee", .num p.fee),
      ("signed_by", .str p.signedBy)]
  | .linkGitAccessGrant p => signing env "LINKGIT_ACCESS_GRANT"
    [("repo_id", .str p.repoId), ("grantor", .str p.grantor), ("grantee", .str p.grantee),
      ("encrypted_key", .str p.encryptedKey), ("signed_by", .str p.signedBy)]
  | .linkGitAccessRevoke p => signing env "LINKGIT_ACCESS_REVOKE"
    [("repo_id", .str p.repoId), ("grantor", .str p.grantor), ("grantee", .str p.grantee),
      ("signed_by", .str p.signedBy)]
  | .linkGitPruneProof p => signing env "LINKGIT_PRUNE_PROOF"
    [("repo_id", .str p.repoId), ("node_id", .str p.nodeId), ("pruned_root", .str p.prunedRoot),
      ("bytes_freed", .num p.bytesFreed), ("signed_by", .str p.signedBy)]
  | .linkGitPrMerge p => signing env "LINKGIT_PR_MERGE"
    [("repo_id", .str p.repoId), ("pr_id", .str p.prId), ("merge_commit", .str p.mergeCommit),
      ("actor", .str p.actor), ("signed_by", .str p.signedBy)]
  | .linkGitPrClose p => signing env "LINKGIT_PR_CLOSE"
    [("repo_id", .str p.repoId), ("pr_id", .str p.prId), ("actor", .str p.actor),
      ("signed_by", .str p.signedBy)]
  | .linkGitIssueClose p => signing env "LINKGIT_ISSUE_CLOSE"
    [("repo_id", .str p.repoId), ("issue_id", .str p.issueId), ("actor", .str p.actor),
      ("resolution", optStr p.resolution), ("signed_by", .str p.signedBy)]
  | .linkGitIssueReopen p => signing env "LINKGIT_ISSUE_REOPEN"
    [("repo_id", .str p.repoId), ("issue_id", .str p.issueId), ("actor", .str p.actor),
      ("signed_by", .str p.signedBy)]
  | .linkGitIssueCreate p => signing env "LINKGIT_ISSUE_CREATE"
    [("repo_id", .str p.repoId), ("issue_id", .str p.issueId), ("title", .str p.title),
      ("body", .str p.body), ("author", .str p.author), ("signed_by", .str p.signedBy)]
  | .linkGitIssueComment p => signing env "LINKGIT_ISSUE_COMMENT"
    [("repo_id", .str p.repoId), ("issue_id", .str p.issueId), ("comment_id", .str p.commentId),
      ("body", .str p.body), ("author", .str p.author), ("signed_by", .str p.signedBy)]
  | .linkGitPrCreate p => signing env "LINKGIT_PR_CREATE"
    [("repo_id", .str p.repoId), ("pr_id", .str p.prId), ("title", .str p.title),
      ("source_branch", .str p.sourceBranch), ("target_branch", .str p.targetBranch),
      ("head_commit", .str p.headCommit), ("author", .str p.author),
      ("signed_by", .str p.signedBy)]
  | .linkGitPrComment p => signing env "LINKGIT_PR_COMMENT"
    [("repo_id", .str p.repoId), ("pr_id", .str p.prId), ("comment_id", .str p.commentId),
      ("body", .str p.body), ("author", .str p.author), ("signed_by", .str p.signedBy)]
  | .accountUpdateKey p => signing env "ACCOUNT_UPDATE_KEY"
    [("account", .str p.account), ("role", .str p.role), ("new_public_key", .str p.newPublicKey)]
  | .accountSetPrimary p => signing env "ACCOUNT_SET_PRIMARY"
    [("account", .str p.account), ("primary", .str p.primary)]
  | .chainParameterSet p => signing env "CHAIN_PARAMETER_SET"
    [("key", .str p.key), ("value", .str p.value)]
  | .accountTransfer p => signing env "ACCOUNT_TRANSFER"
    [("account", .str p.account), ("new_keys", strMap p.newKeys), ("nonce", .num p.nonce)]
  | .inferenceJobPost p => signing env "INFERENCE_JOB_POST"
    [("requester", .str p.requester), ("model", .str p.model), ("max_fee", .num p.maxFee),
      ("nonce", .num p.nonce)]
  | .inferenceJobBid p => signing env "INFERENCE_JOB_BID"
    [("bidder", .str p.bidder), ("job_id", .str p.jobId), ("fee", .num p.fee),
      ("role", .str p.role), ("nonce", .num p.nonce)]
  | .inferenceJobComplete p => signing env "INFERENCE_JOB_COMPLETE"
    [("worker", .str p.worker), ("job_id", .str p.jobId), ("result_hash", .str p.resultHash)]
  | .inferenceJobCancel p => signing env "INFERENCE_JOB_CANCEL"
    [("cancelled_by", .str p.cancelledBy), ("job_id", .str p.jobId), ("nonce", .num p.nonce)]
  | .coverageReport p => signing env "COVERAGE_REPORT"
    [("reporter", .str p.reporter), ("lat", .float p.lat), ("lon", .float p.lon),
      ("carrier_mcc_mnc", .str p.carrierMccMnc), ("data_hash", .str p.dataHash)]
  | .inferenceJobCommit p => signing env "INFERENCE_JOB_COMMIT"
    [("verifier", .str p.verifier), ("job_id", .str p.jobId), ("commit_hash", .str p.commitHash)]
  | .inferenceJobVerify p => signing env "INFERENCE_JOB_VERIFY"
    [("verifier", .str p.verifier), ("job_id", .str p.jobId), ("verdict", .str p.verdict)]
  | .inferenceJobClaim p => signing env "INFERENCE_JOB_CLAIM"
    [("claimant", .str p.claimant), ("job_id", .str p.jobId), ("nonce", .num p.nonce)]
  | .inferenceReviewVote p => signing env "INFERENCE_REVIEW_VOTE"
    [("reviewer", .str p.reviewer), ("job_id", .str p.jobId), ("approved", .bool p.approved)]
  | .nodeRoleOptIn p => signing env "NODE_ROLE_OPT_IN"
    [("node", .str p.node), ("role", .str p.role), ("backer_share_bps", .num p.backerShareBps),
      ("max_backers", .num p.maxBackers), ("nonce", .num p.nonce)]
  | .nodeRoleOptOut p => signing env "NODE_ROLE_OPT_OUT"
    [("node", .str p.node), ("role", .str p.role), ("nonce", .num p.nonce)]
  | .nodeRoleStake p => signing env "NODE_ROLE_STAKE"
    [("node", .str p.node), ("role", .str p.role), ("staker", .str p.staker),
      ("amount", .num p.amount), ("nonce", .num p.nonce)]
  | .nodeRoleUnstake p => signing env "NODE_ROLE_UNSTAKE"
    [("node", .str p.node), ("role", .str p.role), ("staker", .str p.staker),
      ("amount", .num p.amount), ("nonce", .num p.nonce)]
  | .contractDeploy p => signing env "CONTRACT_DEPLOY"
    [("deployer", .str p.deployer), ("wasm_b64", .str p.wasmB64),
      ("init_method", optStr p.initMethod),
      ("init_args", optStr (p.initArgs.map env.printJson)),
      ("gas", .num p.gas), ("nonce", .num p.nonce)]
  | .contractCall p => signing env "CONTRACT_CALL"
    [("signer", .str p.signer), ("contract_id", .str p.contractId), ("method", .str p.method),
      ("args", .str (env.printJson p.args)), ("deposit", .num p.deposit),
      ("gas", .num p.gas), ("nonce", .num p.nonce)]
  | .identityNftMint p => signing env "IDENTITY_NFT_MINT"
    [("name", .str p.name), ("to", .str p.to_), ("nonce", .num p.nonce)]
  | .identityNftTransfer p => signing env "IDENTITY_NFT_TRANSFER"
    [("name", .str p.name), ("from", .str p.from_), ("to", .str p.to_), ("nonce", .num p.nonce)]
  | .identityNftAccept p => signing env "IDENTITY_NFT_ACCEPT"
    [("name", .str p.name), ("to", .str p.to_), ("nonce", .num p.nonce)]
  | .identityNftReject p => signing env "IDENTITY_NFT_REJECT"
    [("name", .str p.name), ("signed_by", .str p.signedBy), ("nonce", .num p.nonce)]
  | .identityNftSetRecovery p => signing env "IDENTITY_NFT_SET_RECOVERY"
    [("name", .str p.name), ("guardians", strs p.guardians), ("threshold", .num p.threshold),
      ("destination", .str p.destination), ("founder_backstop", .bool p.founderBackstop),
      ("seq", .num p.seq)]
  | .identityNftLock p => signing env "IDENTITY_NFT_LOCK"
    [("name", .str p.name), ("nonce", .num p.nonce)]
  | .identityNftUnlock p => signing env "IDENTITY_NFT_UNLOCK"
    [("name", .str p.name), ("seq", .num p.seq)]
  | .identityNftRecover p => signing env "IDENTITY_NFT_RECOVER"
    [("name", .str p.name), ("seq", .num p.seq)]
  | .identityNftSetBackstop p => signing env "IDENTITY_NFT_SET_BACKSTOP"
    [("name", .str p.name), ("enabled", .bool p.enabled), ("seq", .num p.seq)]
  | .identityNftSetPrimary p => signing env "IDENTITY_NFT_SET_PRIMARY"
    [("account", .str p.account), ("name", .str p.name), ("nonce", .num p.nonce)]
  | .soulboundIssue p => signing env "SOULBOUND_ISSUE"
    [("token_id", .str p.tokenId), ("name", .str p.name), ("class", .str p.class_),
      ("wallet_bound", .bool p.walletBound), ("data", .str p.data), ("nonce", .num p.nonce)]
  | .soulboundAccept p => signing env "SOULBOUND_ACCEPT"
    [("token_id", .str p.tokenId), ("nonce", .num p.nonce)]
  | .soulboundReject p => signing env "SOULBOUND_REJECT"
    [("token_id", .str p.tokenId), ("nonce", .num p.nonce)]
  | .soulboundRevoke p => signing env "SOULBOUND_REVOKE"
    [("token_id", .str p.tokenId), ("nonce", .num p.nonce)]
  | other => env.printJson
    (.obj [("chain_id", .str env.chainId), ("entry", .str (env.entryJson other))])

end HoneNode.Tx
