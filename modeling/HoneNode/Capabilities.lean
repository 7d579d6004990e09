import HoneNode.Apply
import HoneNode.Tx.Fees

/-!
# Capabilities — the capability table against the arms

`capabilities.rs` gives every entry the capability its signer must hold. An entry
that spends the funds of its actor is meant to need `Value`, which posting,
service and memo keys lack. What an arm may take from whom is read off its
footprint, so the table and the arms can be compared variant by variant.

1. **The table** as the source has it.
2. **Spending**: an arm with an empty footprint takes nothing (`not_loses`).
3. **The misfiled variants**, each with an entry that spends
   (`capability_agrees_iff`).
-/

namespace HoneNode.Capabilities

open Prog Within Tx

/-! ## The table -/

inductive Capability where
  | system | rotate | govern | value | operate | deliver | service | message
deriving DecidableEq, Repr

inductive KeyType where
  | owner | active | posting | memo | hide | seek | fulfill | service | device
deriving DecidableEq, Repr

def KeyType.grants : KeyType → List Capability
  | .owner => [.rotate, .govern, .value, .operate, .deliver, .service, .message]
  | .active => [.value, .operate, .deliver, .service, .message]
  | .posting => [.operate, .deliver, .service, .message]
  | .memo => [.message]
  | .seek => [.deliver]
  | .fulfill => [.deliver]
  | .service => [.service]
  | .device => [.service]
  | .hide => []

/-- System entries are never user-authorized. -/
def authorize (signer : KeyType) (required : Capability) : Bool :=
  required ≠ .system && required ∈ signer.grants

/-- The capability each ledger entry requires. -/
def requiredCapability : LedgerEntry → Capability
  | .accountCreate _ | .accountUpdateKey _ | .accountTransfer _ | .setKeyPolicy _
  | .grantExternalSigner _ | .revokeExternalSigner _ | .walletFamilyPublish _
  | .walletFamilyAdd _ | .delegationGrant _ | .delegationRevoke _ | .privateAuthEnroll _ => .rotate
  | .chainParameterSet _ | .governancePropose _ | .governanceVote _ | .governanceFinalize _
  | .slashValidator _ | .slashAppeal _ | .clockDoubleSignEvidence _ | .spamGateSet _
  | .spamGateClear _ | .oracleFeedCreate _ | .oracleFeedFinalize _ | .testnetOperatorRegister _
  | .testnetOperatorDeregister _ | .privateAuthApprove _ => .govern
  | .transfer _ | .stake _ | .unstake _ | .nodeRoleStake _ | .nodeRoleUnstake _
  | .deviceClaimStake _ | .deviceClaimUnstake _ | .deviceYieldStake _ | .deviceYieldUnstake _
  | .tokenApprove _ | .tokenRevoke _ | .tokenAccept _ | .tokenReject _ | .bridgeFund _
  | .bridgeWrap _ | .bridgeUnwrap _ | .bridgeUnlock _ | .agentCreditDeposit _
  | .agentCreditWithdraw _ | .externalSignerTransfer _ | .spamGatePayEvm _
  | .sensorDataPurchase _ | .inferenceJobPay _ | .inferenceJobPost _ | .inferenceJobBid _
  | .inferenceJobAward _ | .ensembleJobPost _ | .fineTuneJobPost _ | .computerUseJobPost _
  | .agentTaskPost _ | .agentTaskBid _ | .agentTaskSettle _ | .trackerSubscription _
  | .sessionListingBuy _ | .nameAuctionBid _ | .nameAuctionSettle _ | .freeportAuctionBid _
  | .freeportAuctionSettle _ | .identityNftTransfer _ | .identityNftSetRecovery _
  | .identityNftLock _ | .identityNftUnlock _ | .identityNftRecover _
  | .identityNftSetBackstop _ => .value
  | .orderFulfill _ | .escrowRelease _ | .orderCancel _ | .orderDispute _ => .deliver
  | .orderPlace _ | .memorySet _ | .memoryDelete _ => .message
  | .mempoolHeartbeat _ | .gatewayHeartbeat _ | .storageHeartbeat _ | .serviceHeartbeat _
  | .linkGitServeHeartbeat _ | .sensorReading _ | .sensorDataCommit _ | .hiveReplicaCommit _
  | .hiveReplicaVerify _ | .runtimeAttest _ | .livenessProof _ | .entropyWitness _
  | .hardwareClaim _ | .phoneStorageProof _ | .blobServeProof _ | .linkGitPruneProof _
  | .vrfCommit _ | .vrfReveal _ | .oracleReport _ | .snapshotSave _ | .clockNodeRegister _ => .service
  | .mineReward _ | .epochSeal _ | .epochFinalize _ | .clockReward _ | .storageReward _
  | .sensorReward _ | .verifierReward _ | .serviceReward _ | .mempoolReward _ | .runtimeReward _
  | .linkGitServeReward _ | .linkGitBuildReward _ | .trackerCoverageReward _ | .testnetReward _
  | .gatewayRewardSplit _ | .genesisAlloc _ | .runtimeSlash _ | .crossChainFinalityAnnounce _
  | .tonWalletActivated _ => .system
  | .accountSetPrimary _ | .accountApiKeySet _ | .verifyChainLink _ | .nodeRoleOptIn _
  | .nodeRoleOptOut _ | .mine _ | .phoneMineSubmit _ | .contractDeploy _ | .contractCall _
  | .coverageReport _ | .inferenceJobComplete _ | .inferenceVerifyClaim _
  | .inferenceJobCommit _ | .inferenceJobVerify _ | .inferenceJobClaim _
  | .inferenceReviewVote _ | .inferenceJobCancel _ | .mempoolOperatorRegister _ | .blobStore _
  | .storeUpdate _ | .productCreate _ | .productUpdate _ | .flashSale _ | .sensorRegister _
  | .sensorKeyRegister _ | .sensorVouch _ | .deviceKeyRegister _ | .deviceYieldOptIn _
  | .deviceYieldOptOut _ | .runtimeRegister _ | .runtimeDeploy _ | .runtimeUndeploy _
  | .runtimeJobEnqueue _ | .runtimeClaim _ | .runtimeChallenge _ | .linkGitRepoCreate _
  | .linkGitRefUpdate _ | .linkGitAccessGrant _ | .linkGitAccessRevoke _
  | .linkGitStorageExtend _ | .linkGitIssueCreate _ | .linkGitIssueComment _
  | .linkGitIssueClose _ | .linkGitIssueReopen _ | .linkGitPrCreate _ | .linkGitPrComment _
  | .linkGitPrMerge _ | .linkGitPrClose _ | .projectCreate _ | .projectTask _ | .taskClaim _
  | .taskSubmit _ | .taskApprove _ | .trackerSightingCommit _ | .trackerClaim _
  | .trackerClaimRelease _ | .trackerAcousticProof _ | .trackerSightingData _ | .trackerHint _
  | .trackerLostMode _ | .trackerFoundReport _ | .trackerFoundConfirm _ | .scientificResult _
  | .ensembleVote _ | .agentRegister _ | .agentDeregister _ | .agentTaskAssign _
  | .agentTaskSubmit _ | .agentTaskVerifierCommit _ | .agentTaskVerifierReveal _
  | .agentSessionOpen _ | .agentSessionClose _ | .sessionListingCreate _
  | .sessionListingCancel _ | .nameAuctionOpen _ | .nameAuctionCancel _ | .freeportAuctionOpen _
  | .tonActivationIntent _ | .amberPillMint _ | .fineTuneJobComplete _
  | .computerUseJobComplete _ | .identityNftMint _ | .identityNftAccept _ | .identityNftReject _
  | .identityNftSetPrimary _ | .soulboundIssue _ | .soulboundAccept _ | .soulboundReject _
  | .soulboundRevoke _ => .operate

/-! ## Spending -/

/-- The account an entry acts for: who pays its fee, or the account that stands in that place in
an entry without `signed_by`. Entries of the node itself have none. -/
def actor : LedgerEntry → Option String
  | .accountCreate p => some p.account
  | .externalSignerTransfer p => some p.account
  | .clockNodeRegister p => some p.nodeId
  | .clockDoubleSignEvidence p => some p.submitter
  | .contractDeploy p => some p.deployer
  | .contractCall p => some p.signer
  | .blobStore p => some p.uploader
  | .escrowRelease p => some p.seller
  | .linkGitServeHeartbeat p => some p.owner
  | e => entryFeePayer e

/-- The native balance or the stake of an account has decreased. -/
def Loses (account : String) (s t : Chain) : Prop :=
  t.getBalance account nativeToken < s.getBalance account nativeToken ∨
    t.getStake account < s.getStake account

instance (account : String) (s t : Chain) : Decidable (Loses account s t) :=
  inferInstanceAs (Decidable (_ ∨ _))

/-- Applying the entry takes something from its actor. -/
def Spends (env : Env) (now : ℕ) (e : LedgerEntry) (s : Chain) : Prop :=
  ∃ account, actor e = some account ∧ Loses account s (applyEntry env now e s).2

/-- Some entry of the variant spends in some state. -/
def CanSpend (env : Env) (e : LedgerEntry) : Prop :=
  ∃ (e' : LedgerEntry) (now : ℕ) (s : Chain), e'.ctorIdx = e.ctorIdx ∧ Spends env now e' s

/-- The variants that may debit their actor and are not filed under `Value`. -/
def Misfiled : LedgerEntry → Prop
  -- filed under `Rotate`
  | .accountCreate _ | .accountTransfer _
  -- filed under `Govern`
  | .slashValidator _ | .slashAppeal _ | .oracleFeedCreate _
  -- filed under `Operate`
  | .trackerClaim _ | .trackerLostMode _ | .taskApprove _ | .mempoolOperatorRegister _
  | .agentSessionOpen _ | .runtimeRegister _ | .runtimeJobEnqueue _ | .inferenceJobCancel _
  -- filed under `Service`
  | .vrfCommit _ | .clockNodeRegister _ | .runtimeAttest _
  -- filed under `System`
  | .runtimeSlash _ => True
  | _ => False

section Spending

variable {env : Env} {now : ℕ} {e e' : LedgerEntry} {s : Chain} {account : String}

/-- An arm that lowers no row and no stake takes nothing from anybody. -/
theorem not_loses (hne : ∀ p, e ≠ .transfer p) (hpays : (arm env now e).footprint.pays = ∅)
    (hunstakes : (arm env now e).footprint.unstakes = ∅) :
    ¬ Loses account s (applyEntry env now e s).2 := by
  rw [applyEntry_of_ne_transfer hne]
  have hallows := (arm env now e).prog.within s
  have hbalance := hallows.balance (balanceKey account nativeToken) (by rw [hpays]; exact fun h => h)
  have hstake := hallows.stake account (by rw [hunstakes]; exact fun h => h)
  rintro (hless | hless)
  · exact absurd hbalance (Nat.not_le.2 hless)
  · exact absurd hstake (Nat.not_le.2 hless)

/-- A variant outside `Value` that is not misfiled has no actor or an empty footprint. -/
theorem harmless (hvalue : requiredCapability e ≠ .value) (hfiled : ¬ Misfiled e) :
    actor e = none ∨ (∀ p, e ≠ .transfer p) ∧ (arm env now e).footprint.pays = ∅ ∧
      (arm env now e).footprint.unstakes = ∅ := by
  cases e <;> first
    | exact absurd rfl hvalue
    | exact absurd trivial hfiled
    | exact .inl rfl
    | exact .inr ⟨fun _ h => (by cases h), rfl, rfl⟩

/-- The table and the list look at the variant only. -/
theorem filed_of_variant (h : e'.ctorIdx = e.ctorIdx) :
    requiredCapability e' = requiredCapability e ∧ (Misfiled e' ↔ Misfiled e) := by
  cases e <;> exact LedgerEntry.ctorElim (motive := fun e' =>
    requiredCapability e' = _ ∧ (Misfiled e' ↔ _)) _ e' h.symm ⟨fun _ => ⟨rfl, Iff.rfl⟩⟩

theorem not_canSpend (hvalue : requiredCapability e ≠ .value) (hfiled : ¬ Misfiled e) :
    ¬ CanSpend env e := by
  rintro ⟨e', now, s, hvariant, account, hactor, hloses⟩
  obtain ⟨hsame, hmisfiled⟩ := filed_of_variant hvariant
  rw [← hsame] at hvalue
  rcases @harmless env now e' hvalue (fun h => hfiled (hmisfiled.1 h)) with
    hnone | ⟨hne, hpays, hunstakes⟩
  · rw [hnone] at hactor
    cases hactor
  · exact not_loses hne hpays hunstakes hloses

end Spending

/-! ## The misfiled variants -/

/-- Alice's purse, with a stake. -/
def purse : Chain := (({} : Chain).setBalance "alice" nativeToken 1000000).setStake "alice" 1000000

/-- The purse after some entries. -/
def purseAfter (l : List LedgerEntry) : Chain :=
  l.foldl (fun s e => (applyEntry .bare 0 e s).2) purse

/-- A state in which names cost a stake of five. -/
def nameStakeOn : Chain :=
  purseAfter [.chainParameterSet ⟨"name_stake_enabled", "true", "", 0, none⟩,
    .chainParameterSet ⟨"name_stake_amount", "5", "", 0, none⟩]

/-- Alice has declared Bob her primary. -/
def primaryBob : Chain :=
  purse.setAccount "alice" { accountId := "alice", createdEpoch := 0, primary := some "bob" }

/-- A task of Alice's project that pays five. -/
def openTask : Chain := purseAfter [.projectCreate ⟨"p", "", "", none, "alice", 0, 0, "alice", none⟩,
  .projectTask ⟨"p", "t", "", "", "partial", 5, [], 0, "alice", 0, 0, "alice", none⟩]

/-- Alice's runtime is deployed, with a bond of five. -/
def deployed : List LedgerEntry :=
  [.runtimeRegister ⟨"r", "alice", "", "", "", 5, 0, "alice"⟩,
    .runtimeDeploy ⟨"r", "alice", "h", none, 0, "alice"⟩]

/-- A job of hers is queued and claimed by a host. -/
def claimedJob : Chain := purseAfter (deployed ++
  [.runtimeJobEnqueue ⟨"j", "r", "", 0, none, 5, 0, "alice"⟩,
    .runtimeClaim ⟨"l", "r", "j", "h", 1, 0, "h"⟩])

def postedJob : Chain := purseAfter
  [.inferenceJobPost ⟨"j", "alice", "", "", "", 5, 0, 1, 1, 0, 0, "alice", none, none, none, none⟩]

/-- A slash that Alice has reported, with four of five votes to overturn it. -/
def overturning : Chain := purse.stateSet .slash "x"
  ⟨"x", "alice", "bob", "", "", 0, 100, 10, .appealed,
    [⟨"p₁", true, 0⟩, ⟨"p₂", true, 0⟩, ⟨"p₃", true, 0⟩, ⟨"p₄", true, 0⟩]⟩

section Misfiled

variable {env : Env} {e : LedgerEntry}

/-- In the bootstrap window no minimum is read, so the decoder of numbers does not matter. -/
theorem register_bootstrap {p : Entry.ClockNodeRegister} (h : p.epoch ≤ clockBootstrapGraceEndEpoch) :
    applyClockNodeRegister env p = applyClockNodeRegister .bare p := by
  have hstake : ∀ existing, clockRegisterStake env p existing = clockRegisterStake .bare p existing := by
    intro existing
    unfold clockRegisterStake
    rw [if_pos h, if_pos h]
  unfold applyClockNodeRegister
  simp only [hstake]

theorem not_value_of_misfiled (h : Misfiled e) : requiredCapability e ≠ .value := by
  unfold Misfiled at h
  split at h <;> first
    | exact h.elim
    | exact fun hcap => nomatch hcap

theorem canSpend_of_misfiled (h : Misfiled e) : CanSpend env e := by
  unfold Misfiled at h
  split at h
  · refine ⟨.accountCreate ⟨"alice", ∅, [], 0, some "alice", none⟩, 0, nameStakeOn, rfl, "alice", rfl, ?_⟩
    change Loses _ _ ((applyAccountCreate _).run _).2
    decide
  · refine ⟨.accountTransfer ⟨"alice", ∅, 0, "alice", 0, none⟩, 0, primaryBob, rfl, "alice", rfl, ?_⟩
    change Loses _ _ ((applyAccountTransfer _).run _).2
    decide
  · -- the reporter of the state has a clock stake
    refine ⟨.slashValidator ⟨"x", "bob", "alice", "", "", 0, 0, "alice", none⟩, 0,
      purse.stateSet .clockStake "bob" 1, rfl, "alice", rfl, ?_⟩
    change Loses _ _ ((applySlashValidator _).run _).2
    decide
  · refine ⟨.slashAppeal ⟨"x", "p₅", true, 0, 0, "alice", none⟩, 0, overturning, rfl, "alice", rfl, ?_⟩
    change Loses _ _ ((applySlashAppeal _).run _).2
    decide
  · refine ⟨.oracleFeedCreate ⟨"f", "alice", "", 0, 0, 0, "alice", none⟩, 0, purse, rfl, "alice",
      rfl, ?_⟩
    change Loses _ _ ((applyOracleFeedCreate _).run _).2
    decide
  · refine ⟨.trackerClaim ⟨"c", "", "alice", 5, 0, 0, "alice"⟩, 0, purse, rfl, "alice", rfl, ?_⟩
    change Loses _ _ ((applyTrackerClaim _).run _).2
    decide
  · refine ⟨.trackerLostMode ⟨"c", "alice", 5, 1, none, 0, 0, "alice"⟩, 0, purse, rfl, "alice", rfl, ?_⟩
    change Loses _ _ ((applyTrackerLostMode _).run _).2
    decide
  · refine ⟨.taskApprove ⟨"p", "t", "alice", "bob", none, 0, 0, "alice", none⟩, 0, openTask, rfl,
      "alice", rfl, ?_⟩
    change Loses _ _ ((applyTaskApprove _).run _).2
    decide
  · refine ⟨.mempoolOperatorRegister ⟨"alice", 5, 0, 0, "alice"⟩, 0, purse, rfl, "alice", rfl, ?_⟩
    change Loses _ _ ((applyMempoolOperatorRegister _).run _).2
    decide
  · refine ⟨.agentSessionOpen ⟨"s", "alice", "", "", 5, 0, 0, "alice", none, none⟩, 0, purse, rfl,
      "alice", rfl, ?_⟩
    change Loses _ _ ((applyAgentSessionOpen _).run _).2
    decide
  · refine ⟨.runtimeRegister ⟨"r", "alice", "", "", "", 5, 0, "alice"⟩, 0, purse, rfl, "alice", rfl, ?_⟩
    change Loses _ _ ((applyRuntimeRegister _).run _).2
    decide
  · refine ⟨.runtimeJobEnqueue ⟨"j", "r", "", 0, none, 5, 0, "alice"⟩, 0, purseAfter deployed, rfl,
      "alice", rfl, ?_⟩
    change Loses _ _ ((applyRuntimeJobEnqueue _).run _).2
    decide
  · -- the fund is debited, whoever is named as the signer
    refine ⟨.inferenceJobCancel ⟨"j", "alice", "", 0, 0, recycleFund⟩, 0, postedJob, rfl,
      recycleFund, rfl, ?_⟩
    change Loses _ _ ((applyInferenceJobCancel _).run _).2
    decide
  · refine ⟨.vrfCommit ⟨"alice", "", 0, 0, "alice", none⟩, 0, purse.stateSet .clockNode "alice" (), rfl,
      "alice", rfl, ?_⟩
    change Loses _ _ ((applyVrfCommit _).run _).2
    decide
  · refine ⟨.clockNodeRegister ⟨"alice", 5, 0, none, none⟩, 0, purse, rfl, "alice", rfl, ?_⟩
    change Loses _ _ ((applyClockNodeRegister env _).run _).2
    rw [register_bootstrap (by decide)]
    decide
  · -- so is the escrow of the job
    refine ⟨.runtimeAttest ⟨"a", "r", "j", "h", "", none, 0, jobEscrowAccount "j"⟩, 0, claimedJob,
      rfl, jobEscrowAccount "j", rfl, ?_⟩
    change Loses _ _ ((applyRuntimeAttest _).run _).2
    decide
  · -- and the bond of the runtime
    refine ⟨.runtimeSlash ⟨"x", "r", "h", 5, "", 0, bondAccount "r"⟩, 0, purseAfter deployed, rfl,
      bondAccount "r", rfl, ?_⟩
    change Loses _ _ ((applyRuntimeSlash _).run _).2
    decide
  · exact h.elim

/-- A variant that can spend is filed under `Value`, exactly if it is not in the list. -/
theorem capability_agrees_iff (env : Env) (e : LedgerEntry) :
    (CanSpend env e → requiredCapability e = .value) ↔ ¬ Misfiled e := by
  constructor
  · intro hagree hfiled
    exact not_value_of_misfiled hfiled (hagree (canSpend_of_misfiled hfiled))
  · intro hfiled hspend
    by_contra hvalue
    exact not_canSpend hvalue hfiled hspend

end Misfiled

/-- A job of five for Alice's runtime. -/
def dearJob : LedgerEntry := .runtimeJobEnqueue ⟨"j", "r", "", 0, none, 5, 0, "alice"⟩

/-- A commitment to a random value. -/
def commitment : LedgerEntry := .vrfCommit ⟨"alice", "", 0, 0, "alice", none⟩

/-- A posting key may sign away the price of a job, and a service key the deposit of a
commitment. -/
theorem posting_key_spends :
    (authorize .posting (requiredCapability dearJob) = true ∧
      Spends .bare 0 dearJob (purseAfter deployed)) ∧
    (authorize .service (requiredCapability commitment) = true ∧
      Spends .bare 0 commitment (purse.stateSet .clockNode "alice" ())) ∧
    ¬ ∀ e, CanSpend .bare e → requiredCapability e = .value := by
  have hjob : Spends .bare 0 dearJob (purseAfter deployed) := by
    refine ⟨"alice", rfl, ?_⟩
    change Loses _ _ ((applyRuntimeJobEnqueue _).run _).2
    decide
  have hcommit : Spends .bare 0 commitment (purse.stateSet .clockNode "alice" ()) := by
    refine ⟨"alice", rfl, ?_⟩
    change Loses _ _ ((applyVrfCommit _).run _).2
    decide
  refine ⟨⟨rfl, hjob⟩, ⟨rfl, hcommit⟩, ?_⟩
  intro hagree
  cases hagree dearJob ⟨dearJob, 0, purseAfter deployed, rfl, hjob⟩

end HoneNode.Capabilities
