import HoneNode.Rewards.Emit

/-!
# Rewards.Frame — what an emission leaves alone

An emission writes balances, account records and the families listed in
`emissionWrites`; up to the point where it reads the reports of the epoch, only
those in `preludeWrites`. So the finalized epochs, the stakes, the role stakes
and the markers of the reward driver come out as they went in, and the reports
are read as they were before the sweeps.
-/

namespace HoneNode

open Entry Prog Within

/-- `t` comes from `s` by writes to balances, account records and the families in `W`. -/
structure Touch (W : Set Family) (s t : Chain) : Prop where
  stakes : t.stakes = s.stakes
  epochs : t.epochs = s.epochs
  currentEpoch : t.currentEpoch = s.currentEpoch
  family : ∀ f, f ∉ W → t.state f = s.state f

instance (W : Set Family) : IsPreorder Chain (Touch W) where
  refl := fun _ => ⟨rfl, rfl, rfl, fun _ _ => rfl⟩
  trans := by
    intro s t u h h'
    exact ⟨h'.stakes.trans h.stakes, h'.epochs.trans h.epochs,
      h'.currentEpoch.trans h.currentEpoch, fun f hf => (h'.family f hf).trans (h.family f hf)⟩

theorem Touch.mono {W W' : Set Family} {s t : Chain} (hW : W ⊆ W') (h : Touch W s t) :
    Touch W' s t :=
  ⟨h.stakes, h.epochs, h.currentEpoch, fun f hf => h.family f fun hf' => hf (hW hf')⟩

/-! ## The primitives -/

section Primitives

variable {W : Set Family} {F : Footprint} {α : Type} {account token : String} {n : ℕ}

theorem touch_setBalance (s : Chain) : Touch W s (s.setBalance account token n) :=
  ⟨rfl, rfl, rfl, fun _ _ => rfl⟩

theorem touch_stateSet {f : Family} (hf : f ∈ W) (s : Chain) (key : String) (v : f.Val) :
    Touch W s (s.stateSet f key v) := by
  refine ⟨rfl, rfl, rfl, ?_⟩
  intro g hg
  have hne : g ≠ f := by
    rintro rfl
    exact hg hf
  exact s.state_stateSet_of_ne hne key v

theorem touch_stateDelete {f : Family} (hf : f ∈ W) (s : Chain) (key : String) :
    Touch W s (s.stateDelete f key) := by
  refine ⟨rfl, rfl, rfl, ?_⟩
  intro g hg
  have hne : g ≠ f := by
    rintro rfl
    exact hg hf
  exact s.state_stateDelete_of_ne hne key

/-- A credit writes a balance, or fails. -/
theorem touches_credit : Along (Touch W) (credit account token n : Prog F Unit) := by
  intro s
  rw [run_credit]
  split
  · exact touch_setBalance s
  · exact refl_of (Touch W) s

theorem touches_debit (h : balanceKey account token ∈ F.pays) :
    Along (Touch W) (debit account token n h) := by
  intro s
  rw [run_debit]
  split
  · exact touch_setBalance s
  · exact refl_of (Touch W) s

/-- A new account gets a record. -/
theorem touches_ensureAccount {epoch : ℕ} :
    Along (Touch W) (ensureAccount account epoch : Prog F Unit) := by
  intro s
  rw [run_ensureAccount]
  unfold Chain.withAccount
  split
  · exact refl_of (Touch W) s
  · exact ⟨rfl, rfl, rfl, fun _ _ => rfl⟩

/-- Records are written in the families of `W` only. -/
theorem touches_stateSet {f : Family} (hf : f ∈ W) (key : String) (v : f.Val)
    (h : f.guarded = false ∨ f ∈ F.grants) : Along (Touch W) (Prog.stateSet f key v h) :=
  fun s => touch_stateSet hf s key v

theorem touches_stateDelete {f : Family} (hf : f ∈ W) (key : String)
    (h : f.guarded = false ∨ f ∈ F.grants) : Along (Touch W) (Prog.stateDelete f key h) :=
  fun s => touch_stateDelete hf s key

theorem touches_when {c : Prop} [Decidable c] {m : Prog F Unit} (h : Along (Touch W) m) :
    Along (Touch W) (when c m) := h.ite (along_pure ())

theorem touches_ensure {c : Prop} [Decidable c] {msg : String} :
    Along (Touch W) (ensure c msg : Prog F Unit) := (along_pure ()).ite along_fail

theorem touches_orBail {o : Option α} {msg : String} :
    Along (Touch W) (orBail o msg : Prog F α) := by
  cases o with
  | none => exact along_fail
  | some a => exact along_pure a

theorem touches_logPrefix {enabled : Bool} {text : String} :
    Along (Touch W) (logPrefix enabled text n : Prog F Unit) := along_fail.ite (along_pure ())

theorem touches_mapErr {g : String → String} {m : Prog F α} (h : Along (Touch W) m) :
    Along (Touch W) (mapErr g m) := by
  intro s
  have hs := h s
  unfold mapErr
  cases hr : m.run s with
  | mk r t =>
    rw [hr] at hs
    simp only [hr]
    split <;> simp_all

theorem touches_orDefault {a : α} {m : Prog F α} (h : Along (Touch W) m) :
    Along (Touch W) (orDefault a m) := by
  intro s
  have hs := h s
  unfold orDefault
  cases hr : m.run s with
  | mk r t =>
    rw [hr] at hs
    simp only [hr]
    split <;> simp_all

theorem touches_creditIfAny : Along (Touch W) (creditIfAny account n : Prog F Unit) :=
  touches_when touches_credit.ignoreErr

/-- What holds along a program holds along it with more rights. -/
theorem along_payingFrom {P Q : Set String} {R : Chain → Chain → Prop} {h : P ⊆ Q}
    {m : Prog { pays := P } α} (hm : Along R m) : Along R (m.payingFrom h) := hm

theorem along_free {Q : Set String} {R : Chain → Chain → Prop} {m : Prog {} α}
    (hm : Along R m) : Along R (m.free : Prog { pays := Q } α) := hm

end Primitives

/-! ## The reward arms -/

section Arms

variable {W : Set Family} {F : Footprint}

theorem touches_payShares {pay : String → ℕ → Prog F Unit} {share total : ℕ}
    (h : ∀ a n, Along (Touch W) (pay a n)) (stakers : List (String × ℕ)) :
    Along (Touch W) (payShares share total pay stakers) := by
  unfold payShares
  exact along_forM (fun st => touches_when (h _ _)) stakers

theorem touches_distributeRoleBackerReward {role node : String} {total : ℕ} :
    Along (Touch W) (distributeRoleBackerReward role node total : Prog F ℕ) := by
  refine along_inspect.bind fun opt => along_inspect.bind fun rows => ?_
  refine Along.ite ?_ (along_pure _)
  exact (touches_payShares (fun _ _ => touches_credit.ignoreErr) _).bind fun _ => along_pure _

theorem touches_applyReward {account : String} {amount epoch : ℕ} :
    Along (Touch W) (applyReward account amount epoch) :=
  touches_ensureAccount.bind fun _ => touches_credit

theorem touches_applyMineReward (p : MineReward) : Along (Touch W) (applyMineReward p) := by
  refine touches_ensureAccount.bind fun _ => ?_
  refine Along.bind (touches_when (touches_mapErr (touches_debit _))) fun _ => ?_
  exact touches_distributeRoleBackerReward.bind fun _ => touches_credit

/-- A part of the reward may go into the registered stake. -/
theorem touches_applyClockReward (env : Env) (p : ClockReward) (hW : .clockReg ∈ W) :
    Along (Touch W) (applyClockReward env p) := by
  refine touches_ensureAccount.bind fun _ => touches_distributeRoleBackerReward.bind fun left => ?_
  refine along_inspect.bind fun reg => along_inspect.bind fun _ =>
    along_inspect.bind fun _ => ?_
  cases reg with
  | none => exact (along_pure _).bind fun _ => touches_when touches_credit
  | some r =>
    exact Along.bind (touches_when (touches_stateSet hW _ _ _)) fun _ =>
      touches_when touches_credit

theorem touches_applyTestnetReward (p : TestnetReward) :
    Along (Touch W) (applyTestnetReward p) :=
  touches_ensureAccount.bind fun _ => (touches_debit _).ignoreErr.bind fun _ => touches_credit

theorem touches_applyGatewayRewardSplit (p : GatewayRewardSplit) :
    Along (Touch W) (applyGatewayRewardSplit p) :=
  touches_ensureAccount.bind fun _ => touches_ensureAccount.bind fun _ =>
    touches_credit.bind fun _ => touches_credit

theorem touches_applyInferenceJobPost (p : InferenceJobPost) (hW : .inferJob ∈ W) :
    Along (Touch W) (applyInferenceJobPost p) := by
  refine along_inspect.bind fun _ => touches_ensure.bind fun _ => ?_
  refine (touches_debit _).bind fun _ => touches_credit.bind fun _ => ?_
  exact along_inspect.bind fun _ => touches_stateSet hW _ _ _

end Arms

/-! ## The sweeps -/

/-- The families written before the reports are read. -/
abbrev preludeWrites : Set Family := { f | f ∈ [.pendingTransfer, .agentCredit, .agentTask,
  .ensembleJob, .agentSession, .vrfRound, .vrfLatestBeacon, .clockUptime, .clockReg] }

section Sweeps

variable (env : Env) (order : Tally.HashOrder (String × ℕ)) (epoch : ℕ)

theorem touches_sweepExpiredPendingTransfers {W : Set Family} (hW : .pendingTransfer ∈ W) :
    Along (Touch W) (sweepExpiredPendingTransfers epoch) :=
  along_inspect.bind fun rows => along_forM (fun _ => touches_when
    ((touches_stateDelete hW _ _).bind fun _ => touches_credit.ignoreErr)) rows

section Tasks

variable {W : Set Family} (hcredit : .agentCredit ∈ W) (htask : .agentTask ∈ W)
include hcredit htask

/-- A settlement pays, and closes its task. -/
theorem touches_trySettle (taskId : String) :
    Along (Touch W) (trySettle order taskId : Prog {} Unit) := by
  unfold trySettle loadTask
  refine Along.bind (Along.bind along_inspect fun found => ?_) fun task => ?_
  · cases found with
    | none => exact along_fail
    | some _ => exact along_pure _
  · split
    · split
      · exact along_pure _
      · dsimp only
        split
        · exact along_fail
        · refine Along.bind (touches_when touches_credit.ignoreErr) fun _ => ?_
          refine Along.bind (along_forM (fun _ => touches_when touches_credit.ignoreErr) _)
            fun _ => ?_
          refine Along.bind (touches_when ?_) fun _ => touches_stateSet htask _ _ _
          exact along_inspect.bind fun _ => touches_stateSet hcredit _ _ _
    · exact along_pure _

theorem touches_expireTask (key : String) (task : AgentTask) :
    Along (Touch W) (expireTask order key task) := by
  have hsettle : Along (Touch W) (settleOverdue order task) := by
    refine Along.ite (along_inspect.bind fun found => ?_) (along_pure _)
    cases found with
    | none => exact along_pure _
    | some task => exact (touches_trySettle order hcredit htask _).bind fun _ => along_pure _
  have hrefund : Along (Touch W) (refundTask key task) :=
    along_inspect.bind fun _ => (touches_stateSet hcredit _ _ _).bind fun _ =>
      touches_stateSet htask _ _ _
  exact hsettle.bind fun _ => touches_when hrefund

theorem touches_sweepExpiredTasks : Along (Touch W) (sweepExpiredTasks order epoch) :=
  along_inspect.bind fun rows =>
    along_forM (fun _ => touches_when (touches_expireTask order hcredit htask _ _)) rows

end Tasks

variable {W : Set Family}

theorem touches_payWorkers (amount : ℕ) (workers : List String) :
    Along (Touch W) (payWorkers amount workers) := by
  induction workers with
  | nil => exact along_pure _
  | cons w rest ih => exact touches_credit.bind fun _ => ih

theorem touches_finalizeJob (job : EnsembleJob) (winner : String) :
    Along (Touch W) (finalizeJob env job winner) := by
  refine (touches_payWorkers _ _).bind fun _ => ?_
  refine Along.bind (touches_when touches_credit) fun _ => ?_
  exact touches_logPrefix.bind fun _ => along_pure _

theorem touches_closeEnsemble (job : EnsembleJob) :
    Along (Touch W) (closeEnsemble env job) := by
  unfold closeEnsemble
  split
  · exact touches_orDefault (touches_finalizeJob env job _)
  · exact touches_credit.ignoreErr.bind fun _ => touches_logPrefix.bind fun _ => along_pure _

theorem touches_sweepExpiredEnsembles (hW : .ensembleJob ∈ W) :
    Along (Touch W) (sweepExpiredEnsembles env epoch) := by
  refine along_inspect.bind fun rows => along_forM (fun r => touches_when ?_) rows
  exact (touches_closeEnsemble env r.2).bind fun _ => touches_stateSet hW _ _ _

theorem touches_closeRound (round : VrfRound) :
    Along (Touch preludeWrites) (closeRound env epoch round) := by
  refine (along_forM (fun _ => touches_credit.ignoreErr) _).bind fun _ => ?_
  refine Along.bind ?_ fun _ => touches_stateSet (by decide) _ _ _
  exact (touches_stateSet (by decide) _ _ _).bind fun _ => touches_logPrefix.bind fun _ =>
    along_pure _

/-- All the sweeps, up to the reading of the reports. -/
theorem touches_sweepExpired : Along (Touch preludeWrites) (sweepExpired env order epoch) := by
  have hpending : Along (Touch preludeWrites) (sweepExpiredPendingTransfers epoch) :=
    touches_sweepExpiredPendingTransfers epoch (by decide)
  have htasks : Along (Touch preludeWrites) (sweepExpiredTasks order epoch) :=
    touches_sweepExpiredTasks order epoch (by decide) (by decide)
  have hensembles : Along (Touch preludeWrites) (sweepExpiredEnsembles env epoch) :=
    touches_sweepExpiredEnsembles env epoch (by decide)
  have hsessions : Along (Touch preludeWrites) (sweepExpiredSessions epoch) :=
    along_inspect.bind fun rows => along_forM (fun r => touches_when
      (Along.bind (touches_when touches_credit.ignoreErr) fun _ =>
        touches_stateSet (by decide) _ _ _)) rows
  have hbeacon : Along (Touch preludeWrites) (sweepBeacon env epoch) := by
    refine along_inspect.bind fun found => ?_
    cases found with
    | none => exact along_pure _
    | some round => exact touches_when (touches_closeRound env _ round)
  exact hpending.bind fun _ => htasks.bind fun _ => hensembles.bind fun _ =>
    hsessions.bind fun _ => hbeacon

end Sweeps

/-! ## The whole emission -/

/-- Every family an emission writes. -/
abbrev emissionWrites : Set Family := { f | f ∈ [.pendingTransfer, .agentCredit, .agentTask,
  .ensembleJob, .agentSession, .vrfRound, .vrfLatestBeacon, .clockUptime, .clockReg,
  .emaCriticalMass, .layerA, .trackerSubEscrow, .inferJob, .inferInput, .job, .pruneReady] }

theorem preludeWrites_subset : preludeWrites ⊆ emissionWrites := by
  intro f hf
  simp only [preludeWrites, emissionWrites, Set.mem_ofPred_eq, List.mem_cons, List.not_mem_nil,
    or_false] at hf ⊢
  tauto

section Emission

variable (env : Env) (orders : RewardOrders) (epoch : ℕ)

variable {W : Set Family} (sealers : List String)

theorem touches_updateUptime :
    Along (Touch preludeWrites) (updateUptime sealers) :=
  along_inspect.bind fun nodes => along_forM (fun _ => along_inspect.bind fun _ =>
    touches_stateSet (by decide) _ _ _) nodes

theorem touches_emitClockRewards :
    Along (Touch preludeWrites) (emitClockRewards env epoch sealers) :=
  along_forM (fun _ => along_inspect.bind fun _ =>
    touches_when (along_free (touches_applyClockReward env _ (by decide))).ignoreErr) sealers

theorem touches_emitTestnetRewards :
    Along (Touch W) (emitTestnetRewards epoch) :=
  along_inspect.bind fun operators => along_inspect.bind fun _ =>
    along_forM (fun _ => touches_when (along_payingFrom (touches_applyTestnetReward _)).ignoreErr) operators

theorem touches_splitReserve (pool : ℕ) :
    Along (Touch W) (splitReserve pool) :=
  touches_creditIfAny.bind fun _ => touches_creditIfAny.bind fun _ => touches_creditIfAny

theorem touches_distributeRewards {pay : String → ℕ → RewardProg Unit}
    (h : ∀ a n, Along (Touch W) (pay a n)) (nodes : List (String × ℕ)) (pool : ℕ) :
    Along (Touch W) (distributeRewards nodes pool pay) :=
  (along_pure _).ite (along_forM (fun _ => touches_when (h _ _).ignoreErr) nodes)

theorem touches_distributeSensors (nodes : List (String × ℕ)) (pool : ℕ)
    (gateways : Kv String String) : Along (Touch W) (distributeSensors nodes pool gateways epoch) := by
  refine along_forM (fun n => touches_when (Along.ignoreErr ?_)) nodes
  unfold paySensor
  split
  · exact along_free (touches_applyGatewayRewardSplit _)
  · exact along_free touches_applyReward

theorem touches_distributeRepos (repos : List ServedRepo) (pool total : ℕ) :
    Along (Touch W) (distributeRepos repos pool total epoch) :=
  touches_when (along_forM (fun _ => along_fail.ite
    (touches_when (along_free touches_credit).ignoreErr)) repos)

/-- The pools are paid one after the other. -/
theorem touches_payPools (w : Work) (gated : ℕ) (cm : WorkPool → ℕ) :
    Along (Touch W) (payPools w gated cm epoch) := by
  have hplain : ∀ (nodes : List (String × ℕ)) (pool : ℕ), Along (Touch W)
      (distributeRewards nodes pool fun a n => (applyReward a n epoch).free) :=
    fun nodes pool => touches_distributeRewards (fun _ _ => along_free touches_applyReward) nodes pool
  exact (touches_distributeRewards (fun _ _ => along_payingFrom (touches_applyMineReward _)) _ _).bind
    fun _ => (hplain _ _).bind fun _ => (touches_distributeSensors epoch _ _ _).bind
    fun _ => (hplain _ _).bind fun _ => (hplain _ _).bind fun _ => (hplain _ _).bind
    fun _ => (touches_distributeRewards (fun _ _ => along_free touches_credit) _ _).bind
    fun _ => (touches_distributeRepos epoch _ _ _).bind
    fun _ => touches_distributeRewards (fun _ _ => along_free touches_credit) _ _

theorem touches_updateAverages (w : Work) (cm : WorkPool → ℕ) (fast slow : ℕ) :
    Along (Touch emissionWrites) (updateAverages w cm fast slow) :=
  (along_forM (fun _ => touches_stateSet (by decide) _ _ _) _).bind fun _ =>
    (touches_stateSet (by decide) _ _ _).bind fun _ => touches_stateSet (by decide) _ _ _

theorem touches_releaseSubscription (hW : .trackerSubEscrow ∈ W)
    (order : Tally.HashOrder String) (fee : ℕ) (key : String) (r : TrackerSubEscrow) :
    Along (Touch W) (releaseSubscription order epoch fee key r) := by
  have hrest : Along (Touch W)
      (stateSet .trackerSubEscrow key { r with paidOut := r.paidOut + fee } : Prog {} Unit) :=
    touches_stateSet hW _ _ _
  have hcredit : ∀ (account : String) (n : ℕ), Along (Touch W)
      (when (0 < n) (ignoreErr (credit account nativeToken n)) : Prog {} Unit) :=
    fun _ _ => touches_when touches_credit.ignoreErr
  have hobservers : ∀ (n : ℕ) (l : List String), Along (Touch W)
      (l.forM fun o => when (0 < n)
        (ignoreErr (applyTrackerCoverageReward ⟨o, n, epoch⟩)) : Prog {} Unit) :=
    fun n l => along_forM (fun o => hcredit o n) l
  unfold releaseSubscription
  refine along_inspect.bind fun observers => ?_
  dsimp only
  split
  · exact (hobservers _ _).bind fun _ => (hcredit _ _).bind fun _ => (hcredit _ _).bind fun _ =>
      hrest
  · exact touches_credit.ignoreErr.bind fun _ => (hcredit _ _).bind fun _ =>
      (hcredit _ _).bind fun _ => hrest

theorem touches_sweepTrackerSubscriptionFees (hW : .trackerSubEscrow ∈ W)
    (order : Tally.HashOrder String) :
    Along (Touch W) (sweepTrackerSubscriptionFees order epoch) :=
  along_inspect.bind fun rows => along_forM (fun _ => touches_when
    (touches_releaseSubscription epoch hW _ _ _ _)) rows

theorem touches_postBenchmarks (jobs : List ℕ) :
    Along (Touch emissionWrites) (postBenchmarks epoch jobs) := by
  induction jobs with
  | nil => exact along_pure _
  | cons i rest ih =>
    have hjob : Along (Touch emissionWrites) (applyInferenceJobPost (benchmarkJob epoch i)) :=
      touches_applyInferenceJobPost (benchmarkJob epoch i) (by decide)
    have hpost : Along (Touch emissionWrites) (postBenchmark epoch i) :=
      Along.bind (along_payingFrom hjob) fun _ => touches_stateSet (by decide) _ _ _
    exact along_inspect.bind fun _ => along_inspect.bind fun _ =>
      ih.ite ((along_pure _).ite (hpost.ignoreErr.bind fun _ => ih))

/-- Old proofs are deleted, and nothing else. -/
theorem touches_pruneProofs : Along (Touch emissionWrites) (pruneProofs epoch) := by
  refine along_inspect.bind fun rows => along_forM (fun r => touches_when ?_) rows
  have hjob : Along (Touch emissionWrites) (pruneJob epoch r.2) := by
    refine along_inspect.bind fun found => ?_
    split
    · exact touches_stateSet (by decide) _ _ _
    · exact along_fail
    · exact along_pure _
  exact hjob.bind fun _ => touches_stateDelete (by decide) _ _

theorem touches_emitActivity (activity fast slow : ℕ) :
    Along (Touch emissionWrites) (emitActivity orders epoch activity fast slow) := by
  have hsubs : Along (Touch emissionWrites)
      (sweepTrackerSubscriptionFees orders.observers epoch) :=
    touches_sweepTrackerSubscriptionFees epoch (by decide) _
  exact along_inspect.bind fun _ => along_inspect.bind fun _ =>
    touches_creditIfAny.bind fun _ => touches_creditIfAny.bind fun _ =>
    (touches_payPools epoch _ _ _).bind fun _ => (touches_updateAverages _ _ _ _).bind fun _ =>
    (along_free hsubs).bind fun _ => touches_creditIfAny.bind fun _ =>
    Along.bind (touches_when (touches_postBenchmarks epoch _)) fun _ =>
    touches_when (touches_pruneProofs epoch)

/-- Whatever an emission does, it writes no other family. -/
theorem touches_emitEpochRewards :
    Along (Touch emissionWrites) (emitEpochRewards env orders epoch sealers) := by
  have hprelude : ∀ {α : Type} {m : RewardProg α}, Along (Touch preludeWrites) m →
      Along (Touch emissionWrites) m := fun h => h.mono fun _ _ => Touch.mono preludeWrites_subset
  have hpool : ∀ raw, Along (Touch emissionWrites) (emitPool env orders epoch sealers raw) := by
    intro raw
    exact along_inspect.bind fun _ => along_inspect.bind fun _ =>
      touches_creditIfAny.bind fun _ => (touches_splitReserve _).bind fun _ =>
      (hprelude (touches_updateUptime sealers)).bind fun _ =>
      (hprelude (touches_emitClockRewards env epoch sealers)).bind fun _ =>
      (touches_emitTestnetRewards epoch).bind fun _ =>
      touches_when (touches_emitActivity orders epoch _ _ _)
  exact (hprelude (along_free (touches_sweepExpired env orders.tasks epoch))).bind fun _ =>
    along_inspect.bind fun raw => touches_when (hpool raw)

end Emission

/-! ## The reports after the prelude -/

section Reports

variable {s t : Chain} (h : Touch preludeWrites s t) (orders : RewardOrders) (epoch : ℕ)
include h

theorem Touch.stateGet_eq {f : Family} (hf : f ∉ preludeWrites) (key : String) :
    t.stateGet f key = s.stateGet f key := by
  unfold Chain.stateGet
  rw [h.family f hf]

/-- A family outside is read as before. -/
theorem Touch.records_eq {f : Family} (hf : f ∉ preludeWrites) (pfx : String) :
    t.records f pfx = s.records f pfx := by
  unfold Chain.records
  rw [h.family f hf]

theorem mines_of_touch : mines epoch t = mines epoch s := by
  have hstake : ∀ a, t.getStake a = s.getStake a := by
    intro a
    unfold Chain.getStake
    rw [h.stakes]
  have hjob : jobVerified t = jobVerified s := by
    funext jobId
    unfold jobVerified
    rw [h.stateGet_eq (f := .inferJob) (by decide)]
  unfold mines mineScore
  simp only [h.records_eq (f := .mine) (by decide), hstake, hjob]

theorem hasLocation_of_touch : hasLocation t = hasLocation s := by
  funext sensorId
  unfold hasLocation
  rw [h.stateGet_eq (f := .sensor) (by decide)]

theorem sensorCommits_of_touch : sensorCommits epoch t = sensorCommits epoch s := by
  unfold sensorCommits
  rw [h.records_eq (f := .sensorCommit) (by decide), hasLocation_of_touch h]

theorem sensorNodes_of_touch : sensorNodes orders.sensors epoch t =
    sensorNodes orders.sensors epoch s := by
  have hscore : sensorCommitScore t = sensorCommitScore s := by
    unfold sensorCommitScore
    rw [hasLocation_of_touch h]
  have hcoverage : coverageScore epoch t = coverageScore epoch s := by
    funext r
    unfold coverageScore
    rw [h.stateGet_eq (f := .coverageCell) (by decide)]
  unfold sensorNodes
  rw [sensorCommits_of_touch h, hscore, hcoverage,
    h.records_eq (f := .coverageReport) (by decide)]

theorem trackerNodes_of_touch : trackerNodes orders.trackers epoch t =
    trackerNodes orders.trackers epoch s := by
  unfold trackerNodes hasVerifiedClaim isAcousticWitness
  simp only [h.records_eq (f := .trackerSighting) (by decide),
    h.records_eq (f := .trackerClaim) (by decide)]

theorem linkgitRepos_of_touch : linkgitRepos epoch t = linkgitRepos epoch s := by
  unfold linkgitRepos
  simp only [h.stateGet_eq (f := .linkGitServedRepos) (by decide),
    h.stateGet_eq (f := .linkGitServeCount) (by decide),
    h.stateGet_eq (f := .linkGitRepo) (by decide)]

/-- The reports are read as they were before the sweeps. -/
theorem workOf_of_touch : workOf orders epoch t = workOf orders epoch s := by
  have hstorage : storageNodes epoch t = storageNodes epoch s := by
    unfold storageNodes
    rw [h.records_eq (f := .storageBeat) (by decide)]
  have hverifiers : verifiers epoch t = verifiers epoch s := by
    unfold verifiers
    rw [h.records_eq (f := .inferVerify) (by decide)]
  have hservices : serviceNodes epoch t = serviceNodes epoch s := by
    unfold serviceNodes
    rw [h.records_eq (f := .serviceBeat) (by decide)]
  have hmempools : mempoolOps epoch t = mempoolOps epoch s := by
    unfold mempoolOps
    rw [h.records_eq (f := .mempoolBeat) (by decide)]
  have hbuilders : linkgitBuilders epoch t = linkgitBuilders epoch s := by
    unfold linkgitBuilders
    simp only [h.stateGet_eq (f := .linkGitBuilders) (by decide),
      h.stateGet_eq (f := .linkGitBuild) (by decide)]
  have hgateways : sensorGateways epoch t = sensorGateways epoch s := by
    unfold sensorGateways
    rw [sensorCommits_of_touch h]
  have hboost : feeBoostRaw epoch t = feeBoostRaw epoch s := by
    unfold feeBoostRaw
    rw [h.records_eq (f := .feeFlow) (by decide)]
  unfold workOf
  rw [mines_of_touch h, hstorage, sensorNodes_of_touch h, hverifiers, hservices, hmempools,
    trackerNodes_of_touch h, linkgitRepos_of_touch h, hbuilders, hgateways, hboost]

end Reports

end HoneNode
