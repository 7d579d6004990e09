import HoneNode.Inference.Jobs
import HoneNode.Rewards.Frame

/-!
# Rewards.Pruning — the proofs of paid jobs

A payment schedules the pruning of a job's proofs, and the emission of a later
epoch carries it out, on the record under `job:` and the job's id. The record of
an inference job is kept under `infer_job:`, so no emission ever clears a proof
(`leaves_emitEpochRewards`), and the property holds of a run only until the
first job is due (`pruning_sound_iff`).
-/

namespace HoneNode.Pruning

open Entry Prog Within Jobs

/-! ## What emissions leave alone -/

/-- Every record of an inference job stays as it is. -/
def Leaves (s t : Chain) : Prop := ∀ id job, jobAt s id = some job → jobAt t id = some job

instance : IsPreorder Chain Leaves where
  refl _ _ _ h := h
  trans _ _ _ h h' id job hjob := h' id job (h id job hjob)

theorem leaves_of_touch {W : Set Family} (hW : .inferJob ∉ W) {s t : Chain} (h : Touch W s t) :
    Leaves s t := by
  intro id job hjob
  unfold jobAt Chain.stateGet at hjob ⊢
  rw [h.family _ hW]
  exact hjob

section Emission

variable {W : Footprint} {α : Type} (env : Env) (orders : RewardOrders) (epoch : ℕ)

theorem leaves_of_touches {F : Set Family} (hF : .inferJob ∉ F) {m : Prog W α}
    (h : Along (Touch F) m) : Along Leaves m := h.mono fun _ _ => leaves_of_touch hF

theorem leaves_when {c : Prop} [Decidable c] {m : Prog W Unit} (h : Along Leaves m) :
    Along Leaves (when c m) := h.ite (along_pure ())

theorem leaves_stateSet {f : Family} (hf : f ≠ .inferJob) (key : String) (v : f.Val)
    (h : f.guarded = false ∨ f ∈ W.grants) : Along Leaves (Prog.stateSet f key v h) :=
  leaves_of_touches (F := {f}) (fun hin => hf hin.symm)
    (touches_stateSet (Set.mem_singleton f) key v h)

/-- Posting a job takes a new id. -/
theorem leaves_applyInferenceJobPost (p : InferenceJobPost) :
    Along Leaves (applyInferenceJobPost p) := by
  intro s
  cases hrun : (applyInferenceJobPost p).run s with
  | mk r t =>
    dsimp only
    have hpost : (Op.post p).run .bare s = (r, t) := hrun
    rcases step_cases hpost with ⟨e, -, hsame⟩ | ⟨-, hchange⟩
    · intro id job hjob
      unfold jobAt Chain.stateGet at hjob ⊢
      rw [hsame]
      exact hjob
    · cases hchange with
      | posted hnew hput =>
        intro id job hjob
        have hne : p.jobId ≠ id := by
          rintro rfl
          rw [hnew] at hjob
          cases hjob
        unfold jobAt Chain.stateGet at hjob ⊢
        rw [hput, Kv.get_put_of_ne _ _ hne]
        exact hjob
      | moved _ hmove => cases hmove

theorem leaves_postBenchmarks (jobs : List ℕ) : Along Leaves (postBenchmarks epoch jobs) := by
  induction jobs with
  | nil => exact along_pure _
  | cons i rest ih =>
    have hpost : Along Leaves (postBenchmark epoch i) :=
      Along.bind (along_payingFrom (leaves_applyInferenceJobPost (benchmarkJob epoch i)))
        fun _ => leaves_stateSet (by decide) _ _ _
    exact along_inspect.bind fun _ => along_inspect.bind fun _ =>
      ih.ite ((along_pure _).ite (hpost.ignoreErr.bind fun _ => ih))

/-- Pruning writes records of another family. -/
theorem leaves_pruneProofs : Along Leaves (pruneProofs epoch) := by
  refine along_inspect.bind fun rows => along_forM (fun r => leaves_when ?_) rows
  have hjob : Along Leaves (pruneJob epoch r.2) := by
    refine along_inspect.bind fun found => ?_
    split
    · exact leaves_stateSet (by decide) _ _ _
    · exact along_fail
    · exact along_pure _
  exact hjob.bind fun _ => leaves_of_touches (F := {.pruneReady}) (by decide)
    (touches_stateDelete (Set.mem_singleton _) _ _)

theorem leaves_emitActivity (activity fast slow : ℕ) :
    Along Leaves (emitActivity orders epoch activity fast slow) := by
  have hcredit : ∀ {account : String} {n : ℕ},
      Along Leaves (creditIfAny account n : RewardProg Unit) :=
    leaves_of_touches (F := ∅) (Set.notMem_empty _) touches_creditIfAny
  have hpools : ∀ (w : Work) (gated : ℕ) (cm : WorkPool → ℕ),
      Along Leaves (payPools w gated cm epoch) := fun w gated cm =>
    leaves_of_touches (F := ∅) (Set.notMem_empty _) (touches_payPools epoch w gated cm)
  have haverages : ∀ (w : Work) (cm : WorkPool → ℕ),
      Along Leaves (updateAverages w cm fast slow) := fun w cm =>
    (along_forM (fun _ => leaves_stateSet (by decide) _ _ _) _).bind fun _ =>
      (leaves_stateSet (by decide) _ _ _).bind fun _ => leaves_stateSet (by decide) _ _ _
  have hsubs : Along Leaves (sweepTrackerSubscriptionFees orders.observers epoch) :=
    leaves_of_touches (F := {.trackerSubEscrow}) (by decide)
      (touches_sweepTrackerSubscriptionFees epoch (Set.mem_singleton _) _)
  exact along_inspect.bind fun _ => along_inspect.bind fun _ =>
    hcredit.bind fun _ => hcredit.bind fun _ => (hpools _ _ _).bind fun _ =>
    (haverages _ _).bind fun _ => (along_free hsubs).bind fun _ => hcredit.bind fun _ =>
    Along.bind (leaves_when (leaves_postBenchmarks epoch _)) fun _ =>
    leaves_when (leaves_pruneProofs epoch)

/-- No emission changes the record of a job. -/
theorem leaves_emitEpochRewards (sealers : List String) :
    Along Leaves (emitEpochRewards env orders epoch sealers) := by
  have hprelude : ∀ {β : Type} {m : RewardProg β}, Along (Touch preludeWrites) m →
      Along Leaves m := leaves_of_touches (by decide)
  have hnone : ∀ {β : Type} {m : RewardProg β}, Along (Touch ∅) m → Along Leaves m :=
    leaves_of_touches (Set.notMem_empty _)
  have hpool : ∀ raw, Along Leaves (emitPool env orders epoch sealers raw) := by
    intro raw
    exact along_inspect.bind fun _ => along_inspect.bind fun _ =>
      (hnone touches_creditIfAny).bind fun _ => (hnone (touches_splitReserve _)).bind fun _ =>
      (hprelude (touches_updateUptime sealers)).bind fun _ =>
      (hprelude (touches_emitClockRewards env epoch sealers)).bind fun _ =>
      (hnone (touches_emitTestnetRewards epoch)).bind fun _ =>
      leaves_when (leaves_emitActivity orders epoch _ _ _)
  exact (hprelude (along_free (touches_sweepExpired env orders.tasks epoch))).bind fun _ =>
    along_inspect.bind fun raw => leaves_when (hpool raw)

end Emission

/-! ## Runs -/

/-- A payment of a job, or the emission of an epoch. -/
inductive Step where
  | pay (p : InferenceJobPay)
  | emit (orders : RewardOrders) (epoch : ℕ) (sealers : List String)

def Step.run (env : Env) (s : Chain) : Step → Except Fault Unit × Chain
  | .pay p => (applyInferenceJobPay p).run s
  | .emit orders epoch sealers => (emitEpochRewards env orders epoch sealers).run s

/-- A step with the states around it. -/
structure Call where
  (step : Step) (before after : Chain) (ok : Bool)

def calls (env : Env) : Chain → List Step → List Call
  | _, [] => []
  | s, step :: rest =>
    ⟨step, s, (step.run env s).2, (step.run env s).1.isOk⟩ :: calls env (step.run env s).2 rest

/-- The payload fields of the record that `get_job` loads. -/
def proofOf (s : Chain) (id : String) : Option (String × Option String) :=
  (jobAt s id).map fun job => (job.inputHash, job.resultHash)

namespace Call

variable (c : Call)

/-- The epoch whose rewards the step emits. -/
def emitted : Option ℕ :=
  match c.step with
  | .emit _ epoch _ => some epoch
  | .pay _ => none

/-- The step is a payment that went through, of a job whose proofs nobody has paid to keep. -/
def Schedules (p : InferenceJobPay) : Prop :=
  c.step = .pay p ∧ c.ok = true ∧ ∃ job, jobAt c.before p.jobId = some job ∧ job.persistOnFs = false

/-- The emission takes payload fields from the record of a job. -/
def Clears (id : String) : Prop :=
  c.emitted.isSome = true ∧ proofOf c.before id ≠ none ∧ proofOf c.after id ≠ proofOf c.before id

instance (id : String) : Decidable (c.Clears id) :=
  inferInstanceAs (Decidable (c.emitted.isSome = true ∧ proofOf c.before id ≠ none ∧
    proofOf c.after id ≠ proofOf c.before id))

end Call

/-- Proofs stay for the window after the payment, are cleared once when the epoch `lag` after
it is processed, and what is left of the record still loads with its outcome. -/
structure Sound (lag : ℕ) (cs : List Call) : Prop where
  window : ∀ c ∈ cs, ∀ id epoch paid, c.emitted = some epoch → c.Clears id →
    (jobAt c.before id).bind (·.settledEpoch) = some paid →
      paid + inferencePruneWindowEpochs ≤ epoch
  once : ∀ earlier c later p, cs = earlier ++ c :: later → c.Schedules p →
    (∃ d ∈ later, d.emitted = some (p.epoch + lag)) →
      later.countP (fun d => d.Clears p.jobId) = 1
  loads : ∀ c ∈ cs, ∀ id job, c.emitted.isSome = true → jobAt c.before id = some job →
    job.status = .paid → ∃ job', jobAt c.after id = some job' ∧ job'.status = .paid ∧
      job'.verdicts = job.verdicts ∧ job'.maxFee = job.maxFee ∧ job'.awardedFee = job.awardedFee ∧
      job'.settledEpoch = job.settledEpoch

/-- No job comes due: none is paid before the epoch `lag` later is processed. -/
def NoneDue (lag : ℕ) (cs : List Call) : Prop :=
  ∀ earlier c later p, cs = earlier ++ c :: later → c.Schedules p →
    ∀ d ∈ later, d.emitted ≠ some (p.epoch + lag)

section Runs

variable {env : Env}

variable {steps : List Step}

/-- Every call of a run is a step from the state before it. -/
theorem of_mem_calls {s : Chain} {c : Call} (h : c ∈ calls env s steps) :
    c.after = (c.step.run env c.before).2 := by
  induction steps generalizing s with
  | nil => cases h
  | cons step rest ih =>
    rcases List.mem_cons.1 h with rfl | h
    · rfl
    · exact ih h

theorem leaves_of_emitted {s : Chain} {c : Call} (h : c ∈ calls env s steps)
    (hemit : c.emitted.isSome = true) : Leaves c.before c.after := by
  rw [of_mem_calls h]
  unfold Call.emitted at hemit
  split at hemit
  · next orders epoch sealers hstep =>
    rw [hstep]
    exact leaves_emitEpochRewards env orders epoch sealers c.before
  · cases hemit

theorem not_clears {s : Chain} {c : Call} (h : c ∈ calls env s steps)
    (id : String) : ¬ c.Clears id := by
  rintro ⟨hemit, hsome, hchanged⟩
  unfold proofOf at hsome hchanged
  cases hjob : jobAt c.before id with
  | none =>
    rw [hjob] at hsome
    exact hsome rfl
  | some job =>
    rw [hjob, leaves_of_emitted h hemit id job hjob] at hchanged
    exact hchanged rfl

/-- Whatever the epoch at which a job should be pruned, the pruning of a run is as it should be
exactly when no job comes due in it. -/
theorem pruning_sound_iff (env : Env) (s : Chain) (steps : List Step) (lag : ℕ) :
    Sound lag (calls env s steps) ↔ NoneDue lag (calls env s steps) := by
  constructor
  · intro h earlier c later p hsplit hpaid d hd hdue
    have hone := h.once earlier c later p hsplit hpaid ⟨d, hd, hdue⟩
    have hnever : later.countP (fun d => d.Clears p.jobId) = 0 := by
      refine List.countP_eq_zero.2 fun e he hclears => ?_
      have hmem : e ∈ calls env s steps := by
        rw [hsplit]
        exact List.mem_append_right _ (List.mem_cons_of_mem _ he)
      exact not_clears hmem p.jobId (of_decide_eq_true hclears)
    rw [hnever] at hone
    cases hone
  · intro h
    refine ⟨fun c hc id epoch paid _ hclears => absurd hclears (not_clears hc id), ?_, ?_⟩
    · rintro earlier c later p hsplit hpaid ⟨d, hd, hdue⟩
      exact absurd hdue (h earlier c later p hsplit hpaid d hd)
    · intro c hc id job hemit hjob hpaid
      exact ⟨job, leaves_of_emitted hc hemit id job hjob, hpaid, rfl, rfl, rfl, rfl⟩

end Runs

/-! ## A paid job -/

/-- A verified job. -/
def verifiedJob : InferenceJob :=
  { jobId := "j", requester := "r", model := "auto", mode := "solo", inputHash := "in",
    maxFee := 10, minReputation := 0, bidWindowEpochs := 2, deadlineEpoch := 20, postedEpoch := 1,
    status := .verified, winner := some "w", awardedFee := some 9, verifiers := ["v"],
    resultHash := some "out", latencyMs := some 5, disputedEpoch := none, claimedEpoch := none,
    settledEpoch := none, completedEpoch := some 3, persistOnFs := false,
    verdicts := [("v", "approved")], commits := [], minVerifiers := 1, nodeFingerprint := none }

def jobChain : Chain := ({} : Chain).stateSet .inferJob "j" verifiedJob

/-- A payment of epoch 5 in which nothing changes hands. -/
def jobPay : InferenceJobPay :=
  { jobId := "j", worker := "w", workerAmount := 0, verifierPayments := [], reviewerPayments := [],
    recycleAmount := 0, refundAmount := 0, dissenterSlashes := [], epoch := 5 }

/-- The payment, and the emissions one window and two windows later. -/
def jobCalls : List Call :=
  calls .bare jobChain [.pay jobPay, .emit .stored 105 [], .emit .stored 205 []]

theorem proofOf_of_leaves {s t : Chain} (h : Leaves s t) {id : String}
    {proof : String × Option String} (hproof : proofOf s id = some proof) :
    proofOf t id = some proof := by
  unfold proofOf at hproof ⊢
  obtain ⟨job, hjob, rfl⟩ := Option.map_eq_some_iff.1 hproof
  rw [h id job hjob, Option.map_some]

/-- Through any number of emissions. -/
theorem proofOf_of_emissions {env : Env} {steps : List Step} {s : Chain}
    (hsteps : ∀ step ∈ steps, ∃ orders epoch sealers, step = .emit orders epoch sealers)
    {id : String} {proof : String × Option String} (hproof : proofOf s id = some proof) :
    ∀ c ∈ calls env s steps, proofOf c.after id = some proof := by
  induction steps generalizing s with
  | nil => exact fun c hc => absurd hc List.not_mem_nil
  | cons step rest ih =>
    obtain ⟨orders, epoch, sealers, rfl⟩ := hsteps _ List.mem_cons_self
    have hnext := proofOf_of_leaves (leaves_emitEpochRewards env orders epoch sealers s) hproof
    intro c hc
    rcases List.mem_cons.1 hc with rfl | hc
    · exact hnext
    · exact ih (fun step hstep => hsteps step (List.mem_cons_of_mem _ hstep)) hnext c hc

def jobPaid : Chain := ((applyInferenceJobPay jobPay).run jobChain).2

/-- The emissions after the payment. -/
def jobEmissions : List Call := calls .bare jobPaid [.emit .stored 105 [], .emit .stored 205 []]

theorem jobCalls_eq : jobCalls = ⟨.pay jobPay, jobChain, jobPaid,
    ((applyInferenceJobPay jobPay).run jobChain).1.isOk⟩ :: jobEmissions := rfl

/-- The second emission takes the scheduled row away, the proofs stay where they are, and
neither one nor two windows after the payment is the job pruned. -/
theorem paid_job_never_pruned :
    jobCalls.map (fun c => (c.after.stateGet .pruneReady "105:j").isSome) = [true, true, false] ∧
      (∀ c ∈ jobCalls, proofOf c.after "j" = some ("in", some "out")) ∧
      ¬ Sound 100 jobCalls ∧ ¬ Sound 200 jobCalls := by
  have hnot : ∀ lag, (∃ d ∈ jobEmissions, d.emitted = some (jobPay.epoch + lag)) →
      ¬ Sound lag jobCalls := by
    intro lag hdue h
    have hone := h.once [] _ jobEmissions jobPay jobCalls_eq
      ⟨rfl, by decide, verifiedJob, rfl, rfl⟩ hdue
    have hnever : jobEmissions.countP (fun d => d.Clears jobPay.jobId) = 0 :=
      List.countP_eq_zero.2 fun e he hclears =>
        not_clears he jobPay.jobId (of_decide_eq_true hclears)
    rw [hnever] at hone
    cases hone
  refine ⟨by decide, fun c hc => ?_, hnot 100 ?_, hnot 200 ?_⟩
  · have hpaid : proofOf jobPaid "j" = some ("in", some "out") := by decide
    rw [jobCalls_eq] at hc
    rcases List.mem_cons.1 hc with rfl | hc
    · exact hpaid
    · refine proofOf_of_emissions (fun step hstep => ?_) hpaid c hc
      rcases List.mem_cons.1 hstep with rfl | hstep
      · exact ⟨_, _, _, rfl⟩
      · exact ⟨_, _, _, List.mem_singleton.1 hstep⟩
  · exact ⟨_, List.mem_cons_self, rfl⟩
  · exact ⟨_, List.mem_cons_of_mem _ List.mem_cons_self, rfl⟩

end HoneNode.Pruning
