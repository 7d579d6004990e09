import HoneNode.Ensemble.Majority

/-!
# Ensemble.Escrow — the fees of ensemble jobs

A job that is open for votes holds its fee. When it closes, the winners share
their part of the fee in whole hunits and what is left over goes nowhere; and a
job whose id is too short for its log line panics after the payments and stays
open. Where neither happens, balances and open fees together stay what they
were.
-/

namespace HoneNode.Ensemble

open Entry Prog Within Trace

/-- What the coordinator is called with. -/
inductive EnsembleOp where
  | post (p : EnsembleJobPost)
  | vote (b : EnsembleVote)
  | sweep (epoch : ℕ)

/-- The chain after a call, whether it went through or not. -/
def EnsembleOp.apply (env : Env) (s : Chain) : EnsembleOp → Chain
  | .post p => ((applyEnsembleJobPost env p).run s).2
  | .vote b => ((applyEnsembleVote env b).run s).2
  | .sweep epoch => ((sweepExpiredEnsembles env epoch).run s).2

/-- The coordinator from a chain on, its calls in any order. -/
def coordinator (env : Env) (start : Chain) : Component Chain EnsembleOp where
  init := (· = start)
  step := EnsembleOp.apply env

/-- Native balances and the fees of jobs that are still voting. -/
def money (s : Chain) : ℕ := s.nativeBalances + s.escrowOf .ensembleJob

/-- The vote is for an open job, in its window, by a worker who has not voted. -/
def Admits (job : EnsembleJob) (b : EnsembleVote) : Prop :=
  job.status = .voting ∧ b.epoch ≤ job.voteDeadline ∧ ∀ v ∈ job.votes, v.worker ≠ b.worker

instance (job : EnsembleJob) (b : EnsembleVote) : Decidable (Admits job b) :=
  inferInstanceAs (Decidable (_ ∧ _ ∧ ∀ v ∈ job.votes, _))

/-- A job that the call closes has an id that its log line can cut, and a pool that its winners
can share. -/
def Closes (env : Env) (s : Chain) : EnsembleOp → Prop
  | .post _ => True
  | .vote b => ∀ job ∈ s.stateGet .ensembleJob b.jobId, Admits job b →
      ∀ h ∈ verdict (withVote job b), (env.info = true → isBoundary job.jobId 12 = true) ∧
        ((withVote job b).winners h).length ∣ job.workerPool
  | .sweep epoch => ∀ r ∈ (s.state .ensembleJob).scan (hasPrefix ""),
      SoundEnsemble env epoch r.2 ∧ EvenEnsemble epoch r.2

instance (env : Env) (s : Chain) : (op : EnsembleOp) → Decidable (Closes env s op)
  | .post _ => inferInstanceAs (Decidable True)
  | .vote b => inferInstanceAs (Decidable (∀ job ∈ s.stateGet .ensembleJob b.jobId,
      Admits job b → ∀ h ∈ verdict (withVote job b), _ ∧ _))
  | .sweep _ => inferInstanceAs (Decidable
      (∀ r ∈ (s.state .ensembleJob).scan (hasPrefix ""), _ ∧ _))

/-! ## One call -/

section Calls

variable {env : Env} {s : Chain}

theorem touch_apply (op : EnsembleOp) : Touch {.ensembleJob} s (op.apply env s) := by
  have hmem : Family.ensembleJob ∈ ({.ensembleJob} : Set Family) := rfl
  cases op with
  | post p =>
    refine Along.bind along_inspect (fun _ => ?_) s
    refine touches_ensure.bind fun _ => touches_ensure.bind fun _ => ?_
    exact (touches_debit _).bind fun _ => (touches_stateSet hmem _ _ _).bind fun _ =>
      touches_logPrefix
  | vote b =>
    refine Along.bind along_inspect (fun _ => ?_) s
    refine touches_orBail.bind fun job => touches_ensure.bind fun _ => touches_ensure.bind fun _ =>
      touches_ensure.bind fun _ => ?_
    dsimp only
    split
    · exact (touches_finalizeJob env _ _).bind fun _ => touches_stateSet hmem _ _ _
    · exact (along_pure _).bind fun _ => touches_stateSet hmem _ _ _
  | sweep epoch => exact touches_sweepExpiredEnsembles env epoch hmem s

/-- The fee goes from the requester to the new record. -/
theorem holdings_post (p : EnsembleJobPost) :
    ((applyEnsembleJobPost env p).run s).2.holdings = s.holdings := by
  unfold applyEnsembleJobPost
  rw [run_stateGet_bind]
  by_cases hnone : (s.stateGet .ensembleJob p.jobId).isNone
  swap
  · rw [run_bind_error (by rw [run_ensure, if_neg hnone])]
  rw [run_ensure_bind hnone]
  by_cases hsize : minEnsembleSize ≤ p.nWorkers ∧ p.nWorkers ≤ maxEnsembleSize
  swap
  · rw [run_bind_error (by rw [run_ensure, if_neg hsize])]
  rw [run_ensure_bind hsize]
  by_cases hle : p.maxFee ≤ s.getBalance p.requester nativeToken
  swap
  · rw [run_bind_error (by rw [run_debit, if_neg hle])]
  rw [run_debit_bind hle, run_stateSet_bind,
    run_logPrefix_snd]
  have hset := holdings_stateSet (s.debited p.requester nativeToken p.maxFee) (f := .ensembleJob)
    p.jobId ⟨p.jobId, p.requester, p.model, p.inputHash, p.maxFee, p.nWorkers, p.epoch,
      wrapAdd p.epoch voteWindowEpochs, [], .voting, none⟩ (by decide)
  have hat : (s.debited p.requester nativeToken p.maxFee).escrowAt .ensembleJob p.jobId = 0 := by
    have hget : (s.debited p.requester nativeToken p.maxFee).stateGet .ensembleJob p.jobId = none :=
      Option.isNone_iff_eq_none.1 hnone
    unfold Chain.escrowAt
    rw [hget]
    rfl
  have hdeb := holdings_debited_native hle
  rw [hat, escrowed, if_pos rfl] at hset
  dsimp only at hset
  omega

theorem holdings_vote {b : EnsembleVote} (hcap : s.holdings < 2 ^ 64)
    (hcloses : Closes env s (.vote b)) :
    ((applyEnsembleVote env b).run s).2.holdings = s.holdings := by
  cases hget : s.stateGet .ensembleJob b.jobId with
  | none =>
    unfold applyEnsembleVote
    rw [run_stateGet_bind, hget]
    rfl
  | some job =>
    by_cases hadmits : Admits job b
    · have hclosing := hcloses job hget hadmits
      obtain ⟨hvoting, hwindow, hnew⟩ := hadmits
      obtain ⟨t, hrun, -, hsettles⟩ := run_vote True hget hvoting hwindow hnew hcap
        (fun h hh => (hclosing h hh).1) fun _ h hh => (hclosing h hh).2
      rw [hrun]
      exact hsettles.eq trivial
    · -- one of the three checks turns the vote down
      unfold applyEnsembleVote
      rw [run_stateGet_bind, hget, run_bind_ok (run_orBail_some _ _ _)]
      by_cases hvoting : job.status = .voting
      swap
      · rw [run_bind_error (by rw [run_ensure, if_neg hvoting])]
      rw [run_ensure_bind hvoting]
      by_cases hwindow : b.epoch ≤ job.voteDeadline
      swap
      · rw [run_bind_error (by rw [run_ensure, if_neg hwindow])]
      rw [run_ensure_bind hwindow]
      have hold : ¬ ∀ v ∈ job.votes, v.worker ≠ b.worker :=
        fun hnew => hadmits ⟨hvoting, hwindow, hnew⟩
      rw [run_bind_error (by rw [run_ensure, if_neg hold])]

/-- A call that closes its jobs evenly neither mints nor loses. -/
theorem holdings_apply {op : EnsembleOp} (hcap : s.holdings < 2 ^ 64) (hcloses : Closes env s op) :
    (op.apply env s).holdings = s.holdings := by
  cases op with
  | post p => exact holdings_post p
  | vote b => exact holdings_vote hcap hcloses
  | sweep epoch =>
    have hsettles : Settles True s ((sweepExpiredEnsembles env epoch).run s).2 :=
      settles_sweepExpiredEnsembles hcap (fun r hr => (hcloses r hr).1)
        fun _ r hr => (hcloses r hr).2
    exact hsettles.eq trivial

theorem money_of_holdings {op : EnsembleOp} (h : (op.apply env s).holdings = s.holdings) :
    money (op.apply env s) = money s := by
  have happ : Touch {.ensembleJob} s (op.apply env s) := touch_apply op
  have htouch := holdings_of_touch [.ensembleJob] (happ.mono fun f hf => by simpa using hf)
  have hfilter : escrowFamilies.filter (· ∈ [Family.ensembleJob]) = [.ensembleJob] := by decide
  rw [hfilter, h] at htouch
  simp only [List.map_cons, List.map_nil, List.sum_cons, List.sum_nil, Nat.add_zero] at htouch
  unfold money
  omega

end Calls

/-! ## Runs -/

/-- In every run that closes its jobs evenly, balances and open fees together are constant. -/
theorem coordinator_conserves_money {env : Env} {start s : Chain}
    {hist : List (Chain × EnsembleOp)} (hcap : start.holdings < 2 ^ 64)
    (h : Run (coordinator env start) (Closes env) hist s) : money s = money start := by
  have hkept : s.holdings = start.holdings ∧ money s = money start := by
    refine h.invariant (I := fun s => s.holdings = start.holdings ∧ money s = money start)
      ?_ ?_ ?_
    · rintro s rfl
      exact ⟨rfl, rfl⟩
    · rintro s op hcloses ⟨hhold, hmoney⟩
      have hsame := holdings_apply (by rw [hhold]; exact hcap) hcloses
      exact ⟨hsame.trans hhold, (money_of_holdings hsame).trans hmoney⟩
    · rintro s s' hs hI
      rw [show s' = s from hs]
      exact hI
  exact hkept.2

/-! ### Jobs of five workers -/

def requesterFunded : Chain := ({} : Chain).setBalance "req" nativeToken 5000

/-- Two workers of one mind close a job of three, and a job nobody votes on gives its fee back. -/
theorem conserves_money_two_winners :
    let ops := [.post (ensembleOf 3), .vote (voteOf "w1" "abc"), .vote (voteOf "w2" "abc"),
      .post { ensembleOf 3 with jobId := "job0000000003" }, .sweep 5]
    let s := (coordinator .bare requesterFunded).exec requesterFunded ops
    (s.getBalance "w1" nativeToken = 350 ∧ s.getBalance recycleFund nativeToken = 300 ∧
      s.getBalance "req" nativeToken = 4000) ∧ money s = money requesterFunded := by
  intro ops s
  have hlegal : Legal (coordinator .bare requesterFunded) (Closes .bare) requesterFunded ops := by
    decide
  refine ⟨by decide, ?_⟩
  exact coordinator_conserves_money (by decide +kernel) ((Run.start rfl).exec hlegal)

/-- Three winners of a job of five share 700 hunits, and one of these goes nowhere. -/
theorem hunit_lost_by_three_winners :
    let ops := [.post (ensembleOf 5), .vote (voteOf "w1" "abc"), .vote (voteOf "w2" "abc"),
      .vote (voteOf "w3" "abc")]
    let s := (coordinator .bare requesterFunded).exec requesterFunded ops
    money requesterFunded = 5000 ∧ money s = 4999 ∧ s.escrowOf .ensembleJob = 0 ∧
      s.getBalance "w1" nativeToken = 233 := by
  decide

end HoneNode.Ensemble
