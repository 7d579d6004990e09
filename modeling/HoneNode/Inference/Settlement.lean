import HoneNode.Inference.Jobs

/-!
# Inference.Settlement — whom the settlement pays and slashes

The daemon builds the pay entry of a job from its final status: the board's
verdict is not stored, so each builder assumes the verdict that usually leads to
its status. This module embeds the builders and says for which jobs a verifier
who voted with the board is paid and not slashed (`settlement_honest_iff`).
-/

namespace HoneNode.Settlement

open Entry Jobs

/-! ## The builders -/

def inferenceFeeWorkerBps : ℕ := 8000
def inferenceFeeVerifierBps : ℕ := 1500
def inferenceFeeRecycleBps : ℕ := 500
def inferenceFeeWorkerDisputedBps : ℕ := 7000
def inferenceFeeVerifierDisputedBps : ℕ := 1000
def inferenceFeeReviewerBps : ℕ := 1500
def inferenceFeeRecycleDisputedBps : ℕ := 500

/-- A share of the fee, in basis points. -/
def share (fee bps : ℕ) : ℕ := wrapMul fee bps / 10000

/-- Verifiers who voted for the consensus, and those who did not; without a board all
assigned verifiers count as consensus. -/
def splitBoardByConsensus (job : InferenceJob) (consensus : String) : List String × List String :=
  if job.verdicts = [] then (job.verifiers, [])
  else ((job.verdicts.filter (·.2 = consensus)).map (·.1),
    (job.verdicts.filter (·.2 ≠ consensus)).map (·.1))

def verifierWeight (s : Chain) (verifier : String) : ℕ :=
  if (getVerifierRep verifier s).weightHalved then 50 else 100

/-- Payments by weight, and slashes of an equal share. -/
def computeVerifierSplit (s : Chain) (consensus dissenters : List String) (pool : ℕ) :
    List (String × ℕ) × List (String × ℕ) :=
  let perHead := pool / max (consensus.length + dissenters.length) 1
  let totalWeight := max ((consensus.map (verifierWeight s)).sum % 2 ^ 64) 1
  (consensus.map fun v => (v, wrapMul pool (verifierWeight s v) / totalWeight),
    dissenters.map fun v => (v, perHead))

/-- The entry all builders make: the board is split by the verdict it is taken to have
reached, and what is not paid goes back to the requester. -/
def payEntry (s : Chain) (job : InferenceJob) (consensus worker : String)
    (workerAmount verifierPool recycleAmount : ℕ) (reviewerPayments : List (String × ℕ))
    (epoch : ℕ) : InferenceJobPay :=
  let board := splitBoardByConsensus job consensus
  let split := computeVerifierSplit s board.1 board.2 verifierPool
  let paid := wrapAdd (wrapAdd (wrapAdd workerAmount (wrapSum split.1)) (wrapSum reviewerPayments))
    recycleAmount
  ⟨job.jobId, worker, workerAmount, split.1, reviewerPayments, recycleAmount, job.maxFee - paid,
    split.2, epoch⟩

def reviewerShares (reviewers : List String) (pool : ℕ) : List (String × ℕ) :=
  reviewers.map fun r => (r, pool / max reviewers.length 1)

/-- Verified: the board approved. -/
def buildPayEntryHappy (s : Chain) (job : InferenceJob) (epoch : ℕ) :
    Option InferenceJobPay := do
  let worker ← job.winner
  let fee ← job.awardedFee
  pure (payEntry s job "approved" worker (share fee inferenceFeeWorkerBps)
    (share fee inferenceFeeVerifierBps) (share fee inferenceFeeRecycleBps) [] epoch)

/-- Reviewed: the board called for review, and the worker won it. -/
def buildPayEntryDisputed (s : Chain) (job : InferenceJob) (reviewers : List String) (epoch : ℕ) :
    Option InferenceJobPay := do
  let worker ← job.winner
  let fee ← job.awardedFee
  pure (payEntry s job "review_required" worker (share fee inferenceFeeWorkerDisputedBps)
    (share fee inferenceFeeVerifierDisputedBps) (share fee inferenceFeeRecycleDisputedBps)
    (reviewerShares reviewers (share fee inferenceFeeReviewerBps)) epoch)

/-- Rejected or without a claim: the worker gets nothing. -/
def buildPayEntryNofee (s : Chain) (job : InferenceJob) (reviewers : List String) (epoch : ℕ) :
    InferenceJobPay :=
  let fee := job.awardedFee.getD job.maxFee
  let reviewerPool := if reviewers = [] then 0 else share fee inferenceFeeReviewerBps
  payEntry s job "rejected" (job.winner.getD "__no_worker__") 0
    (share fee inferenceFeeVerifierDisputedBps) (share fee inferenceFeeRecycleDisputedBps)
    (reviewerShares reviewers reviewerPool) epoch

/-- The entry that settles a job of this status. -/
def settlement (s : Chain) (job : InferenceJob) (reviewers : List String) (epoch : ℕ) :
    Option InferenceJobPay :=
  match job.status with
  | .verified => buildPayEntryHappy s job epoch
  | .reviewed => buildPayEntryDisputed s job reviewers epoch
  | .noFee | .rejected => some (buildPayEntryNofee s job reviewers epoch)
  | _ => none

/-! ## Splitting by the right verdict -/

section Split

variable {s : Chain} {job : InferenceJob} {consensus worker : String}
  {workerAmount verifierPool recycleAmount epoch : ℕ} {reviewerPayments : List (String × ℕ)}

/-- Every verifier who voted `verdict` is paid and none of them slashed. -/
def HonestPaid (job : InferenceJob) (verdict : String) (pay : InferenceJobPay) : Prop :=
  ∀ v, (v, verdict) ∈ job.verdicts →
    (∀ n, (v, n) ∉ pay.dissenterSlashes) ∧ ∃ n, (v, n) ∈ pay.verifierPayments

theorem mem_slashes {v : String} (hv : (v, consensus) ∈ job.verdicts) {other : String}
    (hne : consensus ≠ other) : ∃ n, (v, n) ∈ (payEntry s job other worker workerAmount
      verifierPool recycleAmount reviewerPayments epoch).dissenterSlashes := by
  refine ⟨_, List.mem_map.2 ⟨v, ?_, rfl⟩⟩
  rw [splitBoardByConsensus, if_neg (List.ne_nil_of_mem hv)]
  exact List.mem_map.2 ⟨(v, consensus), List.mem_filter.2 ⟨hv, by simpa using hne⟩, rfl⟩

/-- Split by the verdict they voted for, they are among the paid only. -/
theorem honestPaid_payEntry (hdistinct : (job.verdicts.map (·.1)).Nodup) :
    HonestPaid job consensus (payEntry s job consensus worker workerAmount verifierPool
      recycleAmount reviewerPayments epoch) := by
  intro v hv
  have hne : job.verdicts ≠ [] := List.ne_nil_of_mem hv
  constructor
  · intro n hn
    obtain ⟨u, hu, heq⟩ := List.mem_map.1 hn
    cases heq
    rw [splitBoardByConsensus, if_neg hne] at hu
    obtain ⟨⟨w, verdict⟩, hw, rfl⟩ := List.mem_map.1 hu
    obtain ⟨hmem, hdiff⟩ := List.mem_filter.1 hw
    -- one vote each
    have hsame := List.inj_on_of_nodup_map hdistinct hv hmem rfl
    cases hsame
    simp at hdiff
  · refine ⟨_, List.mem_map.2 ⟨v, ?_, rfl⟩⟩
    rw [splitBoardByConsensus, if_neg hne]
    exact List.mem_map.2 ⟨(v, consensus), List.mem_filter.2 ⟨hv, by simp⟩, rfl⟩

end Split

/-! ## What the status says about the board -/

section Runs

variable {env : Env} {P : Chain → Op → Prop} {hist : List (Chain × Op)} {s : Chain} {op : Op}
  {id : String} {job job' : InferenceJob}

/-- The verdict of the board. -/
def boardVerdict (job : InferenceJob) : Option String :=
  resolveQuorumVerdict job.verdicts job.minVerifiers

structure Judged (job : InferenceJob) : Prop where
  voters : (job.verdicts.map (·.1)).Nodup
  awarded : job.status ≠ .posted → job.status ≠ .cancelled →
    job.winner.isSome ∧ job.awardedFee.isSome
  undisputed : job.status ∈ [.posted, .awarded, .completed] → job.disputedEpoch = none
  verified : job.status = .verified → boardVerdict job = some "approved"
  disputed : job.status ∈ [.disputed, .claimed, .reviewed] →
    boardVerdict job = some "review_required" ∧ job.disputedEpoch.isSome
  rejected : job.status = .rejected →
    (boardVerdict job = some "rejected" ∧ job.disputedEpoch = none) ∨
      (boardVerdict job = some "review_required" ∧ job.disputedEpoch.isSome)
  noFee : job.status ≠ .noFee

theorem judged_fresh (p : InferenceJobPost) (n : ℕ) : Judged (fresh p n) := by
  constructor <;> simp [fresh]

theorem judged_closed {epoch : ℕ} (hstatus : job.status = .completed)
    (hvoters : (job.verdicts.map (·.1)).Nodup) (hdisputed : job.disputedEpoch = none)
    (hwinner : job.winner.isSome) (hfee : job.awardedFee.isSome) : Judged (closed epoch job) := by
  unfold closed
  rcases Board.resolve_cases job.verdicts job.minVerifiers with h | h | h | h <;> rw [h]
  · constructor <;> simp [hstatus, hvoters, hdisputed, hwinner, hfee]
  · constructor <;> simp [boardVerdict, h, hvoters, hdisputed, hwinner, hfee]
  · constructor <;> simp [boardVerdict, h, hvoters, hdisputed, hwinner, hfee]
  · constructor <;> simp [boardVerdict, h, hvoters, hwinner, hfee]

theorem judged_move (hmove : Moves op job job') (h : Judged job) : Judged job' := by
  cases hmove with
  | awarded hs =>
    have hd := h.undisputed (by simp [hs])
    constructor <;> simp [h.voters, hd]
  | assigned hs =>
    have hd := h.undisputed (by simp [hs])
    constructor <;> simp [h.voters, hs, hd]
  | completed hs hworker =>
    have hd := h.undisputed (by simp [hs])
    have ha := h.awarded (by simp [hs]) (by simp [hs])
    constructor <;> simp [h.voters, hd, ha]
  | committed hs =>
    have hd := h.undisputed (by simp [hs])
    have ha := h.awarded (by simp [hs]) (by simp [hs])
    constructor <;> simp [h.voters, hs, hd, ha]
  | judged hs hassigned hnew hknown =>
    have ha := h.awarded (by simp [hs]) (by simp [hs])
    refine judged_closed hs ?_ (h.undisputed (by simp [hs])) ha.1 ha.2
    rw [List.map_append, List.nodup_append]
    refine ⟨h.voters, List.nodup_singleton _, ?_⟩
    rintro a hmem b hb rfl
    obtain ⟨v, hv, rfl⟩ := List.mem_map.1 hmem
    exact hnew v hv (List.mem_singleton.1 hb)
  | claimed hs =>
    have hd := h.disputed (by simp [hs])
    have ha := h.awarded (by simp [hs]) (by simp [hs])
    constructor <;> simp_all [boardVerdict, h.voters]
  | reviewed status hs hstatus =>
    have hd := h.disputed (by simp [hs])
    have ha := h.awarded (by simp [hs]) (by simp [hs])
    rcases hstatus with rfl | rfl
    · constructor <;> simp_all [boardVerdict, h.voters]
    · constructor <;> simp_all [boardVerdict, h.voters]
  | paid hs =>
    have ha := h.awarded (by rintro hp; simp [hp] at hs) (by rintro hp; simp [hp] at hs)
    constructor <;> simp [h.voters, ha]
  | cancelled hs => constructor <;> simp [h.voters]

/-- Voted down by the reviewers after the board had called for review, by somebody. -/
def OverruledBoard (job : InferenceJob) : Prop :=
  job.status = .rejected ∧ job.disputedEpoch.isSome ∧ ∃ v, (v, "review_required") ∈ job.verdicts

/-- In every run, a job that is ready to be settled is settled so that all verifiers who
voted with the board are paid and none of them slashed, except where the reviewers voted
down a job that the board had sent to them. -/
theorem settlement_honest_iff (h : Run env P hist s) (hjob : jobAt s id = some job)
    (hstatus : job.status ∈ [.verified, .reviewed, .noFee, .rejected]) (reviewers : List String)
    (epoch : ℕ) : ∃ verdict pay, boardVerdict job = some verdict ∧
      settlement s job reviewers epoch = some pay ∧
      (HonestPaid job verdict pay ↔ ¬ OverruledBoard job) := by
  obtain ⟨-, hjudged⟩ := h.jobs_keep (fun p _ => judged_fresh p _)
    (fun _ _ _ _ _ _ hmove hj => judged_move hmove hj) id job hjob
  obtain ⟨hwinner, hfee⟩ := hjudged.awarded (by rintro hp; simp [hp] at hstatus)
    (by rintro hp; simp [hp] at hstatus)
  obtain ⟨worker, hworker⟩ := Option.isSome_iff_exists.1 hwinner
  obtain ⟨fee, hfee⟩ := Option.isSome_iff_exists.1 hfee
  simp only [List.mem_cons, List.not_mem_nil, or_false] at hstatus
  rcases hstatus with hs | hs | hs | hs
  · obtain ⟨w, v, r, l, hpay⟩ : ∃ w v r l, settlement s job reviewers epoch =
        some (payEntry s job "approved" worker w v r l epoch) := by
      simp only [settlement, hs, buildPayEntryHappy, hworker, hfee]
      exact ⟨_, _, _, _, rfl⟩
    exact ⟨"approved", _, hjudged.verified hs, hpay,
      iff_of_true (honestPaid_payEntry hjudged.voters) (by simp [OverruledBoard, hs])⟩
  · obtain ⟨w, v, r, l, hpay⟩ : ∃ w v r l, settlement s job reviewers epoch =
        some (payEntry s job "review_required" worker w v r l epoch) := by
      simp only [settlement, hs, buildPayEntryDisputed, hworker, hfee]
      exact ⟨_, _, _, _, rfl⟩
    exact ⟨"review_required", _, (hjudged.disputed (by simp [hs])).1, hpay,
      iff_of_true (honestPaid_payEntry hjudged.voters) (by simp [OverruledBoard, hs])⟩
  · exact absurd hs hjudged.noFee
  · have hpay : settlement s job reviewers epoch =
        some (buildPayEntryNofee s job reviewers epoch) := by simp only [settlement, hs]
    rcases hjudged.rejected hs with ⟨hverdict, hnone⟩ | ⟨hverdict, hsome⟩
    · refine ⟨"rejected", _, hverdict, hpay, iff_of_true (honestPaid_payEntry hjudged.voters) ?_⟩
      simp [OverruledBoard, hnone]
    · refine ⟨"review_required", _, hverdict, hpay, ?_⟩
      constructor
      · rintro hhonest ⟨-, -, v, hv⟩
        obtain ⟨n, hn⟩ := mem_slashes hv (show "review_required" ≠ "rejected" by decide)
        exact (hhonest v hv).1 n hn
      · intro hover v hv
        exact absurd ⟨hs, hsome, v, hv⟩ hover

end Runs

/-- Two of three verifiers reject a job. -/
def rejectedJob : List Op :=
  [.post (samplePost "j" 3), sampleAward "j" "bob" "worker", sampleComplete "j",
    sampleVerify "j" "u" "approved" 0, sampleVerify "j" "v" "rejected" 0,
    sampleVerify "j" "w" "rejected" 0]

theorem settlement_honest_rejected : ∃ job verdict pay,
    jobAt (exec .bare funded rejectedJob) "j" = some job ∧
    settlement (exec .bare funded rejectedJob) job [] 1 = some pay ∧
      HonestPaid job verdict pay := by
  have hrun := (run_funded .bare fun _ _ => True).exec (legal_true funded rejectedJob)
  have hend : (jobAt (exec .bare funded rejectedJob) "j").map (fun job =>
      (job.status, job.disputedEpoch)) = some (.rejected, none) := by decide
  obtain ⟨job, hjob, heq⟩ := Option.map_eq_some_iff.1 hend
  obtain ⟨hstatus, hnone⟩ := Prod.mk.inj heq
  obtain ⟨verdict, pay, -, hpay, hiff⟩ :=
    settlement_honest_iff hrun hjob (by simp [hstatus]) [] 1
  exact ⟨job, verdict, pay, hjob, hpay, hiff.2 (by simp [OverruledBoard, hnone])⟩

/-- The only verifier calls for review, the worker claims, and three reviewers vote the
job down. -/
def overruledJob : List Op :=
  [.post (samplePost "j" 1), sampleAward "j" "bob" "worker", sampleComplete "j",
    sampleVerify "j" "v" "review_required" 0, .claim ⟨"j", "bob", none, 0, 1, "bob"⟩,
    .reviewVote ⟨"j", "r₁", false, 0, "r₁"⟩, .reviewVote ⟨"j", "r₂", false, 0, "r₂"⟩,
    .reviewVote ⟨"j", "r₃", false, 0, "r₃"⟩]

/-- The verifier whose verdict was the board's is slashed and not paid. -/
theorem settlement_slashes_honest :
    Run .bare (fun _ _ => True) (trace .bare funded overruledJob [])
      (exec .bare funded overruledJob) ∧
    (jobAt (exec .bare funded overruledJob) "j").map (fun job =>
      (boardVerdict job, job.verdicts)) =
        some (some "review_required", [("v", "review_required")]) ∧
    ((jobAt (exec .bare funded overruledJob) "j").bind fun job =>
      settlement (exec .bare funded overruledJob) job ["r₁", "r₂", "r₃"] 1).map
        (fun pay => (pay.verifierPayments, pay.dissenterSlashes)) = some ([], [("v", 1)]) := by
  refine ⟨(run_funded .bare _).exec (legal_true _ _), ?_, ?_⟩
  · decide
  · decide

end HoneNode.Settlement
