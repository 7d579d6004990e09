import HoneNode.Lib.Majority
import HoneNode.Lib.Trace
import HoneNode.Rewards.Expiry

/-!
# Ensemble.Majority — closing an ensemble before all workers voted

`apply_vote` looks for a winner once `(n_workers + 1) / 2` votes are in, and the
winner is the output of more than half of those votes, not of the workers. A
poll is sound if every winner has more than half of `n_workers` behind it and
none depends on the order of the votes; `Decided` says which polls are.
-/

namespace HoneNode.Ensemble

open Entry Prog Within Trace Majority

/-! ## The poll of one job -/

/-- Votes on a posted job; the rest of the node leaves its record alone. -/
def polling (env : Env) (posted : Chain) (id : String) : Component Chain EnsembleVote where
  init := (· = posted)
  step := fun s b => ((applyEnsembleVote env b).run s).2
  other := fun s s' => s'.stateGet .ensembleJob id = s.stateGet .ensembleJob id ∧
    s'.holdings < 2 ^ 64

/-- The votes of a history, in the order they came. -/
def ballots (hist : List (Chain × EnsembleVote)) : List EnsembleVote :=
  hist.reverse.map Prod.snd

/-- The output a job was finalized with. -/
def winner (s : Chain) (id : String) : Option String :=
  (s.stateGet .ensembleJob id).bind (·.winnerOutputHash)

/-- Votes of distinct workers on the job `p` posts, inside its window. -/
structure Polled (p : EnsembleJobPost) (ps : List EnsembleVote) : Prop where
  job : ∀ b ∈ ps, b.jobId = p.jobId
  window : ∀ b ∈ ps, b.epoch ≤ wrapAdd p.epoch voteWindowEpochs
  distinct : (ps.map (·.worker)).Nodup

/-- Whatever the order of the votes `ps`, a winner has more than half of the workers behind
it, and it is the same winner. -/
structure Sound (env : Env) (posted : Chain) (p : EnsembleJobPost)
    (ps : List EnsembleVote) : Prop where
  supported : ∀ hist s, Run (polling env posted p.jobId) (fun _ _ => True) hist s →
    (ballots hist).Perm ps → ∀ job h, s.stateGet .ensembleJob p.jobId = some job →
      job.winnerOutputHash = some h → p.nWorkers < 2 * (job.votes.map (·.outputHash)).count h
  order_free : ∀ hist hist' s s', Run (polling env posted p.jobId) (fun _ _ => True) hist s →
    Run (polling env posted p.jobId) (fun _ _ => True) hist' s' → (ballots hist).Perm ps →
      (ballots hist').Perm ps → winner s p.jobId = winner s' p.jobId

/-- Too few votes to look for a winner, or none that can win; else three workers and one output
with more than half of the votes and no rival with two, or five or seven workers of one mind. -/
def Decided (n : ℕ) (hashes : List String) : Prop :=
  hashes.length < (n + 1) / 2 ∨ (∀ h, hashes.count h ≤ (n + 1) / 4) ∨
    (n = 3 ∧ ∃ h, hashes.length < 2 * hashes.count h ∧ ∀ g, g ≠ h → hashes.count g ≤ 1) ∨
    ((n = 5 ∨ n = 7) ∧ ∃ h, ∀ x ∈ hashes, x = h)

/-! ## The rounding of the two thresholds -/

/-- Both thresholds together, for the sizes a job can have. -/
theorem decided_iff {n : ℕ} {hashes : List String}
    (hn : minEnsembleSize ≤ n ∧ n ≤ maxEnsembleSize) :
    Decided n hashes ↔
      (∀ ys, ys.Perm hashes → ∀ cast a, early ((n + 1) / 2) ys = some (cast, a) →
        n < 2 * cast.count a) ∧
      ∀ ys, ys.Perm hashes →
        (early ((n + 1) / 2) ys).map Prod.snd = (early ((n + 1) / 2) hashes).map Prod.snd := by
  unfold minEnsembleSize maxEnsembleSize at hn
  rw [support_iff (by omega), order_free_iff (by omega)]
  have hhalf : (n + 1) / 2 / 2 = (n + 1) / 4 := by omega
  rw [hhalf]
  have hle : ∀ h, hashes.count h ≤ hashes.length := fun _ => List.count_le_length
  constructor
  · rintro (hshort | hnone | ⟨rfl, h, hmajor, hrivals⟩ | ⟨hn, h, hall⟩)
    · exact ⟨.inl hshort, .inl hshort⟩
    · refine ⟨.inr ?_, .inr (.inl hnone)⟩
      intro a ha
      have := hnone a
      omega
    · refine ⟨.inr ?_, .inr (.inr ⟨h, hmajor, hrivals⟩)⟩
      intro a _
      omega
    · have hcount : hashes.count h = hashes.length := by
        refine List.count_eq_length.2 ?_
        intro x hx
        exact (hall x hx).symm
      have hzero : ∀ g, g ≠ h → hashes.count g = 0 := by
        intro g hg
        exact List.count_eq_zero_of_not_mem fun hmem => hg (hall g hmem)
      refine ⟨.inr ?_, ?_⟩
      · intro a ha
        by_cases hah : a = h
        · subst hah
          rw [hcount]
          omega
        · rw [hzero a hah] at ha
          omega
      · rcases Nat.eq_zero_or_pos hashes.length with h0 | hpos
        · exact .inl (by omega)
        · refine .inr (.inr ⟨h, by omega, ?_⟩)
          intro g hg
          rw [hzero g hg]
          omega
  · rintro ⟨hsupp, horder⟩
    rcases horder with hshort | hnone | ⟨h, hmajor, hrivals⟩
    · exact .inl hshort
    · exact .inr (.inl hnone)
    rcases hsupp with hshort | hsupp
    · exact .inl hshort
    rcases Nat.lt_or_ge ((n + 1) / 4) (hashes.count h) with hcan | hcannot
    · -- only odd sizes force enough votes on the winner, and but for three only if all agree
      have hforced := hsupp h hcan
      have := hle h
      by_cases h3 : n = 3
      · subst h3
        exact .inr (.inr (.inl ⟨rfl, h, hmajor, hrivals⟩))
      · have hodd : n = 5 ∨ n = 7 := by omega
        have hall : hashes.count h = hashes.length := by omega
        exact .inr (.inr (.inr ⟨hodd, h, fun x hx =>
          (List.count_eq_length.1 hall x hx).symm⟩))
    · refine .inr (.inl ?_)
      intro g
      by_cases hg : g = h
      · rw [hg]
        exact hcannot
      · exact hrivals g hg

/-! ## One vote -/

/-- A job with one more vote. -/
def withVote (job : EnsembleJob) (b : EnsembleVote) : EnsembleJob :=
  { job with votes := job.votes ++ [⟨b.worker, b.outputHash, b.epoch⟩] }

/-- The winner the votes of a job make. -/
def verdict (job : EnsembleJob) : Option String :=
  if (job.nWorkers + 1) / 2 ≤ job.votes.length then majorityHash job.votes else none

/-- A job as it is stored, with the winner it has. -/
def concluded (job : EnsembleJob) : Option String → EnsembleJob
  | some h => { job with status := .finalized, winnerOutputHash := some h }
  | none => job

theorem majorityHash_eq (votes : List EnsembleVoteRecord) :
    majorityHash votes = majority (votes.map (·.outputHash)) := by
  unfold majorityHash majority
  rw [List.length_map]

section Votes

variable {env : Env} {s : Chain} {job : EnsembleJob} {b : EnsembleVote}

/-- Shares without a remainder add up to the pool. -/
theorem div_max_mul_cancel {n pool : ℕ} (h : n ∣ pool) : pool / max n 1 * n = pool := by
  rcases Nat.eq_zero_or_pos n with rfl | hpos
  · rw [Nat.mul_zero, Nat.eq_zero_of_zero_dvd h]
  · rw [max_eq_left hpos, Nat.div_mul_cancel h]

/-- A vote on a closed job is refused. -/
theorem run_vote_closed (hjob : s.stateGet .ensembleJob b.jobId = some job)
    (hclosed : job.status ≠ .voting) : ((applyEnsembleVote env b).run s).2 = s := by
  unfold applyEnsembleVote
  rw [run_stateGet_bind, hjob, run_bind_ok (run_orBail_some _ _ _),
    run_bind_error (by rw [run_ensure, if_neg hclosed])]

/-- Storing an open job with its winner, which is paid from the fee the job holds. -/
theorem run_conclude {lossless : Prop} {key : String} {win : Option String}
    (hat : s.escrowAt .ensembleJob key = job.maxFee) (hvoting : job.status = .voting)
    (hcap : s.holdings < 2 ^ 64)
    (hlog : ∀ h ∈ win, env.info = true → isBoundary job.jobId 12 = true)
    (heven : lossless → ∀ h ∈ win, (job.winners h).length ∣ job.workerPool) :
    ∃ t, (do
        let closed ← match win with
          | some h => finalizeJob env job h
          | none => pure job
        stateSet .ensembleJob key closed : Prog {} Unit).run s = (.ok (), t) ∧
      t.stateGet .ensembleJob key = some (concluded job win) ∧ Settles lossless s t := by
  cases win with
  | none =>
    rw [run_bind_ok (run_pure _ _), run_stateSet]
    have hset := holdings_stateSet s (f := .ensembleJob) key job (by decide)
    rw [hat, escrowed, if_pos hvoting] at hset
    exact ⟨_, rfl, by rw [stateGet_stateSet, if_pos rfl]; rfl, .of_eq (by omega)⟩
  | some h =>
    have hroom : Room .ensembleJob key job.maxFee s := by
      unfold Room
      omega
    obtain ⟨t, hrun, hhold, hstate⟩ := run_finalizeJob h hroom (hlog h rfl)
    rw [run_bind_ok hrun, run_stateSet]
    have hset := holdings_stateSet t (f := .ensembleJob) key
      { job with status := .finalized, winnerOutputHash := some h } (by decide)
    have hat' : t.escrowAt .ensembleJob key = job.maxFee := by
      rw [← hat]
      unfold Chain.escrowAt Chain.stateGet
      rw [hstate]
    rw [hat', escrowed_of_not_voting (by simp)] at hset
    have hpool : job.workerPool / max (job.winners h).length 1 * (job.winners h).length ≤
        job.workerPool :=
      (Nat.mul_le_mul_left _ (le_max_left _ _)).trans (Nat.div_mul_le_self _ _)
    have hle := workerPool_le job
    refine ⟨_, rfl, by rw [stateGet_stateSet, if_pos rfl]; rfl, by omega, ?_⟩
    intro he
    have hshares := div_max_mul_cancel (heven he h rfl)
    omega

/-- A vote of a new worker on an open job is recorded, and with it the winner it makes. -/
theorem run_vote (lossless : Prop) (hjob : s.stateGet .ensembleJob b.jobId = some job)
    (hvoting : job.status = .voting) (hwindow : b.epoch ≤ job.voteDeadline)
    (hnew : ∀ v ∈ job.votes, v.worker ≠ b.worker) (hcap : s.holdings < 2 ^ 64)
    (hlog : ∀ h ∈ verdict (withVote job b), env.info = true →
      isBoundary job.jobId 12 = true)
    (heven : lossless → ∀ h ∈ verdict (withVote job b),
      ((withVote job b).winners h).length ∣ job.workerPool) :
    ∃ t, (applyEnsembleVote env b).run s = (.ok (), t) ∧
      t.stateGet .ensembleJob b.jobId =
        some (concluded (withVote job b) (verdict (withVote job b))) ∧ Settles lossless s t := by
  unfold applyEnsembleVote
  rw [run_stateGet_bind, hjob, run_bind_ok (run_orBail_some _ _ _),
    run_ensure_bind hvoting,
    run_ensure_bind hwindow,
    run_ensure_bind hnew]
  have hat : s.escrowAt .ensembleJob b.jobId = (withVote job b).maxFee := by
    rw [escrowAt_of_get hjob, escrowed, if_pos hvoting]
    rfl
  exact run_conclude hat hvoting hcap hlog heven

/-- An accepted post stores an open job, under an id the log line could cut. -/
theorem of_post {p : EnsembleJobPost} {posted : Chain}
    (h : (applyEnsembleJobPost env p).run s = (.ok (), posted)) :
    (minEnsembleSize ≤ p.nWorkers ∧ p.nWorkers ≤ maxEnsembleSize) ∧
      posted.stateGet .ensembleJob p.jobId = some ⟨p.jobId, p.requester, p.model, p.inputHash,
        p.maxFee, p.nWorkers, p.epoch, wrapAdd p.epoch voteWindowEpochs, [], .voting, none⟩ ∧
      (env.info = true → isBoundary p.jobId 12 = true) := by
  unfold applyEnsembleJobPost at h
  obtain ⟨_, _, -, h⟩ := run_bind_eq_ok.1 h
  obtain ⟨_, _, -, h⟩ := run_bind_eq_ok.1 h
  obtain ⟨_, _, hsize, h⟩ := run_bind_eq_ok.1 h
  obtain ⟨_, t, -, h⟩ := run_bind_eq_ok.1 h
  rw [run_stateSet_bind] at h
  refine ⟨?_, ?_, ?_⟩
  · rw [run_ensure] at hsize
    by_contra hnot
    rw [if_neg hnot] at hsize
    cases hsize
  · have hposted := congrArg Prod.snd h
    rw [run_logPrefix_snd] at hposted
    dsimp only at hposted
    rw [← hposted, stateGet_stateSet, if_pos rfl]
  · exact isBoundary_of_run_logPrefix (congrArg Prod.fst h)

end Votes

/-! ## Runs -/

/-- The record of the job `p` posts after the votes `bs`. -/
structure Stands (p : EnsembleJobPost) (bs : List EnsembleVote) (job : EnsembleJob) :
    Prop where
  id : job.jobId = p.jobId
  size : job.nWorkers = p.nWorkers
  deadline : job.voteDeadline = wrapAdd p.epoch voteWindowEpochs
  polling : early ((p.nWorkers + 1) / 2) (bs.map (·.outputHash)) = none →
    job.status = .voting ∧ job.winnerOutputHash = none ∧
      job.votes = bs.map fun b => ⟨b.worker, b.outputHash, b.epoch⟩
  closed : ∀ cast h, early ((p.nWorkers + 1) / 2) (bs.map (·.outputHash)) = some (cast, h) →
    job.status ≠ .voting ∧ job.winnerOutputHash = some h ∧ job.votes.map (·.outputHash) = cast

section Runs

variable {env : Env} {s posted : Chain} {p : EnsembleJobPost}
  {bs ps : List EnsembleVote} {b : EnsembleVote} {job : EnsembleJob}
  {hist : List (Chain × EnsembleVote)}

theorem Polled.perm (h : Polled p ps) (hperm : bs.Perm ps) : Polled p bs where
  job := fun b hb => h.job b (hperm.mem_iff.1 hb)
  window := fun b hb => h.window b (hperm.mem_iff.1 hb)
  distinct := (hperm.map _).nodup_iff.2 h.distinct

theorem Polled.front (h : Polled p (bs ++ ps)) : Polled p bs where
  job := fun b hb => h.job b (List.mem_append_left _ hb)
  window := fun b hb => h.window b (List.mem_append_left _ hb)
  distinct := by
    have := h.distinct
    rw [List.map_append] at this
    exact this.of_append_left

/-- One more vote on an open job. -/
theorem Stands.vote (h : Stands p bs job)
    (hopen : early ((p.nWorkers + 1) / 2) (bs.map (·.outputHash)) = none) (b : EnsembleVote) :
    Stands p (bs ++ [b]) (concluded (withVote job b) (verdict (withVote job b))) := by
  obtain ⟨hstatus, hnone, hvotes⟩ := h.polling hopen
  have hhashes : (withVote job b).votes.map (·.outputHash) = (bs ++ [b]).map (·.outputHash) := by
    simp [withVote, hvotes]
  have hverdict : early ((p.nWorkers + 1) / 2) ((bs ++ [b]).map (·.outputHash)) =
      (verdict (withVote job b)).map ((withVote job b).votes.map (·.outputHash), ·) := by
    unfold verdict
    rw [majorityHash_eq, hhashes, List.map_append, List.map_singleton, early_concat, hopen,
      Option.none_or]
    have hsize : (withVote job b).nWorkers = p.nWorkers := h.size
    have hlen : (withVote job b).votes.length = (bs.map (·.outputHash) ++ [b.outputHash]).length := by
      simp [withVote, hvotes]
    rw [hsize, hlen]
    split <;> rfl
  cases hwin : verdict (withVote job b) with
  | none =>
    rw [hwin] at hverdict
    refine ⟨h.id, h.size, h.deadline, fun _ => ⟨hstatus, hnone, ?_⟩, ?_⟩
    · simp [concluded, withVote, hvotes]
    · intro cast a hcast
      rw [hverdict] at hcast
      cases hcast
  | some a =>
    rw [hwin] at hverdict
    refine ⟨h.id, h.size, h.deadline, ?_, ?_⟩
    · intro hcontra
      rw [hverdict] at hcontra
      cases hcontra
    · intro cast a' hcast
      rw [hverdict] at hcast
      cases hcast
      exact ⟨by simp [concluded], rfl, rfl⟩

/-- In every run of votes the record stands as the first decision left it. -/
theorem stands_run (hposted : ∃ s₀, (applyEnsembleJobPost env p).run s₀ = (.ok (), posted))
    (hcap : posted.holdings < 2 ^ 64)
    (h : Run (polling env posted p.jobId) (fun _ _ => True) hist s)
    (hps : Polled p (ballots hist)) :
    s.holdings < 2 ^ 64 ∧
      ∃ job, s.stateGet .ensembleJob p.jobId = some job ∧ Stands p (ballots hist) job := by
  obtain ⟨s₀, hpost⟩ := hposted
  obtain ⟨-, hget, hlog⟩ := of_post hpost
  induction h with
  | @start s hs =>
    obtain rfl : s = posted := hs
    refine ⟨hcap, _, hget, rfl, rfl, rfl, fun _ => ⟨rfl, rfl, rfl⟩, ?_⟩
    intro cast a hcast
    simp [ballots] at hcast
  | @step hist s b _ _ ih =>
    have hballots : ballots ((s, b) :: hist) = ballots hist ++ [b] := by simp [ballots]
    rw [hballots] at hps ⊢
    obtain ⟨hcap, job, hjob, hstands⟩ := ih hps.front
    have hid : b.jobId = p.jobId := hps.job b (by simp)
    rw [← hid] at hjob ⊢
    cases hearly : early ((p.nWorkers + 1) / 2) ((ballots hist).map (·.outputHash)) with
    | none =>
      obtain ⟨hvoting, -, hvotes⟩ := hstands.polling hearly
      have hnew : ∀ v ∈ job.votes, v.worker ≠ b.worker := by
        intro v hv heq
        rw [hvotes] at hv
        obtain ⟨b', hb', rfl⟩ := List.mem_map.1 hv
        have hdistinct := hps.distinct
        rw [List.map_append, List.nodup_append] at hdistinct
        exact hdistinct.2.2 _ (List.mem_map_of_mem hb') _ (by simp) heq
      have hlog' : env.info = true → isBoundary job.jobId 12 = true := by
        rw [hstands.id]
        exact hlog
      obtain ⟨t, hrun, ht, hsettles⟩ := run_vote False hjob hvoting
        (by rw [hstands.deadline]; exact hps.window b (by simp)) hnew hcap (fun _ _ => hlog')
        False.elim
      have hstep : (polling env posted p.jobId).step s b = t := congrArg Prod.snd hrun
      rw [hid, hstep, ← hid]
      exact ⟨lt_of_le_of_lt hsettles.le hcap, _, ht, hstands.vote hearly b⟩
    | some r =>
      obtain ⟨cast, a⟩ := r
      have hstep : (polling env posted p.jobId).step s b = s :=
        run_vote_closed hjob (hstands.closed cast a hearly).1
      have hstill := early_append_of_some hearly [b.outputHash]
      rw [hid, hstep, ← hid]
      refine ⟨hcap, job, hjob, hstands.id, hstands.size, hstands.deadline, ?_, ?_⟩
      · intro hcontra
        rw [List.map_append, List.map_singleton, hstill] at hcontra
        cases hcontra
      · intro cast' a' hcast
        rw [List.map_append, List.map_singleton, hstill] at hcast
        cases hcast
        exact hstands.closed cast a hearly
  | other _ hs ih =>
    obtain ⟨-, job, hjob, hstands⟩ := ih hps
    exact ⟨hs.2, job, hs.1.trans hjob, hstands⟩

theorem winner_run (hposted : ∃ s₀, (applyEnsembleJobPost env p).run s₀ = (.ok (), posted))
    (hcap : posted.holdings < 2 ^ 64)
    (h : Run (polling env posted p.jobId) (fun _ _ => True) hist s)
    (hps : Polled p (ballots hist)) :
    winner s p.jobId =
      (early ((p.nWorkers + 1) / 2) ((ballots hist).map (·.outputHash))).map Prod.snd := by
  obtain ⟨-, job, hjob, hstands⟩ := stands_run hposted hcap h hps
  unfold winner
  rw [hjob, Option.bind_some]
  cases hearly : early ((p.nWorkers + 1) / 2) ((ballots hist).map (·.outputHash)) with
  | none => exact (hstands.polling hearly).2.1
  | some r => exact (hstands.closed r.1 r.2 hearly).2.1

/-- Every order of the outputs is one of the votes, and there is a run of it. -/
theorem exists_run_of_perm (env : Env) (posted : Chain) (p : EnsembleJobPost)
    {ys : List String} (hperm : ys.Perm (ps.map (·.outputHash))) :
    ∃ hist s, Run (polling env posted p.jobId) (fun _ _ => True) hist s ∧
      (ballots hist).Perm ps ∧ (ballots hist).map (·.outputHash) = ys := by
  obtain ⟨qs, rfl, hqs⟩ : ∃ qs : List EnsembleVote,
      ys = qs.map (·.outputHash) ∧ qs.Perm ps := by
    have hcomp := List.eq_map_comp_perm fun b : EnsembleVote => b.outputHash
    obtain ⟨qs, hmap, hqs⟩ := (congrFun (congrFun hcomp ys) ps).mpr hperm
    exact ⟨qs, hmap, hqs⟩
  have hballots : ballots ((polling env posted p.jobId).record posted qs []) = qs :=
    Component.record_ops _ _ _ _
  refine ⟨_, _, (Run.start rfl).exec (legal_true posted qs), ?_, ?_⟩
  · rw [hballots]
    exact hqs
  · rw [hballots]

/-- A poll of an accepted job is sound exactly when its outputs are decided. -/
theorem sound_iff_decided (hposted : ∃ s₀, (applyEnsembleJobPost env p).run s₀ = (.ok (), posted))
    (hcap : posted.holdings < 2 ^ 64) (hps : Polled p ps) :
    Sound env posted p ps ↔ Decided p.nWorkers (ps.map (·.outputHash)) := by
  have hsize := (of_post hposted.choose_spec).1
  rw [decided_iff hsize]
  constructor
  · intro h
    refine ⟨?_, ?_⟩
    · intro ys hperm cast a hearly
      obtain ⟨hist, s, hrun, hbs, rfl⟩ := exists_run_of_perm env posted p hperm
      obtain ⟨-, job, hjob, hstands⟩ := stands_run hposted hcap hrun (hps.perm hbs)
      obtain ⟨-, hwin, rfl⟩ := hstands.closed cast a hearly
      exact h.supported hist s hrun hbs job a hjob hwin
    · intro ys hperm
      obtain ⟨hist, s, hrun, hbs, rfl⟩ := exists_run_of_perm env posted p hperm
      obtain ⟨hist', s', hrun', hbs', hsame⟩ := exists_run_of_perm env posted p
        (List.Perm.refl (ps.map (·.outputHash)))
      rw [← hsame, ← winner_run hposted hcap hrun (hps.perm hbs),
        ← winner_run hposted hcap hrun' (hps.perm hbs')]
      exact h.order_free hist hist' s s' hrun hrun' hbs hbs'
  · rintro ⟨hsupp, horder⟩
    refine ⟨?_, ?_⟩
    · intro hist s hrun hbs job h hjob hwin
      obtain ⟨-, job', hjob', hstands⟩ := stands_run hposted hcap hrun (hps.perm hbs)
      obtain rfl : job = job' := Option.some.inj (hjob.symm.trans hjob')
      cases hearly : early ((p.nWorkers + 1) / 2) ((ballots hist).map (·.outputHash)) with
      | none =>
        rw [(hstands.polling hearly).2.1] at hwin
        cases hwin
      | some r =>
        obtain ⟨cast, a⟩ := r
        obtain ⟨-, hwin', rfl⟩ := hstands.closed cast a hearly
        obtain rfl : a = h := Option.some.inj (hwin'.symm.trans hwin)
        exact hsupp _ (hbs.map _) _ a hearly
    · intro hist hist' s s' hrun hrun' hbs hbs'
      rw [winner_run hposted hcap hrun (hps.perm hbs),
        winner_run hposted hcap hrun' (hps.perm hbs'), horder _ (hbs.map _), horder _ (hbs'.map _)]

end Runs

/-! ### A requester and its workers -/

def ensembleOf (n : ℕ) : EnsembleJobPost :=
  ⟨"job0000000002", "req", "qwen2.5:0.5b", "abc123", 1000, n, 1, 1, "req", none⟩

def voteOf (worker hash : String) : EnsembleVote :=
  ⟨"job0000000002", worker, hash, 2, 1, worker, none⟩

/-- The chain after the job of `n` workers was posted. -/
def postedJob (n : ℕ) : Chain :=
  ((applyEnsembleJobPost .bare (ensembleOf n)).run (({} : Chain).setBalance "req" nativeToken 1000)).2

/-- Two of three workers agree, the third does not. -/
theorem sound_three_workers :
    let ps := [voteOf "w1" "abc", voteOf "w2" "abc", voteOf "w3" "xyz"]
    Polled (ensembleOf 3) ps ∧ Sound .bare (postedJob 3) (ensembleOf 3) ps := by
  intro ps
  have hposted : ∃ s₀, (applyEnsembleJobPost .bare (ensembleOf 3)).run s₀ = (.ok (), postedJob 3) :=
    ⟨({} : Chain).setBalance "req" nativeToken 1000, by rfl⟩
  have hps : Polled (ensembleOf 3) ps := by
    refine ⟨?_, ?_, ?_⟩ <;> decide
  refine ⟨hps, (sound_iff_decided hposted (by decide +kernel) hps).2 ?_⟩
  refine .inr (.inr (.inl ⟨rfl, "abc", by decide, ?_⟩))
  intro g hg
  by_cases hx : g = "xyz"
  · subst hx
    decide
  · rw [List.count_eq_zero_of_not_mem]
    · decide
    · simp [ps, voteOf, hg, hx]

/-- One vote settles a job of two workers, and two against one a job of five; four votes on a
job of three settle it for whichever output comes first. -/
theorem settled_by_minority :
    let poll := fun (n : ℕ) (ps : List EnsembleVote) =>
      (((polling .bare (postedJob n) "job0000000002").exec (postedJob n) ps).stateGet .ensembleJob
        "job0000000002").map fun job =>
          (job.winnerOutputHash, (job.votes.map (·.outputHash)).count "abc")
    let two := [voteOf "w1" "abc", voteOf "w2" "abc"]
    let others := [voteOf "w3" "xyz", voteOf "w4" "xyz"]
    poll 2 [voteOf "w1" "abc"] = some (some "abc", 1) ∧ ¬ 2 < 2 * 1 ∧
      poll 5 (two ++ [voteOf "w3" "xyz"]) = some (some "abc", 2) ∧ ¬ 5 < 2 * 2 ∧
      poll 3 (two ++ others) = some (some "abc", 2) ∧
      poll 3 (others ++ two) = some (some "xyz", 0) := by
  decide

end HoneNode.Ensemble
