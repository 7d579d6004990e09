import HoneNode.Rewards.Expiry

/-!
# Agents.Agreement — the verdict on a task, node by node

Each node tallies the reveals of a task into a hash map of its own and takes
the largest entry it comes across last. `settlement` is what one node pays and
records; nodes differ in the order the reveals reached them and in the order
they visit the map. They agree exactly when no two results tie for the most
votes.
-/

namespace HoneNode.Agents

open Prog Within

/-- What settling a task records and pays. -/
structure Settlement where
  entry : Entry.AgentTaskSettle
  winners : List String
  refund : ℕ

/-- The panic of a tally without votes. -/
def unwrapNone : Fault := .panic "called Option::unwrap() on a None value"

/-- The verifiers' cut, split among the winners. -/
def perVerifier (verifierCutTotal : ℕ) (winners : List String) : ℕ :=
  if winners = [] then 0 else verifierCutTotal / winners.length

/-- The payments once the winning hash is known. -/
def outcome (epoch : ℕ) (task : AgentTask) (agent agentHash winningHash : String) : Settlement :=
  let winners := (task.reveals.filter (·.resultHash = winningHash)).map (·.verifier)
  let verifierCutTotal := satMul task.agreedFee 10 / 100
  let agentFee := if agentHash = winningHash then task.agreedFee - verifierCutTotal else 0
  ⟨⟨task.taskId, agent, winningHash, agentFee, perVerifier verifierCutTotal winners, epoch⟩,
    winners, task.maxFee - agentFee - satMul (perVerifier verifierCutTotal winners) winners.length⟩

/-- What `try_settle` settles a task with, if it does. -/
def settlement (order : Tally.HashOrder (String × ℕ)) (epoch : ℕ) (task : AgentTask) :
    Option Settlement :=
  match task.agent, task.resultHash with
  | some agent, some agentHash =>
    if task.status ≠ .verifying ∨ task.reveals.length < task.minVerifiers then none
    else (Tally.maxByKey Prod.snd (order.visit (Tally.tally (task.reveals.map (·.resultHash))))).map
      fun best => outcome epoch task agent agentHash best.1
  | _, _ => none

/-- The task on a node that heard the reveals in another order. -/
def heard (task : AgentTask) (reveals : List VerifierReveal) : AgentTask :=
  { task with reveals := reveals }

/-- The votes for a result. -/
def votesFor (task : AgentTask) (hash : String) : ℕ :=
  (task.reveals.map (·.resultHash)).count hash

/-- The same entry recorded and the same verifiers paid. -/
structure Settlement.Same (x y : Settlement) : Prop where
  entry : x.entry = y.entry
  winners : x.winners.Perm y.winners
  refund : x.refund = y.refund

/-- Every node settles a task the same way, for a hash with strictly most votes. -/
structure Agreement (epoch : ℕ) (task : AgentTask) : Prop where
  same : ∀ order order' reveals reveals', reveals.Perm task.reveals → reveals'.Perm task.reveals →
    Option.Rel Settlement.Same (settlement order epoch (heard task reveals))
      (settlement order' epoch (heard task reveals'))
  strict : ∀ order, ∀ x ∈ settlement order epoch task, ∀ h, h ≠ x.entry.winningHash →
    votesFor task h < votesFor task x.entry.winningHash

/-- Once a task can be settled, one result has strictly most votes, if there are any. -/
def Clear (task : AgentTask) : Prop :=
  task.settleable = true → task.reveals = [] ∨ ∃ h, ∀ g, g ≠ h → votesFor task g < votesFor task h

section Node

variable {order : Tally.HashOrder (String × ℕ)} {epoch : ℕ} {task : AgentTask} {s : Chain}

/-! ## One node -/

theorem settleable_iff : task.settleable = true ↔ task.status = .verifying ∧
    task.agent.isSome = true ∧ task.resultHash.isSome = true ∧
      task.minVerifiers ≤ task.reveals.length := by
  simp [AgentTask.settleable, and_assoc]

/-- A settlement is the outcome for the hash the tally is won by. -/
theorem of_settlement {x : Settlement} (hx : settlement order epoch task = some x) :
    task.settleable = true ∧ ∃ agent agentHash best, task.agent = some agent ∧
      task.resultHash = some agentHash ∧ Tally.maxByKey Prod.snd
        (order.visit (Tally.tally (task.reveals.map (·.resultHash)))) = some best ∧
      x = outcome epoch task agent agentHash best.1 := by
  unfold settlement at hx
  split at hx
  · next agent agentHash hagent hhash =>
    split at hx
    · cases hx
    · next hready =>
      obtain ⟨best, hbest, rfl⟩ := Option.map_eq_some_iff.1 hx
      refine ⟨?_, agent, agentHash, best, hagent, hhash, hbest, rfl⟩
      simp only [not_or, not_not, not_lt] at hready
      simp [AgentTask.settleable, hready.1, hready.2, hagent, hhash]
  · cases hx

/-- `try_settle` pays its settlement and closes the task; without one it changes nothing, and
panics on a task that is ready but has no reveals. -/
theorem run_trySettle (order : Tally.HashOrder (String × ℕ)) (epoch : ℕ)
    (hget : s.stateGet .agentTask task.taskId = some task) :
    match settlement order epoch task with
    | some x => (trySettle order task.taskId : Prog {} Unit).run s =
        (paySettlement task x.entry.agent x.winners x.entry.feePaid x.entry.verifierCut
          x.refund).run s
    | none => (trySettle order task.taskId : Prog {} Unit).run s =
        (if task.settleable then .error unwrapNone else .ok (), s) := by
  have hload : (loadTask task.taskId : Prog {} AgentTask).run s = (.ok task, s) := by
    unfold loadTask
    rw [run_stateGet_bind, hget]
    rfl
  unfold trySettle
  rw [run_bind_ok hload]
  cases hx : settlement order epoch task with
  | some x =>
    obtain ⟨hready, agent, agentHash, best, hagent, hhash, hbest, rfl⟩ := of_settlement hx
    rw [settleable_iff] at hready
    dsimp only
    split
    · next agent' agentHash' hagent' hhash' =>
      obtain rfl : agent = agent' := Option.some.inj (hagent.symm.trans hagent')
      obtain rfl : agentHash = agentHash' := Option.some.inj (hhash.symm.trans hhash')
      obtain ⟨winningHash, votes⟩ := best
      rw [if_neg (by simp [hready.1, hready.2.2.2]), hbest]
      rfl
    · next hnone => exact absurd hhash (hnone agent agentHash hagent)
  | none =>
    dsimp only
    split
    · next agent agentHash hagent hhash =>
      split
      · next hnot =>
        have hready : task.settleable = false := by
          rcases hnot with hnot | hnot
          · simp [AgentTask.settleable, hnot]
          · simp [AgentTask.settleable, hnot]
        rw [hready]
        rfl
      · next hready =>
        split
        · have hready : task.settleable = true := by
            simp only [not_or, not_not, not_lt] at hready
            simp [AgentTask.settleable, hready.1, hready.2, hagent, hhash]
          rw [hready]
          rfl
        · next best votes hbest =>
          -- then there was something to settle
          unfold settlement at hx
          rw [hagent, hhash] at hx
          dsimp only at hx
          rw [if_neg hready, hbest] at hx
          cases hx
    · next hnone =>
      have hready : task.settleable = false := by
        cases hagent : task.agent with
        | none => simp [AgentTask.settleable, hagent]
        | some agent =>
          cases hhash : task.resultHash with
          | none => simp [AgentTask.settleable, hhash]
          | some agentHash => exact absurd hhash (hnone agent agentHash hagent)
      rw [hready]
      rfl

/-- A task that can be settled is, if anybody revealed. -/
theorem settlement_of_settleable (order : Tally.HashOrder (String × ℕ)) (epoch : ℕ)
    (hready : task.settleable = true) (hvoted : task.reveals ≠ []) :
    ∃ x, settlement order epoch task = some x := by
  obtain ⟨hstatus, hagent, hhash, hmin⟩ := settleable_iff.1 hready
  obtain ⟨agent, hagent⟩ := Option.isSome_iff_exists.1 hagent
  obtain ⟨agentHash, hhash⟩ := Option.isSome_iff_exists.1 hhash
  unfold settlement
  rw [hagent, hhash]
  dsimp only
  rw [if_neg (by simp [hstatus, hmin])]
  cases hbest : Tally.maxByKey Prod.snd
    (order.visit (Tally.tally (task.reveals.map (·.resultHash)))) with
  | none =>
    have hnil := Tally.maxByKey_tally_eq_none_iff.1 hbest
    exact absurd (List.map_eq_nil_iff.1 hnil) hvoted
  | some best => exact ⟨_, rfl⟩


theorem settlement_eq_none (h : task.settleable = false ∨ task.reveals = []) :
    settlement order epoch task = none := by
  cases hx : settlement order epoch task with
  | none => rfl
  | some x =>
    obtain ⟨hready, agent, agentHash, best, -, -, hbest, -⟩ := of_settlement hx
    rcases h with hnot | hnil
    · rw [hready] at hnot
      cases hnot
    · rw [hnil, List.map_nil, Tally.maxByKey_tally_eq_none_iff.2 rfl] at hbest
      cases hbest

/-! ## Two nodes -/

theorem settleable_heard {reveals : List VerifierReveal} (h : reveals.Perm task.reveals) :
    (heard task reveals).settleable = task.settleable := by
  unfold AgentTask.settleable heard
  rw [h.length_eq]

theorem votesFor_heard {reveals : List VerifierReveal} (h : reveals.Perm task.reveals)
    (hash : String) : votesFor (heard task reveals) hash = votesFor task hash :=
  (h.map _).count_eq hash

theorem perVerifier_perm {winners winners' : List String} (h : winners.Perm winners') (cut : ℕ) :
    perVerifier cut winners = perVerifier cut winners' := by
  have hnil : winners = [] ↔ winners' = [] := by
    rw [← List.length_eq_zero_iff, ← List.length_eq_zero_iff, h.length_eq]
  unfold perVerifier
  rw [h.length_eq]
  exact if_congr hnil rfl rfl

theorem outcome_same {reveals reveals' : List VerifierReveal} (h : reveals.Perm reveals')
    (agent agentHash winningHash : String) :
    Settlement.Same (outcome epoch (heard task reveals) agent agentHash winningHash)
      (outcome epoch (heard task reveals') agent agentHash winningHash) := by
  have hwinners : ((reveals.filter (·.resultHash = winningHash)).map (·.verifier)).Perm
      ((reveals'.filter (·.resultHash = winningHash)).map (·.verifier)) := (h.filter _).map _
  refine ⟨?_, hwinners, ?_⟩
  · simp only [outcome, heard, perVerifier_perm hwinners]
  · simp only [outcome, heard, perVerifier_perm hwinners, hwinners.length_eq]

/-- Where nobody settles the task, all agree. -/
theorem Agreement.of_none (h : task.settleable = false ∨ task.reveals = []) :
    Agreement epoch task := by
  have hnone : ∀ order reveals, reveals.Perm task.reveals →
      settlement order epoch (heard task reveals) = none := by
    intro order reveals hperm
    refine settlement_eq_none ?_
    rcases h with hnot | hnil
    · exact .inl ((settleable_heard hperm).trans hnot)
    · rw [hnil, List.perm_nil] at hperm
      exact .inr hperm
  refine ⟨?_, ?_⟩
  · intro order order' reveals reveals' hperm hperm'
    rw [hnone order reveals hperm, hnone order' reveals' hperm']
    exact Option.Rel.none
  · intro order x hx
    rw [settlement_eq_none h] at hx
    cases hx

/-- A hash with strictly most votes wins on every node. -/
theorem Agreement.of_strict {h : String} (hready : task.settleable = true)
    (hvoted : task.reveals ≠ []) (hstrict : ∀ g, g ≠ h → votesFor task g < votesFor task h) :
    Agreement epoch task := by
  have hwins : ∀ order reveals, reveals.Perm task.reveals → ∃ agent agentHash,
      task.agent = some agent ∧ task.resultHash = some agentHash ∧
      settlement order epoch (heard task reveals) =
        some (outcome epoch (heard task reveals) agent agentHash h) := by
    intro order reveals hperm
    have hvoted' : (heard task reveals).reveals ≠ [] := by
      intro hnil
      have hnil : reveals = [] := hnil
      rw [hnil, List.nil_perm] at hperm
      exact hvoted hperm
    obtain ⟨x, hx⟩ := settlement_of_settleable order epoch
      ((settleable_heard hperm).trans hready) hvoted'
    obtain ⟨-, agent, agentHash, best, hagent, hhash, hbest, rfl⟩ := of_settlement hx
    have hbest' : best.1 = h := Tally.maxByKey_tally_of_strict hbest fun g hg => by
      have := hstrict g hg
      rwa [← votesFor_heard hperm, ← votesFor_heard hperm] at this
    exact ⟨agent, agentHash, hagent, hhash, by rw [hx, hbest']⟩
  refine ⟨?_, ?_⟩
  · intro order order' reveals reveals' hperm hperm'
    obtain ⟨agent, agentHash, hagent, hhash, hx⟩ := hwins order reveals hperm
    obtain ⟨agent', agentHash', hagent', hhash', hx'⟩ := hwins order' reveals' hperm'
    obtain rfl : agent = agent' := Option.some.inj (hagent.symm.trans hagent')
    obtain rfl : agentHash = agentHash' := Option.some.inj (hhash.symm.trans hhash')
    rw [hx, hx']
    exact Option.Rel.some (outcome_same (hperm.trans hperm'.symm) agent agentHash h)
  · intro order x hx g hg
    obtain ⟨agent, agentHash, -, -, hx'⟩ := hwins order task.reveals (List.Perm.refl _)
    obtain rfl : x = outcome epoch task agent agentHash h := Option.some.inj (hx.symm.trans hx')
    exact hstrict g hg

/-- The run of `try_settle` is its settlement, and nodes agree on it exactly when the task is
clear. -/
theorem settlement_agreement_iff (epoch : ℕ) (task : AgentTask) :
    (∀ order s, s.stateGet .agentTask task.taskId = some task →
      match settlement order epoch task with
      | some x => (trySettle order task.taskId : Prog {} Unit).run s =
          (paySettlement task x.entry.agent x.winners x.entry.feePaid x.entry.verifierCut
            x.refund).run s
      | none => (trySettle order task.taskId : Prog {} Unit).run s =
          (if task.settleable then .error unwrapNone else .ok (), s)) ∧
    (Agreement epoch task ↔ Clear task) := by
  refine ⟨fun order s hget => run_trySettle order epoch hget, ?_, ?_⟩
  · intro h hready
    by_cases hvoted : task.reveals = []
    · exact .inl hvoted
    · -- the winner of any one node has strictly most votes
      obtain ⟨x, hx⟩ := settlement_of_settleable .stored epoch hready hvoted
      exact .inr ⟨x.entry.winningHash, h.strict .stored x hx⟩
  · intro hclear
    cases hready : task.settleable with
    | false => exact .of_none (.inl hready)
    | true =>
      by_cases hvoted : task.reveals = []
      · exact .of_none (.inr hvoted)
      · rcases hclear hready with hnil | ⟨h, hstrict⟩
        · exact absurd hnil hvoted
        · exact .of_strict hready hvoted hstrict

end Node

/-! ### A tie -/

/-- Visit the pairs from the last stored to the first. -/
def backwards : Tally.HashOrder (String × ℕ) := ⟨List.reverse, List.reverse_perm⟩

/-- Two verifiers, two results, the agent's among them. -/
def tiedTask : AgentTask :=
  { taskId := "t1", requester := "req", description := "", toolsAllowed := [], maxFee := 1000,
    agreedFee := 1000, minVerifiers := 2, bidWindowEpochs := 1, deadlineEpoch := 10,
    postedEpoch := 1, status := .verifying, agent := some "agent", resultHash := some "good",
    outputCid := none, commits := [],
    reveals := [⟨"v1", "good", "salt"⟩, ⟨"v2", "bad", "salt"⟩] }

/-- One node pays the agent and the first verifier, another only the second. -/
theorem settlement_split_by_tie :
    (settlement .stored 5 tiedTask).map (fun x =>
        (x.entry.winningHash, x.entry.feePaid, x.winners, x.refund)) =
      some ("bad", 0, ["v2"], 900) ∧
    (settlement backwards 5 tiedTask).map (fun x =>
        (x.entry.winningHash, x.entry.feePaid, x.winners, x.refund)) =
      some ("good", 900, ["v1"], 0) ∧
    (settlement .stored 5 (heard tiedTask tiedTask.reveals.reverse)).map
        (·.entry.winningHash) = some "good" := by
  decide

end HoneNode.Agents
