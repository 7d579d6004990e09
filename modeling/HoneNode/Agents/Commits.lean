import HoneNode.Agents.Tasks

/-!
# Agents.Commits — commit, then reveal

A verifier commits to the digest of a result hash and a salt, written one after
the other, and later reveals both. The commit does not say where the one ends
and the other starts, and the task takes commits as long as it is `Verifying`,
which is also when it takes reveals. `Disciplined` says what keeps a commit to
one result and the two phases apart: result hashes of one length, and a board of
verifiers for each task, of whom none reveals before all have committed.
-/

namespace HoneNode.Agents

open Entry Prog Within Trace

/-! ## The component -/

/-- An operation as the node performs it: a reveal settles its task at once, if it can. -/
def nodeStep (env : Env) (order : Tally.HashOrder (String × ℕ)) (s : Chain) : TaskOp → Chain
  | .reveal p => match (applyAgentTaskVerifierReveal env p).run s with
    | (.ok (), s') => ((trySettle order p.taskId : Prog {} Unit).run s').2
    | (.error _, s') => s'
  | op => (op.run env s).2

/-- Operations with the order the node's hash maps are visited in; nobody else writes tasks. -/
def verification (env : Env) : Component Chain (TaskOp × Tally.HashOrder (String × ℕ)) where
  init := fun s => ∀ key, s.stateGet .agentTask key = none
  step := fun s x => nodeStep env x.2 s x.1
  other := fun s s' => s'.state .agentTask = s.state .agentTask

/-- Result hashes have length `len`. Each task has a board of verifiers; nobody else commits, and
for a task that waits for several reveals none comes before the whole board has committed. -/
def Disciplined (len : ℕ) (board : String → List String) (s : Chain)
    (x : TaskOp × Tally.HashOrder (String × ℕ)) : Prop :=
  match x.1 with
  | .commit p => p.verifier ∈ board p.taskId
  | .reveal p => p.resultHash.length = len ∧
      ∀ task ∈ s.stateGet .agentTask p.taskId, 2 ≤ task.minVerifiers →
        ∀ v ∈ board p.taskId, ∃ c ∈ task.commits, c.verifier = v
  | _ => True

instance (len : ℕ) (board : String → List String) (s : Chain)
    (x : TaskOp × Tally.HashOrder (String × ℕ)) : Decidable (Disciplined len board s x) := by
  unfold Disciplined
  split <;> infer_instance

/-- A commit to the task that was accepted. -/
def CommitsTo (id : String) :
    Chain × TaskOp × Tally.HashOrder (String × ℕ) → Bool
  | (s, .commit p, _) => p.taskId = id && ((applyAgentTaskVerifierCommit p).run s).1.isOk
  | _ => false

/-- A reveal for the task that was accepted. -/
def RevealsFor (env : Env) (id : String) :
    Chain × TaskOp × Tally.HashOrder (String × ℕ) → Bool
  | (s, .reveal p, _) => p.taskId = id && ((applyAgentTaskVerifierReveal env p).run s).1.isOk
  | _ => false

/-- What a verifier has committed to. -/
def commitOf (s : Chain) (id verifier : String) : Option String :=
  (s.stateGet .agentTask id).bind fun task =>
    (task.commits.find? (·.verifier = verifier)).map (·.commitHash)

/-! ## Binding -/

section Binding

variable {env : Env} {s s' : Chain} {len : ℕ}

/-- The digests of the two texts do not collide. -/
def NoCollision (env : Env) (a b : String) : Prop :=
  env.sha256 (Text.bytes a) = env.sha256 (Text.bytes b) → a = b

/-- A reveal that is accepted opens the commit. -/
theorem commitOf_of_reveal {p : AgentTaskVerifierReveal}
    (h : ((applyAgentTaskVerifierReveal env p).run s).1.isOk = true) :
    commitOf s p.taskId p.verifier = some (env.sha256Hex (p.resultHash ++ p.salt)) := by
  rcases run_reveal env (s := s) p with hrefused | ⟨task, hget, -, ⟨c, hc, hhash⟩, -, -⟩
  · obtain ⟨msg, hrun⟩ := hrefused
    rw [hrun] at h
    cases h
  · unfold commitOf
    rw [hget, Option.bind_some, hc, Option.map_some, hhash]

/-- Of one commit only one result hash of a given length can be revealed. -/
theorem resultHash_unique {p p' : AgentTaskVerifierReveal}
    (hsha : NoCollision env (p.resultHash ++ p.salt) (p'.resultHash ++ p'.salt))
    (hsame : commitOf s p.taskId p.verifier = commitOf s' p'.taskId p'.verifier)
    (hlen : p.resultHash.length = p'.resultHash.length)
    (h : ((applyAgentTaskVerifierReveal env p).run s).1.isOk = true)
    (h' : ((applyAgentTaskVerifierReveal env p').run s').1.isOk = true) :
    p.resultHash = p'.resultHash := by
  rw [commitOf_of_reveal h, commitOf_of_reveal h', Option.some.injEq] at hsame
  have hdigest : env.sha256 (Text.bytes (p.resultHash ++ p.salt)) =
      env.sha256 (Text.bytes (p'.resultHash ++ p'.salt)) := by
    have := congrArg hexDecode hsame
    unfold Env.sha256Hex at this
    rwa [hexDecode_hexEncode, hexDecode_hexEncode, Option.some.injEq] at this
  have htext := congrArg String.toList (hsha hdigest)
  rw [String.toList_append, String.toList_append] at htext
  have hlist := (List.append_inj htext (by rwa [String.length_toList, String.length_toList])).1
  exact String.toList_inj.1 hlist

end Binding

/-! ## Phases -/

/-- Where a task stands says which reveals it has. -/
structure Phased (task : AgentTask) : Prop where
  result : task.status = .submitted ∨ task.status = .verifying →
    task.agent.isSome = true ∧ task.resultHash.isSome = true
  assigned : task.status = .assigned → task.agent.isSome = true
  early : task.closed = false → task.status ≠ .verifying → task.reveals = []
  waiting : task.status = .verifying → task.reveals ≠ [] → 2 ≤ task.minVerifiers

section Phases

variable {env : Env} {s : Chain} {len : ℕ} {task task' : AgentTask}

theorem phased_posted (p : AgentTaskPost) : Phased (posted p) where
  result := by simp [posted]
  assigned := by simp [posted]
  early := fun _ _ => rfl
  waiting := by simp [posted]

/-- A closed record has no phase left. -/
theorem Phased.of_closed (h : task.closed = true) : Phased task := by
  unfold AgentTask.closed at h
  simp only [Bool.or_eq_true, decide_eq_true_eq] at h
  refine ⟨?_, ?_, ?_, ?_⟩
  · rcases h with (h | h) | h <;> simp [h]
  · rcases h with (h | h) | h <;> simp [h]
  · intro hopen
    unfold AgentTask.closed at hopen
    rcases h with (h | h) | h <;> simp [h] at hopen
  · rcases h with (h | h) | h <;> simp [h]

/-- Every move but a reveal keeps the phases. -/
theorem Phased.move {op : TaskOp} (h : Phased task) (hmove : Move op task task')
    (hop : ∀ p, op ≠ .reveal p) : Phased task' := by
  cases hmove with
  | assigned p _ hopen =>
    refine ⟨by simp [Agents.assigned], by simp [Agents.assigned], fun _ _ => ?_,
      by simp [Agents.assigned]⟩
    exact h.early (by simp [AgentTask.closed, hopen]) (by simp [hopen])
  | submitted p _ hstatus =>
    refine ⟨fun _ => ⟨h.assigned hstatus, rfl⟩, by simp [Agents.submitted], fun _ _ => ?_,
      by simp [Agents.submitted]⟩
    exact h.early (by simp [AgentTask.closed, hstatus]) (by simp [hstatus])
  | committed p _ hstatus =>
    refine ⟨fun _ => h.result hstatus, by simp [Agents.committed], fun _ hne => absurd rfl hne, ?_⟩
    intro _ hreveals
    rcases hstatus with hstatus | hstatus
    · exact absurd (h.early (by simp [AgentTask.closed, hstatus]) (by simp [hstatus])) hreveals
    · exact h.waiting hstatus hreveals
  | revealed p hreveal => exact absurd hreveal (hop p)
  | closed hclose => exact .of_closed hclose.of_open.2

/-- A reveal is settled at once unless the task waits for more. -/
theorem settleable_revealed (h : Phased task) (hstatus : task.status = .verifying)
    (p : AgentTaskVerifierReveal) (hmin : task.minVerifiers ≤ 1) :
    (revealed p task).settleable = true := by
  obtain ⟨hagent, hresult⟩ := h.result (.inr hstatus)
  refine settleable_iff.2 ⟨hstatus, hagent, hresult, ?_⟩
  have hlen : (revealed p task).reveals.length = task.reveals.length + 1 := by simp [revealed]
  have hsame : (revealed p task).minVerifiers = task.minVerifiers := rfl
  omega

/-- The record of a revealed task after the node tried to settle it. -/
theorem Phased.revealed (h : Phased task) (hstatus : task.status = .verifying)
    (p : AgentTaskVerifierReveal) (hopen : (revealed p task).settleable = false) :
    Phased (Agents.revealed p task) where
  result := fun _ => h.result (.inr hstatus)
  assigned := fun hassigned => by
    have hassigned : task.status = .assigned := hassigned
    rw [hstatus] at hassigned
    cases hassigned
  early := fun _ hne => absurd hstatus hne
  waiting := fun _ _ => by
    by_contra hmin
    have hfew : task.minVerifiers ≤ 1 := by
      have hsame : (Agents.revealed p task).minVerifiers = task.minVerifiers := rfl
      omega
    rw [settleable_revealed h hstatus p hfew] at hopen
    cases hopen

/-- A step to a record that keeps its id and its phases and loses no commits or reveals. -/
structure Carries (task task' : AgentTask) : Prop where
  taskId : task'.taskId = task.taskId
  minVerifiers : task'.minVerifiers = task.minVerifiers
  phased : Phased task → Phased task'
  commits : task.commits <+: task'.commits
  reveals : task.reveals <+: task'.reveals

/-- What an operation of the node leaves under a key. -/
inductive Advances (s s' : Chain) (key : String) : Prop where
  | same (h : s'.stateGet .agentTask key = s.stateGet .agentTask key)
  | posted (p : AgentTaskPost) (hkey : p.taskId = key)
      (hnone : s.stateGet .agentTask key = none)
      (h : s'.stateGet .agentTask key = some (posted p))
  | carried {task task' : AgentTask} (hget : s.stateGet .agentTask key = some task)
      (h : s'.stateGet .agentTask key = some task') (hcarry : Carries task task')

theorem advances_of_evolves {s' : Chain} {op : TaskOp} {key : String} (h : Evolves s s' op key)
    (hop : ∀ p, op ≠ .reveal p) : Advances s s' key := by
  cases h with
  | same h => exact .same h
  | posted p _ hkey hnone h => exact .posted p hkey hnone h
  | moved hget h hmove =>
    exact .carried hget h ⟨hmove.taskId, hmove.minVerifiers,
      fun hphased => hphased.move hmove hop, hmove.commits, hmove.reveals⟩

variable (env) in
/-- A reveal is recorded, and its task settled if it can be. -/
theorem nodeStep_reveal (hkeyed : Keyed s) (order : Tally.HashOrder (String × ℕ))
    (p : AgentTaskVerifierReveal) :
    Refused s ((applyAgentTaskVerifierReveal env p).run s) ∧
        nodeStep env order s (.reveal p) = s ∨
      ∃ task task', s.stateGet .agentTask p.taskId = some task ∧
        (nodeStep env order s (.reveal p)).stateGet .agentTask p.taskId = some task' ∧
        Carries task task' ∧ task'.reveals ≠ [] ∧
        ∀ key, key ≠ p.taskId → (nodeStep env order s (.reveal p)).stateGet .agentTask key =
          s.stateGet .agentTask key := by
  rcases run_reveal env (s := s) p with h | ⟨task, hget, hstatus, -, -, h⟩
  · refine .inl ⟨h, ?_⟩
    obtain ⟨msg, h⟩ := h
    dsimp only [nodeStep]
    rw [h]
  · have hid := hkeyed _ _ hget
    have hstored : (s.stateSet .agentTask task.taskId (revealed p task)).stateGet .agentTask
        (revealed p task).taskId = some (revealed p task) := by
      rw [stateGet_stateSet]
      exact if_pos rfl
    have hreveals : (revealed p task).reveals ≠ [] := by simp [revealed]
    have hgrow : task.reveals <+: (revealed p task).reveals := List.prefix_append _ _
    have hsettle := run_settle order hstored
    have hrevealedId : (revealed p task).taskId = p.taskId := hid
    refine .inr ⟨task, ?_⟩
    dsimp only [nodeStep]
    rw [h]
    dsimp only
    rw [hrevealedId] at hsettle
    cases hready : (revealed p task).settleable with
    | false =>
      rw [hready, if_pos rfl] at hsettle
      rw [hsettle]
      refine ⟨revealed p task, hget, ?_, ⟨rfl, rfl, ?_, List.prefix_rfl, hgrow⟩, hreveals, ?_⟩
      · rw [stateGet_stateSet, if_pos hid]
      · exact fun hphased => hphased.revealed hstatus p hready
      · intro key hkey
        rw [stateGet_stateSet, if_neg (by rw [hid]; exact hkey.symm)]
    | true =>
      rw [hready, if_neg (by simp), if_neg hreveals] at hsettle
      obtain ⟨t, hsettle, hstate⟩ := hsettle
      rw [hsettle]
      refine ⟨{ revealed p task with taskId := p.taskId, status := .settled }, hget, ?_,
        ⟨hid.symm, rfl, ?_, List.prefix_rfl, hgrow⟩, hreveals, ?_⟩
      · rw [stateGet_stateSet, if_pos rfl]
      · exact fun _ => .of_closed rfl
      · intro key hkey
        rw [stateGet_stateSet, if_neg hkey.symm]
        have htasks := hstate .agentTask (by decide)
        unfold Chain.stateGet
        rw [htasks]
        have hother := stateGet_stateSet s .agentTask task.taskId key (revealed p task)
        rw [if_neg (by rw [hid]; exact hkey.symm)] at hother
        exact hother

variable (env) in
theorem advances_nodeStep (hkeyed : Keyed s) (order : Tally.HashOrder (String × ℕ)) (op : TaskOp)
    (key : String) : Advances s (nodeStep env order s op) key := by
  by_cases hop : ∃ p, op = .reveal p
  · obtain ⟨p, rfl⟩ := hop
    rcases nodeStep_reveal env hkeyed order p with
      ⟨-, h⟩ | ⟨task, task', hget, h, hcarry, -, hother⟩
    · rw [h]
      exact .same rfl
    · by_cases hkey : key = p.taskId
      · subst hkey
        exact .carried hget h hcarry
      · exact .same (hother key hkey)
  · have hne : ∀ p, op ≠ .reveal p := fun p hp => hop ⟨p, hp⟩
    have hstep : nodeStep env order s op = (op.run env s).2 := by
      cases op with
      | reveal p => exact absurd rfl (hne p)
      | _ => rfl
    rw [hstep]
    exact advances_of_evolves (evolves_run _ hkeyed op key) hne

end Phases

/-! ## Runs -/

/-- The board has committed to the record, if it waits for several reveals. -/
def Complete (board : List String) (task : AgentTask) : Prop :=
  2 ≤ task.minVerifiers → ∀ v ∈ board, ∃ c ∈ task.commits, c.verifier = v

/-- What every run keeps. -/
structure InPhase (env : Env) (board : String → List String)
    (hist : List (Chain × TaskOp × Tally.HashOrder (String × ℕ))) (s : Chain) : Prop where
  keyed : Keyed s
  phased : ∀ key task, s.stateGet .agentTask key = some task → Phased task
  /-- An accepted reveal is still in the record, and came after the commits of the board. -/
  revealed : ∀ id, (∃ e ∈ hist, RevealsFor env id e = true) →
    ∃ task, s.stateGet .agentTask id = some task ∧ task.reveals ≠ [] ∧ Complete (board id) task

section Runs

variable {env : Env} {s s' : Chain} {len : ℕ} {board : String → List String}
  {hist hist' : List (Chain × TaskOp × Tally.HashOrder (String × ℕ))}

theorem Carries.complete {task task' : AgentTask} {members : List String}
    (h : Carries task task') (hcomplete : Complete members task) : Complete members task' := by
  intro hmin v hv
  rw [h.minVerifiers] at hmin
  obtain ⟨c, hc, hverifier⟩ := hcomplete hmin v hv
  exact ⟨c, h.commits.subset hc, hverifier⟩

theorem InPhase.step (h : InPhase env board hist s) {op : TaskOp}
    {order : Tally.HashOrder (String × ℕ)} (hdisc : Disciplined len board s (op, order)) :
    InPhase env board ((s, op, order) :: hist) (nodeStep env order s op) := by
  have hadv := advances_nodeStep env h.keyed order op
  refine ⟨?_, ?_, ?_⟩
  · intro key task hget
    cases hadv key with
    | same hsame => exact h.keyed key task (hsame.symm.trans hget)
    | posted p hkey _ hnew =>
      obtain rfl : posted p = task := Option.some.inj (hnew.symm.trans hget)
      exact hkey
    | carried hold hnew hcarry =>
      obtain rfl := Option.some.inj (hnew.symm.trans hget)
      rw [hcarry.taskId]
      exact h.keyed key _ hold
  · intro key task hget
    cases hadv key with
    | same hsame => exact h.phased key task (hsame.symm.trans hget)
    | posted p _ _ hnew =>
      obtain rfl : posted p = task := Option.some.inj (hnew.symm.trans hget)
      exact phased_posted p
    | carried hold hnew hcarry =>
      obtain rfl := Option.some.inj (hnew.symm.trans hget)
      exact hcarry.phased (h.phased key _ hold)
  · rintro id ⟨e, he, hreveal⟩
    rcases List.mem_cons.1 he with rfl | he
    · -- the reveal was just recorded
      cases op with
      | reveal p =>
        simp only [RevealsFor, Bool.and_eq_true, decide_eq_true_eq] at hreveal
        obtain ⟨rfl, hok⟩ := hreveal
        rcases nodeStep_reveal env h.keyed order p with
          ⟨⟨msg, hrefused⟩, -⟩ | ⟨task, task', hold, hget, hcarry, hne, -⟩
        · rw [hrefused] at hok
          cases hok
        · exact ⟨task', hget, hne, hcarry.complete (hdisc.2 task hold)⟩
      | _ => cases hreveal
    · obtain ⟨task, hget, hne, hcomplete⟩ := h.revealed id ⟨e, he, hreveal⟩
      cases hadv id with
      | same hsame => exact ⟨task, hsame.trans hget, hne, hcomplete⟩
      | posted p _ hnone _ =>
        rw [hget] at hnone
        cases hnone
      | @carried task₀ task' hold hnew hcarry =>
        obtain rfl : task₀ = task := Option.some.inj (hold.symm.trans hget)
        refine ⟨task', hnew, ?_, hcarry.complete hcomplete⟩
        intro hnil
        have hpre := hcarry.reveals
        rw [hnil, List.prefix_nil] at hpre
        exact hne hpre

theorem inPhase_run (h : Run (verification env) (Disciplined len board) hist s) :
    InPhase env board hist s := by
  induction h with
  | start hinit =>
    refine ⟨?_, ?_, ?_⟩
    · intro key task hget
      rw [hinit key] at hget
      cases hget
    · intro key task hget
      rw [hinit key] at hget
      cases hget
    · rintro id ⟨e, he, -⟩
      cases he
  | step x _ hop ih => exact ih.step hop
  | @other hist s s' _ hs ih =>
    have hget : ∀ key, s'.stateGet .agentTask key = s.stateGet .agentTask key := by
      intro key
      have hs : s'.state .agentTask = s.state .agentTask := hs
      unfold Chain.stateGet
      rw [hs]
    refine ⟨?_, ?_, ?_⟩
    · exact fun key task h => ih.keyed key task ((hget key).symm.trans h)
    · exact fun key task h => ih.phased key task ((hget key).symm.trans h)
    · intro id he
      obtain ⟨task, htask, hne, hcomplete⟩ := ih.revealed id he
      exact ⟨task, (hget id).trans htask, hne, hcomplete⟩

/-- A member's commit that is accepted finds no reveal: with one, the member had committed. -/
theorem no_reveals_of_commit (h : InPhase env board hist s) {p : AgentTaskVerifierCommit}
    (hmember : p.verifier ∈ board p.taskId)
    (hok : ((applyAgentTaskVerifierCommit p).run s).1.isOk = true) :
    ∀ e ∈ hist, RevealsFor env p.taskId e = false := by
  intro e he
  by_contra hreveal
  rw [Bool.not_eq_false] at hreveal
  obtain ⟨task, hget, hne, hcomplete⟩ := h.revealed p.taskId ⟨e, he, hreveal⟩
  rcases run_commit (s := s) p with ⟨msg, hrun⟩ | ⟨task', hget', hstatus, hnew, -⟩
  · rw [hrun] at hok
    cases hok
  · obtain rfl : task' = task := Option.some.inj (hget'.symm.trans hget)
    have hphased := h.phased _ _ hget
    rcases hstatus with hstatus | hstatus
    · exact hne (hphased.early (by simp [AgentTask.closed, hstatus]) (by simp [hstatus]))
    · obtain ⟨c, hc, hverifier⟩ := hcomplete (hphased.waiting hstatus hne) _ hmember
      exact hnew c hc hverifier

/-- In every disciplined run commits come before reveals, and a commit opens to one result. -/
theorem commits_bind_and_precede_reveals
    (h : Run (verification env) (Disciplined len board) hist s) :
    (hist.Pairwise fun later earlier => ∀ id, CommitsTo id later = true →
      RevealsFor env id earlier = false) ∧
    ∀ hist' s', Run (verification env) (Disciplined len board) hist' s' →
      ∀ p p' order order', Disciplined len board s (.reveal p, order) →
        Disciplined len board s' (.reveal p', order') →
        NoCollision env (p.resultHash ++ p.salt) (p'.resultHash ++ p'.salt) →
        commitOf s p.taskId p.verifier = commitOf s' p'.taskId p'.verifier →
        ((applyAgentTaskVerifierReveal env p).run s).1.isOk = true →
        ((applyAgentTaskVerifierReveal env p').run s').1.isOk = true →
        p.resultHash = p'.resultHash := by
  refine ⟨?_, ?_⟩
  · induction h with
    | start => exact List.Pairwise.nil
    | @step hist s x hrun hdisc ih =>
      refine List.Pairwise.cons ?_ ih
      intro e he id hcommit
      obtain ⟨op, order⟩ := x
      cases op with
      | commit p =>
        simp only [CommitsTo, Bool.and_eq_true, decide_eq_true_eq] at hcommit
        obtain ⟨rfl, hok⟩ := hcommit
        exact no_reveals_of_commit (inPhase_run hrun) hdisc hok e he
      | _ => cases hcommit
    | other _ _ ih => exact ih
  · intro hist' s' _ p p' order order' hdisc hdisc' hsha hsame hok hok'
    exact resultHash_unique hsha hsame (hdisc.1.trans hdisc'.1.symm) hok hok'

end Runs

/-! ### Two verifiers -/

/-- What both verifiers commit to. -/
def sealedText : String := "goodhash0000salt"

def sealedNode : Env := .digesting
  [(sealedText, "af6195424dc3d5b0e956412a4de4b4680b9e371fc15a83df21fa51f7946ace99")]

/-- A task that waits for two reveals, up to the commit of the first verifier. -/
def firstCommit (env : Env) : List (TaskOp × Tally.HashOrder (String × ℕ)) :=
  [(.deposit ⟨"req", 2000, 1, 1, "req"⟩, .stored),
    (.post ⟨"t1", "req", "sum", [], 1000, 2, 5, 20, 1, 2, "req"⟩, .stored),
    (.bid ⟨"t1", "agent", 900, 2, 1, "agent"⟩, .stored),
    (.assign ⟨"t1", "agent", 900, 3, 3, "req"⟩, .stored),
    (.submit ⟨"t1", "agent", "goodhash0000", "cid", 4, 2, "agent"⟩, .stored),
    (.commit ⟨"t1", "v1", env.sha256Hex sealedText, 5, 1, "v1"⟩, .stored)]

def revealOf (verifier resultHash salt : String) : AgentTaskVerifierReveal :=
  ⟨"t1", verifier, resultHash, salt, 6, 2, verifier⟩

def lateCommit (env : Env) : AgentTaskVerifierCommit :=
  ⟨"t1", "v2", env.sha256Hex sealedText, 6, 1, "v2"⟩

def requesterRich : Chain := ({} : Chain).setBalance "req" nativeToken 5000

/-- Both verifiers commit, then the first reveals. -/
theorem commits_bind_and_precede_reveals_two :
    let ops := firstCommit sealedNode ++
      [(.commit (lateCommit sealedNode), .stored),
        (.reveal (revealOf "v1" "goodhash0000" "salt"), .stored)]
    let M := verification sealedNode
    let hist := M.record requesterRich ops []
    hist.map (fun e => (CommitsTo "t1" e, RevealsFor sealedNode "t1" e)) =
        [(false, true), (true, false), (true, false), (false, false), (false, false),
          (false, false), (false, false), (false, false)] ∧
      hist.Pairwise fun later earlier => ∀ id, CommitsTo id later = true →
        RevealsFor sealedNode id earlier = false := by
  intro ops M hist
  have hlegal : Legal M (Disciplined 12 fun _ => ["v1", "v2"]) requesterRich ops := by decide
  exact ⟨by decide, (commits_bind_and_precede_reveals ((Run.start fun _ => rfl).exec hlegal)).1⟩

/-- One commit opens to two results, and a second verifier commits after the first one's
reveal. -/
theorem commit_opens_twice_and_late :
    let s := (verification sealedNode).exec requesterRich (firstCommit sealedNode)
    let honest := revealOf "v1" "goodhash0000" "salt"
    let other := revealOf "v1" "goodhash000" "0salt"
    let t := nodeStep sealedNode .stored s (.reveal honest)
    ((applyAgentTaskVerifierReveal sealedNode honest).run s).1.isOk = true ∧
      ((applyAgentTaskVerifierReveal sealedNode other).run s).1.isOk = true ∧
      honest.resultHash ≠ other.resultHash ∧
      ((applyAgentTaskVerifierCommit (lateCommit sealedNode)).run t).1.isOk = true := by
  decide

end HoneNode.Agents
