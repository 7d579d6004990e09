import Mathlib.Data.Prod.Lex
import HoneNode.Lib.Heaviest
import HoneNode.Apply

/-!
# ForkChoice — competing finalizations of one epoch

The `EpochFinalize` arm of `apply_entry` as a fold over the order of arrival.
The head it should end at is the heaviest one, by quorum and then by the
smaller rewards hash. A repeated hash overwrites the stored quorum, and a
competing hash is cut at byte 12 for the log line, so neither the order of the
entries nor their texts are free.
-/

namespace HoneNode.ForkChoice

open Entry Prog Within Heaviest

/-- A head: heavier with the quorum, then with the smaller hash. -/
abbrev Head := ℕ ×ₗ Stringᵒᵈ

def Head.of (quorum : ℕ) (rewardsHash : String) : Head :=
  toLex (quorum, OrderDual.toDual rewardsHash)

/-- The rewards hash of a head. -/
def Head.hash (h : Head) : String := OrderDual.ofDual (ofLex h).2

/-- The head an entry announces. -/
def announced (p : EpochFinalize) : Head := Head.of p.quorum p.rewardsHash

/-- The finalized head of an epoch. -/
def finalizedHead (epoch : ℕ) (s : Chain) : Option Head :=
  (s.epochs.get epoch).map fun m => Head.of m.quorum m.rewardsHash

/-- Apply finalizations in order of arrival; one that fails leaves what it wrote. -/
def applyFinalizes (env : Env) (now : ℕ) (ps : List EpochFinalize) (s : Chain) : Chain :=
  ps.foldl (fun s p => (applyEntry env now (.epochFinalize p) s).2) s

/-- Whether the log line can cut the hash. -/
def printable (env : Env) (hash : String) : Bool :=
  !env.warn || isBoundary hash (min hash.utf8ByteSize 12)

/-! ## One arrival -/

@[simp] theorem hash_of (quorum : ℕ) (rewardsHash : String) :
    (Head.of quorum rewardsHash).hash = rewardsHash := rfl

@[simp] theorem finalizedHead_setEpochMeta (epoch : ℕ) (m : EpochMeta) (s : Chain) :
    finalizedHead epoch (s.setEpochMeta epoch m) = some (Head.of m.quorum m.rewardsHash) := by
  simp [finalizedHead]

@[simp] theorem finalizedHead_stateSet (epoch : ℕ) (f : Family) (key : String) (v : f.Val)
    (s : Chain) : finalizedHead epoch (s.stateSet f key v) = finalizedHead epoch s := rfl

theorem newWins_iff (p : EpochFinalize) (prev : EpochMeta) :
    newWins p prev = true ↔ Head.of prev.quorum prev.rewardsHash < announced p := by
  simp only [newWins, Bool.or_eq_true, Bool.and_eq_true, decide_eq_true_eq, announced, Head.of,
    Prod.Lex.toLex_lt_toLex, OrderDual.toDual_lt_toDual]
  rw [eq_comm (a := p.quorum)]

/-- A competing head is logged, noted as evidence, and taken if it is heavier. -/
theorem run_competing (env : Env) (p : EpochFinalize) (s : Chain) (prev : EpochMeta)
    (hprev : finalizedHead p.epoch s = some (Head.of prev.quorum prev.rewardsHash))
    (hs : s.epochs.get p.epoch = some prev) (hne : prev.rewardsHash ≠ p.rewardsHash) :
    finalizedHead p.epoch ((applyEpochFinalize env p).run s).2 =
      if printable env prev.rewardsHash ∧ printable env p.rewardsHash then
        some (max (Head.of prev.quorum prev.rewardsHash) (announced p))
      else some (Head.of prev.quorum prev.rewardsHash) := by
  unfold applyEpochFinalize
  rw [run_inspect_bind, hs]
  simp only [hne, if_false, run_bind, run_logSlice]
  by_cases h₁ : printable env prev.rewardsHash
  · by_cases h₂ : printable env p.rewardsHash
    · have hp := h₁
      have hq := h₂
      unfold printable at hp hq
      simp only [hp, hq, if_true, h₁, h₂, and_self, run_stateSet, run_when]
      by_cases hw : newWins p prev = true
      · rw [max_eq_right ((newWins_iff p prev).1 hw).le]
        simp [hw, finalizeMeta, announced]
      · have hle := not_lt.1 ((newWins_iff p prev).not.1 hw)
        rw [max_eq_left hle]
        simp [hw, hprev]
    · have hp := h₁
      have hq := h₂
      unfold printable at hp hq
      simp [hp, hq, h₂, hprev]
  · have hp := h₁
    unfold printable at hp
    simp [hp, h₁, hprev]

/-- Step lemma: one entry moves the head of its epoch by `choose`. -/
theorem finalizedHead_apply (env : Env) (now : ℕ) (p : EpochFinalize) (s : Chain) :
    finalizedHead p.epoch (applyEntry env now (.epochFinalize p) s).2 =
      choose Head.hash (printable env) (finalizedHead p.epoch s) (announced p) := by
  rw [applyEntry_of_ne_transfer (by simp)]
  show finalizedHead p.epoch ((applyEpochFinalize env p).run s).2 = _
  cases hs : s.epochs.get p.epoch with
  | none =>
    have hnone : finalizedHead p.epoch s = none := by simp [finalizedHead, hs]
    unfold applyEpochFinalize
    rw [run_inspect_bind, hs, hnone]
    simp [finalizeMeta, announced, choose]
  | some prev =>
    have hprev : finalizedHead p.epoch s = some (Head.of prev.quorum prev.rewardsHash) := by
      simp [finalizedHead, hs]
    by_cases hne : prev.rewardsHash = p.rewardsHash
    · unfold applyEpochFinalize
      rw [run_inspect_bind, hs, hprev]
      simp [hne, finalizeMeta, announced, choose]
    · rw [run_competing env p s prev hprev hs hne, hprev]
      simp only [choose, hash_of, announced, hne, if_false]
      congr

/-- Run lemma: a sequence of entries for one epoch moves its head by the fold of `choose`. -/
theorem finalizedHead_applyFinalizes (env : Env) (now epoch : ℕ) :
    ∀ (ps : List EpochFinalize) (s : Chain), (∀ p ∈ ps, p.epoch = epoch) →
      finalizedHead epoch (applyFinalizes env now ps s) =
        (ps.map announced).foldl (choose Head.hash (printable env)) (finalizedHead epoch s) := by
  intro ps
  induction ps with
  | nil =>
    intro s _
    rfl
  | cons p ps ih =>
    intro s h
    obtain rfl : p.epoch = epoch := h p (by simp)
    have hrest := ih (applyEntry env now (.epochFinalize p) s).2 fun q hq => h q (by simp [hq])
    rw [finalizedHead_apply] at hrest
    simpa [applyFinalizes] using hrest

/-! ## All orders of arrival -/

/-- Every entry with the hash of a heaviest one also has its quorum. -/
def OneQuorumForHeaviest (ps : List EpochFinalize) : Prop :=
  ∀ m ∈ ps, (∀ p ∈ ps, announced p ≤ announced m) →
    ∀ p ∈ ps, p.rewardsHash = m.rewardsHash → p.quorum = m.quorum

instance (ps : List EpochFinalize) : Decidable (OneQuorumForHeaviest ps) :=
  inferInstanceAs (Decidable (∀ m ∈ ps, (∀ p ∈ ps, announced p ≤ announced m) →
    ∀ p ∈ ps, p.rewardsHash = m.rewardsHash → p.quorum = m.quorum))

/-- No competition is logged, or every hash can be cut for the log line. -/
def Loggable (env : Env) (ps : List EpochFinalize) : Prop :=
  (∀ p ∈ ps, printable env p.rewardsHash) ∨ ∀ p ∈ ps, ∀ q ∈ ps, p.rewardsHash = q.rewardsHash

theorem maxAlone_announced (ps : List EpochFinalize) :
    MaxAlone Head.hash (ps.map announced) ↔ OneQuorumForHeaviest ps := by
  have hinj : ∀ p m : EpochFinalize, p.rewardsHash = m.rewardsHash →
      (announced p = announced m ↔ p.quorum = m.quorum) := by
    intro p m h
    simp [announced, Head.of, h]
  simp only [MaxAlone, OneQuorumForHeaviest, List.forall_mem_map]
  constructor
  · intro h m hm hle p hp hk
    exact (hinj p m hk).1 (h m hm hle p hp hk)
  · intro h m hm hle p hp hk
    exact (hinj p m hk).2 (h m hm hle p hp hk)

theorem allComparable_announced (env : Env) (ps : List EpochFinalize) :
    AllComparable Head.hash (printable env) (ps.map announced) ↔ Loggable env ps := by
  simp only [AllComparable, Loggable, List.forall_mem_map]
  rfl

/-- Fork choice converges: every order of arrival ends at the heaviest head, exactly
when all entries with its hash agree on the quorum and competing hashes can be logged. -/
theorem finalize_converges_iff (env : Env) (now epoch : ℕ) (s : Chain)
    (hs : finalizedHead epoch s = none) (ps : List EpochFinalize)
    (hepoch : ∀ p ∈ ps, p.epoch = epoch) :
    (∀ ps' : List EpochFinalize, ps'.Perm ps →
      finalizedHead epoch (applyFinalizes env now ps' s) = (ps.map announced).max?) ↔
    OneQuorumForHeaviest ps ∧ Loggable env ps := by
  rw [← maxAlone_announced, ← allComparable_announced env, ← settles_map_iff]
  refine forall_congr' fun ps' => forall_congr' fun hp => ?_
  rw [finalizedHead_applyFinalizes env now epoch ps' s fun p h => hepoch p (hp.mem_iff.1 h), hs]

/-- Two finalizations of epoch 7 for different rewards: the heavier one stands in
both orders. -/
theorem finalize_converges_two_hashes :
    let a : EpochFinalize := ⟨7, "n1", "aa", 3, [], "", 0⟩
    let b : EpochFinalize := ⟨7, "n2", "bb", 5, [], "", 0⟩
    ∀ ps' : List EpochFinalize, ps'.Perm [a, b] →
      finalizedHead 7 (applyFinalizes .bare 0 ps' {}) = some (Head.of 5 "bb") := by
  intro a b
  exact (finalize_converges_iff .bare 0 7 {} rfl [a, b] (by decide)).2
    ⟨by decide, .inl (by decide)⟩

/-- The same rewards hash finalized with quorum 5 and then again with quorum 3: the
stored quorum drops to 3, while the other order keeps 5. -/
theorem finalize_repeated_hash_order :
    let a : EpochFinalize := ⟨7, "n2", "aa", 5, [], "", 0⟩
    let b : EpochFinalize := ⟨7, "n1", "aa", 3, [], "", 0⟩
    [b, a].Perm [a, b] ∧ ([a, b].map announced).max? = some (Head.of 5 "aa") ∧
    finalizedHead 7 (applyFinalizes .bare 0 [a, b] {}) = some (Head.of 3 "aa") ∧
    finalizedHead 7 (applyFinalizes .bare 0 [b, a] {}) = some (Head.of 5 "aa") := by
  refine ⟨List.Perm.swap _ _ [], ?_⟩
  decide

end HoneNode.ForkChoice
