import HoneNode.Lib.Netting
import HoneNode.Rewards.Emit

/-!
# Rewards.FeeBoost — what fees unlock

The fees of the previous epoch are netted between each two accounts, and half of
what is left unlocks idle rewards. Fees that go round among three accounts are
not netted: they unlock as much as fees that somebody has spent
(`feeBoost_contained_iff`).
-/

namespace HoneNode

open Prog Within Netting

/-! ## Flows -/

/-- The record names two accounts and an amount. -/
def FeeFlow.Counts (f : FeeFlow) : Prop :=
  ¬ (f.from_ = "" ∨ f.to_ = "" ∨ f.from_ = f.to_ ∨ f.amount = 0)

instance (f : FeeFlow) : Decidable f.Counts :=
  inferInstanceAs (Decidable (¬ (f.from_ = "" ∨ f.to_ = "" ∨ f.from_ = f.to_ ∨ f.amount = 0)))

/-- What one account pays another. -/
def flow (fees : List FeeFlow) (a b : String) : ℕ :=
  ((fees.filter fun f => f.Counts ∧ f.from_ = a ∧ f.to_ = b).map (·.amount)).sum

def feeAccounts (fees : List FeeFlow) : Finset String :=
  ((fees.filter (·.Counts)).flatMap fun f => [f.from_, f.to_]).toFinset

/-- The sum that is kept for one account's payments to another. -/
def kept (fees : List FeeFlow) (a b : String) : ℕ := ((directedFlows fees).lookup (a, b)).getD 0

section Flows

variable {fees : List FeeFlow} {a b : String}

theorem flow_cons (f : FeeFlow) : flow (f :: fees) a b =
    (if f.Counts ∧ f.from_ = a ∧ f.to_ = b then f.amount else 0) + flow fees a b := by
  unfold flow
  rw [List.filter_cons]
  by_cases h : f.Counts ∧ f.from_ = a ∧ f.to_ = b
  · rw [if_pos (decide_eq_true h), if_pos h, List.map_cons, List.sum_cons]
  · rw [if_neg (by simpa using h), if_neg h, Nat.zero_add]

theorem directedFlows_cons (f : FeeFlow) : directedFlows (f :: fees) =
    if f.Counts then
      match (directedFlows fees).lookup (f.from_, f.to_) with
      | some n => ((f.from_, f.to_), wrapAdd n f.amount) ::
          (directedFlows fees).filter fun p => p.1 ≠ (f.from_, f.to_)
      | none => ((f.from_, f.to_), f.amount) :: directedFlows fees
    else directedFlows fees := by
  by_cases h : f.Counts
  · rw [directedFlows, if_neg h]
    exact (if_pos h).symm
  · rw [directedFlows, if_pos (not_not.1 h), if_neg h]

theorem lookup_filter_ne {k j : String × String} (h : j ≠ k)
    (l : List ((String × String) × ℕ)) : (l.filter fun p => p.1 ≠ k).lookup j = l.lookup j := by
  induction l with
  | nil => rfl
  | cons p rest ih =>
    obtain ⟨k', n⟩ := p
    by_cases hk : k' = k
    · subst hk
      rw [List.filter_cons_of_neg (by simp), ih, List.lookup_cons, beq_false_of_ne h]
    · rw [List.filter_cons_of_pos (by simpa using hk), List.lookup_cons, List.lookup_cons, ih]

/-- One more record adds to one sum. -/
theorem kept_cons (f : FeeFlow) : kept (f :: fees) a b =
    if f.Counts ∧ f.from_ = a ∧ f.to_ = b then
      match (directedFlows fees).lookup (a, b) with
      | some n => wrapAdd n f.amount
      | none => f.amount
    else kept fees a b := by
  unfold kept
  rw [directedFlows_cons]
  by_cases hcounts : f.Counts
  · rw [if_pos hcounts]
    by_cases hkey : f.from_ = a ∧ f.to_ = b
    · obtain ⟨rfl, rfl⟩ := hkey
      rw [if_pos ⟨hcounts, rfl, rfl⟩]
      cases (directedFlows fees).lookup (f.from_, f.to_) with
      | none => rw [List.lookup_cons_self, Option.getD_some]
      | some n => rw [List.lookup_cons_self, Option.getD_some]
    · have hne : (a, b) ≠ (f.from_, f.to_) := fun h =>
        hkey ⟨(Prod.mk.inj h).1.symm, (Prod.mk.inj h).2.symm⟩
      rw [if_neg fun h => hkey h.2]
      cases (directedFlows fees).lookup (f.from_, f.to_) with
      | none =>
        dsimp only
        rw [List.lookup_cons, beq_false_of_ne hne]
      | some n =>
        dsimp only
        rw [List.lookup_cons, beq_false_of_ne hne]
        exact congrArg (·.getD 0) (lookup_filter_ne hne _)
  · rw [if_neg hcounts, if_neg fun h => hcounts h.1]

/-- While the payments fit a word, what is kept is what was paid. -/
theorem kept_eq (h : flow fees a b < 2 ^ 64) : kept fees a b = flow fees a b := by
  induction fees with
  | nil => rfl
  | cons f rest ih =>
    rw [flow_cons] at h
    have hrest := ih (by omega)
    rw [kept_cons, flow_cons]
    by_cases hf : f.Counts ∧ f.from_ = a ∧ f.to_ = b
    · rw [if_pos hf] at h ⊢
      rw [if_pos hf]
      unfold kept at hrest
      cases hget : (directedFlows rest).lookup (a, b) with
      | none =>
        rw [hget] at hrest
        dsimp only
        rw [← hrest]
        rfl
      | some n =>
        rw [hget, Option.getD_some] at hrest
        dsimp only
        unfold wrapAdd
        rw [hrest, Nat.add_comm, Nat.mod_eq_of_lt h]
    · rw [if_neg hf, if_neg hf, Nat.zero_add, hrest]

theorem key_of_mem_directedFlows {p : (String × String) × ℕ} (h : p ∈ directedFlows fees) :
    ∃ f ∈ fees, f.Counts ∧ p.1 = (f.from_, f.to_) := by
  induction fees with
  | nil => cases h
  | cons f rest ih =>
    have hrest : p ∈ directedFlows rest → ∃ g ∈ f :: rest, g.Counts ∧ p.1 = (g.from_, g.to_) := by
      intro hp
      obtain ⟨g, hg, hkey⟩ := ih hp
      exact ⟨g, List.mem_cons_of_mem _ hg, hkey⟩
    rw [directedFlows_cons] at h
    split at h
    · next hcounts =>
      split at h
      · rcases List.mem_cons.1 h with rfl | hp
        · exact ⟨f, List.mem_cons_self, hcounts, rfl⟩
        · exact hrest (List.mem_of_mem_filter hp)
      · rcases List.mem_cons.1 h with rfl | hp
        · exact ⟨f, List.mem_cons_self, hcounts, rfl⟩
        · exact hrest hp
    · exact hrest h

theorem mem_feeAccounts {f : FeeFlow} (hf : f ∈ fees) (hcounts : f.Counts) :
    f.from_ ∈ feeAccounts fees ∧ f.to_ ∈ feeAccounts fees := by
  have hmem : f ∈ fees.filter (·.Counts) := List.mem_filter.2 ⟨hf, decide_eq_true hcounts⟩
  unfold feeAccounts
  rw [List.mem_toFinset, List.mem_toFinset]
  exact ⟨List.mem_flatMap.2 ⟨f, hmem, by simp⟩, List.mem_flatMap.2 ⟨f, hmem, by simp⟩⟩

theorem lookup_eq_none {l : List ((String × String) × ℕ)} {k : String × String}
    (h : ∀ p ∈ l, p.1 ≠ k) : l.lookup k = none := by
  rw [List.lookup_eq_none_iff]
  intro p hp
  exact bne_iff_ne.2 (h p hp).symm

/-- A pair of accounts in the order in which its flows are netted. -/
def canonical (k : String × String) : String × String := if k.1 ≤ k.2 then k else (k.2, k.1)

theorem canonical_mem {k : String × String} {V : Finset String} (hfrom : k.1 ∈ V) (hto : k.2 ∈ V)
    (hne : k.1 ≠ k.2) : canonical k ∈ orderedPairs V := by
  unfold canonical orderedPairs
  rw [Finset.mem_filter, Finset.mem_product]
  by_cases h : k.1 ≤ k.2
  · rw [if_pos h]
    exact ⟨⟨hfrom, hto⟩, lt_of_le_of_ne h hne⟩
  · rw [if_neg h]
    exact ⟨⟨hto, hfrom⟩, not_le.1 h⟩

theorem canonical_of_lt {a b : String} (h : a < b) :
    canonical (a, b) = (a, b) ∧ canonical (b, a) = (a, b) := by
  unfold canonical
  exact ⟨if_pos h.le, if_neg (not_le.2 h)⟩

/-- The pairs of accounts whose flows were kept are all that matter. -/
theorem netFlow_eq (fees : List FeeFlow) :
    netFlow (directedFlows fees) = netTotal (feeAccounts fees) (kept fees) := by
  have hsum : netFlow (directedFlows fees) =
      ∑ p ∈ ((directedFlows fees).map fun p => canonical p.1).dedup.toFinset,
        pairNet (kept fees) p := by
    rw [List.sum_toFinset _ (List.nodup_dedup _)]
    unfold netFlow
    refine congrArg List.sum (List.map_congr_left fun p _ => ?_)
    obtain ⟨a, b⟩ := p
    dsimp only [pairNet]
    change (if kept fees b a ≤ kept fees a b then _ else _) = _
    split
    · next h =>
      rw [Nat.sub_eq_zero_of_le h]
      rfl
    · next h =>
      rw [Nat.sub_eq_zero_of_le (Nat.le_of_not_le h), Nat.zero_add]
      rfl
  rw [hsum, netTotal_eq_sum_pairs]
  refine Finset.sum_subset (fun p hp => ?_) fun p hp hnot => ?_
  · rw [List.mem_toFinset, List.mem_dedup, List.mem_map] at hp
    obtain ⟨q, hq, rfl⟩ := hp
    obtain ⟨f, hf, hcounts, hkey⟩ := key_of_mem_directedFlows hq
    rw [hkey]
    obtain ⟨hfrom, hto⟩ := mem_feeAccounts hf hcounts
    exact canonical_mem hfrom hto fun heq => hcounts (.inr (.inr (.inl heq)))
  · -- neither direction of the pair was ever recorded
    obtain ⟨a, b⟩ := p
    have hlt : a < b := (Finset.mem_filter.1 hp).2
    obtain ⟨hforth, hback⟩ := canonical_of_lt hlt
    rw [List.mem_toFinset, List.mem_dedup] at hnot
    have hab : kept fees a b = 0 := by
      unfold kept
      rw [lookup_eq_none fun q hq hkey => hnot (List.mem_map.2 ⟨q, hq, by rw [hkey, hforth]⟩),
        Option.getD_none]
    have hba : kept fees b a = 0 := by
      unfold kept
      rw [lookup_eq_none fun q hq hkey => hnot (List.mem_map.2 ⟨q, hq, by rw [hkey, hback]⟩),
        Option.getD_none]
    unfold pairNet
    rw [hab, hba, Nat.sub_self, Nat.add_zero]

end Flows

/-! ## The boost -/

/-- The fee records that an epoch looks back at. -/
def feesOf (epoch : ℕ) (s : Chain) : List FeeFlow :=
  if 0 < epoch then s.records .feeFlow s!"{epoch - 1}:" else []

theorem feeBoostRaw_eq (epoch : ℕ) (s : Chain) :
    feeBoostRaw epoch s =
      netTotal (feeAccounts (feesOf epoch s)) (kept (feesOf epoch s)) / 2 % 2 ^ 64 := by
  unfold feeBoostRaw feesOf
  split
  · rw [netFlow_eq]
    unfold layerCFeeBoostNum layerCFeeBoostDenom
    rw [Nat.mul_one]
  · rfl

/-- What accounts spent on fees beyond what they received. -/
def spent (fees : List FeeFlow) : ℕ := outflow (feeAccounts fees) (flow fees)

/-- What was only passed on, other than straight back. -/
def passedOn (fees : List FeeFlow) : ℕ := through (feeAccounts fees) (flow fees)

/-- No payment between two accounts, nor half of what netting leaves, exceeds a word. -/
def FlowsFit (fees : List FeeFlow) : Prop :=
  (∀ a b, flow fees a b < 2 ^ 64) ∧ netTotal (feeAccounts fees) (flow fees) / 2 < 2 ^ 64

/-- What fees may unlock: nothing when they go in circles, and never more than half of
what is spent, nor than what is idle. -/
structure Contained (fees : List FeeFlow) (boost idle : ℕ) : Prop where
  circular : Circulates (feeAccounts fees) (flow fees) → boost = 0
  half : 2 * boost ≤ spent fees
  idle : boost ≤ idle

theorem contained_min_iff (fees : List FeeFlow) (raw idle : ℕ) :
    Contained fees (min raw idle) idle ↔ 2 * idle ≤ spent fees ∨ 2 * raw ≤ spent fees := by
  constructor
  · intro h
    have hhalf := h.half
    rcases min_choice raw idle with hmin | hmin
    · rw [hmin] at hhalf
      exact .inr hhalf
    · rw [hmin] at hhalf
      exact .inl hhalf
  · intro h
    have hhalf : 2 * min raw idle ≤ spent fees := by omega
    refine ⟨fun hcircle => ?_, hhalf, min_le_right _ _⟩
    have hnone : spent fees = 0 := hcircle.outflow_eq_zero
    omega

/-- Half of what netting leaves is half of what is spent only when nothing is passed on. -/
theorem half_net_iff {fees : List FeeFlow} (h : FlowsFit fees) :
    2 * (netTotal (feeAccounts fees) (kept fees) / 2 % 2 ^ 64) ≤ spent fees ↔
      passedOn fees = 0 ∨ passedOn fees = 1 ∧ 2 ∣ spent fees := by
  have hkept : kept fees = flow fees := by
    funext a b
    exact kept_eq (h.1 a b)
  have hsplit : netTotal (feeAccounts fees) (flow fees) = spent fees + passedOn fees := netTotal_eq
  rw [hkept, Nat.mod_eq_of_lt h.2, hsplit]
  omega

/-- Fees unlock idle rewards as they should exactly when there is little enough to unlock
or nothing of them is passed on beyond a netted pair. -/
theorem feeBoost_contained_iff (orders : RewardOrders) (epoch activity : ℕ) (s : Chain) :
    Contained (feesOf epoch s) ((workOf orders epoch s).feeBoost activity)
        ((workOf orders epoch s).idleBeforeBoost activity) ↔
      2 * (workOf orders epoch s).idleBeforeBoost activity ≤ spent (feesOf epoch s) ∨
        (FlowsFit (feesOf epoch s) ∧ (passedOn (feesOf epoch s) = 0 ∨
          passedOn (feesOf epoch s) = 1 ∧ 2 ∣ spent (feesOf epoch s))) ∨
        (¬ FlowsFit (feesOf epoch s) ∧
          2 * (netTotal (feeAccounts (feesOf epoch s)) (kept (feesOf epoch s)) / 2 % 2 ^ 64) ≤
            spent (feesOf epoch s)) := by
  have hboost : (workOf orders epoch s).feeBoost activity =
      min (netTotal (feeAccounts (feesOf epoch s)) (kept (feesOf epoch s)) / 2 % 2 ^ 64)
        ((workOf orders epoch s).idleBeforeBoost activity) :=
    congrArg (min · _) (feeBoostRaw_eq epoch s)
  rw [hboost, contained_min_iff]
  by_cases hfits : FlowsFit (feesOf epoch s)
  · rw [half_net_iff hfits]
    tauto
  · tauto

/-- Three accounts pay each other ten hunits in a ring. -/
def feeRing : Chain :=
  ((({} : Chain).stateSet .feeFlow "4:0" ⟨"a", "b", 10⟩).stateSet .feeFlow "4:1"
    ⟨"b", "c", 10⟩).stateSet .feeFlow "4:2" ⟨"c", "a", 10⟩

/-- Nobody has spent anything, and the ring unlocks half of all its fees. -/
theorem ring_unlocks :
    Circulates (feeAccounts (feesOf 5 feeRing)) (flow (feesOf 5 feeRing)) ∧
      spent (feesOf 5 feeRing) = 0 ∧
      (workOf .stored 5 feeRing).idleBeforeBoost 100 = 100 ∧
      (workOf .stored 5 feeRing).feeBoost 100 = 15 ∧
      ¬ Contained (feesOf 5 feeRing) ((workOf .stored 5 feeRing).feeBoost 100)
        ((workOf .stored 5 feeRing).idleBeforeBoost 100) := by
  have hspent : spent (feesOf 5 feeRing) = 0 := by decide
  have hboost : (workOf .stored 5 feeRing).feeBoost 100 = 15 := by decide
  refine ⟨?_, hspent, by decide, hboost, fun h => ?_⟩
  · unfold Circulates
    decide
  · have hhalf := h.half
    rw [hboost, hspent] at hhalf
    exact absurd hhalf (by decide)

end HoneNode
