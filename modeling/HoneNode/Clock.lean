import HoneNode.Lib.Rounding
import HoneNode.Lib.Tally

/-!
# Clock — reward-proposal consensus

The message handler `receive_reward_proposal` of `clock.rs`: proposals of one
epoch are collected once per node id, filtered to the registered clock nodes,
tallied by rewards hash, and the first hash that reaches 51% of the registered
set is sent on the `finalized` channel.

1. **Model**: one node's `ClockConsensus`, the handler, and whole delivery
   sequences (`deliver`).
2. **Invariant** (`Inv`): every event sent so far is backed by more than half
   of the registered nodes, and an epoch that was sent is marked finalized.
3. **Agreement**: two majorities of one set meet in a node, and that node
   proposes one hash per epoch.

The `deadline` of a reward state is written and never read, so it is left out,
as are the fields of `Inner` that only epoch sealing uses.
-/

namespace HoneNode.Clock

open Function (update update_self)
open Tally Rounding

/-! ## Model -/

/-- A reward consensus proposal broadcast after reward emission. -/
structure RewardProposal where
  epoch : ℕ
  nodeId : String
  rewardsHash : String
deriving DecidableEq, Repr

/-- Emitted when 51% of clock nodes agree on rewards for an epoch. -/
structure FinalizedEpoch where
  epoch : ℕ
  rewardsHash : String
  quorum : ℕ
deriving DecidableEq, Repr

structure RewardState where
  proposals : List RewardProposal
  finalized : Bool
deriving DecidableEq, Repr

/-- One node: the reward states by epoch, the registered clock set, and the
events sent on the `finalized` channel, oldest first. -/
structure ClockConsensus where
  rewardStates : ℕ → Option RewardState
  registeredClocks : List String
  finalizedTx : List FinalizedEpoch

/-- A fresh node that knows the registered set `reg`. -/
def new (reg : List String) : ClockConsensus where
  rewardStates := fun _ => none
  registeredClocks := reg
  finalizedTx := []

/-- `MIN_QUORUM_FRACTION`: the binary64 nearest to `0.51` is this numerator
over `2 ^ 53`. -/
def minQuorumFraction : ℕ := 4593671619917906

/-- `(denominator as f64 * MIN_QUORUM_FRACTION).ceil() as usize`: the
conversion and the product each round to 53 significant bits. -/
def fractionCeil (denominator : ℕ) : ℕ :=
  ceilQuot (roundSig 53 (roundSig 53 denominator * minQuorumFraction)) (2 ^ 53)

def quorumNeeded (quorum denominator : ℕ) : ℕ := max (fractionCeil denominator) quorum

/-- Deduplicate per node id. -/
def pushProposal (ps : List RewardProposal) (p : RewardProposal) : List RewardProposal :=
  if ps.any (fun q => q.nodeId == p.nodeId) then ps else ps ++ [p]

/-- Proposals that count: those of registered nodes, once the set is known. -/
def validProposals (reg : List String) (ps : List RewardProposal) : List RewardProposal :=
  if reg.isEmpty then ps else ps.filter fun p => reg.contains p.nodeId

def denominator (reg : List String) (ps : List RewardProposal) : ℕ :=
  if reg.isEmpty then ps.length else reg.length

/-- The event due for the proposals collected so far, if any. -/
def finalizedEvent (quorum : ℕ) (order : HashOrder (String × ℕ)) (reg : List String)
    (epoch : ℕ) (ps : List RewardProposal) : Option FinalizedEpoch :=
  let hashCounts := tally ((validProposals reg ps).map RewardProposal.rewardsHash)
  match maxByKey Prod.snd (order.visit hashCounts) with
  | some (bestHash, count) =>
    if quorumNeeded quorum (denominator reg ps) ≤ count then
      some { epoch, rewardsHash := bestHash, quorum := count }
    else none
  | none => none

/-- Ingest a reward consensus proposal from a peer (or self). `quorum` is the
node's `HONE_CLOCK_QUORUM`, `order` the iteration order of `hash_counts`. -/
def receiveRewardProposal (quorum : ℕ) (order : HashOrder (String × ℕ)) (c : ClockConsensus)
    (proposal : RewardProposal) : ClockConsensus :=
  let epoch := proposal.epoch
  let state := (c.rewardStates epoch).getD { proposals := [], finalized := false }
  if state.finalized then
    { c with rewardStates := update c.rewardStates epoch (some state) }
  else
    let proposals := pushProposal state.proposals proposal
    match finalizedEvent quorum order c.registeredClocks epoch proposals with
    | some event =>
      { c with
        rewardStates :=
          update c.rewardStates epoch (some { proposals, finalized := true })
        finalizedTx := c.finalizedTx ++ [event] }
    | none =>
      { c with
        rewardStates :=
          update c.rewardStates epoch (some { proposals, finalized := false }) }

/-- One delivery: a proposal, and the iteration order its tally happens to have. -/
structure Delivery where
  proposal : RewardProposal
  order : HashOrder (String × ℕ)

/-- Run the handler over a delivery sequence. -/
def deliver (quorum : ℕ) (c : ClockConsensus) (ds : List Delivery) : ClockConsensus :=
  ds.foldl (fun c d => receiveRewardProposal quorum d.order c d.proposal) c

/-! ## The rounding of 51% -/

/-- What the two roundings and the rounding up of the threshold lose at most. -/
theorem fractionCeil_rounding (n : ℕ) : ∃ a b, n * 2 ^ 53 ≤ a * 2 ^ 53 + n ∧
    a * minQuorumFraction * 2 ^ 53 ≤ b * 2 ^ 53 + a * minQuorumFraction ∧
    b ≤ fractionCeil n * 2 ^ 53 :=
  ⟨_, _, roundSig_lower (by norm_num) n, roundSig_lower (by norm_num) _,
    le_ceilQuot_mul (by norm_num)⟩

/-- The 51% threshold, as computed in binary64, is always more than half. -/
theorem lt_two_mul_fractionCeil {n : ℕ} (hn : 0 < n) : n < 2 * fractionCeil n := by
  obtain ⟨a, b, h1, h2, h3⟩ := fractionCeil_rounding n
  norm_num [minQuorumFraction] at h1 h2 h3 ⊢
  omega

/-- The threshold is the exact 51% for every set that can be stored. -/
theorem fraction_le_fractionCeil {n : ℕ} (hn : n < 2 ^ 46) : 51 * n ≤ 100 * fractionCeil n := by
  obtain ⟨a, b, h1, h2, h3⟩ := fractionCeil_rounding n
  norm_num [minQuorumFraction] at h1 h2 h3 hn ⊢
  omega

theorem lt_two_mul_quorumNeeded (quorum : ℕ) {n : ℕ} (hn : 0 < n) :
    n < 2 * quorumNeeded quorum n := by
  have h := lt_two_mul_fractionCeil hn
  have hmax : fractionCeil n ≤ quorumNeeded quorum n := le_max_left _ _
  omega

/-! ## What one delivery does -/

/-- The three outcomes of a delivery: the epoch was finalized before and
nothing changes, the proposal is stored, or it is stored and an event is sent. -/
theorem receive_cases (quorum : ℕ) (order : HashOrder (String × ℕ)) (c : ClockConsensus)
    (p : RewardProposal) :
    let st := (c.rewardStates p.epoch).getD { proposals := [], finalized := false }
    let ps := pushProposal st.proposals p
    let c' := receiveRewardProposal quorum order c p
    (st.finalized = true ∧ c'.finalizedTx = c.finalizedTx ∧
      c'.rewardStates = update c.rewardStates p.epoch (some st)) ∨
    (st.finalized = false ∧ c'.finalizedTx = c.finalizedTx ∧
      c'.rewardStates = update c.rewardStates p.epoch (some ⟨ps, false⟩)) ∨
    (st.finalized = false ∧
      ∃ ev, finalizedEvent quorum order c.registeredClocks p.epoch ps = some ev ∧
        c'.finalizedTx = c.finalizedTx ++ [ev] ∧
        c'.rewardStates = update c.rewardStates p.epoch (some ⟨ps, true⟩)) := by
  intro st ps c'
  cases hfin : st.finalized with
  | true =>
    left
    simp [c', receiveRewardProposal, st, hfin]
  | false =>
    cases hev : finalizedEvent quorum order c.registeredClocks p.epoch ps with
    | none => simp [c', receiveRewardProposal, hfin, hev, st, ps]
    | some ev =>
      right; right
      refine ⟨rfl, ev, rfl, ?_, ?_⟩ <;> simp [c', receiveRewardProposal, hfin, hev, st, ps]

@[simp] theorem receive_registeredClocks (quorum : ℕ) (order : HashOrder (String × ℕ))
    (c : ClockConsensus) (p : RewardProposal) :
    (receiveRewardProposal quorum order c p).registeredClocks = c.registeredClocks := by
  unfold receiveRewardProposal
  dsimp only
  split
  · rfl
  · split <;> rfl

/-! ## Invariant -/

/-- `ps` was collected from the deliveries `D` for epoch `e`, once per node. -/
structure Collected (D : List RewardProposal) (e : ℕ) (ps : List RewardProposal) : Prop where
  delivered : ∀ p ∈ ps, p ∈ D ∧ p.epoch = e
  nodup : (ps.map RewardProposal.nodeId).Nodup

/-- More than half of the registered nodes proposed hash `h` for epoch `e`. -/
def Backed (reg : List String) (D : List RewardProposal) (e : ℕ) (h : String) : Prop :=
  ∃ voters : Finset String, voters ⊆ reg.toFinset ∧ reg.length < 2 * voters.card ∧
    ∀ v ∈ voters, ∃ p ∈ D, p.epoch = e ∧ p.nodeId = v ∧ p.rewardsHash = h

/-- The invariant of a node that has taken the deliveries `D`. -/
structure Inv (reg : List String) (D : List RewardProposal) (c : ClockConsensus) : Prop where
  registered : c.registeredClocks = reg
  collected : ∀ e st, c.rewardStates e = some st → Collected D e st.proposals
  finalized : ∀ f ∈ c.finalizedTx, ∃ st, c.rewardStates f.epoch = some st ∧ st.finalized = true
  once : (c.finalizedTx.map FinalizedEpoch.epoch).Nodup
  backed : ∀ f ∈ c.finalizedTx, Backed reg D f.epoch f.rewardsHash

variable {reg : List String} {D : List RewardProposal} {ps : List RewardProposal}

theorem Collected.mono {D D' : List RewardProposal} {e : ℕ}
    (h : Collected D e ps) (hD : ∀ p ∈ D, p ∈ D') : Collected D' e ps where
  delivered := fun p hp => ⟨hD p (h.delivered p hp).1, (h.delivered p hp).2⟩
  nodup := h.nodup

theorem Backed.mono {D D' : List RewardProposal} {e : ℕ} {h : String}
    (hb : Backed reg D e h) (hD : ∀ p ∈ D, p ∈ D') : Backed reg D' e h := by
  obtain ⟨voters, hsub, hcard, hvote⟩ := hb
  refine ⟨voters, hsub, hcard, ?_⟩
  intro v hv
  obtain ⟨p, hp, hrest⟩ := hvote v hv
  exact ⟨p, hD p hp, hrest⟩

theorem Collected.push {p : RewardProposal} (h : Collected D p.epoch ps) (hp : p ∈ D) :
    Collected D p.epoch (pushProposal ps p) := by
  unfold pushProposal
  split
  · exact h
  · rename_i hnew
    refine ⟨?_, ?_⟩
    · intro q hq
      rw [List.mem_append, List.mem_singleton] at hq
      rcases hq with hq | rfl
      · exact h.delivered q hq
      · exact ⟨hp, rfl⟩
    · rw [List.map_append, List.nodup_append]
      refine ⟨h.nodup, List.nodup_singleton _, ?_⟩
      intro a ha b hb hab
      obtain ⟨q, hq, rfl⟩ := List.mem_map.1 ha
      rw [List.map_singleton, List.mem_singleton] at hb
      exact hnew (List.any_eq_true.2 ⟨q, hq, by simpa [hb] using hab⟩)

/-- The number of votes for `h` among proposals with distinct node ids is the
number of nodes that cast them. -/
theorem card_voters (hnd : (ps.map RewardProposal.nodeId).Nodup) (h : String) :
    ((ps.filter (·.rewardsHash = h)).map RewardProposal.nodeId).toFinset.card =
      (ps.map RewardProposal.rewardsHash).count h := by
  have hsub : ((ps.filter (·.rewardsHash = h)).map RewardProposal.nodeId).Nodup :=
    hnd.sublist (List.filter_sublist.map _)
  rw [List.toFinset_card_of_nodup hsub, List.length_map, List.count, List.countP_map,
    List.countP_eq_length_filter]
  rfl

/-- An event is only produced for a hash that more than half of the registered
nodes proposed. -/
theorem backed_of_finalizedEvent {quorum : ℕ} {order : HashOrder (String × ℕ)}
    {D ps : List RewardProposal} {e : ℕ} {ev : FinalizedEpoch}
    (hreg : reg ≠ []) (hps : Collected D e ps)
    (h : finalizedEvent quorum order reg e ps = some ev) :
    ev.epoch = e ∧ Backed reg D e ev.rewardsHash := by
  have hempty : reg.isEmpty = false := by simpa using hreg
  unfold finalizedEvent at h
  dsimp only at h
  split at h
  swap
  · cases h
  rename_i best count hbest
  split at h
  swap
  · cases h
  rename_i hquorum
  cases h
  refine ⟨rfl, ?_⟩
  have hcount := maxByKey_tally hbest
  dsimp only at hcount
  simp only [denominator, validProposals, hempty, Bool.false_eq_true, if_false] at hquorum hcount
  -- the nodes behind the winning counter
  set valid := ps.filter fun p => reg.contains p.nodeId with hvalid
  have hnd : (valid.map RewardProposal.nodeId).Nodup :=
    hps.nodup.sublist (List.filter_sublist.map _)
  refine ⟨((valid.filter (·.rewardsHash = best)).map RewardProposal.nodeId).toFinset, ?_, ?_, ?_⟩
  · intro v hv
    simp only [hvalid, List.mem_toFinset, List.mem_map, List.mem_filter] at hv ⊢
    obtain ⟨p, ⟨⟨_, hp⟩, _⟩, rfl⟩ := hv
    exact List.contains_iff_mem.1 hp
  · rw [card_voters hnd best, ← hcount]
    have hpos : 0 < reg.length := List.length_pos_iff.2 hreg
    have hhalf := lt_two_mul_quorumNeeded quorum hpos
    omega
  · intro v hv
    simp only [hvalid, List.mem_toFinset, List.mem_map, List.mem_filter, decide_eq_true_eq] at hv
    obtain ⟨p, ⟨⟨hp, _⟩, hh⟩, rfl⟩ := hv
    exact ⟨p, (hps.delivered p hp).1, (hps.delivered p hp).2, rfl, hh⟩

theorem inv_new (reg : List String) : Inv reg [] (new reg) where
  registered := rfl
  collected := by
    intro e st h
    simp [new] at h
  finalized := by simp [new]
  once := by simp [new]
  backed := by simp [new]

/-- The proposals a node holds for the epoch of `p` are still collected
properly after the delivery of `p`. -/
theorem Inv.collected_getD {c : ClockConsensus} (hinv : Inv reg D c) (p : RewardProposal) :
    Collected (D ++ [p]) p.epoch
      ((c.rewardStates p.epoch).getD { proposals := [], finalized := false }).proposals := by
  cases hst : c.rewardStates p.epoch with
  | none => exact ⟨by simp, by simp⟩
  | some st =>
    exact (hinv.collected _ _ hst).mono fun q hq => List.mem_append_left _ hq

/-- Step lemma: every delivery preserves the invariant. -/
theorem inv_receive (hreg : reg ≠ [])
    {c : ClockConsensus} (hinv : Inv reg D c) (quorum : ℕ) (order : HashOrder (String × ℕ))
    (p : RewardProposal) :
    Inv reg (D ++ [p]) (receiveRewardProposal quorum order c p) := by
  have hmono : ∀ q ∈ D, q ∈ D ++ [p] := fun q hq => List.mem_append_left _ hq
  have hp : p ∈ D ++ [p] := by simp
  have hst := hinv.collected_getD p
  have hreg' : (receiveRewardProposal quorum order c p).registeredClocks = reg := by
    rw [receive_registeredClocks, hinv.registered]
  have hcases := receive_cases quorum order c p
  set st := (c.rewardStates p.epoch).getD { proposals := [], finalized := false } with hstdef
  set c' := receiveRewardProposal quorum order c p
  -- a stored state of `c'` is the new one of `p.epoch`, or an old one
  have hstored : ∀ new : RewardState, c'.rewardStates =
      update c.rewardStates p.epoch (some new) →
      Collected (D ++ [p]) p.epoch new.proposals →
      ∀ e s, c'.rewardStates e = some s → Collected (D ++ [p]) e s.proposals := by
    intro new hnew hcol e s hs
    rw [hnew] at hs
    by_cases he : e = p.epoch
    · subst he
      rw [update_self, Option.some.injEq] at hs
      exact hs ▸ hcol
    · rw [Function.update_of_ne he] at hs
      exact (hinv.collected e s hs).mono hmono
  -- an epoch that was finalized stays so
  have hkept : ∀ new : RewardState, c'.rewardStates =
      update c.rewardStates p.epoch (some new) →
      (st.finalized = true → new.finalized = true) →
      ∀ f ∈ c.finalizedTx, ∃ s, c'.rewardStates f.epoch = some s ∧ s.finalized = true := by
    intro new hnew hfin f hf
    obtain ⟨s, hs, hsf⟩ := hinv.finalized f hf
    rw [hnew]
    by_cases he : f.epoch = p.epoch
    · refine ⟨new, by rw [he, update_self], hfin ?_⟩
      rw [hstdef, ← he, hs]
      exact hsf
    · exact ⟨s, by rw [Function.update_of_ne he, hs], hsf⟩
  rcases hcases with ⟨_, htx, hupd⟩ | ⟨hnf, htx, hupd⟩ | ⟨hnf, ev, hev, htx, hupd⟩
  · -- finalized before: nothing is sent
    refine ⟨hreg', hstored st hupd hst, ?_, ?_, ?_⟩
    · rw [htx]
      exact hkept st hupd id
    · rw [htx]
      exact hinv.once
    · intro f hf
      rw [htx] at hf
      exact (hinv.backed f hf).mono hmono
  · -- stored, no quorum yet
    refine ⟨hreg', hstored _ hupd (hst.push hp), ?_, ?_, ?_⟩
    · rw [htx]
      exact hkept _ hupd (fun h => absurd h (by simp [hnf]))
    · rw [htx]
      exact hinv.once
    · intro f hf
      rw [htx] at hf
      exact (hinv.backed f hf).mono hmono
  · -- stored and sent: the epoch was not finalized, so no earlier event has it
    rw [hinv.registered] at hev
    obtain ⟨hepoch, hbacked⟩ := backed_of_finalizedEvent hreg (hst.push hp) hev
    refine ⟨hreg', hstored _ hupd (hst.push hp), ?_, ?_, ?_⟩
    · rw [htx]
      intro f hf
      rw [List.mem_append, List.mem_singleton] at hf
      rcases hf with hf | rfl
      · exact hkept _ hupd (fun _ => rfl) f hf
      · exact ⟨_, by rw [hupd, hepoch, update_self], rfl⟩
    · rw [htx, List.map_append, List.nodup_append]
      refine ⟨hinv.once, List.nodup_singleton _, ?_⟩
      intro a ha b hb hab
      obtain ⟨f, hf, rfl⟩ := List.mem_map.1 ha
      rw [List.map_singleton, List.mem_singleton] at hb
      obtain ⟨s, hs, hsf⟩ := hinv.finalized f hf
      have hfe : f.epoch = p.epoch := by rw [hab, hb, hepoch]
      rw [hstdef, ← hfe, hs, Option.getD_some, hsf] at hnf
      cases hnf
    · intro f hf
      rw [htx, List.mem_append, List.mem_singleton] at hf
      rcases hf with hf | rfl
      · exact (hinv.backed f hf).mono hmono
      · rw [hepoch]
        exact hbacked

/-- Run lemma: the invariant holds after every delivery sequence. -/
theorem inv_deliver (hreg : reg ≠ []) (quorum : ℕ) (ds : List Delivery) :
    ∀ {D : List RewardProposal} {c : ClockConsensus}, Inv reg D c →
      Inv reg (D ++ ds.map Delivery.proposal) (deliver quorum c ds) := by
  induction ds with
  | nil =>
    intro D c hinv
    simpa [deliver] using hinv
  | cons d ds ih =>
    intro D c hinv
    have h := ih (inv_receive hreg hinv quorum d.order d.proposal)
    simpa [deliver] using h

/-! ## Agreement -/

/-- Each registered node proposes at most one rewards hash per epoch. -/
def OneHashPerEpoch (reg : List String) (D : List RewardProposal) : Prop :=
  ∀ p ∈ D, ∀ q ∈ D, p.nodeId ∈ reg → p.nodeId = q.nodeId → p.epoch = q.epoch →
    p.rewardsHash = q.rewardsHash

instance (reg : List String) (D : List RewardProposal) : Decidable (OneHashPerEpoch reg D) :=
  inferInstanceAs (Decidable (∀ p ∈ D, ∀ q ∈ D, p.nodeId ∈ reg → p.nodeId = q.nodeId →
    p.epoch = q.epoch → p.rewardsHash = q.rewardsHash))

/-- Two hashes that are both backed for one epoch are equal: the majorities
share a node. -/
theorem backed_unique {e : ℕ} {h₁ h₂ : String}
    (hone : OneHashPerEpoch reg D) (hb₁ : Backed reg D e h₁) (hb₂ : Backed reg D e h₂) :
    h₁ = h₂ := by
  obtain ⟨A, hA, hA2, hvA⟩ := hb₁
  obtain ⟨B, hB, hB2, hvB⟩ := hb₂
  have hcard : reg.toFinset.card ≤ reg.length := List.toFinset_card_le reg
  obtain ⟨v, hvAmem, hvBmem⟩ := majority_inter hA hB (by omega) (by omega)
  obtain ⟨p, hpD, hpe, hpn, hph⟩ := hvA v hvAmem
  obtain ⟨q, hqD, hqe, hqn, hqh⟩ := hvB v hvBmem
  have hmem : p.nodeId ∈ reg := hpn ▸ List.mem_toFinset.1 (hA hvAmem)
  rw [← hph, ← hqh]
  exact hone p hpD q hqD hmem (hpn.trans hqn.symm) (hpe.trans hqe.symm)

/-- Reward-proposal agreement: two nodes with the same registered set, each
with its own quorum setting, delivery sequence and iteration orders, never
finalize different hashes for one epoch, and each finalizes an epoch at most
once. -/
theorem reward_agreement (reg : List String) (hreg : reg ≠ []) (q₁ q₂ : ℕ)
    (ds₁ ds₂ : List Delivery)
    (hone : OneHashPerEpoch reg ((ds₁ ++ ds₂).map Delivery.proposal)) :
    (∀ f₁ ∈ (deliver q₁ (new reg) ds₁).finalizedTx,
      ∀ f₂ ∈ (deliver q₂ (new reg) ds₂).finalizedTx,
        f₁.epoch = f₂.epoch → f₁.rewardsHash = f₂.rewardsHash) ∧
    ((deliver q₁ (new reg) ds₁).finalizedTx.map FinalizedEpoch.epoch).Nodup ∧
    ((deliver q₂ (new reg) ds₂).finalizedTx.map FinalizedEpoch.epoch).Nodup := by
  have inv₁ := inv_deliver hreg q₁ ds₁ (inv_new reg)
  have inv₂ := inv_deliver hreg q₂ ds₂ (inv_new reg)
  refine ⟨?_, inv₁.once, inv₂.once⟩
  intro f₁ hf₁ f₂ hf₂ he
  have hb₁ : Backed reg ((ds₁ ++ ds₂).map Delivery.proposal) f₁.epoch f₁.rewardsHash := by
    apply (inv₁.backed f₁ hf₁).mono
    intro p hp
    rw [List.map_append]
    exact List.mem_append_left _ (by simpa using hp)
  have hb₂ : Backed reg ((ds₁ ++ ds₂).map Delivery.proposal) f₂.epoch f₂.rewardsHash := by
    apply (inv₂.backed f₂ hf₂).mono
    intro p hp
    rw [List.map_append]
    exact List.mem_append_right _ (by simpa using hp)
  rw [← he] at hb₂
  exact backed_unique hone hb₁ hb₂

/-- Three clocks, two of which agree: both nodes finalize `"h"` although the
third proposal reaches them at different times. -/
theorem reward_agreement_three_clocks :
    let a : Delivery := ⟨⟨7, "a", "h"⟩, HashOrder.stored⟩
    let b : Delivery := ⟨⟨7, "b", "h"⟩, HashOrder.stored⟩
    let c : Delivery := ⟨⟨7, "c", "x"⟩, HashOrder.stored⟩
    ((deliver 2 (new ["a", "b", "c"]) [c, a, a, b]).finalizedTx = [⟨7, "h", 2⟩] ∧
      (deliver 2 (new ["a", "b", "c"]) [b, a, c]).finalizedTx = [⟨7, "h", 2⟩]) ∧
    ∀ f₁ ∈ (deliver 2 (new ["a", "b", "c"]) [c, a, a, b]).finalizedTx,
      ∀ f₂ ∈ (deliver 2 (new ["a", "b", "c"]) [b, a, c]).finalizedTx,
        f₁.epoch = f₂.epoch → f₁.rewardsHash = f₂.rewardsHash := by
  refine ⟨by decide, ?_⟩
  exact (reward_agreement ["a", "b", "c"] (by decide) 2 2 _ _ (by decide)).1

end HoneNode.Clock
