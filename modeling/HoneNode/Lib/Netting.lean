import Mathlib.Algebra.Order.BigOperators.Group.Finset

/-!
# Lib.Netting — flows between accounts and what netting leaves of them

When flows are netted between each two accounts, what is left is the net outflow
of the accounts and whatever still passes through one on the way to another. A
circulation has no net outflow, but it passes through accounts unless it only
goes back and forth.
-/

namespace Netting

variable {α : Type*} (V : Finset α) (f : α → α → ℕ)

def sent (a : α) : ℕ := ∑ b ∈ V, f a b

def received (a : α) : ℕ := ∑ b ∈ V, f b a

/-- What an account sends once its flows with each other account are netted. -/
def netSent (a : α) : ℕ := ∑ b ∈ V, (f a b - f b a)

def netReceived (a : α) : ℕ := ∑ b ∈ V, (f b a - f a b)

/-- What the accounts send beyond what they receive. -/
def outflow : ℕ := ∑ a ∈ V, (sent V f a - received V f a)

/-- What passes through accounts after netting. -/
def through : ℕ := ∑ a ∈ V, min (netSent V f a) (netReceived V f a)

/-- What is left of all flows after netting. -/
def netTotal : ℕ := ∑ a ∈ V, netSent V f a

/-- Every account pays out exactly what it receives. -/
def Circulates : Prop := ∀ a ∈ V, sent V f a = received V f a

variable {V f}

/-- Netting changes both sides of an account alike. -/
theorem sent_add_netReceived (a : α) :
    sent V f a + netReceived V f a = received V f a + netSent V f a := by
  unfold sent netReceived received netSent
  rw [← Finset.sum_add_distrib, ← Finset.sum_add_distrib]
  exact Finset.sum_congr rfl fun b _ => by omega

theorem netTotal_eq : netTotal V f = outflow V f + through V f := by
  unfold netTotal outflow through
  rw [← Finset.sum_add_distrib]
  refine Finset.sum_congr rfl fun a _ => ?_
  have hnet := sent_add_netReceived (V := V) (f := f) a
  omega

theorem Circulates.outflow_eq_zero (h : Circulates V f) : outflow V f = 0 :=
  Finset.sum_eq_zero fun a ha => by rw [h a ha, Nat.sub_self]

/-! ## Pairs of accounts -/

section Pairs

variable [LinearOrder α]

/-- What is left of the flows between two accounts. -/
def pairNet (f : α → α → ℕ) (p : α × α) : ℕ := (f p.1 p.2 - f p.2 p.1) + (f p.2 p.1 - f p.1 p.2)

/-- The pairs of accounts, each in one order. -/
def orderedPairs (V : Finset α) : Finset (α × α) := (V ×ˢ V).filter fun p => p.1 < p.2

/-- It does not matter which of two accounts is named first. -/
theorem netTotal_eq_sum_pairs : netTotal V f = ∑ p ∈ orderedPairs V, pairNet f p := by
  have hproduct : netTotal V f = ∑ p ∈ V ×ˢ V, (f p.1 p.2 - f p.2 p.1) :=
    (Finset.sum_product V V fun p => f p.1 p.2 - f p.2 p.1).symm
  have hswap : ∑ p ∈ (V ×ˢ V).filter (fun p => ¬ p.1 < p.2), (f p.1 p.2 - f p.2 p.1) =
      ∑ p ∈ orderedPairs V, (f p.2 p.1 - f p.1 p.2) := by
    have hreversed : ∑ p ∈ (V ×ˢ V).filter (fun p => p.2 < p.1), (f p.1 p.2 - f p.2 p.1) =
        ∑ p ∈ orderedPairs V, (f p.2 p.1 - f p.1 p.2) := by
      refine Finset.sum_equiv (Equiv.prodComm α α) (fun p => ?_) fun p _ => rfl
      simp only [orderedPairs, Finset.mem_filter, Finset.mem_product, Equiv.prodComm_apply,
        Prod.fst_swap, Prod.snd_swap]
      exact and_congr_left' and_comm
    rw [← hreversed]
    symm
    refine Finset.sum_subset (fun p hp => ?_) fun p hp hnot => ?_
    · rw [Finset.mem_filter] at hp ⊢
      exact ⟨hp.1, not_lt_of_gt hp.2⟩
    · rw [Finset.mem_filter] at hp hnot
      have heq : p.1 = p.2 :=
        le_antisymm (not_lt.1 fun hlt => hnot ⟨hp.1, hlt⟩) (not_lt.1 hp.2)
      rw [heq, Nat.sub_self]
  rw [hproduct, ← Finset.sum_filter_add_sum_filter_not _ fun p => p.1 < p.2, hswap]
  unfold orderedPairs pairNet
  rw [Finset.sum_add_distrib]

end Pairs

end Netting
