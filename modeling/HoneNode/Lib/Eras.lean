import Mathlib.Algebra.BigOperators.Intervals

/-!
# Lib.Eras — a timeline whose pace changes from era to era

Slots come in eras of one length, and all slots of an era take the same time. The
start of a slot is the whole eras before it and the slots before it in its own era.
-/

namespace Eras

/-- When a slot starts: `L` slots to an era, `d k` for each slot of era `k`. -/
def start (L : ℕ) (d : ℕ → ℕ) (n : ℕ) : ℕ :=
  ∑ k ∈ Finset.range (n / L), L * d k + (n - n / L * L) * d (n / L)

variable {L : ℕ} {d d' : ℕ → ℕ} {n m : ℕ}

@[simp]
theorem start_zero (L : ℕ) (d : ℕ → ℕ) : start L d 0 = 0 := by
  rw [start, Nat.zero_div, Finset.sum_range_zero, Nat.zero_sub, Nat.zero_mul]

/-- A slot starts when the one before it has passed, at the boundary of eras too. -/
theorem start_succ (hL : 0 < L) (d : ℕ → ℕ) (n : ℕ) :
    start L d (n + 1) = start L d n + d (n / L) := by
  have hsplit : n / L * L + n % L = n := Nat.div_add_mod' n L
  have hmod : n % L < L := Nat.mod_lt n hL
  have hplace : n - n / L * L = n % L := Nat.sub_eq_of_eq_add' hsplit.symm
  by_cases hlast : n % L + 1 = L
  · have hnext : n + 1 = (n / L + 1) * L := by
      rw [Nat.add_mul, Nat.one_mul]
      omega
    have hdiv : (n + 1) / L = n / L + 1 := by rw [hnext, Nat.mul_div_cancel _ hL]
    rw [start, start, hdiv, ← hnext, Nat.sub_self, Nat.zero_mul, Nat.add_zero,
      Finset.sum_range_succ, hplace, Nat.add_assoc, ← Nat.succ_mul, Nat.succ_eq_add_one, hlast]
  · have hdiv : (n + 1) / L = n / L := by
      refine Nat.div_eq_of_lt_le (by omega) ?_
      rw [Nat.add_mul, Nat.one_mul]
      omega
    have hplace' : n + 1 - n / L * L = n % L + 1 := by omega
    rw [start, start, hdiv, hplace, hplace', Nat.succ_mul, Nat.add_assoc]

theorem start_eq_sum (hL : 0 < L) (d : ℕ → ℕ) (n : ℕ) :
    start L d n = ∑ i ∈ Finset.range n, d (i / L) := by
  induction n with
  | zero => rw [start_zero, Finset.sum_range_zero]
  | succ n ih => rw [start_succ hL, ih, Finset.sum_range_succ]

/-- The slots between two points in time. -/
theorem start_add_sum (hL : 0 < L) (h : n ≤ m) :
    start L d m = start L d n + ∑ i ∈ Finset.Ico n m, d (i / L) := by
  rw [start_eq_sum hL, start_eq_sum hL, Finset.sum_range_add_sum_Ico _ h]

/-- At the start of an era only whole eras have passed. -/
theorem start_era (hL : 0 < L) (d : ℕ → ℕ) (k : ℕ) :
    start L d (k * L) = ∑ i ∈ Finset.range k, L * d i := by
  rw [start, Nat.mul_div_cancel k hL, Nat.sub_self, Nat.zero_mul, Nat.add_zero]

/-- Between the starts of two eras only whole eras pass. -/
theorem sum_eras (hL : 0 < L) (d : ℕ → ℕ) {k l : ℕ} (h : k ≤ l) :
    ∑ i ∈ Finset.Ico (k * L) (l * L), d (i / L) = ∑ j ∈ Finset.Ico k l, L * d j := by
  have hslots := start_add_sum hL (d := d) (Nat.mul_le_mul_right L h)
  rw [start_era hL, start_era hL, ← Finset.sum_range_add_sum_Ico _ h] at hslots
  exact (Nat.add_left_cancel hslots).symm

end Eras
