import Mathlib.Algebra.Order.BigOperators.Group.Finset

/-!
# Lib.Totals — what functions with few nonzero values add up to

A function has a total if it is zero but for some finite set. Changing one value
changes the total by as much, and moving an amount from one place to another, or
to the same one, keeps it.
-/

namespace Totals

variable {α : Type*} {f : α → ℕ} {n : ℕ} {a b : α}

/-- The values of `f` add up to `n`. -/
def Total (f : α → ℕ) (n : ℕ) : Prop := ∃ s : Finset α, (∀ a ∉ s, f a = 0) ∧ ∑ a ∈ s, f a = n

theorem total_zero : Total (fun _ : α => 0) 0 := ⟨∅, fun _ _ => rfl, Finset.sum_empty⟩

variable [DecidableEq α]

/-- Any place is in some set that the values are in. -/
theorem Total.around (h : Total f n) (a : α) :
    ∃ s : Finset α, a ∈ s ∧ (∀ b ∉ s, f b = 0) ∧ ∑ b ∈ s, f b = n := by
  obtain ⟨s, hzero, hsum⟩ := h
  refine ⟨insert a s, Finset.mem_insert_self a s, fun b hb => ?_, ?_⟩
  · exact hzero b fun hmem => hb (Finset.mem_insert_of_mem hmem)
  · rw [← hsum]
    by_cases ha : a ∈ s
    · rw [Finset.insert_eq_of_mem ha]
    · rw [Finset.sum_insert ha, hzero a ha, Nat.zero_add]

theorem Total.le (h : Total f n) (a : α) : f a ≤ n := by
  obtain ⟨s, ha, -, hsum⟩ := h.around a
  rw [← hsum]
  exact Finset.single_le_sum (fun _ _ => Nat.zero_le _) ha

theorem Total.update (h : Total f n) (a : α) (v : ℕ) :
    Total (Function.update f a v) (n - f a + v) := by
  obtain ⟨s, ha, hzero, hsum⟩ := h.around a
  refine ⟨s, fun b hb => ?_, ?_⟩
  · rw [Function.update_of_ne (ne_of_mem_of_not_mem ha hb).symm]
    exact hzero b hb
  · have hrest : f a + ∑ b ∈ s.erase a, f b = n := (Finset.add_sum_erase s f ha).trans hsum
    have hsame : ∑ b ∈ s.erase a, Function.update f a v b = ∑ b ∈ s.erase a, f b :=
      Finset.sum_congr rfl fun b hb => Function.update_of_ne (Finset.ne_of_mem_erase hb) _ _
    rw [← Finset.add_sum_erase s _ ha, Function.update_self, hsame]
    omega

/-- An amount goes from one place to another. -/
def move (f : α → ℕ) (a b : α) (amount : ℕ) : α → ℕ :=
  Function.update (Function.update f a (f a - amount)) b
    (Function.update f a (f a - amount) b + amount)

theorem Total.move (h : Total f n) {amount : ℕ} (hle : amount ≤ f a) (b : α) :
    Total (move f a b amount) n := by
  have htaken := h.update a (f a - amount)
  have hput := htaken.update b (Function.update f a (f a - amount) b + amount)
  have hall : f a ≤ n := h.le a
  have hrest := htaken.le b
  have hsame : n - f a + (f a - amount) - Function.update f a (f a - amount) b +
      (Function.update f a (f a - amount) b + amount) = n := by omega
  rw [hsame] at hput
  exact hput

/-- Where an amount goes there is room for it within the total. -/
theorem Total.move_le (h : Total f n) {amount : ℕ} (hle : amount ≤ f a) (b : α) :
    Function.update f a (f a - amount) b + amount ≤ n := by
  have hput := (h.move hle b).le b
  unfold Totals.move at hput
  rwa [Function.update_self] at hput

theorem move_of_ne {amount : ℕ} {c : α} (ha : c ≠ a) (hb : c ≠ b) : move f a b amount c = f c := by
  unfold move
  rw [Function.update_of_ne hb, Function.update_of_ne ha]

theorem le_move {amount : ℕ} {c : α} (ha : c ≠ a) : f c ≤ move f a b amount c := by
  by_cases hb : c = b
  · subst hb
    unfold move
    rw [Function.update_self, Function.update_of_ne ha]
    exact Nat.le_add_right _ _
  · exact (move_of_ne ha hb).ge

/-- No place loses more than what is moved. -/
theorem le_move_add (amount : ℕ) (c : α) : f c ≤ move f a b amount c + amount := by
  by_cases ha : c = a
  · subst ha
    by_cases hb : c = b
    · subst hb
      unfold move
      rw [Function.update_self, Function.update_self]
      omega
    · unfold move
      rw [Function.update_of_ne hb, Function.update_self]
      omega
  · exact (le_move ha).trans (Nat.le_add_right _ _)

end Totals
