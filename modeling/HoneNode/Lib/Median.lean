import Mathlib.Data.List.Sort

/-!
# Lib.Median — the upper median of a list and its majority

The element in the middle of the sorted list. An interval that holds more than
half of the elements holds it too.
-/

namespace Median

/-! ## Counting around a place -/

section Places

variable {α : Type*}

/-- If no element of the front is counted, the count fits in the rest. -/
theorem countP_le_length_drop {p : α → Bool} {l : List α} {k : ℕ}
    (h : ∀ x ∈ l.take k, p x = false) : l.countP p ≤ l.length - k := by
  have hsplit : (l.take k ++ l.drop k).countP p = (l.take k).countP p + (l.drop k).countP p :=
    List.countP_append
  have hfront : (l.take k).countP p = 0 := by
    rw [List.countP_eq_zero]
    intro x hx hp
    rw [h x hx] at hp
    cases hp
  rw [List.take_append_drop, hfront, Nat.zero_add] at hsplit
  rw [hsplit]
  exact List.countP_le_length.trans_eq List.length_drop

/-- If no element of the rest is counted, the count fits in the front. -/
theorem countP_le_of_drop {p : α → Bool} {l : List α} {k : ℕ}
    (h : ∀ x ∈ l.drop k, p x = false) : l.countP p ≤ k := by
  have hsplit : (l.take k ++ l.drop k).countP p = (l.take k).countP p + (l.drop k).countP p :=
    List.countP_append
  have hrest : (l.drop k).countP p = 0 := by
    rw [List.countP_eq_zero]
    intro x hx hp
    rw [h x hx] at hp
    cases hp
  rw [List.take_append_drop, hrest, Nat.add_zero] at hsplit
  rw [hsplit]
  exact List.countP_le_length.trans (List.length_take_le k l)

variable [PartialOrder α] {l : List α} {k : ℕ} {a : α}

theorem le_of_mem_take (hsorted : l.Pairwise (· ≤ ·)) (hk : l[k]? = some a) {x : α}
    (hx : x ∈ l.take (k + 1)) : x ≤ a := by
  obtain ⟨hlt, rfl⟩ := List.getElem?_eq_some_iff.1 hk
  obtain ⟨i, hi, rfl⟩ := List.mem_take_iff_getElem.1 hx
  rcases Nat.lt_or_ge i k with hik | hik
  · exact List.pairwise_iff_getElem.1 hsorted i k _ hlt hik
  · have heq : i = k := by omega
    subst heq
    exact le_refl _

theorem le_of_mem_drop (hsorted : l.Pairwise (· ≤ ·)) (hk : l[k]? = some a) {x : α}
    (hx : x ∈ l.drop k) : a ≤ x := by
  obtain ⟨hlt, rfl⟩ := List.getElem?_eq_some_iff.1 hk
  obtain ⟨i, hi, rfl⟩ := List.mem_drop_iff_getElem.1 hx
  rcases Nat.eq_zero_or_pos i with rfl | hpos
  · exact le_refl _
  · exact List.pairwise_iff_getElem.1 hsorted k (k + i) hlt _ (Nat.lt_add_of_pos_right hpos)

end Places

/-! ## The median -/

variable {α : Type*} [LinearOrder α]

/-- The middle element of the sorted list, the upper one of two; `d` if there is none. -/
def median (d : α) (l : List α) : α := l.mergeSort.getD (l.mergeSort.length / 2) d

variable {d lo hi : α} {l : List α}

theorem pairwise_mergeSort (l : List α) : l.mergeSort.Pairwise (· ≤ ·) := by
  have h : l.mergeSort.Pairwise fun a b => decide (a ≤ b) = true := List.pairwise_mergeSort
    (fun a b c hab hbc => by
      simp only [decide_eq_true_eq] at *
      exact le_trans hab hbc)
    (fun a b => by
      simp only [Bool.or_eq_true, decide_eq_true_eq]
      exact le_total a b) l
  exact h.imp fun hle => of_decide_eq_true hle

theorem getElem?_median (h : l ≠ []) :
    l.mergeSort[l.mergeSort.length / 2]? = some (median d l) := by
  have hpos : 0 < l.mergeSort.length := by
    rw [List.length_mergeSort]
    exact List.length_pos_iff.2 h
  have hlt : l.mergeSort.length / 2 < l.mergeSort.length := Nat.div_lt_self hpos (by omega)
  unfold median
  rw [List.getD_eq_getElem?_getD, List.getElem?_eq_getElem hlt]
  rfl

theorem median_mem (h : l ≠ []) : median d l ∈ l :=
  (List.mergeSort_perm l _).mem_iff.1 (List.mem_of_getElem? (getElem?_median h))

/-- More than half of the list is at least `lo`, so the median is. -/
theorem le_median (h : l.length < 2 * l.countP (decide <| lo ≤ ·)) : lo ≤ median d l := by
  have hne : l ≠ [] := by
    rintro rfl
    exact absurd h (Nat.not_lt_zero _)
  by_contra hlt
  have hfront : ∀ x ∈ l.mergeSort.take (l.mergeSort.length / 2 + 1), decide (lo ≤ x) = false := by
    intro x hx
    have hle := le_of_mem_take (pairwise_mergeSort l) (getElem?_median (d := d) hne) hx
    exact decide_eq_false fun hlo => hlt (hlo.trans hle)
  have hcount := countP_le_length_drop hfront
  rw [(List.mergeSort_perm l _).countP_eq, List.length_mergeSort] at hcount
  omega

/-- More than half of the list is at most `hi`, so the median is. -/
theorem median_le (h : l.length < 2 * l.countP (decide <| · ≤ hi)) : median d l ≤ hi := by
  have hne : l ≠ [] := by
    rintro rfl
    exact absurd h (Nat.not_lt_zero _)
  by_contra hlt
  have hrest : ∀ x ∈ l.mergeSort.drop (l.mergeSort.length / 2), decide (x ≤ hi) = false := by
    intro x hx
    have hle := le_of_mem_drop (pairwise_mergeSort l) (getElem?_median (d := d) hne) hx
    exact decide_eq_false fun hhi => hlt (hle.trans hhi)
  have hcount := countP_le_of_drop hrest
  rw [(List.mergeSort_perm l _).countP_eq, List.length_mergeSort] at hcount
  omega

/-- The median is where the majority is. -/
theorem median_mem_Icc (h : l.length < 2 * l.countP fun x => decide (lo ≤ x ∧ x ≤ hi)) :
    lo ≤ median d l ∧ median d l ≤ hi := by
  constructor
  · refine le_median (h.trans_le (Nat.mul_le_mul_left 2 (List.countP_mono_left fun x _ hx => ?_)))
    exact decide_eq_true (of_decide_eq_true hx).1
  · refine median_le (h.trans_le (Nat.mul_le_mul_left 2 (List.countP_mono_left fun x _ hx => ?_)))
    exact decide_eq_true (of_decide_eq_true hx).2

end Median
