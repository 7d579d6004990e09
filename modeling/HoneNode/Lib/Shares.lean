import Mathlib.Algebra.BigOperators.Ring.List
import Mathlib.Algebra.Order.BigOperators.Group.List
import Mathlib.Algebra.Order.Group.Nat
import Mathlib.Algebra.Ring.Nat

/-!
# Lib.Shares — an amount split into shares that are rounded down

However the weights are chosen, the shares of a pot never add up to more than
the pot, also when each is cut to the width of a machine word.
-/

namespace Shares

variable {α : Type*}

/-- Rounding down each quotient loses against rounding down their sum. -/
theorem sum_div_le (l : List ℕ) (d : ℕ) : (l.map (· / d)).sum ≤ l.sum / d := by
  induction l with
  | nil => simp
  | cons a l ih =>
    rw [List.map_cons, List.sum_cons, List.sum_cons]
    exact (Nat.add_le_add_left ih _).trans Nat.div_add_div_le_add_div

/-- Shares by weight, of a total the weights do not exceed. -/
theorem sum_mul_div_le (pot : ℕ) {total : ℕ} {w : α → ℕ} {l : List α}
    (h : (l.map w).sum ≤ total) : (l.map fun a => pot * w a / total).sum ≤ pot :=
  calc (l.map fun a => pot * w a / total).sum
      = ((l.map fun a => pot * w a).map (· / total)).sum := by rw [List.map_map]; rfl
    _ ≤ (l.map fun a => pot * w a).sum / total := sum_div_le _ _
    _ = pot * (l.map w).sum / total := by rw [List.sum_map_mul_left]
    _ ≤ pot * total / total := Nat.div_le_div_right (Nat.mul_le_mul_left _ h)
    _ ≤ pot := Nat.div_le_of_le_mul (Nat.mul_comm _ _).le

/-- Where nothing is rounded, nothing is lost. -/
theorem sum_div_of_dvd {l : List ℕ} {d : ℕ} (hd : 0 < d) (h : ∀ a ∈ l, d ∣ a) :
    (l.map (· / d)).sum = l.sum / d := by
  induction l with
  | nil => simp
  | cons a l ih =>
    obtain ⟨k, rfl⟩ := h a List.mem_cons_self
    rw [List.map_cons, List.sum_cons, List.sum_cons, Nat.mul_add_div hd, Nat.mul_div_cancel_left _ hd,
      ih fun b hb => h b (List.mem_cons_of_mem _ hb)]

/-- Shares that are all exact add up to the pot. -/
theorem sum_mul_div_eq {pot total : ℕ} {w : α → ℕ} {l : List α} (hpos : 0 < total)
    (htotal : (l.map w).sum = total) (h : ∀ a ∈ l, total ∣ pot * w a) :
    (l.map fun a => pot * w a / total).sum = pot :=
  calc (l.map fun a => pot * w a / total).sum
      = ((l.map fun a => pot * w a).map (· / total)).sum := by rw [List.map_map]; rfl
    _ = (l.map fun a => pot * w a).sum / total := sum_div_of_dvd hpos (by simpa using h)
    _ = pot * (l.map w).sum / total := by rw [List.sum_map_mul_left]
    _ = pot := by rw [htotal, Nat.mul_div_cancel _ hpos]

/-- What the shares leave of a pot is what the divisions leave over. -/
theorem mul_sum_add_sum_mod {pot total : ℕ} {w : α → ℕ} {l : List α} (htotal : (l.map w).sum = total) :
    total * (l.map fun a => pot * w a / total).sum + (l.map fun a => pot * w a % total).sum =
      total * pot := by
  rw [← List.sum_map_mul_left, ← List.sum_map_add, Nat.mul_comm total pot]
  conv_rhs => rw [← htotal, ← List.sum_map_mul_left]
  congr 1
  exact List.map_congr_left fun a _ => Nat.div_add_mod _ _

/-- Shares add up to the pot only where nothing is rounded. -/
theorem sum_mul_div_eq_iff {pot total : ℕ} {w : α → ℕ} {l : List α} (hpos : 0 < total)
    (htotal : (l.map w).sum = total) :
    (l.map fun a => pot * w a / total).sum = pot ↔ ∀ a ∈ l, total ∣ pot * w a := by
  constructor
  · intro hsum a ha
    have hleft := @mul_sum_add_sum_mod _ pot _ _ _ htotal
    rw [hsum] at hleft
    have hzero : (l.map fun a => pot * w a % total).sum = 0 := by omega
    exact Nat.dvd_of_mod_eq_zero (List.sum_eq_zero_iff.1 hzero _ (List.mem_map_of_mem ha))
  · exact sum_mul_div_eq hpos htotal

/-- The same with every share cut to a word. -/
theorem sum_mul_div_mod_le (pot m : ℕ) {total : ℕ} {w : α → ℕ} {l : List α}
    (h : (l.map w).sum ≤ total) : (l.map fun a => pot * w a / total % m).sum ≤ pot :=
  (List.sum_le_sum fun _ _ => Nat.mod_le _ _).trans (sum_mul_div_le pot h)

/-- Equal shares. -/
theorem sum_div_length_le (pot : ℕ) (l : List α) : (l.map fun _ => pot / l.length).sum ≤ pot := by
  rw [List.map_const', List.sum_replicate_nat]
  exact Nat.mul_div_le pot l.length

/-! ## Payments -/

section Payments

variable {κ : Type*} [DecidableEq κ] {a : κ} {x : κ × ℕ} {l l' : List (κ × ℕ)}

/-- What a list of payments brings one account. -/
def dueTo (a : κ) (l : List (κ × ℕ)) : ℕ := ((l.filter (·.1 = a)).map (·.2)).sum

theorem dueTo_cons : dueTo a (x :: l) = (if x.1 = a then x.2 else 0) + dueTo a l := by
  unfold dueTo
  rw [List.filter_cons]
  by_cases h : x.1 = a
  · rw [if_pos (decide_eq_true h), if_pos h, List.map_cons, List.sum_cons]
  · rw [if_neg (by simpa using h), if_neg h, Nat.zero_add]

theorem le_dueTo (h : x ∈ l) : x.2 ≤ dueTo x.1 l :=
  List.le_sum_of_mem (List.mem_map_of_mem (List.mem_filter.2 ⟨h, decide_eq_true rfl⟩))

theorem dueTo_eq_zero (h : ∀ x ∈ l, x.1 ≠ a) : dueTo a l = 0 := by
  unfold dueTo
  rw [List.filter_eq_nil_iff.2 fun x hx hxa => h x hx (of_decide_eq_true hxa)]
  rfl

/-- The order of the payments does not matter. -/
theorem dueTo_perm (h : l.Perm l') : dueTo a l = dueTo a l' :=
  ((h.filter _).map _).sum_eq

end Payments

end Shares
