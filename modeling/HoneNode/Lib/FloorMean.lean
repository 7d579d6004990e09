import Mathlib.Tactic.Ring

/-!
# Lib.FloorMean — weighted means that are rounded down

A moving average gives the new value the weight `num / denom` and the old one the
rest. Rounded down, it falls from above until it meets the value, but it stands
still below it as soon as the step is less than one.
-/

namespace FloorMean

/-- The mean of a value and the average before it. -/
def mean (num denom s x : ℕ) : ℕ := (num * s + (denom - num) * x) / denom

variable {num denom s x : ℕ}

/-- The weights come to the whole. -/
theorem weights (hle : num ≤ denom) (x : ℕ) : num * x + (denom - num) * x = denom * x := by
  rw [← Nat.add_mul, Nat.add_sub_cancel' hle]

theorem mean_self (hpos : 0 < denom) (hle : num ≤ denom) : mean num denom s s = s := by
  unfold mean
  rw [weights hle, Nat.mul_div_cancel_left _ hpos]

/-- Above the value the average does not pass it. -/
theorem le_mean (hpos : 0 < denom) (hle : num ≤ denom) (h : s ≤ x) : s ≤ mean num denom s x := by
  have hrest : (denom - num) * s ≤ (denom - num) * x := Nat.mul_le_mul_left _ h
  have hwhole := weights hle s
  unfold mean
  rw [Nat.le_div_iff_mul_le hpos, Nat.mul_comm]
  omega

/-- Above the value the average falls. -/
theorem mean_lt (hnum : 0 < num) (hle : num ≤ denom) (h : s < x) : mean num denom s x < x := by
  have hpart : num * s < num * x := Nat.mul_lt_mul_of_pos_left h hnum
  have hwhole := weights hle x
  unfold mean
  rw [Nat.div_lt_iff_lt_mul (hnum.trans_le hle), Nat.mul_comm x]
  omega

/-- Below the value the average stands still where the step is less than one. -/
theorem mean_eq_self (hle : num ≤ denom) (h : x ≤ s) (hclose : num * (s - x) < denom) :
    mean num denom s x = x := by
  have hwhole := weights hle x
  have hpart : num * s = num * x + num * (s - x) := by
    rw [← Nat.mul_add, Nat.add_sub_cancel' h]
  unfold mean
  rw [hpart, Nat.add_right_comm, hwhole, Nat.mul_add_div (Nat.zero_lt_of_lt hclose),
    Nat.div_eq_of_lt hclose, Nat.add_zero]

end FloorMean
