import Mathlib.Data.Nat.Log
import Mathlib.Tactic.Ring
import Mathlib.Tactic.Linarith

/-!
# Lib.Rounding — rounding to `p` significant bits, ties to even

Exact integer arithmetic for a positive binary floating-point value that is
kept as a numerator over a power of two. `roundSig p` is what one IEEE
operation does to the exact numerator, and `roundSig_lower` bounds what that
can lose.
-/

namespace Rounding

/-- `n / d` rounded to the nearest integer, ties to the even one. -/
def halfEven (n d : ℕ) : ℕ :=
  if 2 * (n % d) < d ∨ (2 * (n % d) = d ∧ n / d % 2 = 0) then n / d else n / d + 1

/-- `n` rounded to `p` significant bits, ties to even. -/
def roundSig (p n : ℕ) : ℕ :=
  let e := n.log2 + 1 - p
  halfEven n (2 ^ e) * 2 ^ e

/-- `⌈n / d⌉`. -/
def ceilQuot (n d : ℕ) : ℕ := (n + d - 1) / d

theorem halfEven_lower {n d : ℕ} (hd : 0 < d) : 2 * n ≤ 2 * (halfEven n d * d) + d := by
  have hdiv : d * (n / d) + n % d = n := Nat.div_add_mod n d
  have hmod : n % d < d := Nat.mod_lt n hd
  unfold halfEven
  split
  · -- rounded down: the remainder is at most half
    rename_i h
    have hr : 2 * (n % d) ≤ d := by omega
    nlinarith
  · -- rounded up: the result is above `n`
    nlinarith

@[simp] theorem halfEven_one (n : ℕ) : halfEven n 1 = n := by
  simp [halfEven, Nat.mod_one]

/-- Rounding to `p ≥ 1` bits loses at most the fraction `2⁻ᵖ`. -/
theorem roundSig_lower {p : ℕ} (hp : 1 ≤ p) (n : ℕ) :
    n * 2 ^ p ≤ roundSig p n * 2 ^ p + n := by
  unfold roundSig
  set e := n.log2 + 1 - p with he
  rcases Nat.eq_zero_or_pos e with h0 | hpos
  · -- `n` already fits in `p` bits
    simp [h0]
  · have hn : n ≠ 0 := by
      rintro rfl
      simp at he
      omega
    have hlog : 2 ^ n.log2 ≤ n := Nat.log2_self_le hn
    have hsplit : 2 ^ e * 2 ^ p = 2 * 2 ^ n.log2 := by
      rw [← pow_add, ← pow_succ']
      congr 1
      omega
    have hround := halfEven_lower (n := n) (d := 2 ^ e) (by positivity)
    have hscaled := Nat.mul_le_mul_right (2 ^ p) hround
    nlinarith

theorem le_ceilQuot_mul {n d : ℕ} (hd : 0 < d) : n ≤ ceilQuot n d * d := by
  unfold ceilQuot
  have hdiv : d * ((n + d - 1) / d) + (n + d - 1) % d = n + d - 1 := Nat.div_add_mod _ d
  have hmod : (n + d - 1) % d < d := Nat.mod_lt _ hd
  have hcomm : d * ((n + d - 1) / d) = (n + d - 1) / d * d := Nat.mul_comm _ _
  omega

end Rounding
