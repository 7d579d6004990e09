import HoneNode.Rewards.Emission

/-!
# Rewards.SquareRoot — the root behind stakes and sensor scores

Newton's method from above never falls below the root, and a guess that is not
lowered any more is the root. The loop starts at the number itself, so that the
first increment is the only sum that can pass the word, at the largest number.
-/

namespace HoneNode

/-! ## One step of the method -/

section Newton

variable {n x : ℕ}

theorem sqrt_le_newton (hx : 0 < x) : Nat.sqrt n ≤ (x + n / x) / 2 := by
  have hroot : Nat.sqrt n * Nat.sqrt n ≤ n := Nat.sqrt_le n
  rw [Nat.le_div_iff_mul_le Nat.two_pos]
  by_cases hle : Nat.sqrt n * 2 ≤ x
  · exact hle.trans (Nat.le_add_right _ _)
  · obtain ⟨d, hd⟩ := Nat.exists_eq_add_of_le (Nat.le_of_not_le hle)
    have hdiv : d ≤ n / x := by
      rw [Nat.le_div_iff_mul_le hx]
      nlinarith [sq_nonneg ((Nat.sqrt n : ℤ) - x)]
    omega

theorem eq_sqrt_of_newton_ge (hx : 0 < x) (hroot : Nat.sqrt n ≤ x)
    (hstop : x ≤ (x + n / x) / 2) : x = Nat.sqrt n := by
  have hdiv : x ≤ n / x := by omega
  have hsquare : x * x ≤ n := (Nat.le_div_iff_mul_le hx).1 hdiv
  exact le_antisymm (Nat.le_sqrt.2 hsquare) hroot

/-- The sum of a guess above the root fits a word. -/
theorem add_div_lt (hn : n < 2 ^ 64) (hroot : Nat.sqrt n ≤ x) (hsmall : x < 2 ^ 63) :
    x + n / x < 2 ^ 64 := by
  have hmul : x * (n / x) ≤ n := Nat.mul_div_le n x
  by_cases hone : x ≤ 1
  · have hlt : n < 2 * 2 := Nat.sqrt_lt.1 (by omega)
    have hdiv : n / x ≤ n := Nat.div_le_self n x
    omega
  · by_cases hdiv : n / x ≤ 1
    · omega
    · have hsum : x + n / x ≤ x * (n / x) := add_le_mul (by omega) (by omega)
      omega

end Newton

/-! ## The loop -/

section Loop

variable {n x : ℕ}

/-- Where the loop of `isqrt` stands: above the root, and small enough to add to. -/
structure Guess (n x : ℕ) : Prop where
  pos : 0 < x
  above : Nat.sqrt n ≤ x
  small : x < 2 ^ 63

theorem Guess.sum_lt (hn : n < 2 ^ 64) (h : Guess n x) : x + n / x < 2 ^ 64 :=
  add_div_lt hn h.above h.small

theorem Guess.satAdd_eq (hn : n < 2 ^ 64) (h : Guess n x) : satAdd x (n / x) = x + n / x :=
  Nat.min_eq_left (Nat.le_pred_of_lt (h.sum_lt hn))

theorem Guess.next (hpos : 0 < n) (h : Guess n x) (hlower : (x + n / x) / 2 < x) :
    Guess n ((x + n / x) / 2) := by
  have habove : Nat.sqrt n ≤ (x + n / x) / 2 := sqrt_le_newton h.pos
  have hroot : 0 < Nat.sqrt n := Nat.sqrt_pos.2 hpos
  have hsmall : x < 2 ^ 63 := h.small
  exact ⟨hroot.trans_le habove, habove, hlower.trans hsmall⟩

/-- The guesses at which the loop of `isqrt` adds and divides. -/
def guesses (n x y : ℕ) : List ℕ :=
  if y < x then y :: guesses n y (satAdd y (n / y) / 2) else []
termination_by x

theorem isqrtLoop_eq_sqrt (hn : n < 2 ^ 64) (hpos : 0 < n) (h : Guess n x) :
    isqrtLoop n x (satAdd x (n / x) / 2) = Nat.sqrt n := by
  induction x using Nat.strong_induction_on with
  | _ x ih =>
    rw [isqrtLoop, h.satAdd_eq hn]
    by_cases hlower : (x + n / x) / 2 < x
    · rw [if_pos hlower]
      exact ih _ hlower (h.next hpos hlower)
    · rw [if_neg hlower]
      exact eq_sqrt_of_newton_ge h.pos h.above (Nat.le_of_not_lt hlower)

theorem guess_of_mem_guesses (hn : n < 2 ^ 64) (hpos : 0 < n) (h : Guess n x) :
    ∀ y ∈ guesses n x (satAdd x (n / x) / 2), Guess n y := by
  induction x using Nat.strong_induction_on with
  | _ x ih =>
    rw [guesses, h.satAdd_eq hn]
    by_cases hlower : (x + n / x) / 2 < x
    · rw [if_pos hlower]
      have hnext : Guess n ((x + n / x) / 2) := h.next hpos hlower
      exact List.forall_mem_cons.2 ⟨hnext, ih _ hlower hnext⟩
    · rw [if_neg hlower]
      exact fun y hy => absurd hy List.not_mem_nil

/-- The first guess is half the number, rounded up. -/
theorem guess_first (hn : n < 2 ^ 64) (htwo : 2 ≤ n) : Guess n (satAdd n 1 / 2) := by
  have hsat : satAdd n 1 = min (n + 1) (2 ^ 64 - 1) := by rw [satAdd, u64Max]
  have habove : Nat.sqrt n ≤ n / 2 + n % 2 := by
    have hhalf : Nat.sqrt n ≤ (1 + n / 1) / 2 := sqrt_le_newton Nat.one_pos
    rw [Nat.div_one] at hhalf
    omega
  have hlarge : n = 2 ^ 64 - 1 → Nat.sqrt n ≤ 2 ^ 63 - 1 := by
    rintro rfl
    exact Nat.le_of_lt_succ (Nat.sqrt_lt.2 (by decide))
  refine ⟨by omega, ?_, by omega⟩
  by_cases htop : n = 2 ^ 64 - 1
  · have hle := hlarge htop
    omega
  · omega

theorem guesses_decrease (n x y : ℕ) : (x :: guesses n x y).Pairwise (· > ·) := by
  induction x using Nat.strong_induction_on generalizing y with
  | _ x ih =>
    rw [guesses]
    by_cases hlower : y < x
    · rw [if_pos hlower]
      have hrest := ih y hlower (satAdd y (n / y) / 2)
      have hhead : ∀ z ∈ guesses n y (satAdd y (n / y) / 2), z < y := (List.pairwise_cons.1 hrest).1
      refine List.pairwise_cons.2 ⟨?_, hrest⟩
      exact List.forall_mem_cons.2 ⟨hlower, fun z hz => (hhead z hz).trans hlower⟩
    · rw [if_neg hlower]
      exact List.pairwise_singleton _ _

end Loop

theorem isqrt_eq_sqrt {n : ℕ} (hn : n < 2 ^ 64) : isqrt n = Nat.sqrt n := by
  rw [isqrt]
  by_cases hzero : n = 0
  · rw [if_pos hzero, hzero, Nat.sqrt_zero]
  · rw [if_neg hzero, isqrtLoop]
    by_cases hone : n = 1
    · subst hone
      rw [if_neg (by decide), Nat.sqrt_one]
    · have hfirst : Guess n (satAdd n 1 / 2) := guess_first hn (by omega)
      have hsat : satAdd n 1 ≤ n + 1 := Nat.min_le_left _ _
      rw [if_pos (by omega)]
      exact isqrtLoop_eq_sqrt hn (by omega) hfirst

theorem guess_of_mem_run {n x : ℕ} (hn : n < 2 ^ 64) (hx : x ∈ guesses n n (satAdd n 1 / 2)) :
    Guess n x := by
  have hsat : satAdd n 1 ≤ n + 1 := Nat.min_le_left _ _
  rw [guesses] at hx
  by_cases hlower : satAdd n 1 / 2 < n
  · rw [if_pos hlower] at hx
    have htwo : 2 ≤ n := by
      have hge : min (n + 1) u64Max = satAdd n 1 := rfl
      rw [u64Max] at hge
      omega
    have hfirst : Guess n (satAdd n 1 / 2) := guess_first hn htwo
    rcases List.mem_cons.1 hx with rfl | hmem
    · exact hfirst
    · exact guess_of_mem_guesses hn (by omega) hfirst x hmem
  · rw [if_neg hlower] at hx
    exact absurd hx List.not_mem_nil

/-- The loop lowers its guess until it is the root; no division is by zero, and no
sum it forms passes the word. -/
theorem isqrt_exact (n : UInt64) :
    (isqrt n.toNat * isqrt n.toNat ≤ n.toNat ∧
      n.toNat < (isqrt n.toNat + 1) * (isqrt n.toNat + 1)) ∧
    (∀ r, r * r ≤ n.toNat → n.toNat < (r + 1) * (r + 1) → r = isqrt n.toNat) ∧
    (n.toNat :: guesses n.toNat n.toNat (satAdd n.toNat 1 / 2)).Pairwise (· > ·) ∧
    ∀ x ∈ guesses n.toNat n.toNat (satAdd n.toNat 1 / 2), 0 < x ∧ x + n.toNat / x < 2 ^ 64 := by
  have hn : n.toNat < 2 ^ 64 := n.toNat_lt
  rw [isqrt_eq_sqrt hn]
  refine ⟨⟨Nat.sqrt_le _, Nat.lt_succ_sqrt _⟩, ?_, guesses_decrease _ _ _, ?_⟩
  · intro r hle hlt
    exact Nat.eq_sqrt.2 ⟨hle, hlt⟩
  · intro x hx
    have hguess : Guess n.toNat x := guess_of_mem_run hn hx
    exact ⟨hguess.pos, hguess.sum_lt hn⟩

example : isqrt (2 ^ 64 - 1) = 2 ^ 32 - 1 := by
  rw [isqrt_eq_sqrt (by decide)]
  exact (Nat.eq_sqrt.2 ⟨by decide, by decide⟩).symm

end HoneNode
