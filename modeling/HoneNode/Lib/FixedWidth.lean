import Mathlib.Data.List.Basic
import Mathlib.Algebra.Ring.Nat

/-!
# Lib.FixedWidth — numbers printed with leading zeros

A number that fits the width takes exactly that many digits. Texts that are put
together from parts of a fixed width compare part by part, as their numbers do.
-/

namespace FixedWidth

/-! ## Comparing part by part -/

theorem append_lt_append_iff {α : Type*} [LT α] {x x' y y' : List α}
    (hlen : x.length = x'.length) : x ++ y < x' ++ y' ↔ x < x' ∨ x = x' ∧ y < y' := by
  induction x generalizing x' with
  | nil =>
    rw [List.eq_nil_of_length_eq_zero hlen.symm]
    constructor
    · exact fun h => .inr ⟨rfl, h⟩
    · rintro (h | ⟨-, h⟩)
      · exact absurd h (List.not_lt_nil [])
      · exact h
  | cons a x ih =>
    obtain ⟨a', x', rfl⟩ := List.exists_cons_of_length_eq_add_one hlen.symm
    rw [List.cons_append, List.cons_append, List.cons_lt_cons_iff, List.cons_lt_cons_iff,
      ih (Nat.succ.inj hlen), List.cons.injEq]
    tauto

/-! ## Digits -/

/-- The last digits of a number. -/
def digits (b : ℕ) : ℕ → ℕ → List Char
  | 0, _ => []
  | w + 1, n => digits b w (n / b) ++ [Nat.digitChar (n % b)]

/-- A number with zeros in front of it, up to a width. -/
def padZeros (b w n : ℕ) : List Char :=
  List.replicate (w - (Nat.toDigits b n).length) '0' ++ Nat.toDigits b n

section Digits

variable {b w n m : ℕ}

@[simp]
theorem length_digits (b w n : ℕ) : (digits b w n).length = w := by
  induction w generalizing n with
  | zero => rfl
  | succ w ih => rw [digits, List.length_append, ih, List.length_singleton]

theorem digits_zero (b w : ℕ) : digits b w 0 = List.replicate w '0' := by
  induction w with
  | zero => rfl
  | succ w ih =>
    rw [digits, Nat.zero_div, Nat.zero_mod, ih, List.replicate_succ']
    rfl

theorem padZeros_eq (hb : 1 < b) (hw : 0 < w) (hn : n < b ^ w) : padZeros b w n = digits b w n := by
  unfold padZeros
  induction w generalizing n with
  | zero => exact absurd hw (Nat.lt_irrefl 0)
  | succ w ih =>
    rw [digits, Nat.toDigits_eq_if hb]
    by_cases hsmall : n < b
    · rw [if_pos hsmall, Nat.div_eq_of_lt hsmall, Nat.mod_eq_of_lt hsmall, digits_zero,
        List.length_singleton, Nat.add_sub_cancel]
    · rw [if_neg hsmall]
      have hdiv : n / b < b ^ w := Nat.div_lt_of_lt_mul (by rwa [← Nat.pow_succ'])
      have hw' : 0 < w := by
        refine Nat.pos_of_ne_zero ?_
        rintro rfl
        rw [Nat.zero_add, Nat.pow_one] at hn
        exact hsmall hn
      rw [List.length_append, List.length_singleton, Nat.add_sub_add_right, ← List.append_assoc,
        ih hw' hdiv]

theorem digitChar_lt_iff {d e : ℕ} (hd : d < 16) (he : e < 16) :
    Nat.digitChar d < Nat.digitChar e ↔ d < e := by
  have hall : ∀ d e : Fin 16, Nat.digitChar d < Nat.digitChar e ↔ d < e := by decide
  exact hall ⟨d, hd⟩ ⟨e, he⟩

theorem digitChar_inj {d e : ℕ} (hd : d < 16) (he : e < 16) :
    Nat.digitChar d = Nat.digitChar e ↔ d = e := by
  have hall : ∀ d e : Fin 16, Nat.digitChar d = Nat.digitChar e → d = e := by decide
  exact ⟨fun h => congrArg Fin.val (hall ⟨d, hd⟩ ⟨e, he⟩ h), fun h => h ▸ rfl⟩

theorem digits_inj (hb : 0 < b) (hb' : b ≤ 16) (hn : n < b ^ w) (hm : m < b ^ w) :
    digits b w n = digits b w m ↔ n = m := by
  refine ⟨fun h => ?_, fun h => h ▸ rfl⟩
  induction w generalizing n m with
  | zero => rw [Nat.lt_one_iff.1 hn, Nat.lt_one_iff.1 hm]
  | succ w ih =>
    rw [Nat.pow_succ'] at hn hm
    obtain ⟨hfront, hlast⟩ := List.append_inj h (by rw [length_digits, length_digits])
    have hdiv : n / b = m / b :=
      ih (Nat.div_lt_of_lt_mul hn) (Nat.div_lt_of_lt_mul hm) hfront
    have hmod : n % b = m % b :=
      (digitChar_inj (Nat.lt_of_lt_of_le (Nat.mod_lt n hb) hb') (Nat.lt_of_lt_of_le (Nat.mod_lt m hb) hb')).1
        (List.singleton_inj.1 hlast)
    rw [← Nat.div_add_mod n b, hdiv, hmod, Nat.div_add_mod]

theorem lt_iff_div_mod (b n m : ℕ) : n < m ↔ n / b < m / b ∨ n / b = m / b ∧ n % b < m % b := by
  rcases Nat.lt_trichotomy (n / b) (m / b) with h | h | h
  · exact iff_of_true (Nat.lt_of_div_lt_div h) (.inl h)
  · conv_lhs => rw [← Nat.div_add_mod n b, ← Nat.div_add_mod m b, h]
    rw [Nat.add_lt_add_iff_left, h]
    exact ⟨fun hlt => .inr ⟨rfl, hlt⟩, fun hor => hor.elim (fun hlt => absurd hlt (Nat.lt_irrefl _))
      And.right⟩
  · refine iff_of_false (Nat.lt_asymm (Nat.lt_of_div_lt_div h)) ?_
    rintro (hlt | ⟨heq, -⟩)
    · exact Nat.lt_asymm h hlt
    · exact absurd heq (Nat.ne_of_gt h)

/-- Numbers of one width compare as their digits. -/
theorem digits_lt_iff (hb : 0 < b) (hb' : b ≤ 16) (hn : n < b ^ w) (hm : m < b ^ w) :
    digits b w n < digits b w m ↔ n < m := by
  induction w generalizing n m with
  | zero =>
    rw [Nat.lt_one_iff.1 hn, Nat.lt_one_iff.1 hm]
    exact iff_of_false (List.not_lt_nil []) (Nat.lt_irrefl 0)
  | succ w ih =>
    rw [Nat.pow_succ'] at hn hm
    have hn' : n / b < b ^ w := Nat.div_lt_of_lt_mul hn
    have hm' : m / b < b ^ w := Nat.div_lt_of_lt_mul hm
    have hlast : [Nat.digitChar (n % b)] < [Nat.digitChar (m % b)] ↔ n % b < m % b := by
      rw [List.cons_lt_cons_iff]
      refine Iff.trans ⟨fun h => h.resolve_right fun h => List.not_lt_nil [] h.2, .inl⟩ ?_
      exact digitChar_lt_iff (Nat.lt_of_lt_of_le (Nat.mod_lt n hb) hb') (Nat.lt_of_lt_of_le (Nat.mod_lt m hb) hb')
    rw [digits, digits, append_lt_append_iff (by rw [length_digits, length_digits]), ih hn' hm',
      digits_inj hb hb' hn' hm', hlast, ← lt_iff_div_mod]

/-- A number, a separator and the rest. -/
theorem digits_append_lt_iff (hb : 0 < b) (hb' : b ≤ 16) (hn : n < b ^ w) (hm : m < b ^ w)
    (c : Char) (x y : List Char) :
    digits b w n ++ c :: x < digits b w m ++ c :: y ↔ n < m ∨ n = m ∧ x < y := by
  have hsep : c :: x < c :: y ↔ x < y := by
    rw [List.cons_lt_cons_iff]
    exact ⟨fun h => (h.resolve_left (Char.lt_irrefl c)).2, fun h => .inr ⟨rfl, h⟩⟩
  rw [append_lt_append_iff (by rw [length_digits, length_digits]), digits_lt_iff hb hb' hn hm,
    digits_inj hb hb' hn hm, hsep]

end Digits

end FixedWidth
