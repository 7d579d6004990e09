import Mathlib.Data.List.Basic
import Mathlib.Data.Nat.Bitwise

/-!
# Lib.Bits — the low bits of a number, and text cut into groups of bits

A codec that regroups bits through an accumulator never reads more than the low
bits of it. What it has written and what it still holds is one row of bits, and
such a row can be cut into groups in one way only.
-/

namespace Bits

/-- The low bits of a number, the highest of them first. -/
def lowBits : ℕ → ℕ → List Bool
  | 0, _ => []
  | w + 1, n => n.testBit w :: lowBits w n

section LowBits

variable {w k n m v : ℕ}

@[simp]
theorem length_lowBits (w n : ℕ) : (lowBits w n).length = w := by
  induction w with
  | zero => rfl
  | succ w ih => exact congrArg Nat.succ ih

theorem lowBits_congr (h : ∀ i < w, n.testBit i = m.testBit i) : lowBits w n = lowBits w m := by
  induction w with
  | zero => rfl
  | succ w ih =>
    rw [lowBits, lowBits, h w (Nat.lt_succ_self w), ih fun i hi => h i (Nat.lt_succ_of_lt hi)]

theorem testBit_of_lowBits_eq (h : lowBits w n = lowBits w m) :
    ∀ i < w, n.testBit i = m.testBit i := by
  induction w with
  | zero => exact fun i hi => absurd hi (Nat.not_lt_zero i)
  | succ w ih =>
    rw [lowBits, lowBits] at h
    obtain ⟨htop, hrest⟩ := List.cons.inj h
    intro i hi
    rcases Nat.lt_succ_iff_lt_or_eq.1 hi with hlt | rfl
    · exact ih hrest i hlt
    · exact htop

/-- Numbers of the width are told apart by their bits. -/
theorem lowBits_inj (hn : n < 2 ^ w) (hm : m < 2 ^ w) (h : lowBits w n = lowBits w m) : n = m := by
  refine Nat.eq_of_testBit_eq fun i => ?_
  by_cases hi : i < w
  · exact testBit_of_lowBits_eq h i hi
  · have hle : 2 ^ w ≤ 2 ^ i := Nat.pow_le_pow_right Nat.two_pos (Nat.le_of_not_lt hi)
    rw [Nat.testBit_lt_two_pow (hn.trans_le hle), Nat.testBit_lt_two_pow (hm.trans_le hle)]

theorem lowBits_add (w k n : ℕ) : lowBits (w + k) n = lowBits w (n >>> k) ++ lowBits k n := by
  induction w with
  | zero => rw [Nat.zero_add, lowBits, List.nil_append]
  | succ w ih =>
    rw [Nat.add_right_comm, lowBits, lowBits, ih, Nat.testBit_shiftRight, Nat.add_comm k w,
      List.cons_append]

theorem lowBits_mod (h : w ≤ k) : lowBits w (n % 2 ^ k) = lowBits w n :=
  lowBits_congr fun i hi => by
    rw [Nat.testBit_mod_two_pow, decide_eq_true (hi.trans_le h), Bool.true_and]

/-- What is pushed in from the right follows what was there. -/
theorem lowBits_shiftLeft_or (hv : v < 2 ^ k) :
    lowBits (w + k) (n <<< k ||| v) = lowBits w n ++ lowBits k v := by
  have hhigh : (n <<< k ||| v) >>> k = n := by
    rw [Nat.shiftRight_or_distrib, Nat.shiftLeft_shiftRight, Nat.shiftRight_eq_div_pow,
      Nat.div_eq_of_lt hv, Nat.or_zero]
  have hlow : lowBits k (n <<< k ||| v) = lowBits k v :=
    lowBits_congr fun i hi => by
      rw [Nat.testBit_or, Nat.testBit_shiftLeft, decide_eq_false (Nat.not_le_of_lt hi),
        Bool.false_and, Bool.false_or]
  rw [lowBits_add, hhigh, hlow]

end LowBits

/-! ## Groups -/

section Groups

variable {α : Type*} {bits : α → List Bool} {w : ℕ}

/-- A row of whole groups and a rest shorter than a group is cut in one way only. -/
theorem flatMap_append_inj (hlen : ∀ a, (bits a).length = w) (hinj : Function.Injective bits)
    {as bs : List α} {x y : List Bool} (hx : x.length < w) (hy : y.length < w)
    (h : as.flatMap bits ++ x = bs.flatMap bits ++ y) : as = bs := by
  induction as generalizing bs with
  | nil =>
    cases bs with
    | nil => rfl
    | cons b bs =>
      have hlength := congrArg List.length h
      rw [List.flatMap_nil, List.nil_append, List.flatMap_cons, List.length_append,
        List.length_append, hlen] at hlength
      omega
  | cons a as ih =>
    cases bs with
    | nil =>
      have hlength := congrArg List.length h
      rw [List.flatMap_nil, List.nil_append, List.flatMap_cons, List.length_append,
        List.length_append, hlen] at hlength
      omega
    | cons b bs =>
      rw [List.flatMap_cons, List.flatMap_cons, List.append_assoc, List.append_assoc] at h
      obtain ⟨hhead, htail⟩ := List.append_inj h ((hlen a).trans (hlen b).symm)
      rw [hinj hhead, ih htail]

end Groups

/-- The bits of a byte, the highest first. -/
def byteBits (b : UInt8) : List Bool := lowBits 8 b.toNat

theorem length_byteBits (b : UInt8) : (byteBits b).length = 8 := length_lowBits 8 b.toNat

theorem byteBits_injective : Function.Injective byteBits := fun a b h =>
  UInt8.toNat_inj.1 (lowBits_inj a.toNat_lt b.toNat_lt h)

/-- A byte keeps the low bits of what is cast to it. -/
theorem byteBits_ofNat (n : ℕ) : byteBits (UInt8.ofNat n) = lowBits 8 n := by
  rw [byteBits, UInt8.toNat_ofNat']
  exact lowBits_mod (le_refl 8)

end Bits
