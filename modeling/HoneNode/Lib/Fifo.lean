import Mathlib.Algebra.BigOperators.Group.List.Basic
import Mathlib.Algebra.Order.Group.Nat
import Mathlib.Algebra.Ring.Nat

/-!
# Lib.Fifo — amounts taken off a queue from the front

A queue of amounts is drained from its front: entries are used up one after the
other, the last one in part. Entries that are empty already do not matter.
-/

namespace Fifo

/-- The queue after `w` was taken from its front. -/
def drain : ℕ → List ℕ → List ℕ
  | _, [] => []
  | w, a :: rest => if a ≤ w then 0 :: drain (w - a) rest else (a - w) :: rest

variable {w n a : ℕ} {l : List ℕ}

theorem drain_cons_of_le (h : a ≤ w) : drain w (a :: l) = 0 :: drain (w - a) l := if_pos h

theorem drain_cons_of_lt (h : w < a) : drain w (a :: l) = (a - w) :: l := if_neg (Nat.not_le.2 h)

@[simp] theorem drain_zero (l : List ℕ) : drain 0 l = l := by
  induction l with
  | nil => rfl
  | cons a rest ih =>
    cases a with
    | zero => rw [drain_cons_of_le le_rfl, Nat.sub_self, ih]
    | succ a => rw [drain_cons_of_lt (Nat.succ_pos a), Nat.sub_zero]

/-- Empty entries in front are passed over. -/
theorem drain_replicate_append (w n : ℕ) (l : List ℕ) :
    drain w (List.replicate n 0 ++ l) = List.replicate n 0 ++ drain w l := by
  induction n with
  | zero => rfl
  | succ n ih =>
    rw [List.replicate_succ, List.cons_append, drain_cons_of_le (Nat.zero_le w), Nat.sub_zero, ih,
      List.cons_append]

/-- Exactly what is asked for is taken, where there is as much. -/
theorem sum_drain (h : w ≤ l.sum) : (drain w l).sum + w = l.sum := by
  induction l generalizing w with
  | nil =>
    rw [Nat.le_zero.1 h]
    rfl
  | cons a rest ih =>
    rw [List.sum_cons] at h ⊢
    rcases Nat.lt_or_ge w a with hlt | hle
    · rw [drain_cons_of_lt hlt, List.sum_cons]
      omega
    · rw [drain_cons_of_le hle, List.sum_cons]
      have hrest := @ih (w - a) (by omega)
      omega

/-- One entry is changed. -/
theorem sum_set {i b : ℕ} (h : l[i]? = some a) : (l.set i b).sum + a = l.sum + b := by
  induction l generalizing i with
  | nil => cases h
  | cons x rest ih =>
    cases i with
    | zero =>
      obtain rfl := Option.some.inj h
      rw [List.set_cons_zero, List.sum_cons, List.sum_cons]
      omega
    | succ i =>
      rw [List.set_cons_succ, List.sum_cons, List.sum_cons]
      have hrest := ih h
      omega

end Fifo
