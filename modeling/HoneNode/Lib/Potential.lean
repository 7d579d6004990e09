import Mathlib.Algebra.BigOperators.Group.List.Basic
import Mathlib.Algebra.Ring.Nat
import HoneNode.Lib.Within

/-!
# Lib.Potential — how far a program raises a potential

A program that raises the potential `μ` by at most `b` does so from every state
where `μ + b` stays below the cap; the cap is what keeps the additions of the
program from overflowing. Bounds add up along a sequence and over a loop.
-/

namespace Within

variable {σ ε α β : Type} {R : σ → σ → Prop} {cap : ℕ} {μ : σ → ℕ} {a b : ℕ}

/-- From `s`, the run of `m` raises `μ` by at most `b`. -/
def RaisesAt (cap : ℕ) (μ : σ → ℕ) (b : ℕ) (m : Within ε R α) (s : σ) : Prop :=
  μ s + b < cap → μ (m.run s).2 ≤ μ s + b

/-- Every run of `m`, failing or not, raises `μ` by at most `b`. -/
def Raises (cap : ℕ) (μ : σ → ℕ) (b : ℕ) (m : Within ε R α) : Prop :=
  ∀ s, RaisesAt cap μ b m s

theorem RaisesAt.mono {m : Within ε R α} {s : σ} (h : RaisesAt cap μ a m s) (hab : a ≤ b) :
    RaisesAt cap μ b m s := by
  intro hs
  have := h (by omega)
  omega

theorem Raises.mono {m : Within ε R α} (h : Raises cap μ a m) (hab : a ≤ b) :
    Raises cap μ b m := fun s => (h s).mono hab

theorem Raises.ignoreErr {m : Within ε R α} (h : Raises cap μ b m) :
    Raises cap μ b m.ignoreErr := h

theorem Raises.ite {c : Prop} [Decidable c] {m n : Within ε R α} (hm : Raises cap μ b m)
    (hn : Raises cap μ b n) : Raises cap μ b (if c then m else n) := by
  split
  · exact hm
  · exact hn

/-- Rewriting the state. -/
theorem raises_update {f : σ → σ} {h : ∀ s, R s (f s)} (hf : ∀ s, μ (f s) ≤ μ s + b) :
    Raises cap μ b (update f h : Within ε R Unit) := fun s _ => hf s

variable [IsPreorder σ R]

theorem raises_pure (x : α) : Raises cap μ b (pure x : Within ε R α) :=
  fun _ _ => Nat.le_add_right _ _

theorem raises_fail (e : ε) : Raises cap μ b (fail e : Within ε R α) :=
  fun _ _ => Nat.le_add_right _ _

theorem raises_inspect (f : σ → α) : Raises cap μ b (inspect f : Within ε R α) :=
  fun _ _ => Nat.le_add_right _ _

variable {f : α → Within ε R β}

/-- The bounds of a sequence add up. -/
theorem RaisesAt.bind {m : Within ε R α} {s : σ} (hm : RaisesAt cap μ a m s)
    (hf : ∀ x t, m.run s = (.ok x, t) → RaisesAt cap μ b (f x) t) :
    RaisesAt cap μ (a + b) (m >>= f) s := by
  intro hs
  have hle := hm (by omega)
  rw [run_bind]
  cases h : m.run s with
  | mk r t =>
    rw [h] at hle
    cases r with
    | error e =>
      dsimp only at hle ⊢
      omega
    | ok x =>
      have hrest := hf x t h
      unfold RaisesAt at hrest
      dsimp only at hle ⊢
      omega

/-- A program that begins by reading the state. -/
theorem raisesAt_inspect_bind {g : σ → α} {s : σ} :
    RaisesAt cap μ b (inspect g >>= f) s ↔ RaisesAt cap μ b (f (g s)) s := Iff.rfl

theorem Raises.bind {m : Within ε R α} (hm : Raises cap μ a m)
    (hf : ∀ x, Raises cap μ b (f x)) : Raises cap μ (a + b) (m >>= f) :=
  fun s => (hm s).bind fun x t _ => hf x t

/-- A first part that raises nothing. -/
theorem Raises.andThen {m : Within ε R α} (hm : Raises cap μ 0 m)
    (hf : ∀ x, Raises cap μ b (f x)) : Raises cap μ b (m >>= f) :=
  (hm.bind hf).mono (Nat.le_of_eq (Nat.zero_add b))

/-- The bounds of the rounds of a loop add up. -/
theorem raises_forM {body : α → Within ε R PUnit} {g : α → ℕ} {l : List α}
    (h : ∀ x ∈ l, Raises cap μ (g x) (body x)) : Raises cap μ (l.map g).sum (l.forM body) := by
  induction l with
  | nil => exact raises_pure _
  | cons x l ih =>
    rw [List.map_cons, List.sum_cons]
    exact (h x List.mem_cons_self).bind fun _ => ih fun y hy => h y (List.mem_cons_of_mem _ hy)

end Within
