import HoneNode.Lib.Within

/-!
# Lib.Faults — errors a program does not end with

`Avoids bad m` says that no run of `m` ends with a `bad` error. Sequencing,
branching and loops keep it, so a program avoids what its parts avoid.
-/

namespace Within

variable {σ ε α β : Type} {R : σ → σ → Prop} {bad : ε → Prop}

/-- No run of `m` ends with a bad error. -/
def Avoids (bad : ε → Prop) (m : Within ε R α) : Prop :=
  ∀ s e s', m.run s = (.error e, s') → ¬ bad e

theorem avoids_of_ok {m : Within ε R α} (h : ∀ s, ∃ a s', m.run s = (.ok a, s')) :
    Avoids bad m := by
  intro s e s' hrun
  obtain ⟨a, t, hok⟩ := h s
  rw [hok] at hrun
  cases hrun

theorem Avoids.ignoreErr (m : Within ε R α) : Avoids bad m.ignoreErr :=
  avoids_of_ok fun s => ⟨(), (m.run s).2, rfl⟩

theorem Avoids.ite {c : Prop} [Decidable c] {m n : Within ε R α} (hm : c → Avoids bad m)
    (hn : ¬ c → Avoids bad n) : Avoids bad (if c then m else n) := by
  split
  · exact hm ‹_›
  · exact hn ‹_›

variable [IsPreorder σ R]

theorem avoids_pure (a : α) : Avoids bad (pure a : Within ε R α) :=
  avoids_of_ok fun s => ⟨a, s, rfl⟩

theorem avoids_fail {e : ε} (h : ¬ bad e) : Avoids bad (fail e : Within ε R α) := by
  intro s e' s' hrun
  cases hrun
  exact h

theorem Avoids.bind {m : Within ε R α} {f : α → Within ε R β} (hm : Avoids bad m)
    (hf : ∀ a, Avoids bad (f a)) : Avoids bad (m >>= f) := by
  intro s e s' hrun
  rcases run_bind_eq_error.1 hrun with h | ⟨a, t, -, h⟩
  · exact hm s e s' h
  · exact hf a t e s' h

theorem avoids_forM {body : α → Within ε R PUnit} {l : List α}
    (h : ∀ a ∈ l, Avoids bad (body a)) : Avoids bad (l.forM body) := by
  induction l with
  | nil => exact avoids_pure _
  | cons a rest ih =>
    exact (h a List.mem_cons_self).bind fun _ =>
      ih fun b hb => h b (List.mem_cons_of_mem _ hb)

end Within
