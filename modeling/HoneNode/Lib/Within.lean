import Mathlib.Data.List.Basic

/-!
# Lib.Within — state programs that carry their own frame

A `Within ε R α` is a program over a state `σ` that fails with `ε` or returns
an `α`, together with the proof that every run, failing or not, moves the state
along the preorder `R`. There is no rollback: a failure keeps the writes made
before it. Sequencing composes the proofs, so a program built from primitives
that respect `R` needs no frame proof of its own.
-/

/-- A sequence of results succeeds exactly when both parts do. -/
theorem Except.bind_eq_ok {ε α β : Type} {x : Except ε α} {f : α → Except ε β} {b : β} :
    (x >>= f) = .ok b ↔ ∃ a, x = .ok a ∧ f a = .ok b := by
  cases x with
  | error e =>
    constructor
    · intro h
      cases h
    · rintro ⟨a, h, -⟩
      cases h
  | ok a =>
    constructor
    · exact fun h => ⟨a, rfl, h⟩
    · rintro ⟨a', h, hf⟩
      cases h
      exact hf

/-- A fallible state program all of whose runs stay within `R`. -/
structure Within {σ : Type} (ε : Type) (R : σ → σ → Prop) (α : Type) where
  run : σ → Except ε α × σ
  within : ∀ s, R s (run s).2

namespace Within

variable {σ ε α β : Type} {R : σ → σ → Prop}

/-- Programs with the same runs are equal. -/
theorem eq_of_run {m n : Within ε R α} (h : ∀ s, m.run s = n.run s) : m = n := by
  cases m
  cases n
  congr
  exact funext h

/-- The frame of one run. -/
theorem rel_of_run {m : Within ε R α} {s s' : σ} {r : Except ε α} (h : m.run s = (r, s')) :
    R s s' := by
  have hw := m.within s
  rwa [h] at hw

/-- Every failure of `m` from `s` leaves a state in `P`. -/
def FailsIn (P : σ → Prop) (m : Within ε R α) (s : σ) : Prop :=
  ∀ e s', m.run s = (.error e, s') → P s'

theorem failsIn_of_ok {P : σ → Prop} {m : Within ε R α} {s s' : σ} {a : α}
    (h : m.run s = (.ok a, s')) : FailsIn P m s := by
  intro e t ht
  rw [h] at ht
  cases ht

theorem failsIn_of_error {P : σ → Prop} {m : Within ε R α} {s s' : σ} {e : ε}
    (h : m.run s = (.error e, s')) : FailsIn P m s ↔ P s' := by
  unfold FailsIn
  rw [h]
  constructor
  · exact fun hP => hP e s' rfl
  · rintro hP e' t ht
    cases ht
    exact hP

section Preorder

variable [IsPreorder σ R]

/-- Return without touching the state. -/
def ret (a : α) : Within ε R α := ⟨fun s => (.ok a, s), fun s => refl_of R s⟩

/-- Run `m`, then `f` on its result; a failure of `m` keeps the state it left. -/
def andThen (m : Within ε R α) (f : α → Within ε R β) : Within ε R β where
  run := fun s =>
    match m.run s with
    | (.ok a, s') => (f a).run s'
    | (.error e, s') => (.error e, s')
  within := by
    intro s
    have hm := m.within s
    cases h : m.run s with
    | mk r s' =>
      rw [h] at hm
      cases r with
      | ok a => exact trans_of R hm ((f a).within s')
      | error e => exact hm

instance : Monad (Within ε R) where
  pure := ret
  bind := andThen

/-- Fail with `e`, keeping the state. -/
def fail (e : ε) : Within ε R α := ⟨fun s => (.error e, s), fun s => refl_of R s⟩

/-- Run `m`; when it fails, run `cleanup` and keep the error. -/
def onError (m : Within ε R α) (cleanup : Within ε R Unit) : Within ε R α where
  run := fun s =>
    match m.run s with
    | (.ok a, s') => (.ok a, s')
    | (.error e, s') => (.error e, (cleanup.run s').2)
  within := by
    intro s
    have hm := m.within s
    cases h : m.run s with
    | mk r s' =>
      rw [h] at hm
      cases r with
      | ok a => exact hm
      | error e => exact trans_of R hm (cleanup.within s')

/-- Read something off the state. -/
def inspect (f : σ → α) : Within ε R α := ⟨fun s => (.ok (f s), s), fun s => refl_of R s⟩

/-! ## How the operations compute -/

@[simp] theorem run_pure (a : α) (s : σ) : (pure a : Within ε R α).run s = (.ok a, s) := rfl

theorem run_bind (m : Within ε R α) (f : α → Within ε R β) (s : σ) :
    (m >>= f).run s = match m.run s with
      | (.ok a, s') => (f a).run s'
      | (.error e, s') => (.error e, s') := rfl

@[simp] theorem run_inspect (f : σ → α) (s : σ) :
    (inspect f : Within ε R α).run s = (.ok (f s), s) := rfl

variable {m : Within ε R α} {f : α → Within ε R β} {s s' : σ}

theorem run_bind_ok {a : α} (h : m.run s = (.ok a, s')) : (m >>= f).run s = (f a).run s' := by
  rw [run_bind, h]

theorem run_inspect_bind (f : σ → α) (g : α → Within ε R β) (s : σ) :
    (inspect f >>= g).run s = (g (f s)).run s := rfl

theorem run_bind_error {e : ε}
    (h : m.run s = (.error e, s')) : (m >>= f).run s = (.error e, s') := by
  rw [run_bind, h]

/-- Nested sequences run in line. -/
theorem run_assoc {γ : Type} (m : Within ε R α) (f : α → Within ε R β) (g : β → Within ε R γ)
    (s : σ) : ((m >>= f) >>= g).run s = (m >>= fun a => f a >>= g).run s := by
  rw [run_bind, run_bind, run_bind]
  rcases m.run s with ⟨_ | a, t⟩ <;> rfl

/-- A sequence succeeds exactly when both parts do. -/
theorem run_bind_eq_ok {b : β} : (m >>= f).run s = (.ok b, s') ↔
      ∃ a t, m.run s = (.ok a, t) ∧ (f a).run t = (.ok b, s') := by
  rw [run_bind]
  cases h : m.run s with
  | mk r t =>
    cases r with
    | ok a => simp
    | error e => simp

/-- A sequence fails in its first part, or in its second after the first. -/
theorem run_bind_eq_error {e : ε} : (m >>= f).run s = (.error e, s') ↔
      m.run s = (.error e, s') ∨
        ∃ a t, m.run s = (.ok a, t) ∧ (f a).run t = (.error e, s') := by
  rw [run_bind]
  cases h : m.run s with
  | mk r t =>
    cases r with
    | ok a => simp
    | error e' => simp

/-- The loop rule: an invariant of the elements still to come, kept by each round. -/
theorem run_forM_of_invariant (body : α → Within ε R PUnit) (I : List α → σ → Prop)
    (hstep : ∀ a rest s, I (a :: rest) s →
      ∃ s', (body a).run s = (.ok ⟨⟩, s') ∧ I rest s')
    {l : List α} {s : σ} (h : I l s) :
    ∃ s', (l.forM body).run s = (.ok ⟨⟩, s') ∧ I [] s' := by
  induction l generalizing s with
  | nil => exact ⟨s, rfl, h⟩
  | cons a rest ih =>
    obtain ⟨t, ht, hI⟩ := hstep a rest s h
    obtain ⟨s', hs', hnil⟩ := ih hI
    exact ⟨s', (run_bind_ok ht).trans hs', hnil⟩

/-! ## Where failures leave the state -/

theorem failsIn_bind_of_ok {P : σ → Prop} {a : α} (h : m.run s = (.ok a, s')) :
    FailsIn P (m >>= f) s ↔ FailsIn P (f a) s' := by
  unfold FailsIn
  rw [run_bind_ok h]

theorem failsIn_bind_of_error {P : σ → Prop} {e : ε} (h : m.run s = (.error e, s')) :
    FailsIn P (m >>= f) s ↔ P s' := failsIn_of_error (run_bind_error h)

end Preorder

/-! ## Operations that need no composition -/

/-- Rewrite the state along `R`. -/
def update (f : σ → σ) (h : ∀ s, R s (f s)) : Within ε R Unit := ⟨fun s => (.ok (), f s), h⟩

/-- Run `m` and drop its error; what it wrote before failing stays. -/
def ignoreErr (m : Within ε R α) : Within ε R Unit :=
  ⟨fun s => (.ok (), (m.run s).2), m.within⟩

/-- Run a program of a narrower frame. -/
def widen {R' : σ → σ → Prop} (h : ∀ s s', R' s s' → R s s') (m : Within ε R' α) :
    Within ε R α := ⟨m.run, fun s => h s _ (m.within s)⟩

@[simp] theorem run_update (f : σ → σ) (h : ∀ s, R s (f s)) (s : σ) :
    (update f h : Within ε R Unit).run s = (.ok (), f s) := rfl

@[simp] theorem run_ignoreErr (m : Within ε R α) (s : σ) :
    m.ignoreErr.run s = (.ok (), (m.run s).2) := rfl

@[simp] theorem run_ite {c : Prop} [Decidable c] (m n : Within ε R α) (s : σ) :
    (if c then m else n).run s = if c then m.run s else n.run s := by
  split <;> rfl

/-! ## Observations a program leaves alone -/

/-- No run of `m`, failing or not, changes what `g` sees. -/
def Keeps {τ : Type} (g : σ → τ) (m : Within ε R α) : Prop := ∀ s, g (m.run s).2 = g s

section Keeps

variable {τ : Type} {g : σ → τ}

theorem Keeps.of_run {m : Within ε R α} (hm : Keeps g m) {s s' : σ} {r : Except ε α}
    (h : m.run s = (r, s')) : g s' = g s := by
  have hs := hm s
  rwa [h] at hs

theorem Keeps.failsIn {m : Within ε R α} {s : σ} {v : τ} (hm : Keeps g m) (hs : g s = v) :
    FailsIn (g · = v) m s := fun _ _ h => (hm.of_run h).trans hs

theorem Keeps.ignoreErr {m : Within ε R α} (hm : Keeps g m) : Keeps g m.ignoreErr := hm

theorem Keeps.ite {c : Prop} [Decidable c] {m n : Within ε R α} (hm : Keeps g m)
    (hn : Keeps g n) : Keeps g (if c then m else n) := by
  split
  · exact hm
  · exact hn

variable [IsPreorder σ R]

theorem keeps_pure (a : α) : Keeps g (pure a : Within ε R α) := fun _ => rfl

theorem keeps_fail {e : ε} : Keeps g (fail e : Within ε R α) := fun _ => rfl

theorem keeps_inspect {f : σ → α} : Keeps g (inspect f : Within ε R α) := fun _ => rfl

theorem Keeps.bind {m : Within ε R α} {f : α → Within ε R β} (hm : Keeps g m)
    (hf : ∀ a, Keeps g (f a)) : Keeps g (m >>= f) := by
  intro s
  have hs := hm s
  rw [run_bind]
  cases h : m.run s with
  | mk r t =>
    rw [h] at hs
    cases r with
    | ok a => exact (hf a t).trans hs
    | error e => exact hs

theorem Keeps.forM {body : α → Within ε R PUnit} (h : ∀ a, Keeps g (body a)) (l : List α) :
    Keeps g (l.forM body) := by
  induction l with
  | nil => exact keeps_pure _
  | cons a l ih => exact (h a).bind fun _ => ih

/-- Where the first part keeps the observation, a failure is one of the second. -/
theorem Keeps.failsIn_bind {m : Within ε R α} {f : α → Within ε R β} {s : σ} {v : τ}
    (hm : Keeps g m) (hs : g s = v)
    (hf : ∀ a t, g t = v → FailsIn (g · = v) (f a) t) : FailsIn (g · = v) (m >>= f) s := by
  intro e s' h
  rcases run_bind_eq_error.1 h with h | ⟨a, t, ht, h⟩
  · exact (hm.of_run h).trans hs
  · exact hf a t ((hm.of_run ht).trans hs) e s' h

end Keeps

/-! ## Relations every run goes along -/

/-- Every run of `m`, failing or not, goes along `Q`. -/
def Along (Q : σ → σ → Prop) (m : Within ε R α) : Prop := ∀ s, Q s (m.run s).2

section Along

variable {Q : σ → σ → Prop}

theorem Along.ignoreErr {m : Within ε R α} (hm : Along Q m) : Along Q m.ignoreErr := hm

theorem Along.ite {c : Prop} [Decidable c] {m n : Within ε R α} (hm : Along Q m)
    (hn : Along Q n) : Along Q (if c then m else n) := by
  split
  · exact hm
  · exact hn

theorem Along.mono {Q' : σ → σ → Prop} {m : Within ε R α} (hm : Along Q m)
    (h : ∀ s s', Q s s' → Q' s s') : Along Q' m := fun s => h s _ (hm s)

variable [IsPreorder σ R] [IsPreorder σ Q]

theorem along_pure (a : α) : Along Q (pure a : Within ε R α) := fun s => refl_of Q s

theorem along_fail {e : ε} : Along Q (fail e : Within ε R α) := fun s => refl_of Q s

theorem along_inspect {f : σ → α} : Along Q (inspect f : Within ε R α) := fun s => refl_of Q s

theorem Along.bind {m : Within ε R α} {f : α → Within ε R β} (hm : Along Q m)
    (hf : ∀ a, Along Q (f a)) : Along Q (m >>= f) := by
  intro s
  have hs := hm s
  rw [run_bind]
  cases h : m.run s with
  | mk r t =>
    rw [h] at hs
    cases r with
    | ok a => exact trans_of Q hs (hf a t)
    | error e => exact hs

/-- A loop goes along `Q` when each round does, from the states the rounds before it leave. -/
theorem along_forM_of_invariant (body : α → Within ε R PUnit) (I : List α → σ → Prop)
    (hstep : ∀ a rest s, I (a :: rest) s → Q s ((body a).run s).2 ∧
      ∀ s', (body a).run s = (.ok ⟨⟩, s') → I rest s')
    {l : List α} {s : σ} (h : I l s) : Q s ((l.forM body).run s).2 := by
  induction l generalizing s with
  | nil => exact refl_of Q s
  | cons a rest ih =>
    obtain ⟨hQ, hI⟩ := hstep a rest s h
    change Q s ((body a >>= fun _ => rest.forM body).run s).2
    rw [run_bind]
    cases hrun : (body a).run s with
    | mk r t =>
      rw [hrun] at hQ
      cases r with
      | ok u => exact trans_of Q hQ (ih (hI t hrun))
      | error e => exact hQ

theorem along_forM {body : α → Within ε R PUnit} (h : ∀ a, Along Q (body a)) (l : List α) :
    Along Q (l.forM body) := fun _ =>
  along_forM_of_invariant body (fun _ _ => True) (fun a _ s _ => ⟨h a s, fun _ _ => trivial⟩) trivial

end Along

end Within
