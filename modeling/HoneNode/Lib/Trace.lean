import Mathlib.Data.List.Basic

/-!
# Lib.Trace — runs of a component with their history

A component has steps of its own, and the rest of the system acts in between
without touching what the component looks at. A run keeps the states its own
steps were taken in, latest first; `P` says which steps are admitted.
-/

namespace Trace

variable {σ ω : Type}

/-- Where a component starts, what its steps do, and what may happen in between. -/
structure Component (σ ω : Type) where
  init : σ → Prop
  step : σ → ω → σ
  other : σ → σ → Prop := fun s s' => s' = s

/-- The states a component reaches by admitted steps, with the steps on the way. -/
inductive Run (M : Component σ ω) (P : σ → ω → Prop) : List (σ × ω) → σ → Prop where
  | start {s : σ} (h : M.init s) : Run M P [] s
  | step {hist : List (σ × ω)} {s : σ} (op : ω) (h : Run M P hist s) (hop : P s op) :
      Run M P ((s, op) :: hist) (M.step s op)
  | other {hist : List (σ × ω)} {s s' : σ} (h : Run M P hist s) (hs : M.other s s') :
      Run M P hist s'

variable {M : Component σ ω} {P Q : σ → ω → Prop} {hist : List (σ × ω)} {s : σ}

namespace Run

/-- What holds at the start and no admitted step breaks holds in every state reached. -/
theorem invariant {I : σ → Prop} (hinit : ∀ s, M.init s → I s)
    (hstep : ∀ s op, P s op → I s → I (M.step s op))
    (hother : ∀ s s', M.other s s' → I s → I s') (h : Run M P hist s) : I s := by
  induction h with
  | start h => exact hinit _ h
  | step op _ hop ih => exact hstep _ op hop ih
  | other _ hs ih => exact hother _ _ hs ih

/-- Every step of the history was taken in a state the component had reached. -/
theorem of_mem {t : σ} {op : ω} (h : Run M P hist s) (hmem : (t, op) ∈ hist) :
    P t op ∧ ∃ before, Run M P before t := by
  induction h with
  | start => cases hmem
  | @step hist s op' hrun hop ih =>
    rcases List.mem_cons.1 hmem with heq | hmem
    · cases heq
      exact ⟨hop, hist, hrun⟩
    · exact ih hmem
  | other _ _ ih => exact ih hmem

/-- A run is cut at any step of its history. -/
theorem cut {t : σ} {op : ω} {later earlier : List (σ × ω)}
    (h : Run M P (later ++ (t, op) :: earlier) s) : Run M P earlier t ∧ P t op := by
  generalize heq : later ++ (t, op) :: earlier = hist at h
  induction h generalizing later with
  | start => exact absurd heq (List.append_ne_nil_of_right_ne_nil _ (List.cons_ne_nil _ _))
  | step op' hrun hop ih =>
    cases later with
    | nil =>
      cases heq
      exact ⟨hrun, hop⟩
    | cons c later => exact ih (List.cons.inj heq).2
  | other _ _ ih => exact ih heq

theorem mono (hPQ : ∀ s op, P s op → Q s op) (h : Run M P hist s) : Run M Q hist s := by
  induction h with
  | start h => exact .start h
  | step op _ hop ih => exact .step op ih (hPQ _ op hop)
  | other _ hs ih => exact .other ih hs

end Run

/-! ## Since -/

/-- Some step met `A`, and no later one met `B`. -/
def Since {γ : Type} (A B : γ → Prop) : List γ → Prop
  | [] => False
  | c :: hist => A c ∨ ¬ B c ∧ Since A B hist

instance decidableSince {γ : Type} {A B : γ → Prop} [DecidablePred A] [DecidablePred B] :
    ∀ hist : List γ, Decidable (Since A B hist)
  | [] => .isFalse id
  | c :: hist =>
    have := decidableSince (A := A) (B := B) hist
    inferInstanceAs (Decidable (A c ∨ ¬ B c ∧ Since A B hist))

theorem since_iff {γ : Type} {A B : γ → Prop} {hist : List γ} :
    Since A B hist ↔
      ∃ later c earlier, hist = later ++ c :: earlier ∧ A c ∧ ∀ c' ∈ later, ¬ B c' := by
  induction hist with
  | nil =>
    refine iff_of_false id ?_
    rintro ⟨later, c, earlier, hnil, -⟩
    exact List.append_ne_nil_of_right_ne_nil _ (List.cons_ne_nil _ _) hnil.symm
  | cons head hist ih =>
    constructor
    · rintro (hnow | ⟨hnot, hbefore⟩)
      · exact ⟨[], head, hist, rfl, hnow, nofun⟩
      · obtain ⟨later, c, earlier, rfl, hc, hlater⟩ := ih.1 hbefore
        exact ⟨head :: later, c, earlier, rfl, hc, List.forall_mem_cons.2 ⟨hnot, hlater⟩⟩
    · rintro ⟨later, c, earlier, heq, hc, hlater⟩
      cases later with
      | nil =>
        cases heq
        exact .inl hc
      | cons first later =>
        cases heq
        obtain ⟨hnot, hlater⟩ := List.forall_mem_cons.1 hlater
        exact .inr ⟨hnot, ih.2 ⟨later, c, earlier, rfl, hc, hlater⟩⟩

/-! ## Lists of steps -/

/-- The component after a list of steps. -/
def Component.exec (M : Component σ ω) (s : σ) (ops : List ω) : σ := ops.foldl M.step s

/-- The steps of a list on top of a history. -/
def Component.record (M : Component σ ω) : σ → List ω → List (σ × ω) → List (σ × ω)
  | _, [], hist => hist
  | s, op :: ops, hist => M.record (M.step s op) ops ((s, op) :: hist)

/-- The steps of a list are all admitted. -/
def Legal (M : Component σ ω) (P : σ → ω → Prop) : σ → List ω → Prop
  | _, [] => True
  | s, op :: ops => P s op ∧ Legal M P (M.step s op) ops

instance decidableLegal [∀ s op, Decidable (P s op)] :
    ∀ (s : σ) (ops : List ω), Decidable (Legal M P s ops)
  | _, [] => .isTrue trivial
  | s, op :: ops =>
    have := decidableLegal (M.step s op) ops
    inferInstanceAs (Decidable (P s op ∧ Legal M P (M.step s op) ops))

theorem legal_true (s : σ) (ops : List ω) : Legal M (fun _ _ => True) s ops := by
  induction ops generalizing s with
  | nil => trivial
  | cons op ops ih => exact ⟨trivial, ih _⟩

theorem Run.exec {ops : List ω} (h : Run M P hist s) (hops : Legal M P s ops) :
    Run M P (M.record s ops hist) (M.exec s ops) := by
  induction ops generalizing hist s with
  | nil => exact h
  | cons op ops ih => exact ih (.step op h hops.1) hops.2

/-- What a list of steps adds to a history, in the order taken. -/
theorem Component.record_ops (M : Component σ ω) (s : σ) (ops : List ω) (hist : List (σ × ω)) :
    (M.record s ops hist).reverse.map Prod.snd = hist.reverse.map Prod.snd ++ ops := by
  induction ops generalizing s hist with
  | nil => simp [Component.record]
  | cons op ops ih => simp [Component.record, ih]

end Trace
