import Mathlib.Data.List.Basic
import Mathlib.Logic.Relation

/-!
# Lib.Saturate — filling slots until nothing more can be filled

A rule says what an empty slot can be filled with, given what the others hold. Passes over
all slots are made until one fills nothing. Each filled slot stays filled, so the passes
end, and then the rule has nothing for the slots that are left.
-/

namespace Saturate

variable {α ε : Type*} {rule : List (Option α) → ℕ → Except ε (Option α)}
  {σ τ ρ : List (Option α)} {e : ε}

/-! ## Passes -/

def fillAt (rule : List (Option α) → ℕ → Except ε (Option α)) (σ : List (Option α)) (i : ℕ) :
    Except ε (List (Option α) × Bool) :=
  match σ[i]? with
  | none => .ok (σ, false)
  | some (some _) => .ok (σ, false)
  | some none => match rule σ i with
    | .error e => .error e
    | .ok none => .ok (σ, false)
    | .ok (some a) => .ok (σ.set i (some a), true)

/-- One pass over the slots, and whether it filled any. -/
def pass (rule : List (Option α) → ℕ → Except ε (Option α)) :
    List ℕ → List (Option α) → Except ε (List (Option α) × Bool)
  | [], σ => .ok (σ, false)
  | i :: is, σ => match fillAt rule σ i with
    | .error e => .error e
    | .ok (τ, filled) => match pass rule is τ with
      | .error e => .error e
      | .ok (ρ, more) => .ok (ρ, filled || more)

/-- The rule fills one slot. -/
inductive Step (rule : List (Option α) → ℕ → Except ε (Option α)) :
    List (Option α) → List (Option α) → Prop
  | fill {σ : List (Option α)} {i : ℕ} {a : α} (hempty : σ[i]? = some none)
      (hrule : rule σ i = .ok (some a)) : Step rule σ (σ.set i (some a))

abbrev Steps (rule : List (Option α) → ℕ → Except ε (Option α)) :
    List (Option α) → List (Option α) → Prop :=
  Relation.ReflTransGen (Step rule)

theorem fillAt_cases {i : ℕ} {filled : Bool} (h : fillAt rule σ i = .ok (τ, filled)) :
    (filled = true ∧ Step rule σ τ) ∨
      (filled = false ∧ τ = σ ∧ (σ[i]? = some none → rule σ i = .ok none)) := by
  unfold fillAt at h
  split at h
  · next hslot =>
    cases h
    exact .inr ⟨rfl, rfl, fun hempty => by rw [hslot] at hempty; cases hempty⟩
  · next hslot =>
    cases h
    exact .inr ⟨rfl, rfl, fun hempty => by rw [hslot] at hempty; cases hempty⟩
  · next hempty =>
    split at h
    · cases h
    · next hrule =>
      cases h
      exact .inr ⟨rfl, rfl, fun _ => hrule⟩
    · next hrule =>
      cases h
      exact .inl ⟨rfl, .fill hempty hrule⟩

theorem fillAt_error {i : ℕ} (h : fillAt rule σ i = .error e) :
    σ[i]? = some none ∧ rule σ i = .error e := by
  unfold fillAt at h
  split at h
  · cases h
  · cases h
  · next hempty =>
    split at h
    · next hrule =>
      cases h
      exact ⟨hempty, hrule⟩
    · cases h
    · cases h

/-- A pass goes by steps; one that fills nothing has met no slot that can be filled. -/
theorem pass_ok {is : List ℕ} {filled : Bool} (h : pass rule is σ = .ok (τ, filled)) :
    (filled = true ∧ Relation.TransGen (Step rule) σ τ) ∨
      (filled = false ∧ τ = σ ∧ ∀ i ∈ is, σ[i]? = some none → rule σ i = .ok none) := by
  induction is generalizing σ filled with
  | nil =>
    cases h
    exact .inr ⟨rfl, rfl, fun i hi => by cases hi⟩
  | cons i is ih =>
    rw [pass] at h
    split at h
    · cases h
    · next hat =>
      split at h
      · cases h
      · next hrest =>
        cases h
        rcases fillAt_cases hat with ⟨rfl, hstep⟩ | ⟨rfl, rfl, hnone⟩
        · refine .inl ⟨rfl, ?_⟩
          rcases ih hrest with ⟨-, hsteps⟩ | ⟨-, rfl, -⟩
          · exact Relation.TransGen.head hstep hsteps
          · exact Relation.TransGen.single hstep
        · rcases ih hrest with ⟨rfl, hsteps⟩ | ⟨rfl, rfl, hstuck⟩
          · exact .inl ⟨rfl, hsteps⟩
          · refine .inr ⟨rfl, rfl, fun j hj => ?_⟩
            rcases List.mem_cons.1 hj with rfl | hmem
            · exact hnone
            · exact hstuck j hmem

/-- A pass fails where the rule does. -/
theorem pass_error {is : List ℕ} (h : pass rule is σ = .error e) :
    ∃ ρ i, Steps rule σ ρ ∧ ρ[i]? = some none ∧ rule ρ i = .error e := by
  induction is generalizing σ with
  | nil => cases h
  | cons i is ih =>
    rw [pass] at h
    split at h
    · next hat =>
      cases h
      obtain ⟨hempty, hrule⟩ := fillAt_error hat
      exact ⟨σ, i, Relation.ReflTransGen.refl, hempty, hrule⟩
    · next hat =>
      split at h
      · next hrest =>
        cases h
        obtain ⟨ρ, j, hsteps, hempty, hrule⟩ := ih hrest
        rcases fillAt_cases hat with ⟨-, hstep⟩ | ⟨-, rfl, -⟩
        · exact ⟨ρ, j, Relation.ReflTransGen.head hstep hsteps, hempty, hrule⟩
        · exact ⟨ρ, j, hsteps, hempty, hrule⟩
      · cases h

/-! ## Passes until nothing changes -/

/-- The slots that are still empty. -/
def missing (σ : List (Option α)) : ℕ := σ.countP Option.isNone

theorem Step.missing_lt (h : Step rule σ τ) : missing τ < missing σ := by
  obtain ⟨hempty, -⟩ := h
  obtain ⟨hi, hget⟩ := List.getElem?_eq_some_iff.1 hempty
  have hpos : 0 < missing _ :=
    List.countP_pos_iff.2 ⟨none, hget ▸ List.getElem_mem hi, rfl⟩
  unfold missing at hpos ⊢
  rw [List.countP_set hi, hget]
  simp only [Option.isNone_none, Option.isNone_some, if_true, Bool.false_eq_true, if_false]
  omega

theorem missing_lt_of_transGen (h : Relation.TransGen (Step rule) σ τ) :
    missing τ < missing σ := by
  induction h with
  | single hstep => exact hstep.missing_lt
  | tail _ hstep ih => exact Nat.lt_trans hstep.missing_lt ih

theorem missing_lt_of_pass {is : List ℕ} (h : pass rule is σ = .ok (τ, true)) :
    missing τ < missing σ := by
  rcases pass_ok h with ⟨-, hsteps⟩ | ⟨hfalse, -, -⟩
  · exact missing_lt_of_transGen hsteps
  · cases hfalse

def fill (rule : List (Option α) → ℕ → Except ε (Option α)) (σ : List (Option α)) :
    Except ε (List (Option α)) :=
  match h : pass rule (List.range σ.length) σ with
  | .error e => .error e
  | .ok (τ, false) => .ok τ
  | .ok (τ, true) =>
    have _hlt := missing_lt_of_pass h
    fill rule τ
termination_by missing σ

/-- The rule has nothing for the slots that are empty. -/
def Stuck (rule : List (Option α) → ℕ → Except ε (Option α)) (σ : List (Option α)) : Prop :=
  ∀ i, σ[i]? = some none → rule σ i = .ok none

theorem fill_ok (h : fill rule σ = .ok τ) : Steps rule σ τ ∧ Stuck rule τ := by
  induction σ using fill.induct rule with
  | case1 σ e hpass =>
    rw [fill] at h
    split at h
    · cases h
    · next hpass' => rw [hpass] at hpass'; cases hpass'
    · next hpass' => rw [hpass] at hpass'; cases hpass'
  | case2 σ ρ hpass =>
    rw [fill] at h
    split at h
    · cases h
    · next hpass' =>
      rw [hpass] at hpass'
      cases hpass'
      cases h
      rcases pass_ok hpass with ⟨htrue, -⟩ | ⟨-, rfl, hstuck⟩
      · cases htrue
      · refine ⟨Relation.ReflTransGen.refl, fun i hempty => hstuck i ?_ hempty⟩
        exact List.mem_range.2 (List.getElem?_eq_some_iff.1 hempty).1
    · next hpass' => rw [hpass] at hpass'; cases hpass'
  | case3 σ ρ hpass hlt ih =>
    rw [fill] at h
    split at h
    · cases h
    · next hpass' => rw [hpass] at hpass'; cases hpass'
    · next hpass' =>
      rw [hpass] at hpass'
      cases hpass'
      obtain ⟨hsteps, hstuck⟩ := ih h
      rcases pass_ok hpass with ⟨-, hfirst⟩ | ⟨hfalse, -, -⟩
      · exact ⟨hfirst.to_reflTransGen.trans hsteps, hstuck⟩
      · cases hfalse

theorem fill_error (h : fill rule σ = .error e) :
    ∃ ρ i, Steps rule σ ρ ∧ ρ[i]? = some none ∧ rule ρ i = .error e := by
  induction σ using fill.induct rule with
  | case1 σ e' hpass =>
    rw [fill] at h
    split at h
    · next hpass' =>
      rw [hpass] at hpass'
      cases hpass'
      cases h
      exact pass_error hpass
    · cases h
    · next hpass' => rw [hpass] at hpass'; cases hpass'
  | case2 σ ρ hpass =>
    rw [fill] at h
    split at h
    · next hpass' => rw [hpass] at hpass'; cases hpass'
    · cases h
    · next hpass' => rw [hpass] at hpass'; cases hpass'
  | case3 σ ρ hpass hlt ih =>
    rw [fill] at h
    split at h
    · next hpass' => rw [hpass] at hpass'; cases hpass'
    · cases h
    · next hpass' =>
      rw [hpass] at hpass'
      cases hpass'
      obtain ⟨ρ', i, hsteps, hempty, hrule⟩ := ih h
      rcases pass_ok hpass with ⟨-, hfirst⟩ | ⟨hfalse, -, -⟩
      · exact ⟨ρ', i, hfirst.to_reflTransGen.trans hsteps, hempty, hrule⟩
      · cases hfalse

/-! ## What steps keep -/

theorem Step.keeps (h : Step rule σ τ) {i : ℕ} {a : α} (hget : σ[i]? = some (some a)) :
    τ[i]? = some (some a) := by
  obtain ⟨hempty, -⟩ := h
  rw [List.getElem?_set_ne, hget]
  rintro rfl
  rw [hempty] at hget
  cases hget

theorem Steps.keeps (h : Steps rule σ τ) {i : ℕ} {a : α} (hget : σ[i]? = some (some a)) :
    τ[i]? = some (some a) := by
  induction h with
  | refl => exact hget
  | tail _ hstep ih => exact hstep.keeps ih

theorem Steps.length_eq (h : Steps rule σ τ) : τ.length = σ.length := by
  induction h with
  | refl => rfl
  | tail _ hstep ih =>
    obtain ⟨-, -⟩ := hstep
    rw [List.length_set, ih]

/-- Where the rule has nothing to fill in, nothing is. -/
theorem fill_of_stuck (hstuck : Stuck rule σ) : fill rule σ = .ok σ := by
  have hstay : ∀ {τ : List (Option α)}, Steps rule σ τ → τ = σ := by
    intro τ hsteps
    rcases Relation.ReflTransGen.cases_head hsteps with rfl | ⟨ρ, ⟨hempty, hrule⟩, -⟩
    · rfl
    · rw [hstuck _ hempty] at hrule
      cases hrule
  cases hfill : fill rule σ with
  | error e =>
    obtain ⟨ρ, i, hsteps, hempty, hrule⟩ := fill_error hfill
    rw [hstay hsteps] at hempty hrule
    rw [hstuck i hempty] at hrule
    cases hrule
  | ok τ => rw [hstay (fill_ok hfill).1]

/-- What every value has, if the rule gives it to values made of such ones. -/
theorem Steps.forall_of_rule {P : ℕ → α → Prop}
    (hrule : ∀ {ρ : List (Option α)} {i : ℕ} {a : α}, Steps rule σ ρ → ρ[i]? = some none →
      (∀ j b, ρ[j]? = some (some b) → P j b) → rule ρ i = .ok (some a) → P i a)
    (h : Steps rule σ τ) (hσ : ∀ j b, σ[j]? = some (some b) → P j b) :
    ∀ j b, τ[j]? = some (some b) → P j b := by
  induction h with
  | refl => exact hσ
  | tail hsteps hstep ih =>
    obtain ⟨hempty, hvalue⟩ := hstep
    intro j b hget
    rw [List.getElem?_set] at hget
    split at hget
    · next heq =>
      split at hget
      · cases hget
        exact heq ▸ hrule hsteps hempty ih hvalue
      · cases hget
    · exact ih j b hget

end Saturate
