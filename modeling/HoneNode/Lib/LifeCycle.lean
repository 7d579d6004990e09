import HoneNode.Lib.Kv
import HoneNode.Lib.Trace

/-!
# Lib.LifeCycle — records that move along a life cycle

A record begins in the first status and moves only where its status allows it,
so a status without a way out is final: once a record has reached it in a run,
it stays there.
-/

namespace LifeCycle

/-- The status of a record, the one it begins in and where it may move. -/
structure Cycle (ν τ : Type) where
  status : ν → τ
  start : τ
  next : τ → List τ

variable {κ ν τ : Type} [LinearOrder κ] {c : Cycle ν τ} {records records' : Kv κ ν} {k : κ}
  {r r' : ν}

def Cycle.Final (c : Cycle ν τ) (st : τ) : Prop := c.next st = []

/-- No record is lost, each one stays or moves on, and a new one begins. -/
structure Advances (c : Cycle ν τ) (records records' : Kv κ ν) : Prop where
  moved : ∀ k r, records.get k = some r → ∃ r', records'.get k = some r' ∧
    (c.status r' = c.status r ∨ c.status r' ∈ c.next (c.status r))
  begun : ∀ k r', records.get k = none → records'.get k = some r' → c.status r' = c.start

namespace Advances

theorem refl (c : Cycle ν τ) (records : Kv κ ν) : Advances c records records := by
  constructor
  · exact fun k r hr => ⟨r, hr, .inl rfl⟩
  · intro k r' hnone hr'
    rw [hnone] at hr'
    cases hr'

theorem put_start (hfresh : records.get k = none) (hstart : c.status r' = c.start) :
    Advances c records (records.put k r') := by
  constructor
  · intro j r hr
    have hne : k ≠ j := by
      rintro rfl
      rw [hfresh] at hr
      cases hr
    exact ⟨r, (Kv.get_put_of_ne _ _ hne).trans hr, .inl rfl⟩
  · intro j r hnone hr
    rw [Kv.get_put] at hr
    split at hr
    · cases hr
      exact hstart
    · rw [hnone] at hr
      cases hr

theorem put_next (hget : records.get k = some r)
    (hnext : c.status r' ∈ c.next (c.status r)) : Advances c records (records.put k r') := by
  constructor
  · intro j r₁ hr₁
    by_cases hkj : k = j
    · subst hkj
      cases hget.symm.trans hr₁
      exact ⟨r', Kv.get_put_self _ _ _, .inr hnext⟩
    · exact ⟨r₁, (Kv.get_put_of_ne _ _ hkj).trans hr₁, .inl rfl⟩
  · intro j r₁ hnone hr₁
    have hne : k ≠ j := by
      rintro rfl
      rw [hnone] at hget
      cases hget
    rw [Kv.get_put_of_ne _ _ hne, hnone] at hr₁
    cases hr₁

theorem final (h : Advances c records records') (hget : records.get k = some r)
    (hfinal : c.Final (c.status r)) :
    ∃ r', records'.get k = some r' ∧ c.status r' = c.status r := by
  obtain ⟨r', hr', hsame | hnext⟩ := h.moved k r hget
  · exact ⟨r', hr', hsame⟩
  · rw [hfinal] at hnext
    cases hnext

end Advances

/-- A record that was final at some step of a run is still so at its end. -/
theorem final_of_run {σ ω : Type} {M : Trace.Component σ ω} {P : σ → ω → Prop}
    {hist : List (σ × ω)} {s t : σ} {op : ω} (records : σ → Kv κ ν)
    (hstep : ∀ s op, P s op → Advances c (records s) (records (M.step s op)))
    (hother : ∀ s s', M.other s s' → Advances c (records s) (records s'))
    (h : Trace.Run M P hist s) (hmem : (t, op) ∈ hist) (hget : (records t).get k = some r)
    (hfinal : c.Final (c.status r)) :
    ∃ r', (records s).get k = some r' ∧ c.status r' = c.status r := by
  induction h with
  | start => cases hmem
  | step op' _ hop ih =>
    rcases List.mem_cons.1 hmem with heq | hmem
    · cases heq
      exact (hstep _ _ hop).final hget hfinal
    · obtain ⟨r', hr', hsame⟩ := ih hmem
      obtain ⟨r'', hr'', hsame'⟩ := (hstep _ _ hop).final hr' (hsame ▸ hfinal)
      exact ⟨r'', hr'', hsame'.trans hsame⟩
  | other _ hs ih =>
    obtain ⟨r', hr', hsame⟩ := ih hmem
    obtain ⟨r'', hr'', hsame'⟩ := (hother _ _ hs).final hr' (hsame ▸ hfinal)
    exact ⟨r'', hr'', hsame'.trans hsame⟩

end LifeCycle
