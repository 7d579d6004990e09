import HoneNode.Tx.Frame

/-!
# Tx.Run — runs of the ledger with their history

A run is any sequence of submissions, accepted or not, with the entries the node
emits itself in between. The history keeps what was accepted, latest first.
-/

namespace HoneNode.Tx

/-- An entry with the signature it is sent with. -/
structure Submission where
  entry : LedgerEntry
  sig : Option String

/-- The states a node reaches from `s₀`, with the submissions it accepted. -/
inductive Run (env : Env) (s₀ : Chain) : List Submission → Chain → Prop where
  | start : Run env s₀ [] s₀
  | accepted {hist : List Submission} {s s' : Chain} (m : Moment) (c : Submission)
      (hash : String) (h : Run env s₀ hist s)
      (hok : validateAndApply env m c.entry c.sig s = (.ok hash, s')) :
      Run env s₀ (c :: hist) s'
  | rejected {hist : List Submission} {s s' : Chain} (m : Moment) (c : Submission)
      (f : Fault) (h : Run env s₀ hist s)
      (herr : validateAndApply env m c.entry c.sig s = (.error f, s')) : Run env s₀ hist s'
  | emitted {hist : List Submission} {s s' : Chain} (now : ℕ) (e : LedgerEntry)
      (r : Except Fault Unit) (h : Run env s₀ hist s) (hsys : isSystemEntry e = true)
      (happ : applyEntry env now e s = (r, s')) : Run env s₀ hist s'

namespace Run

variable {env : Env} {s₀ s : Chain} {hist : List Submission}

/-- What no submission and no emitted entry can break holds in every state. -/
theorem keeps {I : Chain → Prop}
    (hcall : ∀ m e sig s, I s → I (validateAndApply env m e sig s).2)
    (hemit : ∀ now e s, isSystemEntry e = true → I s → I (applyEntry env now e s).2)
    (h : Run env s₀ hist s) (h₀ : I s₀) : I s := by
  induction h with
  | start => exact h₀
  | accepted m c hash _ hok ih =>
    have h := hcall m c.entry c.sig _ ih
    rwa [hok] at h
  | rejected m c f _ herr ih =>
    have h := hcall m c.entry c.sig _ ih
    rwa [herr] at h
  | emitted now e r _ hsys happ ih =>
    have h := hemit now e _ hsys ih
    rwa [happ] at h

/-- A run is cut at any place of its history: there the submission was accepted. -/
theorem split_at {c : Submission} {later earlier : List Submission} (h : Run env s₀ hist s)
    (hhist : hist = later ++ c :: earlier) :
    ∃ (m : Moment) (hash : String) (t t' : Chain), Run env s₀ earlier t ∧
      validateAndApply env m c.entry c.sig t = (.ok hash, t') ∧ Run env t' later s := by
  induction h generalizing later with
  | start => exact absurd hhist (by simp)
  | accepted m c' hash hrun hok ih =>
    cases later with
    | nil =>
      cases hhist
      exact ⟨m, hash, _, _, hrun, hok, .start⟩
    | cons d later =>
      cases hhist
      obtain ⟨m₁, hash₁, t, t', hb, hacc, ha⟩ := ih rfl
      exact ⟨m₁, hash₁, t, t', hb, hacc, ha.accepted m c' hash hok⟩
  | rejected m c' f _ herr ih =>
    obtain ⟨m₁, hash₁, t, t', hb, hacc, ha⟩ := ih hhist
    exact ⟨m₁, hash₁, t, t', hb, hacc, ha.rejected m c' f herr⟩
  | emitted now e r _ hsys happ ih =>
    obtain ⟨m₁, hash₁, t, t', hb, hacc, ha⟩ := ih hhist
    exact ⟨m₁, hash₁, t, t', hb, hacc, ha.emitted now e r hsys happ⟩

theorem split {c : Submission} (h : Run env s₀ hist s) (hc : c ∈ hist) :
    ∃ (m : Moment) (hash : String) (before after : List Submission) (t t' : Chain),
      Run env s₀ before t ∧ validateAndApply env m c.entry c.sig t = (.ok hash, t') ∧
        Run env t' after s := by
  obtain ⟨later, earlier, hhist⟩ := List.append_of_mem hc
  obtain ⟨m, hash, t, t', hcut⟩ := h.split_at hhist
  exact ⟨m, hash, earlier, later, t, t', hcut⟩

/-- Account records are never deleted. -/
theorem record_kept {a : String} (h : Run env s₀ hist s) (h₀ : (s₀.getAccount a).isSome) :
    (s.getAccount a).isSome := by
  have hstep : ∀ {W : Footprint} {s s' : Chain}, W.Permits s s' → (s.getAccount a).isSome →
      (s'.getAccount a).isSome := by
    intro W s s' hp hs
    obtain ⟨r, hr⟩ := Option.isSome_iff_exists.1 hs
    obtain ⟨r', hr', -⟩ := hp.record a r hr
    simp [hr']
  exact h.keeps (fun m e sig s => hstep (validateAndApply_permits env s m e sig))
    (fun now e s _ => hstep (applyEntry_permits env now s e)) h₀

end Run

end HoneNode.Tx
