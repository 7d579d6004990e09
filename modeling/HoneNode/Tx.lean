import HoneNode.Contracts
import HoneNode.Tx.Arms

/-!
# Tx — `validate_and_apply`

The one way an entry from outside reaches the ledger. Everything up to the
checks only reads; then the arm writes, the nonce of the acting account is
advanced, and the fee is taken as far as it goes. An error in the arm keeps what
the arm wrote.
-/

namespace HoneNode.Tx

/-- What differs from call to call on one node: its clock and the order in which a hash
map shows its entries. -/
structure Moment where
  now : ℕ
  order : Tally.HashOrder (String × ℕ)

instance : Inhabited Moment := ⟨⟨0, .stored⟩⟩

/-! ## Before the arm -/

/-- User entries may not be older than the window. -/
def staleGuard (s : Chain) (e : LedgerEntry) : Except String Unit :=
  let exempt := isSystemEntry e || match e with
    | .clockNodeRegister _ => true
    | _ => false
  match entryEpoch e with
  | some epoch =>
    if ¬ exempt ∧ staleWindow < s.currentEpoch ∧ epoch < s.currentEpoch - staleWindow then
      .error (s!"entry epoch {epoch} is too stale (current: {s.currentEpoch}, "
        ++ s!"max stale: {staleWindow})")
    else .ok ()
  | none => .ok ()

/-- The payer must cover the fee; an account creation is subsidised. -/
def feePreflight (env : Env) (s : Chain) (e : LedgerEntry) : Except String Unit :=
  let fee := totalFee env s e
  match e, entryFeePayer e with
  | .accountCreate _, _ => .ok ()
  | _, none => .ok ()
  | _, some payer =>
    let balance := s.getBalance payer nativeToken
    if balance < fee then
      .error (s!"insufficient balance for entry fee: {fee} hunits required "
        ++ s!"(weight {entryWeight e}×{readBaseFee env s}), '{payer}' has {balance} hunits")
    else .ok ()

/-- Everything that can reject an entry before it writes. -/
def preflight (env : Env) (s : Chain) (e : LedgerEntry) (sig : Option String) :
    Except String Unit := do
  staleGuard s e
  feePreflight env s e
  runChecks env s e (checks env s sig e)

/-! ## The arm -/

/-- A parameter change is only noted; the epoch seal applies it two epochs later. -/
def notePendingParam (env : Env) (p : Entry.ChainParameterSet) (s : Chain) : Chain :=
  let release := wrapAdd p.epoch 2
  s.stateSet .pendingParam s!"{release}:{p.key}" (env.printJson (.obj
    [("entry", .str (env.entryJson (.chainParameterSet p))), ("release_epoch", .num release),
      ("submitted_by", .str p.signedBy)]))

/-- Advance the nonce of the acting account, if the arm does so. -/
def advance (e : LedgerEntry) (s : Chain) : Chain :=
  match bumped e with
  | some account => s.bumpNonce account
  | none => s

/-- What an accepted entry writes. -/
def commit (env : Env) (m : Moment) (e : LedgerEntry) (s : Chain) : Except Fault Unit × Chain :=
  match e with
  | .chainParameterSet p => (.ok (), notePendingParam env p s)
  | .contractDeploy p => Contracts.applyContractDeploy env p s
  | .contractCall p => Contracts.applyContractCall env m.now p s
  | .agentTaskVerifierReveal p => match applyEntry env m.now e s with
    | (.error f, s') => (.error f, s')
    | (.ok (), s') => settleReveal m p (advance e s')
  | e => match applyEntry env m.now e s with
    | (.error f, s') => (.error f, s')
    | (.ok (), s') => (.ok (), advance e s')
where
  /-- The settlement a reveal may set off; only a panic stops the entry. -/
  settleReveal (m : Moment) (p : Entry.AgentTaskVerifierReveal) (s : Chain) :
      Except Fault Unit × Chain :=
    match (trySettle m.order p.taskId : Prog {} Unit).run s with
    | (.error (.panic msg), s') => (.error (.panic msg), s')
    | (_, s') => (.ok (), s')

def validateAndApply (env : Env) (m : Moment) (e : LedgerEntry) (sig : Option String)
    (s : Chain) : Except Fault String × Chain :=
  match preflight env s e sig with
  | .error msg => (.error (.err msg), s)
  | .ok () => match commit env m e s with
    | (.error f, s') => (.error f, s')
    | (.ok (), s') => (.ok (env.entryHash e), deductFee env e s')

/-! ## What acceptance says -/

section Accepted

variable {env : Env} {m : Moment} {s s' : Chain} {e : LedgerEntry} {sig : Option String}
  {hash : String}

theorem preflight_ok_iff : preflight env s e sig = .ok () ↔
    staleGuard s e = .ok () ∧ feePreflight env s e = .ok () ∧
      ∀ c ∈ checks env s sig e, c.run env s e = .ok () := by
  rw [← runChecks_ok_iff]
  unfold preflight
  rcases staleGuard s e with _ | _
  · simp [bind, Except.bind]
  · rcases feePreflight env s e with _ | _ <;> simp [bind, Except.bind]

/-- The entries that are more, or less, than `apply_entry` and a nonce. -/
def isPlain : LedgerEntry → Bool
  | .chainParameterSet _ | .contractDeploy _ | .contractCall _ | .agentTaskVerifierReveal _ =>
    false
  | _ => true

theorem commit_of_plain (h : isPlain e = true) : commit env m e s =
    match applyEntry env m.now e s with
    | (.error f, s') => (.error f, s')
    | (.ok (), s') => (.ok (), advance e s') := by
  unfold commit
  split
  all_goals first | cases h | rfl

theorem commit_eq_ok_iff_of_plain (h : isPlain e = true) : commit env m e s = (.ok (), s') ↔
    ∃ t, applyEntry env m.now e s = (.ok (), t) ∧ s' = advance e t := by
  rw [commit_of_plain h]
  rcases applyEntry env m.now e s with ⟨_ | _, t⟩ <;> simp [eq_comm]

/-- An entry is accepted when the preflight and the arm succeed. -/
theorem validateAndApply_eq_ok_iff : validateAndApply env m e sig s = (.ok hash, s') ↔
    preflight env s e sig = .ok () ∧ hash = env.entryHash e ∧
      ∃ t, commit env m e s = (.ok (), t) ∧ s' = deductFee env e t := by
  unfold validateAndApply
  rcases preflight env s e sig with _ | _
  · simp
  · rcases commit env m e s with ⟨_ | _, t⟩ <;> simp [eq_comm]

/-- What an accepted plain entry did, step by step. -/
theorem accepted_of_plain (hp : isPlain e = true)
    (h : validateAndApply env m e sig s = (.ok hash, s')) :
    ∃ t, applyEntry env m.now e s = (.ok (), t) ∧ s' = deductFee env e (advance e t) := by
  obtain ⟨-, -, t', hcommit, hs'⟩ := validateAndApply_eq_ok_iff.1 h
  obtain ⟨t, happ, ht⟩ := (commit_eq_ok_iff_of_plain hp).1 hcommit
  exact ⟨t, happ, by rw [hs', ht]⟩

/-- A plain entry that passes the checks is taken when its arm succeeds. -/
theorem accepted_of_applied (hplain : isPlain e = true) (hpre : preflight env s e sig = .ok ())
    (happ : (applyEntry env m.now e s).1 = .ok ()) :
    validateAndApply env m e sig s = (.ok (env.entryHash e),
      deductFee env e (advance e (applyEntry env m.now e s).2)) := by
  refine validateAndApply_eq_ok_iff.2 ⟨hpre, rfl, _, ?_, rfl⟩
  exact (commit_eq_ok_iff_of_plain hplain).2 ⟨_, Prod.ext happ rfl, rfl⟩

/-- A plain entry that is turned down wrote nothing, or its arm failed. -/
theorem rejected_of_plain {f : Fault} (hp : isPlain e = true)
    (h : validateAndApply env m e sig s = (.error f, s')) :
    s' = s ∨ applyEntry env m.now e s = (.error f, s') := by
  unfold validateAndApply at h
  rw [commit_of_plain hp] at h
  cases hpre : preflight env s e sig with
  | error msg =>
    rw [hpre] at h
    cases h
    exact .inl rfl
  | ok u =>
    rw [hpre] at h
    rcases happ : applyEntry env m.now e s with ⟨g | u', t⟩
    · rw [happ] at h
      cases h
      exact .inr rfl
    · rw [happ] at h
      cases h

/-- What the preflight rejects leaves the chain as it is. -/
theorem validateAndApply_of_preflight_ne (m : Moment) (h : preflight env s e sig ≠ .ok ()) :
    ∃ msg, validateAndApply env m e sig s = (.error (.err msg), s) := by
  unfold validateAndApply
  cases hpre : preflight env s e sig with
  | error msg => exact ⟨msg, rfl⟩
  | ok u => exact absurd hpre h

/-- Every check of an accepted entry passed. -/
theorem check_of_accepted (h : validateAndApply env m e sig s = (.ok hash, s')) {c : Check}
    (hc : c ∈ checks env s sig e) : c.run env s e = .ok () :=
  (preflight_ok_iff.1 (validateAndApply_eq_ok_iff.1 h).1).2.2 c hc

end Accepted

end HoneNode.Tx
