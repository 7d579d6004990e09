import HoneNode.Beacon.Rounds
import HoneNode.ClockNodes.Registered
import HoneNode.Slashing
import HoneNode.Tx.Run

/-!
# ClockNodes.Membership — three notions of a clock node

The quorum reads role stakes and `clock_reg:`, a commitment for the beacon asks
for `clock_node:`, and a report for `clock_stake:`. No entry writes the latter
two, so from a chain without such rows on nobody can commit or report, whoever
is on the list of clock nodes.
-/

namespace HoneNode.ClockNodes

open Entry Prog Within Tx

/-! ## What nobody writes -/

/-- No row that a commitment or a report would look for. -/
structure Unseeded (s : Chain) : Prop where
  nodes : s.state .clockNode = ∅
  stakes : s.state .clockStake = ∅

section Unseeded

variable {env : Env} {now : ℕ} {s s₀ : Chain} {e : LedgerEntry} {f : Family}
  {hist : List Submission}

theorem grants_reach : (reach env now e).grants = (arm env now e).footprint.grants := by
  cases e <;> rfl

theorem not_granted (hf : f = .clockNode ∨ f = .clockStake) :
    f ∉ (arm env now e).footprint.grants := by
  have hnot : ∀ g : Family, g = .clockNode ∨ g = .clockStake → g ≠ .delegation ∧
      g ≠ .externalSigner ∧ g ≠ .externalSignerNonce := by
    rintro g (rfl | rfl) <;> decide
  obtain ⟨hdelegation, hsigner, hnonce⟩ := hnot f hf
  cases e
  case delegationGrant p => exact hdelegation
  case delegationRevoke p => exact hdelegation
  case grantExternalSigner p => exact hsigner
  case revokeExternalSigner p => exact hsigner
  case externalSignerTransfer p => exact hnonce
  all_goals exact Set.notMem_empty _

/-- What leaves them alone leaves a chain without such rows as it is. -/
theorem Unseeded.of_permits {W : Footprint} {t : Chain} (h : Unseeded s)
    (hpermits : W.Permits s t) (hnot : ∀ f, f = .clockNode ∨ f = .clockStake → f ∉ W.grants) :
    Unseeded t where
  nodes := (hpermits.family _ rfl (hnot _ (.inl rfl))).trans h.nodes
  stakes := (hpermits.family _ rfl (hnot _ (.inr rfl))).trans h.stakes

/-- No entry, from outside or from the node itself, seeds them. -/
theorem Unseeded.of_run (h : Run env s₀ hist s) (h₀ : Unseeded s₀) : Unseeded s := by
  refine h.keeps ?_ ?_ h₀
  · intro m e sig t ht
    refine ht.of_permits (validateAndApply_permits env t m e sig) fun f hf => ?_
    rw [grants_reach]
    exact not_granted hf
  · intro now e t _ ht
    exact ht.of_permits (applyEntry_permits env now t e) fun f hf => not_granted hf

end Unseeded

/-! ## The three notions -/

/-- Nothing but the committer's standing is in the way of the commitment. -/
structure CommitReady (s : Chain) (p : VrfCommit) : Prop where
  running : (Beacon.roundOf s p.epoch).finalised = false
  first : ∀ c ∈ (Beacon.roundOf s p.epoch).commits, c.committer ≠ p.committer
  deposit : commitDepositHunits ≤ native s p.committer

/-- Nothing but the reporter's standing is in the way of the report. -/
structure ReportReady (s : Chain) (p : SlashValidator) : Prop where
  slashable : minSlashStake ≤ s.getStake p.accused
  fresh : s.stateGet .slash p.slashId = none
  covered : Slashing.amountOf s p.accused ≤ native s p.accused
  fits : ∀ a, native s a + Slashing.amountOf s p.accused < 2 ^ 64

/-- An account on the list is a clock node to the beacon and to the slashing module, and no
other account is. -/
structure OneNotion (env : Env) (now : ℕ) (s : Chain) (epoch : ℕ) : Prop where
  commits : ∀ p : VrfCommit, p.committer ∈ registeredClockNodes env s epoch →
    CommitReady s p → (applyEntry env now (.vrfCommit p) s).1 = .ok ()
  reports : ∀ p : SlashValidator, p.reporter ∈ registeredClockNodes env s epoch →
    ReportReady s p → (applyEntry env now (.slashValidator p) s).1 = .ok ()
  strangerCommits : ∀ p : VrfCommit, p.committer ∉ registeredClockNodes env s epoch →
    (applyEntry env now (.vrfCommit p) s).1 ≠ .ok ()
  strangerReports : ∀ p : SlashValidator, p.reporter ∉ registeredClockNodes env s epoch →
    (applyEntry env now (.slashValidator p) s).1 ≠ .ok ()

section Notions

variable {env : Env} {now epoch : ℕ} {s s₀ : Chain} {hist : List Submission}

theorem Unseeded.stateGet_clockNode (h : Unseeded s) (key : String) :
    s.stateGet .clockNode key = none := by
  unfold Chain.stateGet
  rw [h.nodes]
  rfl

theorem Unseeded.stateGet_clockStake (h : Unseeded s) (key : String) :
    s.stateGet .clockStake key = none := by
  unfold Chain.stateGet
  rw [h.stakes]
  rfl

theorem Unseeded.commit_refused (h : Unseeded s) (p : VrfCommit) :
    (applyEntry env now (.vrfCommit p) s).1 ≠ .ok () := by
  have hrun : applyEntry env now (.vrfCommit p) s = (applyVrfCommit p).run s := rfl
  rw [hrun]
  rcases Beacon.run_commit (s := s) p with ⟨haccepts, -⟩ | ⟨-, msg, hrefused⟩
  · have hreg := haccepts.1
    rw [h.stateGet_clockNode] at hreg
    cases hreg
  · rw [hrefused]
    exact fun heq => nomatch heq

theorem Unseeded.report_refused (h : Unseeded s) (p : SlashValidator) :
    (applyEntry env now (.slashValidator p) s).1 ≠ .ok () := by
  have hrun : applyEntry env now (.slashValidator p) s = (applySlashValidator p).run s := rfl
  rw [hrun]
  unfold applySlashValidator
  rw [run_stateGet_bind, h.stateGet_clockStake,
    run_bind_error (by rw [run_ensure]; exact if_neg fun hne => hne rfl)]
  exact fun heq => nomatch heq

/-- The three notions agree in a state that a run reaches exactly when no account on the list
could commit or report if it were let. -/
theorem one_notion_iff (h : Run env s₀ hist s) (h₀ : Unseeded s₀) :
    OneNotion env now s epoch ↔
      (∀ p : VrfCommit, p.committer ∈ registeredClockNodes env s epoch →
        ¬ CommitReady s p) ∧
      ∀ p : SlashValidator, p.reporter ∈ registeredClockNodes env s epoch →
        ¬ ReportReady s p := by
  have hs : Unseeded s := h₀.of_run h
  constructor
  · intro hone
    constructor
    · exact fun p hp hready => hs.commit_refused p (hone.commits p hp hready)
    · exact fun p hp hready => hs.report_refused p (hone.reports p hp hready)
  · rintro ⟨hcommits, hreports⟩
    constructor
    · exact fun p hp hready => absurd hready (hcommits p hp)
    · exact fun p hp hready => absurd hready (hreports p hp)
    · exact fun p _ => hs.commit_refused p
    · exact fun p _ => hs.report_refused p

end Notions

/-! ### A registered clock -/

/-- `ann` can pay the stake of a clock node, and more. -/
def annsChain : Chain := ({} : Chain).setBalance "ann" nativeToken (20 * hunitsPerHone)

def annRegisters : ClockNodeRegister :=
  { nodeId := "ann", stake := 5 * hunitsPerHone, epoch := 0, pubkey := none, signature := none }

def annCommits : VrfCommit :=
  { committer := "ann", commitHash := "00", epoch := 2, nonce := 1, signedBy := "ann",
    signature := none }

/-- `ann` can just pay the stake, and `bob` has the means of a clock node too. -/
def poorChain : Chain :=
  (({} : Chain).setBalance "ann" nativeToken (5 * hunitsPerHone)).setBalance "bob" nativeToken
    (20 * hunitsPerHone)

/-- A node that has nothing left for a deposit is on the list, one that has not registered is
not, and there is no stake to slash: the notions agree. -/
theorem one_notion_of_poor : ∃ hist s, Run .bare poorChain hist s ∧
    registeredClockNodes .bare s 0 = ["ann"] ∧ commitDepositHunits ≤ native s "bob" ∧
    OneNotion .bare 0 s 0 := by
  let e : LedgerEntry := .clockNodeRegister annRegisters
  let s := deductFee .bare e (advance e (applyEntry .bare 0 e poorChain).2)
  have hacc : validateAndApply .bare default e none poorChain = (.ok _, s) :=
    accepted_of_applied rfl (by decide) (by decide)
  have hrun : Run .bare poorChain [⟨e, none⟩] s := .accepted default ⟨e, none⟩ _ .start hacc
  have hlist : registeredClockNodes .bare s 0 = ["ann"] := by decide +kernel
  have hspent : native s "ann" = 0 := by decide +kernel
  refine ⟨_, s, hrun, hlist, by decide +kernel,
    (one_notion_iff hrun ⟨rfl, rfl⟩).2 ⟨?_, ?_⟩⟩
  · -- `ann` cannot cover the deposit
    intro p hp hready
    rw [hlist, List.mem_singleton] at hp
    have hdeposit := hready.deposit
    rw [hp, hspent] at hdeposit
    exact absurd hdeposit (by decide)
  · -- nobody has staked
    intro p _ hready
    have hstakes : s.stakes = ∅ := by decide +kernel
    have hslashable := hready.slashable
    rw [Chain.getStake, hstakes, Kv.get_empty, Option.getD_none] at hslashable
    exact absurd hslashable (by decide)

/-- A node that has registered with a stake is on the list, and the beacon turns it down. -/
theorem registered_clock_cannot_commit : ∃ hist s, Run .bare annsChain hist s ∧
    "ann" ∈ registeredClockNodes .bare s 0 ∧ ¬ OneNotion .bare 0 s 0 := by
  let e : LedgerEntry := .clockNodeRegister annRegisters
  let s := deductFee .bare e (advance e (applyEntry .bare 0 e annsChain).2)
  have hacc : validateAndApply .bare default e none annsChain = (.ok _, s) :=
    accepted_of_applied rfl (by decide) (by decide)
  have hrun : Run .bare annsChain [⟨e, none⟩] s := .accepted default ⟨e, none⟩ _ .start hacc
  have hmem : "ann" ∈ registeredClockNodes .bare s 0 := by decide +kernel
  refine ⟨_, s, hrun, hmem, ?_⟩
  rw [one_notion_iff hrun ⟨rfl, rfl⟩]
  rintro ⟨hcommits, -⟩
  exact hcommits annCommits hmem ⟨by decide, by decide, by decide⟩

end HoneNode.ClockNodes
