import HoneNode.Lib.Trace
import HoneNode.Supply
import HoneNode.Tx.Frame

/-!
# Governance — proposals, votes and what passes

A vote counts once for an account that holds stake when it votes, whatever it holds later.
The window is held against the epoch that the vote itself names, and a proposal is closed by
the first drain past its end, not by the epoch of the chain.

1. **The entries**: a proposal is opened, a vote is counted (`run_propose`, `run_vote`).
2. **The drain**: each proposal past its end is closed with the outcome of its tally, and the
   parameters are those that the passed ones leave in turn (`run_drain`).
3. **Runs** of entries and drains (`tally_sound`), and those in which votes are dated right and
   voters keep their stake (`tally_fair`).
-/

namespace HoneNode.Governance

open Entry Prog Within Trace

/-! ## The drain of the source -/

/-- Two votes are a quorum, and a tie does not pass. -/
def outcome (yes no : ℕ) : String :=
  if wrapAdd yes no < 2 then "no_quorum" else if no < yes then "passed" else "rejected"

/-- Open, and past its end. -/
def overdue (epoch : ℕ) (r : Proposal) : Bool := r.status = "open" && r.votingEndsEpoch < epoch

/-- Finalize the proposals whose voting window has closed. A failure is only logged. -/
def drainGovernanceProposals (env : Env) (nodeId : String) (epoch : ℕ) : Prog {} Unit := do
  let rows ← stateScan .proposal ""
  rows.forM fun row => when (overdue epoch row.2 = true)
    (ignoreErr (applyGovernanceFinalize env ⟨row.2.proposalId,
      outcome row.2.yesVotes row.2.noVotes, row.2.yesVotes, row.2.noVotes, epoch, nodeId⟩))

/-! ## The entries -/

section Entries

variable {env : Env} {s t : Chain}

def voteKey (p : GovernanceVote) : String := s!"{p.proposalId}:{p.voter}"

/-- The record of a proposal that is opened. -/
def opened (p : GovernancePropose) : Proposal :=
  { proposalId := p.proposalId, proposer := p.proposer, title := p.title,
    description := p.description, action := p.action, actionKey := p.actionKey,
    actionValue := p.actionValue, votingEndsEpoch := p.votingEndsEpoch,
    submittedEpoch := p.epoch, yesVotes := 0, noVotes := 0, status := "open",
    finalizedEpoch := none }

/-- The record of a proposal with one more vote. -/
def counted (p : GovernanceVote) (r : Proposal) : Proposal :=
  if p.approve then { r with yesVotes := wrapAdd r.yesVotes 1 }
  else { r with noVotes := wrapAdd r.noVotes 1 }

/-- A vote counts for an open proposal that has not ended by the epoch of the vote, from an
account that holds stake and has not voted on it. -/
structure Counts (s : Chain) (p : GovernanceVote) (r : Proposal) : Prop where
  found : s.stateGet .proposal p.proposalId = some r
  isOpen : r.status = "open"
  inWindow : p.epoch ≤ r.votingEndsEpoch
  staked : 0 < s.getStake p.voter
  first : s.stateGet .proposalVote (voteKey p) = none

/-- What a vote that counts leaves. -/
def voted (s : Chain) (p : GovernanceVote) (r : Proposal) : Chain :=
  (s.stateSet .proposalVote (voteKey p) ⟨p.approve, p.epoch⟩).stateSet .proposal p.proposalId
    (counted p r)

/-- A new id gets a record, or nothing happens. -/
theorem run_propose (p : GovernancePropose) :
    (s.stateGet .proposal p.proposalId = none ∧
      (applyGovernancePropose env p).run s = (.ok (), s.stateSet .proposal p.proposalId (opened p))) ∨
    ∃ msg, (applyGovernancePropose env p).run s = (.error (.err msg), s) := by
  unfold applyGovernancePropose
  rw [run_inspect_bind]
  by_cases hcouncil : p.proposer ∈ governanceKeys env s
  swap
  · exact .inr ⟨_, run_bind_error (by rw [run_ensure, if_neg hcouncil])⟩
  rw [run_ensure_bind hcouncil]
  by_cases hid : p.proposalId ≠ ""
  swap
  · exact .inr ⟨_, run_bind_error (by rw [run_ensure, if_neg hid])⟩
  rw [run_ensure_bind hid, run_stateGet_bind]
  cases hget : s.stateGet .proposal p.proposalId with
  | some r => exact .inr ⟨_, run_bind_error (by rw [run_ensure, if_neg (by simp)])⟩
  | none =>
    refine .inl ⟨rfl, ?_⟩
    rw [run_ensure_bind (by simp)]
    rfl

/-- A vote counts, or nothing happens. -/
theorem run_vote (p : GovernanceVote) :
    (∃ r, Counts s p r ∧ (applyGovernanceVote p).run s = (.ok (), voted s p r)) ∨
      ∃ msg, (applyGovernanceVote p).run s = (.error (.err msg), s) := by
  unfold applyGovernanceVote
  rw [run_stateGet_bind]
  cases hget : s.stateGet .proposal p.proposalId with
  | none => exact .inr ⟨_, run_bind_error (run_orBail_none _ _)⟩
  | some r =>
    rw [run_bind_ok (run_orBail_some _ _ _)]
    by_cases hopen : r.status = "open"
    swap
    · exact .inr ⟨_, run_bind_error (by rw [run_ensure, if_neg hopen])⟩
    rw [run_ensure_bind hopen]
    by_cases hwindow : p.epoch ≤ r.votingEndsEpoch
    swap
    · exact .inr ⟨_, run_bind_error (by rw [run_ensure, if_neg hwindow])⟩
    rw [run_ensure_bind hwindow, run_inspect_bind]
    by_cases hstake : 0 < s.getStake p.voter
    swap
    · exact .inr ⟨_, run_bind_error (by rw [run_ensure, if_neg hstake])⟩
    rw [run_ensure_bind hstake, run_stateGet_bind]
    cases hvote : s.stateGet .proposalVote s!"{p.proposalId}:{p.voter}" with
    | some v => exact .inr ⟨_, run_bind_error (by rw [run_ensure, if_neg (by simp)])⟩
    | none =>
      refine .inl ⟨r, ⟨hget, hopen, hwindow, hstake, hvote⟩, ?_⟩
      rw [run_ensure_bind (by simp), run_stateSet_bind]
      rfl

/-! ## What passes -/

/-- The chain after the action of a proposal. -/
def executed (env : Env) (r : Proposal) (s : Chain) : Chain := ((executeProposal env r).run s).2

/-- The record of a proposal that is closed. -/
def closed (epoch : ℕ) (r : Proposal) : Proposal :=
  { r with status := outcome r.yesVotes r.noVotes, finalizedEpoch := some epoch }

/-- An action changes parameters only, and it looks at parameters only. -/
theorem run_executeProposal (r : Proposal) :
    (executeProposal env r).run s = (.ok (), executed env r s) ∧
      (∀ f, f ≠ .chainParam → (executed env r s).state f = s.state f) ∧
      (t.state .chainParam = s.state .chainParam →
        (executed env r t).state .chainParam = (executed env r s).state .chainParam) := by
  have hkeys : t.state .chainParam = s.state .chainParam →
      governanceKeys env t = governanceKeys env s := by
    intro h
    unfold governanceKeys Chain.param
    rw [stateGet_of_state h]
  have hset : ∀ key v, t.state .chainParam = s.state .chainParam →
      (t.stateSet .chainParam key v).state .chainParam =
        (s.stateSet .chainParam key v).state .chainParam := by
    intro key v h
    simp only [Chain.stateSet, Function.update_self, h]
  have hother : ∀ (u : Chain) key v f, f ≠ .chainParam →
      (u.stateSet .chainParam key v).state f = u.state f := fun u key v f hf =>
    u.state_stateSet_of_ne hf key v
  unfold executed executeProposal
  dsimp only
  rw [run_inspect_bind, run_inspect_bind]
  split
  · exact ⟨rfl, fun _ _ => rfl, id⟩
  split
  · exact ⟨rfl, hother _ _ _, hset _ _⟩
  · rw [run_when, run_when]
    split
    · next hnew =>
      refine ⟨rfl, hother _ _ _, fun h => ?_⟩
      rw [hkeys h, if_pos hnew]
      exact hset _ _ h
    · next hold =>
      refine ⟨rfl, fun _ _ => rfl, fun h => ?_⟩
      rw [hkeys h, if_neg hold]
      exact h
  · refine ⟨rfl, hother _ _ _, fun h => ?_⟩
    rw [hkeys h]
    exact hset _ _ h
  · exact ⟨rfl, fun _ _ => rfl, id⟩

/-- An open proposal is closed, and its action is taken if it passed. -/
theorem run_finalize {p : GovernanceFinalize} {r : Proposal}
    (hget : s.stateGet .proposal p.proposalId = some r) (hopen : r.status = "open") :
    (applyGovernanceFinalize env p).run s = (.ok (),
      (if p.outcome = "passed" then executed env r s else s).stateSet .proposal p.proposalId
        { r with status := p.outcome, yesVotes := p.yesVotes, noVotes := p.noVotes,
                 finalizedEpoch := some p.epoch }) := by
  unfold applyGovernanceFinalize
  rw [run_stateGet_bind, hget, run_bind_ok (run_orBail_some _ _ _),
    run_ensure_bind hopen]
  by_cases hpass : p.outcome = "passed"
  · rw [if_pos hpass, run_bind_ok (by
      rw [run_when, if_pos hpass, (@run_executeProposal env s s r).1])]
    rfl
  · rw [if_neg hpass, run_bind_ok (by rw [run_when, if_neg hpass])]
    rfl

end Entries

/-! ## One scan -/

section Drain

variable {env : Env} {nodeId : String} {epoch : ℕ} {s t : Chain}

/-- Due, and with a quorum in favour. -/
def passes (epoch : ℕ) (r : Proposal) : Bool :=
  overdue epoch r && outcome r.yesVotes r.noVotes = "passed"

/-- What the drain of an epoch makes of a record. -/
def settled (epoch : ℕ) (r : Proposal) : Proposal := if overdue epoch r then closed epoch r else r

theorem open_of_overdue {epoch : ℕ} {r : Proposal} (h : overdue epoch r = true) :
    r.status = "open" := by
  unfold overdue at h
  rw [Bool.and_eq_true] at h
  exact of_decide_eq_true h.1

/-- The actions of the proposals that pass, in turn. -/
def enacted (env : Env) (epoch : ℕ) : List (String × Proposal) → Chain → Chain
  | [], s => s
  | row :: rows, s => enacted env epoch rows (if passes epoch row.2 then executed env row.2 s else s)

theorem enacted_congr (h : t.state .chainParam = s.state .chainParam)
    (rows : List (String × Proposal)) :
    (enacted env epoch rows t).state .chainParam = (enacted env epoch rows s).state .chainParam := by
  induction rows generalizing s t with
  | nil => exact h
  | cons row rows ih =>
    refine ih ?_
    split
    · exact (run_executeProposal row.2).2.2 h
    · exact h

/-- Records are filed under their ids. -/
def Filed (s : Chain) : Prop :=
  ∀ key r, s.stateGet .proposal key = some r → r.proposalId = key

/-- What the drain does to the chain at one row. -/
theorem visit_row {row : String × Proposal} (hid : row.2.proposalId = row.1)
    (hget : t.stateGet .proposal row.1 = some row.2) :
    ∃ u, (when (overdue epoch row.2 = true)
      (ignoreErr (applyGovernanceFinalize env ⟨row.2.proposalId,
        outcome row.2.yesVotes row.2.noVotes, row.2.yesVotes, row.2.noVotes, epoch, nodeId⟩)) :
          Prog {} Unit).run t = (.ok (), u) ∧
      u.stateGet .proposal row.1 = some (settled epoch row.2) ∧
      (∀ k, k ≠ row.1 → u.stateGet .proposal k = t.stateGet .proposal k) ∧
      u.state .chainParam =
        (if passes epoch row.2 then executed env row.2 t else t).state .chainParam ∧
      ∀ f, f ≠ .proposal → f ≠ .chainParam → u.state f = t.state f := by
  have hexec := @run_executeProposal env t t row.2
  unfold passes settled
  rw [run_when]
  by_cases hdue : overdue epoch row.2 = true
  · have hopen : row.2.status = "open" := open_of_overdue hdue
    have hrun := @run_finalize env t ⟨row.2.proposalId, outcome row.2.yesVotes row.2.noVotes,
      row.2.yesVotes, row.2.noVotes, epoch, nodeId⟩ row.2 (by rw [hid]; exact hget) hopen
    dsimp only at hrun
    rw [if_pos hdue, run_ignoreErr, hrun, hid, hdue]
    refine ⟨_, rfl, ?_, ?_, ?_, ?_⟩
    · rw [stateGet_stateSet, if_pos rfl, if_pos rfl, ← hid]
      rfl
    · intro k hk
      rw [stateGet_stateSet, if_neg hk.symm]
      split
      · exact stateGet_of_state (hexec.2.1 _ (by decide)) k
      · rfl
    · rw [state_stateSet_of_ne _ (by decide)]
      simp only [Bool.true_and, decide_eq_true_iff]
    · intro f hf hf'
      rw [state_stateSet_of_ne _ hf]
      split
      · exact hexec.2.1 f hf'
      · rfl
  · rw [if_neg hdue, if_neg hdue, Bool.eq_false_of_not_eq_true hdue]
    exact ⟨t, rfl, hget, fun _ _ => rfl, rfl, fun _ _ _ => rfl⟩

/-- Proposals past their end are closed, passed ones act on the parameters one after the other,
and nothing else happens. -/
theorem run_drain (hfiled : Filed s) :
    ∃ u, (drainGovernanceProposals env nodeId epoch).run s = (.ok (), u) ∧
      (∀ key, u.stateGet .proposal key = (s.stateGet .proposal key).map (settled epoch)) ∧
      u.state .chainParam = (enacted env epoch
        ((s.state .proposal).scan (hasPrefix "")) s).state .chainParam ∧
      ∀ f, f ≠ .proposal → f ≠ .chainParam → u.state f = s.state f := by
  unfold drainGovernanceProposals
  rw [run_stateScan_bind]
  -- the actions still to come lead where all of them lead from `s`
  obtain ⟨u, hrun, ⟨hparam, hother⟩, hrecord⟩ := Supply.run_rows (f := .proposal) (s := s)
    (settled epoch)
    (fun rest t => (enacted env epoch rest t).state .chainParam = (enacted env epoch
        ((s.state .proposal).scan (hasPrefix "")) s).state .chainParam ∧
      ∀ f, f ≠ .proposal → f ≠ .chainParam → t.state f = s.state f)
    (fun row rest t hrow hI hget => by
      obtain ⟨u, hrun, hset, hkeep, hparam, hother⟩ := @visit_row env nodeId epoch t row
        (hfiled _ _ (Kv.mem_scan.1 hrow).1) hget
      refine ⟨u, hrun, ⟨?_, ?_⟩, hset, hkeep⟩
      · rw [← hI.1]
        exact enacted_congr hparam rest
      · exact fun f hf hf' => (hother f hf hf').trans (hI.2 f hf hf'))
    ⟨rfl, fun _ _ _ => rfl⟩
  exact ⟨u, hrun, hrecord, hparam, hother⟩

end Drain

/-! ## Runs -/

/-- The entries that may be submitted. -/
inductive Call where
  | propose (p : GovernancePropose)
  | vote (p : GovernanceVote)
  | finalize (p : GovernanceFinalize)
  | stake (p : Stake)
  | unstake (p : Unstake)
  | transfer (p : Entry.Transfer)

def Call.entry : Call → LedgerEntry
  | .propose p => .governancePropose p
  | .vote p => .governanceVote p
  | .finalize p => .governanceFinalize p
  | .stake p => .stake p
  | .unstake p => .unstake p
  | .transfer p => .transfer p

/-- A submission, and what the seal of an epoch releases and drains. -/
inductive Op where
  | submit (m : Tx.Moment) (c : Call) (sig : Option String)
  | release (epoch : ℕ)
  | drain (nodeId : String) (epoch : ℕ)

def step (env : Env) (s : Chain) : Op → Chain
  | .submit m c sig => (Tx.validateAndApply env m c.entry sig s).2
  | .release epoch => ((drainUnbonding epoch).run s).2
  | .drain nodeId epoch => ((drainGovernanceProposals env nodeId epoch).run s).2

/-- Governance from a chain without proposals on. What else happens leaves its records alone. -/
def council (env : Env) : Component Chain Op where
  init := fun s => s.state .proposal = ∅ ∧ s.state .proposalVote = ∅
  step := step env
  other := fun s s' => s'.state .proposal = s.state .proposal ∧
    s'.state .proposalVote = s.state .proposalVote

/-- The vote that a step accepted. -/
def cast (env : Env) : Chain × Op → Option GovernanceVote
  | (s, .submit m (.vote p) sig) =>
    match (Tx.validateAndApply env m (.governanceVote p) sig s).1 with
    | .ok _ => some p
    | .error _ => none
  | _ => none

/-- The votes of a run on a proposal, the latest first. -/
def votesOn (env : Env) (hist : List (Chain × Op)) (id : String) : List GovernanceVote :=
  (hist.filterMap (cast env)).filter (·.proposalId = id)

/-- The step drains a proposal that is past its end. -/
def Closes (id : String) (c : Chain × Op) : Prop :=
  ∃ nodeId epoch r, c.2 = .drain nodeId epoch ∧ c.1.stateGet .proposal id = some r ∧
    overdue epoch r = true

/-- What a step makes of the record of a proposal: a closed one stays as it is, an open one is
closed by a drain past its end with the outcome of its tally, and stays open otherwise. -/
def Fate (s s' : Chain) (op : Op) : Prop :=
  ∀ id r, s.stateGet .proposal id = some r → ∃ r', s'.stateGet .proposal id = some r' ∧
    (r.status ≠ "open" → r' = r) ∧
    match op with
    | .drain _ epoch => r' = settled epoch r
    | _ => r.status = "open" → r'.status = "open"

/-- A drain leaves the parameters that the actions of the proposals it passes lead to, and
nothing else here changes a parameter. -/
def Acts (env : Env) (s s' : Chain) : Op → Prop
  | .drain _ epoch => s'.state .chainParam =
      (enacted env epoch ((s.state .proposal).scan (hasPrefix "")) s).state .chainParam
  | _ => s'.state .chainParam = s.state .chainParam

/-- Each vote that counts is one of an account with stake, in its window as the vote is dated, and
the tallies count them; a proposal is closed once, with the outcome of its tally, and what it
does is done then. -/
structure Sound (env : Env) (hist : List (Chain × Op)) (s : Chain) : Prop where
  tally : ∀ id r, s.stateGet .proposal id = some r →
    r.yesVotes = (votesOn env hist id).countP (·.approve) % 2 ^ 64 ∧
      r.noVotes = (votesOn env hist id).countP (!·.approve) % 2 ^ 64
  distinct : ∀ id, ((votesOn env hist id).map (·.voter)).Nodup
  recorded : ∀ id, ∀ p ∈ votesOn env hist id,
    s.stateGet .proposalVote s!"{id}:{p.voter}" = some ⟨p.approve, p.epoch⟩
  counts : ∀ c ∈ hist, ∀ p, cast env c = some p → ∃ r, Counts c.1 p r
  fate : ∀ c ∈ hist, Fate c.1 (step env c.1 c.2) c.2
  acts : ∀ c ∈ hist, Acts env c.1 (step env c.1 c.2) c.2
  once : ∀ id later second middle first earlier,
    hist = later ++ second :: (middle ++ first :: earlier) → Closes id first →
      ¬ Closes id second ∧ ∀ p, cast env second = some p → p.proposalId ≠ id

/-! ### One step -/

section Step

variable {env : Env} {s : Chain} {hist : List (Chain × Op)} {m : Tx.Moment} {sig : Option String}

/-- The families of governance, and the parameters. -/
def governed : List Family := [.proposal, .proposalVote, .chainParam]

/-- A submission is accepted with the records its arm leaves, or it is turned down before the
arm or by it. -/
theorem state_submit {e : LedgerEntry} (hplain : Tx.isPlain e = true) :
    (∃ hash t, (Tx.validateAndApply env m e sig s).1 = .ok hash ∧
        applyEntry env m.now e s = (.ok (), t) ∧
        (Tx.validateAndApply env m e sig s).2.state = t.state) ∨
      ∃ fault, (Tx.validateAndApply env m e sig s).1 = .error fault ∧
        ((Tx.validateAndApply env m e sig s).2 = s ∨
          applyEntry env m.now e s = (.error fault, (Tx.validateAndApply env m e sig s).2)) := by
  rcases hrun : Tx.validateAndApply env m e sig s with ⟨fault | hash, t⟩
  · exact .inr ⟨fault, rfl, Tx.rejected_of_plain hplain hrun⟩
  · obtain ⟨t', happ, rfl⟩ := Tx.accepted_of_plain hplain hrun
    refine .inl ⟨hash, t', rfl, happ, ?_⟩
    rw [Tx.state_deductFee, Tx.state_advance]

/-- Where the arm leaves the families of governance alone, so does the submission. -/
theorem keeps_submit {e : LedgerEntry} (hplain : Tx.isPlain e = true)
    (h : ∀ f ∈ governed, (applyEntry env m.now e s).2.state f = s.state f) :
    ∀ f ∈ governed, (Tx.validateAndApply env m e sig s).2.state f = s.state f := by
  intro f hf
  have hf := h f hf
  rcases @state_submit env s m sig e hplain with ⟨hash, t, -, happ, hstate⟩ | ⟨fault, -, hsame | happ⟩
  · rw [happ] at hf
    rw [hstate]
    exact hf
  · rw [hsame]
  · rw [happ] at hf
    exact hf

/-- A vote that is accepted counts, a proposal that is accepted opens a record, and nothing else
that is submitted reaches the records or the parameters. -/
theorem submitted (c : Call) :
    (∃ p r, c = .vote p ∧ cast env (s, .submit m c sig) = some p ∧ Counts s p r ∧
      (step env s (.submit m c sig)).state = (voted s p r).state) ∨
    cast env (s, .submit m c sig) = none ∧
      ((∃ p, c = .propose p ∧ s.stateGet .proposal p.proposalId = none ∧
        (step env s (.submit m c sig)).state =
          (s.stateSet .proposal p.proposalId (opened p)).state) ∨
      ∀ f ∈ governed, (step env s (.submit m c sig)).state f = s.state f) := by
  cases c with
  | propose p =>
    refine .inr ⟨rfl, ?_⟩
    have harm := @run_propose env s p
    have happly : applyEntry env m.now (.governancePropose p) s =
        (applyGovernancePropose env p).run s := rfl
    rcases harm with ⟨hnone, hrun⟩ | ⟨msg, hrun⟩
    · rcases @state_submit env s m sig (.governancePropose p) rfl with
        ⟨hash, t, -, happ, hstate⟩ | ⟨fault, -, hsame | happ⟩
      · rw [happly, hrun] at happ
        cases happ
        exact .inl ⟨p, rfl, hnone, hstate⟩
      · exact .inr fun f _ => congrFun (congrArg Chain.state hsame) f
      · rw [happly, hrun] at happ
        cases happ
    · refine .inr (keeps_submit rfl fun f _ => ?_)
      change (applyEntry env m.now (.governancePropose p) s).2.state f = _
      rw [happly, hrun]
  | vote p =>
    have happly : applyEntry env m.now (.governanceVote p) s = (applyGovernanceVote p).run s := rfl
    rcases @state_submit env s m sig (.governanceVote p) rfl with
      ⟨hash, t, hok, happ, hstate⟩ | ⟨fault, herr, hrest⟩
    · rcases @run_vote s p with ⟨r, hcounts, hrun⟩ | ⟨msg, hrun⟩
      · rw [happly, hrun] at happ
        cases happ
        refine .inl ⟨p, r, rfl, ?_, hcounts, hstate⟩
        simp only [cast, hok]
      · rw [happly, hrun] at happ
        cases happ
    · refine .inr ⟨by simp only [cast, herr], .inr fun f _ => ?_⟩
      rcases hrest with hsame | happ
      · exact congrFun (congrArg Chain.state hsame) f
      · rcases @run_vote s p with ⟨r, -, hrun⟩ | ⟨msg, hrun⟩
        · rw [happly, hrun] at happ
          cases happ
        · rw [happly, hrun] at happ
          exact congrFun (congrArg (fun x => x.2.state) happ).symm f
  | finalize p =>
    refine .inr ⟨rfl, .inr fun f _ => ?_⟩
    have hpre : Tx.preflight env s (.governanceFinalize p) sig ≠ .ok () := by
      intro hpre
      have hcheck := (Tx.preflight_ok_iff.1 hpre).2.2 _ List.mem_cons_self
      cases hcheck
    obtain ⟨msg, hrun⟩ := Tx.validateAndApply_of_preflight_ne m hpre
    exact congrFun (congrArg (fun x => x.2.state) hrun) f
  | stake p =>
    exact .inr ⟨rfl, .inr (keeps_submit rfl fun f hf =>
      keeps_stake (by rintro rfl; revert hf; decide) p s)⟩
  | unstake p =>
    exact .inr ⟨rfl, .inr (keeps_submit rfl fun f hf =>
      keeps_unstake (by rintro rfl; revert hf; decide) (by rintro rfl; revert hf; decide) p s)⟩
  | transfer p =>
    exact .inr ⟨rfl, .inr (keeps_submit rfl fun f hf =>
      state_transfer (by rintro rfl; revert hf; decide) (by rintro rfl; revert hf; decide))⟩

theorem state_release (epoch : ℕ) {f : Family} (hf : f ∈ governed) :
    (step env s (.release epoch)).state f = s.state f := by
  have hkeeps : Keeps (·.state f) (drainUnbonding epoch) := by
    have hne : f ≠ .unbonding := by
      rintro rfl
      revert hf
      decide
    refine keeps_inspect.bind fun rows => Keeps.forM (fun row => keeps_when ?_) rows
    exact (keeps_credit.bind fun _ => keeps_stateDelete hne _ _).ignoreErr
  exact hkeeps s

theorem outcome_ne_open (yes no : ℕ) : outcome yes no ≠ "open" := by
  unfold outcome
  split
  · decide
  split <;> decide

theorem counted_status (p : GovernanceVote) (r : Proposal) :
    (counted p r).status = r.status := by
  unfold counted
  split <;> rfl

theorem counted_id (p : GovernanceVote) (r : Proposal) :
    (counted p r).proposalId = r.proposalId := by
  unfold counted
  split <;> rfl

/-- Records filed under their ids stay so. -/
theorem filed_step (op : Op) (h : Filed s) : Filed (step env s op) := by
  have hsame : ∀ {t : Chain}, t.state .proposal = s.state .proposal → Filed t := by
    intro t ht key r hget
    exact h key r (by rwa [← stateGet_of_state ht])
  cases op with
  | submit m c sig =>
    rcases @submitted env s m sig c with ⟨p, r, -, -, hcounts, hstate⟩ |
      ⟨-, ⟨p, -, -, hstate⟩ | hkeep⟩
    · intro key r' hget
      rw [stateGet_of_state (congrFun hstate _), voted, stateGet_stateSet,
        stateGet_stateSet_of_ne _ (by decide)] at hget
      split at hget
      · next hkey =>
        cases hget
        rw [counted_id, ← hkey]
        exact h _ _ hcounts.found
      · exact h key r' hget
    · intro key r' hget
      rw [stateGet_of_state (congrFun hstate _), stateGet_stateSet] at hget
      split at hget
      · next hkey =>
        cases hget
        exact hkey
      · exact h key r' hget
    · exact hsame (hkeep _ (by decide))
  | release epoch => exact hsame (state_release epoch (by decide))
  | drain nodeId epoch =>
    obtain ⟨u, hrun, hrecord, -, -⟩ := @run_drain env nodeId epoch s h
    intro key r hget
    change ((drainGovernanceProposals env nodeId epoch).run s).2.stateGet .proposal key = some r at hget
    rw [hrun, hrecord] at hget
    obtain ⟨r₀, hget₀, rfl⟩ := Option.map_eq_some_iff.1 hget
    have hid : (settled epoch r₀).proposalId = r₀.proposalId := by
      unfold settled
      split <;> rfl
    rw [hid]
    exact h key r₀ hget₀

theorem fate_step (op : Op) (h : Filed s) : Fate s (step env s op) op := by
  have hsame : ∀ {op : Op}, (∀ nodeId epoch, op ≠ .drain nodeId epoch) →
      (step env s op).state .proposal = s.state .proposal → Fate s (step env s op) op := by
    intro op hop hstate id r hget
    refine ⟨r, (stateGet_of_state hstate id).trans hget, fun _ => rfl, ?_⟩
    cases op with
    | drain nodeId epoch => exact absurd rfl (hop nodeId epoch)
    | submit m c sig => exact fun hopen => hopen
    | release epoch => exact fun hopen => hopen
  cases op with
  | submit m c sig =>
    rcases @submitted env s m sig c with ⟨p, r, -, -, hcounts, hstate⟩ |
      ⟨-, ⟨p, -, hnone, hstate⟩ | hkeep⟩
    · intro id r' hget
      have hafter : (step env s (.submit m c sig)).stateGet .proposal id =
          if p.proposalId = id then some (counted p r) else s.stateGet .proposal id := by
        rw [stateGet_of_state (congrFun hstate _), voted, stateGet_stateSet,
          stateGet_stateSet_of_ne _ (by decide)]
      by_cases hid : p.proposalId = id
      · subst hid
        rw [hcounts.found] at hget
        cases hget
        rw [if_pos rfl] at hafter
        refine ⟨_, hafter, fun hclosed => absurd hcounts.isOpen hclosed, fun hopen => ?_⟩
        rw [counted_status]
        exact hopen
      · rw [if_neg hid] at hafter
        exact ⟨r', hafter.trans hget, fun _ => rfl, fun hopen => hopen⟩
    · intro id r' hget
      refine ⟨r', ?_, fun _ => rfl, fun hopen => hopen⟩
      rw [stateGet_of_state (congrFun hstate _), stateGet_stateSet, if_neg, hget]
      rintro rfl
      rw [hnone] at hget
      cases hget
    · exact hsame nofun (hkeep _ (by decide))
  | release epoch => exact hsame nofun (state_release epoch (by decide))
  | drain nodeId epoch =>
    obtain ⟨u, hrun, hrecord, -, -⟩ := @run_drain env nodeId epoch s h
    intro id r hget
    refine ⟨settled epoch r, ?_, ?_, rfl⟩
    · change ((drainGovernanceProposals env nodeId epoch).run s).2.stateGet .proposal id = _
      rw [hrun, hrecord, hget]
      rfl
    · intro hclosed
      unfold settled
      rw [if_neg fun hdue => hclosed (open_of_overdue hdue)]

theorem acts_step (op : Op) (h : Filed s) : Acts env s (step env s op) op := by
  cases op with
  | submit m c sig =>
    rcases @submitted env s m sig c with ⟨p, r, -, -, -, hstate⟩ | ⟨-, ⟨p, -, -, hstate⟩ | hkeep⟩
    · refine (congrFun hstate _).trans ?_
      rw [voted, state_stateSet_of_ne _ (by decide), state_stateSet_of_ne _ (by decide)]
    · refine (congrFun hstate _).trans ?_
      rw [state_stateSet_of_ne _ (by decide)]
    · exact hkeep _ (by decide)
  | release epoch => exact state_release epoch (by decide)
  | drain nodeId epoch =>
    obtain ⟨u, hrun, -, hparam, -⟩ := @run_drain env nodeId epoch s h
    change ((drainGovernanceProposals env nodeId epoch).run s).2.state .chainParam = _
    rw [hrun]
    exact hparam

theorem counts_of_cast {op : Op} {p : GovernanceVote} (h : cast env (s, op) = some p) :
    ∃ r, Counts s p r ∧ (step env s op).state = (voted s p r).state := by
  cases op with
  | submit m c sig =>
    rcases @submitted env s m sig c with ⟨q, r, -, hcast, hcounts, hstate⟩ | ⟨hnone, -⟩
    · rw [h] at hcast
      cases hcast
      exact ⟨r, hcounts, hstate⟩
    · rw [h] at hnone
      cases hnone
  | release epoch => cases h
  | drain nodeId epoch => cases h

end Step

/-! ### Tallies -/

section Tallies

variable {env : Env} {s s' : Chain} {hist : List (Chain × Op)} {op : Op}

/-- The votes of a run, the latest first. -/
def allVotes (env : Env) (hist : List (Chain × Op)) : List GovernanceVote :=
  hist.filterMap (cast env)

/-- The tallies and the records of votes are those of the votes so far. -/
structure Tallied (env : Env) (hist : List (Chain × Op)) (s : Chain) : Prop where
  filed : Filed s
  tally : ∀ id r, s.stateGet .proposal id = some r →
    r.yesVotes = (votesOn env hist id).countP (·.approve) % 2 ^ 64 ∧
      r.noVotes = (votesOn env hist id).countP (!·.approve) % 2 ^ 64
  unknown : ∀ id, s.stateGet .proposal id = none → votesOn env hist id = []
  recorded : ∀ p ∈ allVotes env hist,
    s.stateGet .proposalVote (voteKey p) = some ⟨p.approve, p.epoch⟩
  keys : ((allVotes env hist).map voteKey).Nodup

theorem votesOn_cons_none (h : cast env (s, op) = none) (id : String) :
    votesOn env ((s, op) :: hist) id = votesOn env hist id := by
  unfold votesOn
  rw [List.filterMap_cons_none h]

theorem votesOn_cons_some {p : GovernanceVote} (h : cast env (s, op) = some p) (id : String) :
    votesOn env ((s, op) :: hist) id =
      if p.proposalId = id then p :: votesOn env hist id else votesOn env hist id := by
  unfold votesOn
  rw [List.filterMap_cons_some h, List.filter_cons]
  simp only [decide_eq_true_iff]

/-- Records as they were, and no vote. -/
theorem Tallied.of_same (h : Tallied env hist s) (hprop : s'.state .proposal = s.state .proposal)
    (hvote : s'.state .proposalVote = s.state .proposalVote) : Tallied env hist s' where
  filed := fun key r hget => h.filed key r (by rwa [← stateGet_of_state hprop])
  tally := fun id r hget => h.tally id r (by rwa [← stateGet_of_state hprop])
  unknown := fun id hget => h.unknown id (by rwa [← stateGet_of_state hprop])
  recorded := fun p hp => (stateGet_of_state hvote _).trans (h.recorded p hp)
  keys := h.keys

theorem Tallied.cons_none (h : Tallied env hist s') (hcast : cast env (s, op) = none) :
    Tallied env ((s, op) :: hist) s' where
  filed := h.filed
  tally := fun id r hget => by
    rw [votesOn_cons_none hcast]
    exact h.tally id r hget
  unknown := fun id hget => (votesOn_cons_none hcast id).trans (h.unknown id hget)
  recorded := by
    unfold allVotes
    rw [List.filterMap_cons_none hcast]
    exact h.recorded
  keys := by
    unfold allVotes
    rw [List.filterMap_cons_none hcast]
    exact h.keys

/-- A vote that counts adds itself to the tally. -/
theorem Tallied.vote {p : GovernanceVote} {r : Proposal} (h : Tallied env hist s)
    (hcast : cast env (s, op) = some p) (hcounts : Counts s p r)
    (hstate : s'.state = (voted s p r).state) (hfiled : Filed s') :
    Tallied env ((s, op) :: hist) s' := by
  have hget : ∀ id, s'.stateGet .proposal id =
      if p.proposalId = id then some (counted p r) else s.stateGet .proposal id := by
    intro id
    rw [stateGet_of_state (congrFun hstate _), voted, stateGet_stateSet,
      stateGet_stateSet_of_ne _ (by decide)]
  have hvote : ∀ key, s'.stateGet .proposalVote key =
      if voteKey p = key then some ⟨p.approve, p.epoch⟩ else s.stateGet .proposalVote key := by
    intro key
    rw [stateGet_of_state (congrFun hstate _), voted,
      stateGet_stateSet_of_ne _ (by decide), stateGet_stateSet]
  have hfresh : ∀ q ∈ allVotes env hist, voteKey p ≠ voteKey q := by
    intro q hq heq
    have hrec := h.recorded q hq
    rw [← heq, hcounts.first] at hrec
    cases hrec
  refine ⟨hfiled, ?_, ?_, ?_, ?_⟩
  · intro id r' hr'
    rw [hget] at hr'
    rw [votesOn_cons_some hcast]
    by_cases hid : p.proposalId = id
    · subst hid
      rw [if_pos rfl] at hr' ⊢
      cases hr'
      obtain ⟨hyes, hno⟩ := h.tally _ _ hcounts.found
      unfold counted
      rw [List.countP_cons, List.countP_cons]
      cases happrove : p.approve with
      | true =>
        rw [if_pos rfl, if_pos rfl, if_neg (by decide)]
        refine ⟨?_, hno⟩
        dsimp only
        rw [hyes]
        unfold wrapAdd
        omega
      | false =>
        rw [if_neg (by decide), if_neg (by decide), if_pos Bool.not_false]
        refine ⟨hyes, ?_⟩
        dsimp only
        rw [hno]
        unfold wrapAdd
        omega
    · rw [if_neg hid] at hr' ⊢
      exact h.tally id r' hr'
  · intro id hnone
    rw [hget] at hnone
    rw [votesOn_cons_some hcast]
    by_cases hid : p.proposalId = id
    · rw [if_pos hid] at hnone
      cases hnone
    · rw [if_neg hid] at hnone ⊢
      exact h.unknown id hnone
  · intro q hq
    unfold allVotes at hq
    rw [List.filterMap_cons_some hcast] at hq
    rw [hvote]
    rcases List.mem_cons.1 hq with rfl | hq
    · rw [if_pos rfl]
    · rw [if_neg (hfresh q hq)]
      exact h.recorded q hq
  · unfold allVotes
    rw [List.filterMap_cons_some hcast, List.map_cons, List.nodup_cons]
    refine ⟨?_, h.keys⟩
    intro hmem
    obtain ⟨q, hq, heq⟩ := List.mem_map.1 hmem
    exact hfresh q hq heq.symm

/-- A proposal that is opened has no votes yet. -/
theorem Tallied.propose {p : GovernancePropose} (h : Tallied env hist s)
    (hnone : s.stateGet .proposal p.proposalId = none)
    (hstate : s'.state = (s.stateSet .proposal p.proposalId (opened p)).state)
    (hfiled : Filed s') : Tallied env hist s' := by
  have hget : ∀ id, s'.stateGet .proposal id =
      if p.proposalId = id then some (opened p) else s.stateGet .proposal id := by
    intro id
    rw [stateGet_of_state (congrFun hstate _), stateGet_stateSet]
  refine ⟨hfiled, ?_, ?_, ?_, h.keys⟩
  · intro id r hr
    rw [hget] at hr
    split at hr
    · next hid =>
      cases hr
      rw [← hid, h.unknown _ hnone]
      exact ⟨rfl, rfl⟩
    · exact h.tally id r hr
  · intro id hr
    rw [hget] at hr
    split at hr
    · cases hr
    · exact h.unknown id hr
  · intro q hq
    rw [stateGet_of_state (congrFun hstate _), stateGet_stateSet_of_ne _ (by decide)]
    exact h.recorded q hq

/-- A drain leaves the tallies. -/
theorem Tallied.drain {nodeId : String} {epoch : ℕ} (h : Tallied env hist s) :
    Tallied env hist (step env s (.drain nodeId epoch)) := by
  obtain ⟨u, hrun, hrecord, -, hother⟩ := @run_drain env nodeId epoch s h.filed
  have hstep : step env s (.drain nodeId epoch) = u := congrArg Prod.snd hrun
  have hfiled := @filed_step env s (.drain nodeId epoch) h.filed
  rw [hstep] at hfiled ⊢
  refine ⟨hfiled, ?_, ?_, ?_, h.keys⟩
  · intro id r hget
    rw [hrecord] at hget
    obtain ⟨r₀, hget₀, rfl⟩ := Option.map_eq_some_iff.1 hget
    have hsame : (settled epoch r₀).yesVotes = r₀.yesVotes ∧
        (settled epoch r₀).noVotes = r₀.noVotes := by
      unfold settled
      split <;> exact ⟨rfl, rfl⟩
    rw [hsame.1, hsame.2]
    exact h.tally id r₀ hget₀
  · intro id hget
    rw [hrecord] at hget
    exact h.unknown id (Option.map_eq_none_iff.1 hget)
  · intro q hq
    rw [stateGet_of_state (hother _ (by decide) (by decide))]
    exact h.recorded q hq

theorem tallied_run {P : Chain → Op → Prop} (h : Run (council env) P hist s) :
    Tallied env hist s := by
  induction h with
  | @start s h =>
    obtain ⟨hprop, hvote⟩ := h
    have hnone : ∀ id, s.stateGet .proposal id = none := by
      intro id
      unfold Chain.stateGet
      rw [hprop]
      rfl
    refine ⟨?_, ?_, fun _ _ => rfl, nofun, List.nodup_nil⟩
    · intro key r hget
      rw [hnone] at hget
      cases hget
    · intro id r hget
      rw [hnone] at hget
      cases hget
  | @step hist s op hrun hop ih =>
    have hfiled := @filed_step env s op ih.filed
    change Tallied env ((s, op) :: hist) (step env s op)
    cases op with
    | submit m c sig =>
      rcases @submitted env s m sig c with ⟨p, r, -, hcast, hcounts, hstate⟩ |
        ⟨hcast, ⟨p, -, hnone, hstate⟩ | hkeep⟩
      · exact ih.vote hcast hcounts hstate hfiled
      · exact (ih.propose hnone hstate hfiled).cons_none hcast
      · exact (ih.of_same (hkeep _ (by decide)) (hkeep _ (by decide))).cons_none hcast
    | release epoch =>
      exact (ih.of_same (state_release epoch (by decide)) (state_release epoch (by decide))).cons_none
        rfl
    | drain nodeId epoch => exact ih.drain.cons_none rfl
  | other _ hs ih => exact ih.of_same hs.1 hs.2

/-- Once closed, a proposal has a record that is not open. -/
theorem closed_run {P : Chain → Op → Prop} {id : String} (h : Run (council env) P hist s)
    (hclosed : ∃ c ∈ hist, Closes id c) :
    ∃ r, s.stateGet .proposal id = some r ∧ r.status ≠ "open" := by
  induction h with
  | start => obtain ⟨c, hc, -⟩ := hclosed; cases hc
  | @step hist s op hrun hop ih =>
    have hfate := @fate_step env s op (tallied_run hrun).filed
    change ∃ r, (step env s op).stateGet .proposal id = some r ∧ r.status ≠ "open"
    obtain ⟨c, hc, hcloses⟩ := hclosed
    rcases List.mem_cons.1 hc with rfl | hc
    · obtain ⟨nodeId, epoch, r, hdrain, hget, hdue⟩ := hcloses
      dsimp only at hdrain hget
      subst hdrain
      obtain ⟨r', hget', -, rfl⟩ := hfate id r hget
      refine ⟨_, hget', ?_⟩
      unfold settled
      rw [if_pos hdue]
      exact outcome_ne_open _ _
    · obtain ⟨r, hget, hnot⟩ := ih ⟨c, hc, hcloses⟩
      obtain ⟨r', hget', hsame, -⟩ := hfate id r hget
      refine ⟨r', hget', ?_⟩
      rw [hsame hnot]
      exact hnot
  | other _ hs ih =>
    obtain ⟨r, hget, hnot⟩ := ih hclosed
    exact ⟨r, (stateGet_of_state hs.1 id).trans hget, hnot⟩

end Tallies

/-! ### The result -/

/-- In every run of submissions, releases and drains the tallies are sound. -/
theorem tally_sound {env : Env} {hist : List (Chain × Op)} {s : Chain}
    (h : Run (council env) (fun _ _ => True) hist s) : Sound env hist s := by
  have htallied := tallied_run h
  have hreached : ∀ c ∈ hist, Filed c.1 := by
    rintro ⟨t, op⟩ hc
    obtain ⟨-, before, hrun⟩ := h.of_mem hc
    exact (tallied_run hrun).filed
  refine ⟨htallied.tally, ?_, ?_, ?_, ?_, ?_, ?_⟩
  · intro id
    -- voters of one proposal have as many keys as names
    have hsub : ((votesOn env hist id).map voteKey).Nodup :=
      htallied.keys.sublist ((List.filter_sublist).map voteKey)
    have hkeys : (votesOn env hist id).map voteKey =
        ((votesOn env hist id).map (·.voter)).map fun v => s!"{id}:{v}" := by
      rw [List.map_map]
      refine List.map_congr_left fun p hp => ?_
      have hid := of_decide_eq_true (List.mem_filter.1 hp).2
      rw [← hid]
      rfl
    rw [hkeys] at hsub
    exact hsub.of_map _
  · intro id p hp
    obtain ⟨hmem, hid⟩ := List.mem_filter.1 hp
    have hid := of_decide_eq_true hid
    rw [← hid]
    exact htallied.recorded p hmem
  · rintro ⟨t, op⟩ - p hcast
    obtain ⟨r, hcounts, -⟩ := counts_of_cast hcast
    exact ⟨r, hcounts⟩
  · rintro ⟨t, op⟩ hc
    exact fate_step op (hreached _ hc)
  · rintro ⟨t, op⟩ hc
    exact acts_step op (hreached _ hc)
  · rintro id later ⟨t, op⟩ middle first earlier rfl hfirst
    obtain ⟨hrun, -⟩ := h.cut
    obtain ⟨r, hget, hnot⟩ := closed_run hrun
      ⟨first, List.mem_append_right _ List.mem_cons_self, hfirst⟩
    constructor
    · rintro ⟨nodeId, epoch, r', -, hget', hdue⟩
      rw [hget] at hget'
      cases hget'
      exact hnot (open_of_overdue hdue)
    · rintro p hcast rfl
      obtain ⟨r', hcounts, -⟩ := counts_of_cast hcast
      rw [hcounts.found] at hget
      cases hget
      exact hnot hcounts.isOpen

/-! ### Votes in time, and stakes that stay -/

/-- The same, where nothing else that happens lowers a stake. -/
def chamber (env : Env) : Component Chain Op :=
  { council env with
    other := fun s s' => (council env).other s s' ∧ ∀ a, s.getStake a ≤ s'.getStake a }

/-- A vote is dated no earlier than the epoch of the chain and finds room in the counters, and
nobody unstakes who has a vote on an open proposal. -/
def Timely (s : Chain) : Op → Prop
  | .submit _ (.vote p) _ => s.currentEpoch ≤ p.epoch ∧
      ∀ r ∈ s.stateGet .proposal p.proposalId, r.yesVotes < u64Max ∧ r.noVotes < u64Max
  | .submit _ (.unstake p) _ => ∀ id r, s.stateGet .proposal id = some r → r.status = "open" →
      s.stateGet .proposalVote s!"{id}:{p.account}" = none
  | _ => True

/-- Beyond `Sound`, the tallies are the number of voters, no vote was counted after the window,
and at each vote everybody who had voted on the proposal before was another account and still
held what it had voted with. -/
structure Fair (env : Env) (hist : List (Chain × Op)) (s : Chain) : Prop
    extends Sound env hist s where
  voters : ∀ id r, s.stateGet .proposal id = some r →
    r.yesVotes + r.noVotes = (votesOn env hist id).length
  inTime : ∀ c ∈ hist, ∀ p, cast env c = some p →
    ∃ r, Counts c.1 p r ∧ c.1.currentEpoch ≤ r.votingEndsEpoch
  backed : ∀ later c earlier q, hist = later ++ c :: earlier → cast env c = some q →
    ∀ d ∈ earlier, ∀ p, cast env d = some p → p.proposalId = q.proposalId →
      p.voter ≠ q.voter ∧ d.1.getStake p.voter ≤ c.1.getStake p.voter

section Fair

variable {env : Env} {s : Chain} {hist : List (Chain × Op)} {op : Op}

theorem council_of_chamber {P : Chain → Op → Prop} (h : Run (chamber env) P hist s) :
    Run (council env) P hist s := by
  induction h with
  | start h => exact .start h
  | step op _ hop ih => exact .step op ih hop
  | other _ hs ih => exact .other ih hs.1

theorem timely_of_cast {p : GovernanceVote} (hop : Timely s op)
    (h : cast env (s, op) = some p) : s.currentEpoch ≤ p.epoch ∧
      ∀ r ∈ s.stateGet .proposal p.proposalId, r.yesVotes < u64Max ∧ r.noVotes < u64Max := by
  cases op with
  | submit m c sig =>
    rcases @submitted env s m sig c with ⟨q, r, rfl, hcast, -⟩ | ⟨hnone, -⟩
    · rw [h] at hcast
      cases hcast
      exact hop
    · rw [h] at hnone
      cases hnone
  | release epoch => cases h
  | drain nodeId epoch => cases h

/-- Only an `Unstake` lowers a stake, and only that of its account. -/
theorem stake_step {a : String}
    (h : ∀ m p sig, op = .submit m (.unstake p) sig → p.account ≠ a) :
    s.getStake a ≤ (step env s op).getStake a := by
  cases op with
  | submit m c sig =>
    refine (Tx.validateAndApply_permits env s m c.entry sig).stake a ?_
    cases c with
    | unstake p => exact fun hmem => h m p sig rfl (Set.mem_singleton_iff.1 hmem).symm
    | propose p => exact Set.notMem_empty a
    | vote p => exact Set.notMem_empty a
    | finalize p => exact Set.notMem_empty a
    | stake p => exact Set.notMem_empty a
    | transfer p => exact Set.notMem_empty a
  | release epoch => exact ((drainUnbonding epoch).within s).stake a (Set.notMem_empty a)
  | drain nodeId epoch =>
    exact ((drainGovernanceProposals env nodeId epoch).within s).stake a (Set.notMem_empty a)

/-- While a proposal is open, whoever has voted on it holds what it voted with. -/
theorem held_run (h : Run (chamber env) Timely hist s) :
    ∀ id r, s.stateGet .proposal id = some r → r.status = "open" →
      ∀ d ∈ hist, ∀ p, cast env d = some p → p.proposalId = id →
        d.1.getStake p.voter ≤ s.getStake p.voter := by
  induction h with
  | start => exact fun _ _ _ _ d hd => absurd hd (List.not_mem_nil)
  | @step hist s op hrun hop ih =>
    have htallied := tallied_run (council_of_chamber hrun)
    intro id r' hget' hopen' d hd p hcast hid
    rcases List.mem_cons.1 hd with rfl | hd
    · -- the vote of this step lowers no stake
      refine stake_step fun m q sig heq => ?_
      subst heq
      cases hcast
    · have hmem : p ∈ allVotes env hist := List.mem_filterMap.2 ⟨d, hd, hcast⟩
      have hvote : p ∈ votesOn env hist id := List.mem_filter.2 ⟨hmem, decide_eq_true hid⟩
      -- the proposal was open before
      obtain ⟨r, hget, hopen⟩ : ∃ r, s.stateGet .proposal id = some r ∧ r.status = "open" := by
        cases hget : s.stateGet .proposal id with
        | none =>
          rw [htallied.unknown id hget] at hvote
          cases hvote
        | some r =>
          refine ⟨r, rfl, ?_⟩
          by_contra hclosed
          have hfate : Fate s (step env s op) op := fate_step op htallied.filed
          obtain ⟨r'', hget'', hsame, -⟩ := hfate id r hget
          have heq : r' = r'' := Option.some.inj (hget'.symm.trans hget'')
          rw [heq, hsame hclosed] at hopen'
          exact hclosed hopen'
      refine (ih id r hget hopen d hd p hcast hid).trans (stake_step fun m q sig heq hq => ?_)
      subst heq
      have hnone := hop id r hget hopen
      rw [hq, ← hid] at hnone
      have hrecorded := htallied.recorded p hmem
      have hkey : voteKey p = s!"{p.proposalId}:{p.voter}" := rfl
      rw [hkey, hnone] at hrecorded
      cases hrecorded
  | @other hist s s' hrun hs ih =>
    intro id r hget hopen d hd p hcast hid
    have hsame : s'.state .proposal = s.state .proposal := hs.1.1
    rw [stateGet_of_state hsame] at hget
    exact (ih id r hget hopen d hd p hcast hid).trans (hs.2 _)

/-- Neither counter has wrapped. -/
theorem room_run (h : Run (chamber env) Timely hist s) (id : String) :
    (votesOn env hist id).countP (·.approve) < 2 ^ 64 ∧
      (votesOn env hist id).countP (!·.approve) < 2 ^ 64 := by
  induction h with
  | start => exact ⟨Nat.two_pow_pos 64, Nat.two_pow_pos 64⟩
  | @step hist s op hrun hop ih =>
    cases hcast : cast env (s, op) with
    | none =>
      rw [votesOn_cons_none hcast]
      exact ih
    | some p =>
      rw [votesOn_cons_some hcast]
      split
      · next hid =>
        obtain ⟨r, hcounts, -⟩ := counts_of_cast hcast
        obtain ⟨hyes, hno⟩ := (tallied_run (council_of_chamber hrun)).tally _ _ hcounts.found
        have hroom := (timely_of_cast hop hcast).2 r hcounts.found
        rw [hid, Nat.mod_eq_of_lt ih.1] at hyes
        rw [hid, Nat.mod_eq_of_lt ih.2] at hno
        rw [hyes, hno, u64Max] at hroom
        have hone : ∀ b : Bool, (if b = true then 1 else 0) ≤ 1 := by decide
        have hfirst := hone p.approve
        have hsecond := hone !p.approve
        rw [List.countP_cons, List.countP_cons]
        constructor <;> omega
      · exact ih
  | other _ _ ih => exact ih

/-- Where votes are dated right and voters keep their stake, the tallies are fair. -/
theorem tally_fair (h : Run (chamber env) Timely hist s) : Fair env hist s := by
  have hsound := tally_sound ((council_of_chamber h).mono fun _ _ _ => trivial)
  refine { hsound with voters := ?_, inTime := ?_, backed := ?_ }
  · intro id r hget
    obtain ⟨hyes, hno⟩ := hsound.tally id r hget
    obtain ⟨hroom, hroom'⟩ := room_run h id
    rw [hyes, hno, Nat.mod_eq_of_lt hroom, Nat.mod_eq_of_lt hroom',
      List.length_eq_countP_add_countP (·.approve)]
    simp only [Bool.not_eq_true, Bool.decide_eq_false]
  · rintro ⟨t, op⟩ hc p hcast
    obtain ⟨r, hcounts, -⟩ := counts_of_cast hcast
    have hdated := (timely_of_cast (h.of_mem hc).1 hcast).1
    exact ⟨r, hcounts, hdated.trans hcounts.inWindow⟩
  · rintro later ⟨t, op⟩ earlier q rfl hcast d hd p hp hid
    obtain ⟨hrun, hop⟩ := h.cut
    obtain ⟨r, hcounts, -⟩ := counts_of_cast hcast
    refine ⟨fun heq => ?_, held_run hrun q.proposalId r hcounts.found hcounts.isOpen d hd p hp hid⟩
    -- a second vote of the same account finds the record of the first
    have hrecorded := (tallied_run (council_of_chamber hrun)).recorded p (List.mem_filterMap.2 ⟨d, hd, hp⟩)
    have hkey : voteKey p = voteKey q := by
      unfold voteKey
      rw [hid, heq]
    rw [hkey, hcounts.first] at hrecorded
    cases hrecorded

end Fair

/-! ### A proposal of josh's -/

def hundred : ℕ := 100 * hunitsPerHone

/-- The vote of bob, signed with his posting key. -/
def bobSigned : Env.Signed where
  key := [
    253, 23, 36, 56, 90, 160, 199, 91, 100, 251, 120, 205, 96, 47, 161, 217, 145, 253, 235, 247,
    107, 19, 197, 142, 215, 2, 234, 200, 53, 233, 246, 24]
  message := "\x7b\"chain_id\":\"hone\",\"entry\":\"\x7b\\\"type\\\":\\\"GOVERNANCE_VOTE\\\","
    ++ "\\\"proposal_id\\\":\\\"prop\\\",\\\"voter\\\":\\\"bob\\\",\\\"approve\\\":true,"
    ++ "\\\"epoch\\\":12,\\\"nonce\\\":2,\\\"signed_by\\\":\\\"bob\\\"\x7d\"\x7d"
  sig := [
    134, 250, 5, 142, 128, 183, 211, 114, 97, 246, 229, 151, 61, 73, 200, 32, 112, 111, 219, 124,
    26, 44, 198, 130, 15, 85, 249, 91, 198, 115, 94, 237, 24, 120, 3, 121, 168, 18, 127, 207, 193,
    66, 70, 162, 184, 86, 110, 35, 118, 133, 10, 188, 137, 65, 100, 51, 4, 169, 145, 225, 240, 86,
    17, 7]

/-- A node that prints the vote of bob as it is signed. -/
def ballotEnv : Env := { Env.accepting [bobSigned] with printJson := fun _ => bobSigned.message }

/-- All three can pay fees, and alice has a stake. -/
def staked : Chain :=
  let keys := Kv.empty.put "posting" (hexEncode bobSigned.key)
  let bob : Account := { accountId := "bob", createdEpoch := 0, keys := keys }
  let funded := ((({} : Chain).setBalance "josh" nativeToken hunitsPerHone).setBalance "alice"
    nativeToken hunitsPerHone).setBalance "bob" nativeToken hunitsPerHone
  { funded.setAccount "bob" bob with
    stakes := Kv.empty.put "alice" hundred
    currentEpoch := 1 }

def proposed : Op :=
  .submit default (.propose ⟨"prop", "josh", "title", "text", "param_set", some "knob", some "9",
    20, 1, "josh", none⟩) none

def aliceVotes (epoch : ℕ) : Op :=
  .submit default (.vote ⟨"prop", "alice", true, epoch, 1, "alice", none⟩) none

def bobVotes : Op :=
  .submit default (.vote ⟨"prop", "bob", true, 12, 2, "bob", none⟩)
    (some (hexEncode bobSigned.sig))

/-- The stake of alice goes to bob. -/
def handedOver : List Op :=
  [.submit default (.unstake ⟨"alice", hundred, 1, 1, "alice"⟩) none, .release 11,
    .submit default (.transfer ⟨"alice", "bob", hundred, nativeToken, none, 12, "alice", 1, none⟩)
      none, .submit default (.stake ⟨"bob", hundred, 12, 1, "bob"⟩) none]

/-- One vote of each is a quorum, and the parameter is set when the window is over. -/
theorem tally_fair_passed :
    let ops := [proposed, .submit default (.stake ⟨"bob", 5, 12, 1, "bob"⟩) none, aliceVotes 1,
      bobVotes, .drain "node" 20, .drain "node" 21]
    let s := (chamber ballotEnv).exec staked ops
    ((∃ r ∈ s.stateGet .proposal "prop", r.yesVotes = 2 ∧ r.status = "passed" ∧
      r.finalizedEpoch = some 21) ∧ s.param "knob" = some "9") ∧
      Fair ballotEnv ((chamber ballotEnv).record staked ops []) s := by
  intro ops s
  refine ⟨by decide +kernel, ?_⟩
  have hstart : (chamber ballotEnv).init staked := ⟨rfl, rfl⟩
  refine tally_fair ((Run.start hstart).exec ⟨trivial, trivial, ?_, ?_, trivial, trivial, trivial⟩)
  · exact ⟨by decide +kernel, by decide +kernel⟩
  · exact ⟨by decide +kernel, by decide +kernel⟩

/-- A vote dated 20 counts while the chain is at 21 and the window ended with 20; and the only
hundred there is in stakes backs two votes. -/
theorem late_vote_and_stake_counted_twice :
    let opened := (council ballotEnv).exec staked [proposed]
    let late := { opened with currentEpoch := 21 }
    let voted := (council ballotEnv).exec staked [proposed, aliceVotes 1]
    let moved := (council ballotEnv).exec voted handedOver
    (∃ r ∈ late.stateGet .proposal "prop", r.yesVotes = 0 ∧ r.votingEndsEpoch < late.currentEpoch) ∧
      (∃ r ∈ (step ballotEnv late (aliceVotes 20)).stateGet .proposal "prop", r.yesVotes = 1) ∧
      (opened.getStake "alice" = hundred ∧ opened.getStake "bob" = 0 ∧
        opened.getBalance "bob" nativeToken < hundred) ∧
      (moved.getStake "alice" = 0 ∧ moved.getStake "bob" = hundred) ∧
      ∃ r ∈ (step ballotEnv moved bobVotes).stateGet .proposal "prop", r.yesVotes = 2 := by
  decide +kernel

end HoneNode.Governance
