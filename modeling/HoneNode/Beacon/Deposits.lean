import HoneNode.Beacon.Rounds

/-!
# Beacon.Deposits — where the deposit of a commit goes

A commit holds a deposit until its reveal returns it or the sweep takes it for
the recycle fund. Both set one flag, but the reveal does not look at it: a
secret that is revealed after the sweep is paid for a second time. Where no
reveal comes so late, balances and deposits together stay what they were.
-/

namespace HoneNode.Beacon

open Entry Prog Within Trace

/-- Native balances and the deposits of commits that are still held. -/
def money (s : Chain) : ℕ := s.nativeBalances + s.escrowOf .vrfRound

/-- The commit that a reveal opens belongs to a round that is finalised. -/
def TooLate (env : Env) (round : VrfRound) (p : VrfReveal) : Prop :=
  round.finalised = true ∧
    ∃ c ∈ round.commits.find? (·.committer = p.committer), Opens env p c

/-- A reveal comes before its round is swept, or has nothing to open. -/
def InTime (env : Env) (s : Chain) : BeaconOp → Prop
  | .reveal p => ∀ round ∈ s.stateGet .vrfRound (vrfRoundKey p.epoch), ¬ TooLate env round p
  | _ => True

instance (env : Env) (round : VrfRound) (p : VrfReveal) : Decidable (TooLate env round p) :=
  inferInstanceAs (Decidable (_ ∧ ∃ c ∈ round.commits.find? _, _))

instance (env : Env) (s : Chain) : (op : BeaconOp) → Decidable (InTime env s op)
  | .commit _ => inferInstanceAs (Decidable True)
  | .reveal p => inferInstanceAs (Decidable
      (∀ round ∈ s.stateGet .vrfRound (vrfRoundKey p.epoch), _))
  | .sweep _ => inferInstanceAs (Decidable True)

/-- In an open round the deposits that are gone are those of the secrets that are known. -/
def Kept (s : Chain) : Prop :=
  ∀ key round, s.stateGet .vrfRound key = some round → round.finalised = false →
    ∀ c ∈ round.commits, c.depositRefunded = c.revealedSecret.isSome

section Calls

variable {env : Env} {s s' : Chain}

/-! ## One call -/

theorem touch_apply (op : BeaconOp) :
    Touch {.vrfRound, .vrfLatestBeacon} s (op.apply env s) := by
  have hround : Family.vrfRound ∈ ({.vrfRound, .vrfLatestBeacon} : Set Family) := by simp
  have hlatest : Family.vrfLatestBeacon ∈ ({.vrfRound, .vrfLatestBeacon} : Set Family) := by simp
  have hfinal : ∀ (W : Footprint) (round : VrfRound) (epoch : ℕ), Along
      (Touch {.vrfRound, .vrfLatestBeacon}) (finaliseRound env round epoch : Prog W VrfRound) :=
    fun _ _ _ => (touches_stateSet hlatest _ _ _).bind fun _ => touches_logPrefix.bind fun _ =>
      along_pure _
  cases op with
  | commit p =>
    refine Along.bind along_inspect (fun _ => ?_) s
    refine touches_ensure.bind fun _ => along_inspect.bind fun _ => ?_
    exact touches_ensure.bind fun _ => touches_ensure.bind fun _ => (touches_debit _).bind fun _ =>
      touches_stateSet hround _ _ _
  | reveal p =>
    refine Along.bind along_inspect (fun _ => ?_) s
    refine touches_orBail.bind fun _ => touches_orBail.bind fun _ => touches_ensure.bind fun _ => ?_
    refine touches_orBail.bind fun _ => touches_ensure.bind fun _ => touches_credit.bind fun _ => ?_
    dsimp only
    refine Along.ite ?_ ?_
    · exact (hfinal _ _ _).bind fun _ => touches_stateSet hround _ _ _
    · exact (along_pure _).bind fun _ => touches_stateSet hround _ _ _
  | sweep epoch =>
    refine Along.bind along_inspect (fun found => ?_) s
    split
    · refine touches_when ?_
      refine Along.bind (along_forM (fun _ => touches_credit.ignoreErr) _) fun _ => ?_
      exact (hfinal _ _ _).bind fun _ => touches_stateSet hround _ _ _
    · exact along_pure _

theorem money_of_holdings {op : BeaconOp} (h : (op.apply env s).holdings = s.holdings) :
    money (op.apply env s) = money s := by
  have happ : Touch {.vrfRound, .vrfLatestBeacon} s (op.apply env s) := touch_apply op
  have htouch := holdings_of_touch [.vrfRound, .vrfLatestBeacon]
    (happ.mono fun f hf => by simpa using hf)
  have hfilter : escrowFamilies.filter (· ∈ [Family.vrfRound, .vrfLatestBeacon]) = [.vrfRound] := by
    decide
  rw [hfilter, h] at htouch
  simp only [List.map_cons, List.map_nil, List.sum_cons, List.sum_nil, Nat.add_zero] at htouch
  unfold money
  omega

/-- What a round holds. -/
theorem escrowed_vrfRound (round : VrfRound) : escrowed .vrfRound round =
    (round.commits.filter fun c => !c.depositRefunded).length * commitDepositHunits := by
  rw [escrowed]

theorem escrowed_finalised (round : VrfRound) :
    escrowed .vrfRound (finalised env round) = escrowed .vrfRound round := by
  rw [escrowed_vrfRound, escrowed_vrfRound]
  rfl

theorem holdings_commit (p : VrfCommit) :
    ((applyVrfCommit p).run s).2.holdings = s.holdings := by
  rcases run_commit (s := s) p with ⟨haccepts, hrun⟩ | ⟨-, msg, hrun⟩
  swap
  · rw [hrun]
  rw [hrun]
  have hset := holdings_stateSet (s.debited p.committer nativeToken commitDepositHunits)
    (f := .vrfRound) (vrfRoundKey p.epoch) (withCommit (roundOf s p.epoch) p) (by decide)
  have hdeb := holdings_debited_native haccepts.2.2.2
  have hat : (s.debited p.committer nativeToken commitDepositHunits).escrowAt .vrfRound
      (vrfRoundKey p.epoch) = escrowed .vrfRound (roundOf s p.epoch) := by
    unfold Chain.escrowAt roundOf
    change (s.stateGet .vrfRound (vrfRoundKey p.epoch)).elim 0 _ = _
    cases s.stateGet .vrfRound (vrfRoundKey p.epoch) with
    | none =>
      rw [Option.getD_none, escrowed_vrfRound]
      exact (Nat.zero_mul _).symm
    | some round => rfl
  have hnew : escrowed .vrfRound (withCommit (roundOf s p.epoch) p) =
      escrowed .vrfRound (roundOf s p.epoch) + commitDepositHunits := by
    rw [escrowed_vrfRound, escrowed_vrfRound, withCommit, List.filter_append, List.length_append]
    exact Nat.succ_mul _ _
  rw [hat, hnew] at hset
  dsimp only
  omega

/-- Opening a commit whose deposit is held lets go of one deposit. -/
theorem held_revealSecret {committer : String} (secretHex : String) {c : VrfCommitRecord} :
    ∀ {commits : List VrfCommitRecord}, commits.find? (·.committer = committer) = some c →
      c.depositRefunded = false →
      ((revealSecret committer secretHex commits).filter fun c => !c.depositRefunded).length + 1 =
        (commits.filter fun c => !c.depositRefunded).length
  | [], h, _ => by cases h
  | d :: rest, h, hheld => by
    unfold revealSecret
    by_cases hd : d.committer = committer
    · rw [List.find?_cons_of_pos (by simpa using hd)] at h
      cases h
      simp [hd, hheld]
    · rw [List.find?_cons_of_neg (by simpa using hd)] at h
      have ih := held_revealSecret secretHex h hheld
      rw [if_neg hd, List.filter_cons, List.filter_cons]
      split
      · rw [List.length_cons, List.length_cons, ih]
      · exact ih

theorem escrowed_revealed {round : VrfRound} {c : VrfCommitRecord} {p : VrfReveal}
    (hc : round.commits.find? (·.committer = p.committer) = some c)
    (hheld : c.depositRefunded = false) :
    escrowed .vrfRound (revealed env round p) + commitDepositHunits =
      escrowed .vrfRound round := by
  have hsecret : escrowed .vrfRound (withSecret round p) + commitDepositHunits =
      escrowed .vrfRound round := by
    rw [escrowed_vrfRound, escrowed_vrfRound, ← held_revealSecret p.secretHex hc hheld]
    exact (Nat.succ_mul _ _).symm
  unfold revealed
  split
  · rw [escrowed_finalised, hsecret]
  · exact hsecret

/-- A call in time neither mints nor loses. -/
theorem holdings_apply (hsha : ∀ b, (env.sha256 b).length = 32) {op : BeaconOp}
    (hcap : s.holdings < 2 ^ 64) (hkept : Kept s) (hop : InTime env s op) :
    (op.apply env s).holdings = s.holdings := by
  cases op with
  | commit p => exact holdings_commit p
  | reveal p =>
    rcases run_reveal (s := s) hsha p with
      ⟨msg, hrun⟩ | ⟨round, c, t, hround, hc, hopens, hrun, -, hhold⟩
    · exact congrArg (fun r => r.2.holdings) hrun
    · have hopen : round.finalised = false := by
        rw [← Bool.not_eq_true]
        intro hfinal
        exact hop round hround ⟨hfinal, c, hc, hopens⟩
      have hheld : c.depositRefunded = false := by
        rw [hkept _ round hround hopen c (List.mem_of_find?_eq_some hc),
          Option.isNone_iff_eq_none.1 hopens.unopened]
        rfl
      have hone : escrowed .vrfRound (revealed env round p) + commitDepositHunits =
          escrowed .vrfRound round := escrowed_revealed hc hheld
      rw [escrowAt_of_get hround] at hhold
      have hafter : BeaconOp.apply env s (.reveal p) = t := congrArg Prod.snd hrun
      rw [hafter]
      omega
  | sweep epoch =>
    have hsettles : Settles True s ((sweepBeacon env epoch).run s).2 :=
      settles_sweepBeacon hsha epoch hcap
    exact hsettles.eq trivial

theorem kept_revealSecret {committer secretHex : String} {commits : List VrfCommitRecord}
    (h : ∀ c ∈ commits, c.depositRefunded = c.revealedSecret.isSome) :
    ∀ c ∈ revealSecret committer secretHex commits,
      c.depositRefunded = c.revealedSecret.isSome := by
  induction commits with
  | nil => exact fun c hc => nomatch hc
  | cons d rest ih =>
    rw [List.forall_mem_cons] at h
    unfold revealSecret
    split
    · exact List.forall_mem_cons.2 ⟨rfl, h.2⟩
    · exact List.forall_mem_cons.2 ⟨h.1, ih h.2⟩

/-- A stored round that is finalised, or sound itself, keeps the others sound. -/
theorem Kept.of_stored (epoch : ℕ) {round : VrfRound} (hkept : Kept s)
    (hstored : Stored s s' epoch round)
    (hround : round.finalised = false →
      ∀ c ∈ round.commits, c.depositRefunded = c.revealedSecret.isSome) : Kept s' := by
  intro key round' hget hopen
  rw [hstored.stateGet] at hget
  split at hget
  · cases hget
    exact hround hopen
  · exact hkept key round' hget hopen

theorem kept_apply (hsha : ∀ b, (env.sha256 b).length = 32) (hkept : Kept s) (op : BeaconOp) :
    Kept (op.apply env s) := by
  cases op with
  | commit p =>
    rcases run_commit (s := s) p with ⟨haccepts, hrun⟩ | ⟨-, msg, hrun⟩
    · have hafter : BeaconOp.apply env s (.commit p) = _ := congrArg Prod.snd hrun
      rw [hafter]
      refine hkept.of_stored p.epoch (state_stateSet_self _ _ _ _) ?_
      intro hopen c hc
      rcases List.mem_append.1 hc with hc | hc
      · -- the commits that were there
        change (roundOf s p.epoch).finalised = false at hopen
        unfold roundOf at hc hopen
        cases hget : s.stateGet .vrfRound (vrfRoundKey p.epoch) with
        | none =>
          rw [hget] at hc
          cases hc
        | some round =>
          rw [hget] at hc hopen
          exact hkept _ round hget hopen c hc
      · rw [List.mem_singleton.1 hc]
        rfl
    · have hafter : BeaconOp.apply env s (.commit p) = s := congrArg Prod.snd hrun
      rwa [hafter]
  | reveal p =>
    rcases run_reveal (s := s) hsha p with
      ⟨msg, hrun⟩ | ⟨round, c, t, hround, -, -, hrun, hstored, -⟩
    · have hafter : BeaconOp.apply env s (.reveal p) = s := congrArg Prod.snd hrun
      rwa [hafter]
    · have hafter : BeaconOp.apply env s (.reveal p) = t := congrArg Prod.snd hrun
      rw [hafter]
      refine hkept.of_stored _ hstored ?_
      unfold revealed
      split
      · exact fun hopen => nomatch hopen
      · exact fun hopen => kept_revealSecret (hkept _ round hround hopen)
  | sweep epoch =>
    rcases run_sweep (s := s) hsha epoch with hsame | ⟨round, hround, hopen, hstored⟩
    · intro key round' hget
      exact hkept key round' ((stateGet_of_state hsame key).symm.trans hget)
    · exact hkept.of_stored _ hstored fun hcontra => nomatch hcontra

end Calls

/-! ## Runs -/

/-- In every run whose reveals are in time, balances and deposits together are constant. -/
theorem beacon_conserves_money {env : Env} {start s : Chain} {hist : List (Chain × BeaconOp)}
    (hsha : ∀ b, (env.sha256 b).length = 32) (hcap : start.holdings < 2 ^ 64)
    (hnone : ∀ key, start.stateGet .vrfRound key = none)
    (h : Run (beacon env start) (InTime env) hist s) : money s = money start := by
  have hall : Kept s ∧ s.holdings = start.holdings ∧ money s = money start := by
    refine h.invariant
      (I := fun s => Kept s ∧ s.holdings = start.holdings ∧ money s = money start) ?_ ?_ ?_
    · rintro s rfl
      refine ⟨?_, rfl, rfl⟩
      intro key round hget
      rw [hnone key] at hget
      cases hget
    · rintro s op hop ⟨hkept, hhold, hmoney⟩
      have hsame := holdings_apply hsha (by rw [hhold]; exact hcap) hkept hop
      exact ⟨kept_apply hsha hkept op, hsame.trans hhold, (money_of_holdings hsame).trans hmoney⟩
    · rintro s s' rfl hI
      exact hI
  exact hall.2.2

/-! ### Two clock nodes -/

/-- The one who reveals gets the deposit back, the other one loses it to the recycle fund. -/
theorem conserves_money_two_nodes :
    let ops := [commitOf "ann" "a", commitOf "bob" "b", revealOf "ann" "61", .sweep 7]
    let s := (beacon beaconNode clockNodes).exec clockNodes ops
    (s.getBalance "ann" nativeToken = 50000 ∧ s.getBalance "bob" nativeToken = 40000 ∧
      s.getBalance recycleFund nativeToken = 10000) ∧ money s = money clockNodes := by
  intro ops s
  have hlegal : Legal (beacon beaconNode clockNodes) (InTime beaconNode) clockNodes ops := by decide
  refine ⟨by decide, ?_⟩
  exact beacon_conserves_money (Env.length_sha256_digesting _) (by decide +kernel) (fun _ => rfl)
    ((Run.start rfl).exec hlegal)

/-- A secret revealed after the sweep returns a deposit that the recycle fund has already. -/
theorem deposit_returned_twice :
    let ops := [commitOf "bob" "b", .sweep 7, revealOf "bob" "62"]
    let s := (beacon beaconNode clockNodes).exec clockNodes ops
    money clockNodes = 150000 ∧ money s = 160000 ∧ s.getBalance "bob" nativeToken = 50000 ∧
      s.getBalance recycleFund nativeToken = 10000 := by
  decide

end HoneNode.Beacon
