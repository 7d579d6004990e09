import HoneNode.Lib.Decimal
import HoneNode.Lib.Trace
import HoneNode.Rewards.Expiry

/-!
# Beacon.Rounds — commits, reveals and the sweep of a beacon round

A round is finalised by its last reveal or by the sweep two epochs later, and
only commits look at that. A reveal that comes after the sweep is taken, and if
it is the last one missing the beacon is computed anew; and a commit is taken
after others have revealed. Where no reveal completes a round that is finalised,
a beacon stays as it is; and where the nodes of a round are known and none
reveals before all have committed, every commit is made blind.
-/

namespace HoneNode.Beacon

open Entry Prog Within Trace

/-- What the beacon is called with. -/
inductive BeaconOp where
  | commit (p : VrfCommit)
  | reveal (p : VrfReveal)
  | sweep (epoch : ℕ)

/-- The chain after a call, whether it went through or not. -/
def BeaconOp.apply (env : Env) (s : Chain) : BeaconOp → Chain
  | .commit p => ((applyVrfCommit p).run s).2
  | .reveal p => ((applyVrfReveal env p).run s).2
  | .sweep epoch => ((sweepBeacon env epoch).run s).2

/-- The beacon from a chain on, its calls in any order. -/
def beacon (env : Env) (start : Chain) : Component Chain BeaconOp where
  init := (· = start)
  step := BeaconOp.apply env

/-! ## What a call does -/

/-- The round an epoch has, or starts with. -/
def roundOf (s : Chain) (epoch : ℕ) : VrfRound :=
  (s.stateGet .vrfRound (vrfRoundKey epoch)).getD ⟨epoch, [], none, false⟩

/-- The checks of a commit. -/
def AcceptsCommit (s : Chain) (p : VrfCommit) : Prop :=
  (s.stateGet .clockNode p.committer).isSome ∧ (roundOf s p.epoch).finalised = false ∧
    (∀ c ∈ (roundOf s p.epoch).commits, c.committer ≠ p.committer) ∧
    commitDepositHunits ≤ s.getBalance p.committer nativeToken

instance (s : Chain) (p : VrfCommit) : Decidable (AcceptsCommit s p) :=
  inferInstanceAs (Decidable (_ ∧ _ ∧ (∀ c ∈ (roundOf s p.epoch).commits, _) ∧ _))

def withCommit (round : VrfRound) (p : VrfCommit) : VrfRound :=
  { round with commits := round.commits ++ [⟨p.committer, p.commitHash, none, false⟩] }

def withSecret (round : VrfRound) (p : VrfReveal) : VrfRound :=
  { round with commits := revealSecret p.committer p.secretHex round.commits }

/-- The round with the beacon of what was revealed. -/
def finalised (env : Env) (round : VrfRound) : VrfRound :=
  { round with beacon := some (hexEncode (vrfBeacon env round.commits)), finalised := true }

/-- The round after a reveal; the last secret finalises it. -/
def revealed (env : Env) (round : VrfRound) (p : VrfReveal) : VrfRound :=
  if ∀ c ∈ (withSecret round p).commits, c.revealedSecret.isSome then
    finalised env (withSecret round p)
  else withSecret round p

/-- The round after the sweep. -/
def swept (env : Env) (round : VrfRound) : VrfRound :=
  finalised env { round with commits := round.commits.map ({ · with depositRefunded := true }) }

/-- The call stored this round, and no other. -/
def Stored (s s' : Chain) (epoch : ℕ) (round : VrfRound) : Prop :=
  s'.state .vrfRound = (s.state .vrfRound).put (vrfRoundKey epoch) round

section Calls

variable {env : Env} {s s' : Chain} {epoch : ℕ} {round : VrfRound}

theorem Stored.stateGet (h : Stored s s' epoch round) (key : String) :
    s'.stateGet .vrfRound key =
      if vrfRoundKey epoch = key then some round else s.stateGet .vrfRound key := by
  unfold Chain.stateGet
  rw [h]
  split
  · next heq => rw [heq, Kv.get_put_self]
  · next hne => exact Kv.get_put_of_ne _ _ hne

theorem run_commit (p : VrfCommit) :
    (AcceptsCommit s p ∧ (applyVrfCommit p).run s = (.ok (),
      (s.debited p.committer nativeToken commitDepositHunits).stateSet .vrfRound
        (vrfRoundKey p.epoch) (withCommit (roundOf s p.epoch) p))) ∨
    (¬ AcceptsCommit s p ∧ Refused s ((applyVrfCommit p).run s)) := by
  unfold applyVrfCommit
  rw [run_stateGet_bind]
  by_cases hreg : (s.stateGet .clockNode p.committer).isSome
  swap
  · exact .inr ⟨fun h => hreg h.1, _, run_bind_error (by rw [run_ensure, if_neg hreg])⟩
  rw [run_ensure_bind hreg, run_stateGet_bind]
  by_cases hopen : ¬ (roundOf s p.epoch).finalised
  swap
  · refine .inr ⟨?_, _, run_bind_error (by rw [run_ensure]; exact if_neg hopen)⟩
    intro h
    exact hopen (by rw [h.2.1]; exact Bool.false_ne_true)
  rw [run_bind_ok (by rw [run_ensure]; exact if_pos hopen)]
  by_cases hnew : ∀ c ∈ (roundOf s p.epoch).commits, c.committer ≠ p.committer
  swap
  · exact .inr ⟨fun h => hnew h.2.2.1, _,
      run_bind_error (by rw [run_ensure]; exact if_neg hnew)⟩
  rw [run_bind_ok (by rw [run_ensure]; exact if_pos hnew)]
  by_cases hle : commitDepositHunits ≤ s.getBalance p.committer nativeToken
  swap
  · exact .inr ⟨fun h => hle h.2.2.2, _, run_bind_error (by rw [run_debit, if_neg hle])⟩
  rw [run_debit_bind hle, run_stateSet]
  exact .inl ⟨⟨hreg, Bool.eq_false_iff.2 hopen, hnew, hle⟩, rfl⟩

/-- Storing the beacon of a round is followed by a log line that never fails. -/
theorem run_finaliseRound {W : Footprint} (hsha : ∀ b, (env.sha256 b).length = 32) (epoch : ℕ) :
    (finaliseRound env round epoch : Prog W VrfRound).run s =
      (.ok (finalised env round), s.stateSet .vrfLatestBeacon ""
        (hexEncode (vrfBeacon env round.commits), epoch)) := by
  have hlog : env.info = true →
      isBoundary (hexEncode (vrfBeacon env round.commits)) 16 = true :=
    fun _ => Text.isBoundary_hexEncode (by rw [length_vrfBeacon hsha]; decide)
  unfold finaliseRound
  rw [run_stateSet_bind, run_bind_ok (run_logPrefix_of hlog)]
  rfl

/-- Storing a round, with its beacon once every secret is there. -/
theorem run_store (hsha : ∀ b, (env.sha256 b).length = 32) (round : VrfRound) (epoch : ℕ) :
    let closed := if ∀ c ∈ round.commits, c.revealedSecret.isSome then finalised env round else round
    ∃ t, (do
        let closed ← if ∀ c ∈ round.commits, c.revealedSecret.isSome then
            finaliseRound env round epoch
          else pure round
        stateSet .vrfRound (vrfRoundKey epoch) closed : Prog {} Unit).run s = (.ok (), t) ∧
      Stored s t epoch closed ∧ t.holdings + s.escrowAt .vrfRound (vrfRoundKey epoch) =
        s.holdings + escrowed .vrfRound closed := by
  dsimp only
  split
  · have hother := holdings_stateSet_other s (f := .vrfLatestBeacon) ""
      (hexEncode (vrfBeacon env round.commits), epoch) (by decide)
    rw [run_bind_ok (run_finaliseRound hsha epoch), run_stateSet]
    refine ⟨_, rfl, ?_, ?_⟩
    · unfold Stored
      rw [state_stateSet_self, state_stateSet_of_ne _ (by decide)]
    · rw [← hother]
      exact holdings_stateSet _ _ _ (by decide)
  · rw [run_bind_ok (run_pure _ _), run_stateSet]
    exact ⟨_, rfl, state_stateSet_self _ _ _ _, holdings_stateSet _ _ _ (by decide)⟩

/-- The secret is the one that the node committed to, and is not known yet. -/
structure Opens (env : Env) (p : VrfReveal) (c : VrfCommitRecord) : Prop where
  unopened : c.revealedSecret.isNone = true
  secret : ∃ secret ∈ hexDecode p.secretHex,
    hexEncode (env.sha256 (secret ++ beBytes 8 p.epoch)) = c.commitHash

instance (env : Env) (p : VrfReveal) (c : VrfCommitRecord) : Decidable (Opens env p c) :=
  decidable_of_iff (c.revealedSecret.isNone = true ∧ ∃ secret ∈ hexDecode p.secretHex,
      hexEncode (env.sha256 (secret ++ beBytes 8 p.epoch)) = c.commitHash)
    ⟨fun h => ⟨h.1, h.2⟩, fun h => ⟨h.unopened, h.secret⟩⟩

/-- A reveal that is taken opens a commit that was not open yet, and returns a deposit. -/
theorem run_reveal (hsha : ∀ b, (env.sha256 b).length = 32) (p : VrfReveal) :
    Refused s ((applyVrfReveal env p).run s) ∨
    ∃ round c t, s.stateGet .vrfRound (vrfRoundKey p.epoch) = some round ∧
      round.commits.find? (·.committer = p.committer) = some c ∧ Opens env p c ∧
      (applyVrfReveal env p).run s = (.ok (), t) ∧ Stored s t p.epoch (revealed env round p) ∧
      t.holdings + s.escrowAt .vrfRound (vrfRoundKey p.epoch) =
        s.holdings + commitDepositHunits + escrowed .vrfRound (revealed env round p) := by
  unfold applyVrfReveal
  rw [run_stateGet_bind]
  refine (refused_or_orBail _ _ _).elim .inl ?_
  rintro ⟨round, hround, hrun⟩
  rw [hrun]
  refine (refused_or_orBail _ _ _).elim .inl ?_
  rintro ⟨c, hc, hrun⟩
  rw [hrun]
  refine (refused_or_ensure _ _ _).elim .inl ?_
  rintro ⟨hnone, hrun⟩
  rw [hrun]
  refine (refused_or_orBail _ _ _).elim .inl ?_
  rintro ⟨secret, hsecret, hrun⟩
  rw [hrun]
  refine (refused_or_ensure _ _ _).elim .inl ?_
  rintro ⟨hhash, hrun⟩
  rw [hrun]
  have hpay := run_credit (W := {}) s p.committer nativeToken commitDepositHunits
  split at hpay
  swap
  · rw [run_bind_error hpay]
    exact .inl ⟨_, rfl⟩
  rw [run_bind_ok hpay]
  obtain ⟨t, hstore, hstored, hhold⟩ := run_store
    (s := s.credited p.committer nativeToken commitDepositHunits) hsha (withSecret round p) p.epoch
  rw [holdings_credited_native] at hhold
  exact .inr ⟨round, c, t, hround, hc, ⟨hnone, secret, hsecret, hhash⟩, hstore, hstored, hhold⟩

/-- A best-effort payment for each element of a list. -/
theorem run_payAll {α : Type} (account : String) (n : ℕ) (l : List α) :
    ∃ t, (l.forM fun _ => ignoreErr (credit account nativeToken n) : Prog {} Unit).run s =
      (.ok (), t) ∧ t.state = s.state := by
  induction l generalizing s with
  | nil => exact ⟨s, rfl, rfl⟩
  | cons a l ih =>
    have hpay := run_credit (W := {}) s account nativeToken n
    split at hpay
    · obtain ⟨t, hrun, ht⟩ := ih (s := s.credited account nativeToken n)
      exact ⟨t, (run_bind_ok (by rw [run_ignoreErr, hpay])).trans hrun, ht⟩
    · obtain ⟨t, hrun, ht⟩ := ih (s := s)
      exact ⟨t, (run_bind_ok (by rw [run_ignoreErr, hpay])).trans hrun, ht⟩

/-- The sweep closes the round of two epochs ago, if it is still open. -/
theorem run_sweep (hsha : ∀ b, (env.sha256 b).length = 32) (epoch : ℕ) :
    ((sweepBeacon env epoch).run s).2.state .vrfRound = s.state .vrfRound ∨
    ∃ round, s.stateGet .vrfRound (vrfRoundKey (epoch - revealWindowEpochs)) = some round ∧
      round.finalised = false ∧
      Stored s ((sweepBeacon env epoch).run s).2 (epoch - revealWindowEpochs) (swept env round) := by
  unfold sweepBeacon
  rw [run_stateGet_bind]
  cases hget : s.stateGet .vrfRound (vrfRoundKey (epoch - revealWindowEpochs)) with
  | none => exact .inl rfl
  | some round =>
    dsimp only
    rw [run_when]
    split
    swap
    · exact .inl rfl
    · next hopen =>
      refine .inr ⟨round, rfl, hopen, ?_⟩
      obtain ⟨u, hpays, hstate⟩ := run_payAll (s := s) recycleFund commitDepositHunits
        (round.commits.filter fun c => !c.depositRefunded)
      unfold closeRound
      rw [run_bind_ok hpays, run_bind_ok (run_finaliseRound hsha _), run_stateSet]
      unfold Stored
      rw [state_stateSet_self, state_stateSet_of_ne _ (by decide), hstate]
      rfl

end Calls

/-! ## The order of the calls -/

/-- The reveal opens a commit, and it is the only one its round still misses. -/
def LastMissing (env : Env) (round : VrfRound) (p : VrfReveal) : Prop :=
  (∃ c ∈ round.commits.find? (·.committer = p.committer), Opens env p c) ∧
    ∀ c ∈ round.commits, c.committer ≠ p.committer → c.revealedSecret.isSome

def committers (round : VrfRound) : List String := round.commits.map (·.committer)

/-- Each round has a board of nodes: nobody else commits, and none reveals before the whole board
has committed. And no reveal completes a round that is finalised. -/
def Ordered (env : Env) (board : ℕ → List String) (s : Chain) : BeaconOp → Prop
  | .commit p => p.committer ∈ board p.epoch
  | .reveal p => (∀ v ∈ board p.epoch, v ∈ committers (roundOf s p.epoch)) ∧
      ∀ round ∈ s.stateGet .vrfRound (vrfRoundKey p.epoch), round.finalised →
        ¬ LastMissing env round p
  | .sweep _ => True

instance (env : Env) (round : VrfRound) (p : VrfReveal) : Decidable (LastMissing env round p) :=
  inferInstanceAs (Decidable ((∃ c ∈ round.commits.find? _, _) ∧ ∀ c ∈ round.commits, _))

instance (env : Env) (board : ℕ → List String) (s : Chain) :
    (op : BeaconOp) → Decidable (Ordered env board s op)
  | .commit p => inferInstanceAs (Decidable (p.committer ∈ board p.epoch))
  | .reveal p => inferInstanceAs (Decidable ((∀ v ∈ board p.epoch, _) ∧
      ∀ round ∈ s.stateGet .vrfRound (vrfRoundKey p.epoch), _))
  | .sweep _ => inferInstanceAs (Decidable True)

/-- Once a secret of the round is known, the whole board has committed. -/
def Blind (members : List String) (round : VrfRound) : Prop :=
  (∃ c ∈ round.commits, c.revealedSecret.isSome) → ∀ v ∈ members, v ∈ committers round

/-- The round is finalised with this beacon. -/
def Settled (s : Chain) (key : String) (value : Option String) : Prop :=
  ∃ round ∈ s.stateGet .vrfRound key, round.finalised = true ∧ round.beacon = value

instance (s : Chain) (key : String) (value : Option String) : Decidable (Settled s key value) :=
  inferInstanceAs (Decidable (∃ round ∈ s.stateGet .vrfRound key, _))

section Order

variable {env : Env} {board : ℕ → List String} {start s s' : Chain}
  {hist later : List (Chain × BeaconOp)}

theorem mem_revealSecret_of_ne {committer secretHex : String} {c : VrfCommitRecord}
    {commits : List VrfCommitRecord} (hc : c ∈ commits) (hne : c.committer ≠ committer) :
    c ∈ revealSecret committer secretHex commits := by
  induction commits with
  | nil => cases hc
  | cons d rest ih =>
    unfold revealSecret
    rcases List.mem_cons.1 hc with rfl | hc
    · rw [if_neg hne]
      exact List.mem_cons_self
    · split
      · exact List.mem_cons_of_mem _ hc
      · exact List.mem_cons_of_mem _ (ih hc)

/-- A reveal that leaves another secret missing computes no beacon. -/
theorem revealed_of_not_last {round : VrfRound} {c : VrfCommitRecord} {p : VrfReveal}
    (hc : round.commits.find? (·.committer = p.committer) = some c) (hopens : Opens env p c)
    (h : ¬ LastMissing env round p) : revealed env round p = withSecret round p := by
  have hother : ∃ d ∈ round.commits, d.committer ≠ p.committer ∧ ¬ d.revealedSecret.isSome := by
    by_contra hall
    push Not at hall
    exact h ⟨⟨c, hc, hopens⟩, hall⟩
  obtain ⟨d, hd, hne, hmissing⟩ := hother
  unfold revealed
  rw [if_neg]
  intro hall
  exact hmissing (hall d (mem_revealSecret_of_ne hd hne))

/-- No call in order changes the beacon of a finalised round. -/
theorem settled_apply (hsha : ∀ b, (env.sha256 b).length = 32) {op : BeaconOp} {key : String}
    {value : Option String} (hop : Ordered env board s op) (h : Settled s key value) :
    Settled (op.apply env s) key value := by
  obtain ⟨round, hget, hfinal, hbeacon⟩ := h
  cases op with
  | commit p =>
    rcases run_commit (s := s) p with ⟨haccepts, hrun⟩ | ⟨-, msg, hrun⟩
    · have hne : vrfRoundKey p.epoch ≠ key := by
        -- the round a commit is taken into is open
        rintro rfl
        have hopen := haccepts.2.1
        rw [roundOf, hget, Option.getD_some, hfinal] at hopen
        cases hopen
      refine ⟨round, ?_, hfinal, hbeacon⟩
      change ((applyVrfCommit p).run s).2.stateGet .vrfRound key = _
      rw [hrun, stateGet_stateSet, if_neg hne]
      exact hget
    · refine ⟨round, ?_, hfinal, hbeacon⟩
      change ((applyVrfCommit p).run s).2.stateGet .vrfRound key = _
      rw [hrun]
      exact hget
  | reveal p =>
    rcases run_reveal (s := s) hsha p with ⟨msg, hrun⟩ | ⟨round', c, t, hround, hc, hopens, hrun, hstored, -⟩
    · refine ⟨round, ?_, hfinal, hbeacon⟩
      change ((applyVrfReveal env p).run s).2.stateGet .vrfRound key = _
      rw [hrun]
      exact hget
    · have hafter : BeaconOp.apply env s (.reveal p) = t := congrArg Prod.snd hrun
      rw [hafter]
      unfold Settled
      rw [hstored.stateGet]
      split
      · next hkey =>
        obtain rfl : round' = round := Option.some.inj (hround.symm.trans (by rw [hkey]; exact hget))
        refine ⟨_, rfl, ?_⟩
        rw [revealed_of_not_last hc hopens (hop.2 round' hround hfinal)]
        exact ⟨hfinal, hbeacon⟩
      · exact ⟨round, hget, hfinal, hbeacon⟩
  | sweep epoch =>
    rcases run_sweep (s := s) hsha epoch with hsame | ⟨round', hround, hopen, hstored⟩
    · exact ⟨round, (stateGet_of_state hsame key).trans hget, hfinal, hbeacon⟩
    · refine ⟨round, ?_, hfinal, hbeacon⟩
      change ((sweepBeacon env epoch).run s).2.stateGet .vrfRound key = _
      rw [hstored.stateGet, if_neg, hget]
      rintro rfl
      rw [hget] at hround
      cases hround
      rw [hfinal] at hopen
      cases hopen

/-! ### Commits before reveals -/

theorem committers_revealSecret (committer secretHex : String) (commits : List VrfCommitRecord) :
    (revealSecret committer secretHex commits).map (·.committer) = commits.map (·.committer) := by
  induction commits with
  | nil => rfl
  | cons c rest ih =>
    unfold revealSecret
    split
    · rfl
    · rw [List.map_cons, List.map_cons, ih]

theorem committers_revealed (round : VrfRound) (p : VrfReveal) :
    committers (revealed env round p) = committers round := by
  have hsame := committers_revealSecret p.committer p.secretHex round.commits
  unfold revealed
  split <;> exact hsame

/-- A stored round that is blind leaves all rounds so. -/
theorem blind_of_stored {epoch : ℕ} {round : VrfRound} (hstored : Stored s s' epoch round)
    (hround : Blind (board epoch) round) (h : ∀ e, Blind (board e) (roundOf s e)) (e : ℕ) :
    Blind (board e) (roundOf s' e) := by
  have hold := h e
  unfold roundOf at hold ⊢
  rw [hstored.stateGet]
  split
  · next hkey =>
    obtain rfl : epoch = e := Text.toString_nat_inj.1 hkey
    exact hround
  · exact hold

theorem blind_apply (hsha : ∀ b, (env.sha256 b).length = 32) {op : BeaconOp}
    (hop : Ordered env board s op) (h : ∀ e, Blind (board e) (roundOf s e)) :
    ∀ e, Blind (board e) (roundOf (op.apply env s) e) := by
  cases op with
  | commit p =>
    rcases run_commit (s := s) p with ⟨-, hrun⟩ | ⟨-, msg, hrun⟩
    · have hafter : BeaconOp.apply env s (.commit p) = _ := congrArg Prod.snd hrun
      rw [hafter]
      refine blind_of_stored (state_stateSet_self _ _ _ _) ?_ h
      rintro ⟨c, hc, hknown⟩ v hv
      rcases List.mem_append.1 hc with hc | hc
      · -- the secret was known before, and then the board had committed
        have hmem := h p.epoch ⟨c, hc, hknown⟩ v hv
        unfold committers withCommit
        rw [List.map_append]
        exact List.mem_append_left _ hmem
      · rw [List.mem_singleton.1 hc] at hknown
        cases hknown
    · have hafter : BeaconOp.apply env s (.commit p) = s := congrArg Prod.snd hrun
      rwa [hafter]
  | reveal p =>
    rcases run_reveal (s := s) hsha p with ⟨msg, hrun⟩ | ⟨round, c, t, hround, -, -, hrun, hstored, -⟩
    · have hafter : BeaconOp.apply env s (.reveal p) = s := congrArg Prod.snd hrun
      rwa [hafter]
    · have hafter : BeaconOp.apply env s (.reveal p) = t := congrArg Prod.snd hrun
      rw [hafter]
      refine blind_of_stored hstored (fun _ v hv => ?_) h
      have hmem := hop.1 v hv
      rw [roundOf, hround, Option.getD_some] at hmem
      rw [committers_revealed]
      exact hmem
  | sweep epoch =>
    rcases run_sweep (s := s) hsha epoch with hsame | ⟨round, hround, -, hstored⟩
    · intro e
      have hround : roundOf (BeaconOp.apply env s (.sweep epoch)) e = roundOf s e := by
        unfold roundOf
        exact congrArg (Option.getD · _) (stateGet_of_state hsame _)
      rw [hround]
      exact h e
    · refine blind_of_stored hstored ?_ h
      have hold := h (epoch - revealWindowEpochs)
      rw [roundOf, hround, Option.getD_some] at hold
      rintro ⟨c, hc, hknown⟩ v hv
      obtain ⟨d, hd, rfl⟩ := List.mem_map.1 hc
      have hmem := hold ⟨d, hd, hknown⟩ v hv
      unfold committers swept finalised
      rw [List.map_map]
      exact hmem

/-- In every run of calls in order, the beacon of a finalised round stays through the rest of
the run, and every commit that was taken found no secret revealed. -/
theorem beacon_stays_and_commits_blind (hsha : ∀ b, (env.sha256 b).length = 32)
    (hstart : ∀ e, Blind (board e) (roundOf start e))
    (h : Run (beacon env start) (Ordered env board) hist s) :
    (∀ later s', Run (beacon env s) (Ordered env board) later s' → ∀ key value,
      Settled s key value → Settled s' key value) ∧
    ∀ t p, (t, .commit p) ∈ hist → ((applyVrfCommit p).run t).1 = .ok () →
      ∀ c ∈ (roundOf t p.epoch).commits, c.revealedSecret = none := by
  refine ⟨?_, ?_⟩
  · intro later s' hlater key value hsettled
    refine hlater.invariant (I := fun t => Settled t key value) ?_ ?_ ?_
    · rintro t rfl
      exact hsettled
    · intro t op hop ht
      exact settled_apply hsha hop ht
    · rintro t t' rfl ht
      exact ht
  · intro t p hmem hok c hc
    obtain ⟨hop, before, hbefore⟩ := h.of_mem hmem
    have hblind : ∀ e, Blind (board e) (roundOf t e) := by
      refine hbefore.invariant (I := fun t => ∀ e, Blind (board e) (roundOf t e)) ?_
        (fun _ _ hop ht => blind_apply hsha hop ht) ?_
      · rintro t rfl
        exact hstart
      · rintro t t' rfl ht
        exact ht
    rcases run_commit (s := t) p with ⟨haccepts, -⟩ | ⟨-, msg, hrun⟩
    · -- with a secret known the node would have committed already
      by_contra hsome
      have hmine := hblind p.epoch ⟨c, hc, Option.isSome_iff_ne_none.2 hsome⟩ _ hop
      obtain ⟨d, hd, hcommitter⟩ := List.mem_map.1 hmine
      exact haccepts.2.2.1 d hd hcommitter
    · rw [hrun] at hok
      cases hok

end Order

/-! ### Three clock nodes -/

/-- The digests of the secrets `a`, `b` and `c`, alone and with epoch 5. -/
def beaconNode : Env := .digesting
  [("a\x00\x00\x00\x00\x00\x00\x00\x05",
      "ded1ba06e39b5124d9202b4f04ca5fc60a164057e270e0146cd6055852ff36bf"),
    ("a",
      "ca978112ca1bbdcafac231b39a23dc4da786eff8147c4e72b9807785afee48bb"),
    ("b\x00\x00\x00\x00\x00\x00\x00\x05",
      "af1cebc24bea088e95eb59e739c638b686137cb218e172d8f33c0c200ea65a3b"),
    ("b",
      "3e23e8160039594a33894f6564e1b1348bbd7a0088d42c4acb73eeaed59c009d"),
    ("c\x00\x00\x00\x00\x00\x00\x00\x05",
      "0dddfd99f488c82aaa10f846528125a8140002c524b87f2783d26d9f3bb8989f"),
    ("c",
      "2e7d2c03a9507ae265ecf5b5356885a53393a2029d241394997265a1a25aefc6")]

def commitOf (name secret : String) : BeaconOp :=
  .commit ⟨name, beaconNode.sha256Hex (secret ++ "\x00\x00\x00\x00\x00\x00\x00\x05"), 5, 1, name, none⟩

def revealOf (name secretHex : String) : BeaconOp := .reveal ⟨name, secretHex, 5, 2, name, none⟩

/-- Three registered clock nodes with a few deposits each. -/
def clockNodes : Chain :=
  ["ann", "bob", "cyd"].foldl (fun s name =>
    (s.setBalance name nativeToken 50000).stateSet .clockNode name default) {}

/-- The nodes of every round below. -/
def annAndBob : ℕ → List String := fun _ => ["ann", "bob"]

/-- Two commit, one reveals in time, the other one never. -/
theorem beacon_stays_two_nodes :
    let ops := [commitOf "ann" "a", commitOf "bob" "b", revealOf "ann" "61", .sweep 7]
    let more := [revealOf "bob" "63", commitOf "bob" "b", revealOf "ann" "61", .sweep 8]
    let s := (beacon beaconNode clockNodes).exec clockNodes ops
    let s' := (beacon beaconNode s).exec s more
    let value := some (beaconNode.sha256Hex "a")
    Settled s "5" value ∧ Settled s' "5" value := by
  intro ops more s s' value
  have hlegal : Legal (beacon beaconNode clockNodes) (Ordered beaconNode annAndBob) clockNodes ops := by
    decide
  have hmore : Legal (beacon beaconNode s) (Ordered beaconNode annAndBob) s more := by decide
  have hstart : ∀ e, Blind (annAndBob e) (roundOf clockNodes e) := by
    rintro e ⟨c, hc, -⟩
    cases hc
  have hrun := beacon_stays_and_commits_blind (Env.length_sha256_digesting _) hstart
    ((Run.start rfl).exec hlegal)
  have hsettled : Settled s "5" value := by decide
  exact ⟨hsettled, hrun.1 _ _ ((Run.start rfl).exec hmore) _ _ hsettled⟩

/-- The secret of bob, revealed after the sweep, changes the beacon; and cyd commits after ann
has revealed. -/
theorem beacon_changed_after_sweep :
    let ops := [commitOf "ann" "a", commitOf "bob" "b", revealOf "ann" "61"]
    let s := (beacon beaconNode clockNodes).exec clockNodes ops
    let closed := (beacon beaconNode s).exec s [.sweep 7]
    let late := (beacon beaconNode closed).exec closed [revealOf "bob" "62"]
    let joined := (beacon beaconNode s).exec s [commitOf "cyd" "c"]
    Settled closed "5" (some (beaconNode.sha256Hex "a")) ∧
      ¬ Settled late "5" (some (beaconNode.sha256Hex "a")) ∧ (roundOf late 5).finalised ∧
      (∃ c ∈ (roundOf s 5).commits, c.revealedSecret = some "61") ∧
      (roundOf joined 5).commits.length = (roundOf s 5).commits.length + 1 := by
  decide +kernel

end HoneNode.Beacon
