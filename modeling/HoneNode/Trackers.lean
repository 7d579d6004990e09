import HoneNode.Lib.Trace
import HoneNode.Rewards.Expiry

/-!
# Trackers — the escrows of lost and subscribed trackers

A bounty and a prepaid subscription are held by a record each. A declaration or a
subscription over a record that still holds something drops it, a bounty that is
confirmed again is paid again, and what does not divide among the observers of a tag
goes nowhere. Where none of this happens, balances and escrows together stay what they
were, and a subscription that is swept in each of its epochs has paid out all it held.

1. **The entries**: what each does to the two families of records.
2. **The sweep**: one record (`run_releaseSubscription`), then all of them (`sweep_spec`).
3. **Runs** of entries and sweeps (`escrows_sound`).
-/

namespace HoneNode.Trackers

open Entry Prog Within Trace Supply

/-- Native balances, active bounties, and what subscriptions have not paid out. -/
def money (s : Chain) : ℕ :=
  s.nativeBalances + s.escrowOf .trackerLostEscrow + s.escrowOf .trackerSubEscrow

/-- The native coin fits, so that no credit of it overflows. -/
def Roomy (s : Chain) : Prop := s.holdings < 2 ^ 64

/-! ## The entries -/

def totalFee (p : TrackerSubscription) : ℕ := satMul p.feePerEpoch (p.expiresEpoch - p.epoch)

def verified (claim : TrackerClaimRecord) : Bool :=
  claim.status = "Verified" || claim.status = "AcousticVerified"

/-- The subscription goes through and costs something. -/
def Subscribes (s : Chain) (p : TrackerSubscription) : Prop :=
  (s.stateGet .trackerClaim (trackerKey p.claimer p.serialCommitment)).any verified = true ∧
    0 < totalFee p ∧ totalFee p ≤ s.getBalance p.claimer nativeToken

/-- The record of a subscription. -/
def subscription (p : TrackerSubscription) : TrackerSubEscrow :=
  ⟨p.serialCommitment, p.claimer, p.feePerEpoch, p.expiresEpoch, p.epoch, p.nonce, totalFee p, 0⟩

/-- There is a bounty, and the claimer can pay it. -/
def Declares (s : Chain) (p : TrackerLostMode) : Prop :=
  0 < p.bountyHunits ∧ p.bountyHunits ≤ s.getBalance p.claimer nativeToken

/-- The record of a bounty. -/
def bounty (p : TrackerLostMode) : TrackerLostEscrow :=
  ⟨p.serialCommitment, p.claimer, p.bountyHunits, p.expiresEpoch, p.contactEncrypted, p.epoch,
    p.nonce, "active", none⟩

/-- A bounty that is closed. -/
def confirmed (epoch : ℕ) (r : TrackerLostEscrow) : TrackerLostEscrow :=
  { r with status := "confirmed", confirmedEpoch := some epoch }

theorem status_confirmed (epoch : ℕ) (r : TrackerLostEscrow) :
    (confirmed epoch r).status ≠ "active" := by
  change "confirmed" ≠ "active"
  decide

instance (s : Chain) (p : TrackerSubscription) : Decidable (Subscribes s p) :=
  inferInstanceAs (Decidable (_ ∧ _))

instance (s : Chain) (p : TrackerLostMode) : Decidable (Declares s p) :=
  inferInstanceAs (Decidable (_ ∧ _))

section Entries

variable {s t u : Chain} {f : Family} {key : String}

/-- At most the claim of a tag is rewritten. -/
def OnClaims (s t : Chain) : Prop := t = s ∨ ∃ key r, t = s.stateSet .trackerClaim key r

theorem OnClaims.holdings (h : OnClaims s t) : t.holdings = s.holdings := by
  rcases h with rfl | ⟨key, r, rfl⟩
  · rfl
  · exact holdings_stateSet_other s key r (by decide)

theorem OnClaims.state (h : OnClaims s t) (hf : f ≠ .trackerClaim) : t.state f = s.state f := by
  rcases h with rfl | ⟨key, r, rfl⟩
  · rfl
  · exact s.state_stateSet_of_ne hf key r

theorem run_modifyClaim {W : Footprint} (g : TrackerClaimRecord → TrackerClaimRecord) :
    OnClaims s ((stateModify .trackerClaim key g : Prog W Unit).run s).2 := by
  unfold stateModify
  rw [run_stateGet_bind]
  cases s.stateGet .trackerClaim key with
  | none => exact .inl rfl
  | some r => exact .inr ⟨key, g r, rfl⟩

/-- The fee goes from the claimer to the record. -/
theorem run_subscription (p : TrackerSubscription) :
    ((applyTrackerSubscription p).run s).2 = if Subscribes s p then
      (s.debited p.claimer nativeToken (totalFee p)).stateSet .trackerSubEscrow
        (trackerKey p.claimer p.serialCommitment) (subscription p) else s := by
  unfold applyTrackerSubscription
  rw [run_stateGet_bind]
  cases hget : s.stateGet .trackerClaim (trackerKey p.claimer p.serialCommitment) with
  | none =>
    rw [if_neg]
    · rfl
    · rintro ⟨hany, -⟩
      rw [hget] at hany
      cases hany
  | some claim =>
    rw [run_bind_ok (run_orBail_some _ _ _)]
    by_cases hver : claim.status = "Verified" ∨ claim.status = "AcousticVerified"
    swap
    · rw [run_bind_error (by rw [run_ensure, if_neg hver]), if_neg]
      rintro ⟨hany, -⟩
      rw [hget] at hany
      exact hver (by simpa [verified] using hany)
    rw [run_ensure_bind hver]
    have hany : (s.stateGet .trackerClaim (trackerKey p.claimer p.serialCommitment)).any verified =
        true := by
      rw [hget]
      simpa [verified] using hver
    dsimp only
    have hfee : satMul p.feePerEpoch (p.expiresEpoch - p.epoch) = totalFee p := rfl
    rw [hfee, run_when]
    by_cases hpos : 0 < totalFee p
    swap
    · rw [if_neg hpos, if_neg fun h => hpos h.2.1]
    rw [if_pos hpos]
    by_cases hle : totalFee p ≤ s.getBalance p.claimer nativeToken
    · rw [run_debit_bind hle, if_pos ⟨hany, hpos, hle⟩]
      rfl
    · rw [run_bind_error (by rw [run_debit, if_neg hle]), if_neg fun h => hle h.2.2]

/-- The bounty goes from the claimer to the record. -/
theorem run_lostMode (p : TrackerLostMode) :
    OnClaims (if Declares s p then
      (s.debited p.claimer nativeToken p.bountyHunits).stateSet .trackerLostEscrow
        (trackerKey p.claimer p.serialCommitment) (bounty p) else s)
      ((applyTrackerLostMode p).run s).2 := by
  unfold applyTrackerLostMode
  by_cases hpos : 0 < p.bountyHunits
  swap
  · rw [run_bind_ok (by rw [run_when, if_neg hpos]), if_neg fun h => hpos h.1]
    exact run_modifyClaim _
  by_cases hle : p.bountyHunits ≤ s.getBalance p.claimer nativeToken
  · rw [if_pos ⟨hpos, hle⟩, run_bind_ok (by
      rw [run_when, if_pos hpos, run_debit_bind hle, run_stateSet])]
    exact run_modifyClaim _
  · rw [if_neg fun h => hle h.2, run_bind_error (by
      rw [run_when, if_pos hpos, run_bind_error (by rw [run_debit, if_neg hle])])]
    exact .inl rfl

/-- The three shares make up the bounty. -/
theorem paysOut_bounty {n : ℕ} (key finder : String) (hn : n < 2 ^ 64) :
    PaysOut .trackerLostEscrow key n (when (0 < n) (do
      credit finder nativeToken (wrapMul n 70 / 100)
      credit "treasury" nativeToken (wrapSub (wrapSub n (wrapMul n 70 / 100)) (wrapMul n 20 / 100))
      credit "sensor_pool" nativeToken (wrapMul n 20 / 100)) : Prog {} Unit) := by
  have hfinder : wrapMul n 70 ≤ n * 70 := Nat.mod_le _ _
  have hobserver : wrapMul n 20 ≤ n * 20 := Nat.mod_le _ _
  generalize wrapMul n 70 = a at hfinder ⊢
  generalize wrapMul n 20 = b at hobserver ⊢
  have hsum : a / 100 + (wrapSub (wrapSub n (a / 100)) (b / 100) + b / 100) = n := by
    unfold wrapSub
    omega
  refine PaysOut.whenPos ?_
  have hcredit : ∀ (account : String) (m : ℕ), PaysOut .trackerLostEscrow key m
      (credit account nativeToken m : Prog {} Unit) := fun account _ =>
    paysOut_credit (by decide) account
  have hthree : PaysOut .trackerLostEscrow key
      (a / 100 + (wrapSub (wrapSub n (a / 100)) (b / 100) + b / 100)) (do
        credit finder nativeToken (a / 100)
        credit "treasury" nativeToken (wrapSub (wrapSub n (a / 100)) (b / 100))
        credit "sensor_pool" nativeToken (b / 100) : Prog {} Unit) :=
    (hcredit _ _).bind ((hcredit _ _).bind (hcredit _ _))
  rwa [hsum] at hthree

/-- The whole bounty is shared out. -/
theorem run_foundConfirm {p : TrackerFoundConfirm} {r : TrackerLostEscrow}
    (hroomy : Roomy s) (hactive : r.status = "active")
    (hget : s.stateGet .trackerLostEscrow (trackerKey p.claimer p.serialCommitment) = some r) :
    ∃ v : Chain, v.holdings = s.holdings + r.bountyHunits ∧ v.state = s.state ∧
      OnClaims (v.stateSet .trackerLostEscrow (trackerKey p.claimer p.serialCommitment)
        (confirmed p.epoch r)) ((applyTrackerFoundConfirm p).run s).2 := by
  have hat : s.escrowAt .trackerLostEscrow (trackerKey p.claimer p.serialCommitment) =
      r.bountyHunits := by
    rw [escrowAt_of_get hget, escrowed, if_pos hactive]
  have hle := getBalance_add_escrowAt_le s (trackerKey p.claimer p.serialCommitment)
    (f := .trackerLostEscrow) (by decide) (nativeRow_balanceKey "treasury")
  unfold Roomy at hroomy
  obtain ⟨v, hrun, hhold, hstate⟩ := paysOut_bounty (n := r.bountyHunits)
    (trackerKey p.claimer p.serialCommitment) p.finder (by omega) s (by
    unfold Room
    omega)
  refine ⟨v, hhold, hstate, ?_⟩
  unfold applyTrackerFoundConfirm
  dsimp only
  rw [run_stateGet_bind, hget]
  dsimp only
  rw [run_bind_ok hrun, run_stateSet_bind]
  exact run_modifyClaim _

/-- Without a bounty nothing is paid. -/
theorem run_foundConfirm_none {p : TrackerFoundConfirm}
    (hget : s.stateGet .trackerLostEscrow (trackerKey p.claimer p.serialCommitment) = none) :
    OnClaims s ((applyTrackerFoundConfirm p).run s).2 := by
  unfold applyTrackerFoundConfirm
  dsimp only
  rw [run_stateGet_bind, hget]
  exact run_modifyClaim _

end Entries

/-! ## The sweep -/

/-- A record after its share of an epoch is paid. -/
def swept (epoch : ℕ) (r : TrackerSubEscrow) : TrackerSubEscrow :=
  { r with paidOut := r.paidOut + subscriptionFee epoch r }

/-- The observers of the tag can share their half in whole hunits, or there are none. -/
def Even (order : Tally.HashOrder String) (epoch : ℕ) (s : Chain) (r : TrackerSubEscrow) : Prop :=
  subscriptionObservers order epoch r.serialCommitment s = [] ∨
    (subscriptionObservers order epoch r.serialCommitment s).length ∣
      wrapMul (subscriptionFee epoch r) 50 / 100

instance (order : Tally.HashOrder String) (epoch : ℕ) (s : Chain) (r : TrackerSubEscrow) :
    Decidable (Even order epoch s r) := inferInstanceAs (Decidable (_ ∨ _))

section Sweep

variable {order : Tally.HashOrder String} {epoch : ℕ} {s : Chain} {key : String}
  {r : TrackerSubEscrow}

theorem subscriptionFee_le (epoch : ℕ) (r : TrackerSubEscrow) :
    subscriptionFee epoch r ≤ r.totalEscrowed - r.paidOut := by
  unfold subscriptionFee
  split
  · exact Nat.zero_le _
  · exact min_le_right _ _

theorem swept_of_zero (h : subscriptionFee epoch r = 0) : swept epoch r = r := by
  unfold swept
  rw [h, Nat.add_zero]

/-- What the observers do not share goes to the two funds. -/
theorem run_releaseSubscription (hcap : Roomy s)
    (hget : s.stateGet .trackerSubEscrow key = some r) (heven : Even order epoch s r) :
    ∃ v : Chain, v.holdings = s.holdings + subscriptionFee epoch r ∧ v.state = s.state ∧
      (releaseSubscription order epoch (subscriptionFee epoch r) key r).run s =
        (.ok (), v.stateSet .trackerSubEscrow key (swept epoch r)) := by
  have hfee := subscriptionFee_le epoch r
  unfold Even at heven
  unfold Roomy at hcap
  have hcuts : wrapMul (subscriptionFee epoch r) 50 / 100 ≤ subscriptionFee epoch r / 2 := by
    have := Nat.mod_le (subscriptionFee epoch r * 50) (2 ^ 64)
    unfold wrapMul
    omega
  have htreasury : wrapMul (subscriptionFee epoch r) 15 / 100 ≤ subscriptionFee epoch r / 2 := by
    have := Nat.mod_le (subscriptionFee epoch r * 15) (2 ^ 64)
    unfold wrapMul
    omega
  unfold releaseSubscription swept
  rw [run_inspect_bind]
  generalize subscriptionFee epoch r = fee at hfee hcuts htreasury heven ⊢
  generalize subscriptionObservers order epoch r.serialCommitment s = observers at heven ⊢
  generalize wrapMul fee 50 / 100 = observerCut at hcuts heven ⊢
  generalize wrapMul fee 15 / 100 = treasuryCut at htreasury ⊢
  dsimp only
  have hpays : ∀ (account : String) (n : ℕ), PaysOut .trackerSubEscrow key n
      (when (0 < n) (ignoreErr (credit account nativeToken n)) : Prog {} Unit) :=
    fun account n => (paysOut_credit (by decide) account).ignoreErr.whenPos
  have hfunds : PaysOut .trackerSubEscrow key (treasuryCut + (fee - observerCut - treasuryCut)) (do
      when (0 < treasuryCut) (ignoreErr (credit treasuryName nativeToken treasuryCut))
      when (0 < fee - observerCut - treasuryCut)
        (ignoreErr (credit recycleFund nativeToken (fee - observerCut - treasuryCut))) :
      Prog {} Unit) := (hpays _ _).bind (hpays _ _)
  have hclose : ∀ m : Prog {} Unit, PaysOut .trackerSubEscrow key observerCut m →
      ∃ v : Chain, v.holdings = s.holdings + fee ∧ v.state = s.state ∧ (do
        m
        when (0 < treasuryCut) (ignoreErr (credit treasuryName nativeToken treasuryCut))
        when (0 < fee - observerCut - treasuryCut)
          (ignoreErr (credit recycleFund nativeToken (fee - observerCut - treasuryCut)))
        stateSet .trackerSubEscrow key { r with paidOut := r.paidOut + fee } : Prog {} Unit).run s =
          (.ok (), v.stateSet .trackerSubEscrow key { r with paidOut := r.paidOut + fee }) := by
    intro m hm
    obtain ⟨v, hrun, hhold, hstate⟩ := (hm.bind (g := fun _ => _) hfunds) s (by
      unfold Room
      rw [escrowAt_of_get hget, escrowed]
      omega)
    refine ⟨v, by omega, hstate, ?_⟩
    obtain ⟨⟨⟩, u, hrun₁, hrun₂⟩ := run_bind_eq_ok.1 hrun
    obtain ⟨⟨⟩, w, hrun₃, hrun₄⟩ := run_bind_eq_ok.1 hrun₂
    rw [run_bind_ok hrun₁, run_bind_ok hrun₃, run_bind_ok hrun₄, run_stateSet]
  split
  · next hpos =>
    refine hclose _ ?_
    have hall : PaysOut .trackerSubEscrow key (observerCut / observers.length * observers.length)
        (observers.forM fun o => when (0 < observerCut / observers.length)
          (ignoreErr (applyTrackerCoverageReward ⟨o, observerCut / observers.length, epoch⟩))) :=
      paysOut_forM fun o _ => hpays o (observerCut / observers.length)
    rcases heven with hnil | hdvd
    · rw [hnil] at hpos
      exact absurd hpos (Nat.lt_irrefl 0)
    · rwa [Nat.div_mul_cancel hdvd] at hall
  · exact hclose _ (paysOut_credit (by decide) recycleFund).ignoreErr

/-- What a sweep leaves: every record has paid its share of the epoch. -/
structure SweptTo (epoch : ℕ) (s t : Chain) : Prop where
  holdings : t.holdings = s.holdings
  other : ∀ f, f ≠ .trackerSubEscrow → t.state f = s.state f
  record : ∀ key, t.stateGet .trackerSubEscrow key =
    (s.stateGet .trackerSubEscrow key).map (swept epoch)

/-- One record is paid its share if one is due, and no other is touched. -/
theorem visit_row {row : String × TrackerSubEscrow} {t : Chain} (hcap : Roomy s)
    (hhold : t.holdings = s.holdings) (hother : ∀ f, f ≠ .trackerSubEscrow → t.state f = s.state f)
    (hget : t.stateGet .trackerSubEscrow row.1 = some row.2)
    (heven : 0 < subscriptionFee epoch row.2 → Even order epoch s row.2) :
    ∃ u, (when (0 < subscriptionFee epoch row.2) (releaseSubscription order epoch
      (subscriptionFee epoch row.2) row.1 row.2)).run t = (.ok (), u) ∧
      (u.holdings = s.holdings ∧ ∀ f, f ≠ .trackerSubEscrow → u.state f = s.state f) ∧
      u.stateGet .trackerSubEscrow row.1 = some (swept epoch row.2) ∧
      ∀ k, k ≠ row.1 → u.stateGet .trackerSubEscrow k = t.stateGet .trackerSubEscrow k := by
  rw [run_when]
  split
  · next hpos =>
    have heven' : Even order epoch t row.2 := by
      have hroute : subscriptionObservers order epoch row.2.serialCommitment t =
          subscriptionObservers order epoch row.2.serialCommitment s := by
        unfold subscriptionObservers Chain.records
        rw [hother .trackerRoute (by decide)]
      unfold Even
      rw [hroute]
      exact heven hpos
    have hcap' : Roomy t := by
      unfold Roomy
      rw [hhold]
      exact hcap
    obtain ⟨v, hpaid, hstate, hrun⟩ := run_releaseSubscription hcap' hget heven'
    have hfee := subscriptionFee_le epoch row.2
    have hsame : ∀ key, v.stateGet .trackerSubEscrow key = t.stateGet .trackerSubEscrow key :=
      stateGet_of_state (congrFun hstate _)
    refine ⟨_, hrun, ⟨?_, ?_⟩, ?_, ?_⟩
    · have hset := holdings_stateSet v row.1 (swept epoch row.2) (f := .trackerSubEscrow) (by decide)
      have hat : v.escrowAt .trackerSubEscrow row.1 = row.2.totalEscrowed - row.2.paidOut := by
        rw [escrowAt_of_get (v := row.2) ((hsame _).trans hget), escrowed]
      rw [hat, escrowed] at hset
      unfold swept at hset ⊢
      dsimp only at hset
      rw [← hhold]
      omega
    · intro f hf
      rw [v.state_stateSet_of_ne hf, hstate]
      exact hother f hf
    · rw [stateGet_stateSet, if_pos rfl]
    · intro k hk
      rw [stateGet_stateSet, if_neg hk.symm, hsame]
  · next hzero =>
    refine ⟨t, rfl, ⟨hhold, hother⟩, ?_, fun _ _ => rfl⟩
    rw [hget, swept_of_zero (Nat.eq_zero_of_not_pos hzero)]

theorem run_sweep (hcap : Roomy s)
    (heven : ∀ r ∈ (s.state .trackerSubEscrow).scan (hasPrefix ""),
      0 < subscriptionFee epoch r.2 → Even order epoch s r.2) :
    SweptTo epoch s ((sweepTrackerSubscriptionFees order epoch).run s).2 := by
  unfold sweepTrackerSubscriptionFees
  rw [run_stateScan_bind]
  obtain ⟨u, hrun, ⟨hhold, hother⟩, hrecord⟩ := run_rows (f := .trackerSubEscrow) (s := s)
    (swept epoch) (fun _ t => t.holdings = s.holdings ∧
      ∀ f, f ≠ .trackerSubEscrow → t.state f = s.state f)
    (fun row rest t hrow hI hget => visit_row hcap hI.1 hI.2 hget (heven row hrow))
    ⟨rfl, fun _ _ => rfl⟩
  rw [hrun]
  exact ⟨hhold, hother, hrecord⟩

end Sweep

/-! ## Runs -/

/-- The chain, with the first epoch that no sweep has reached yet. -/
structure World where
  chain : Chain
  next : ℕ

/-- The entries of trackers, and the sweep of an epoch. -/
inductive TrackerOp where
  | subscribe (p : TrackerSubscription)
  | sighting (p : TrackerSightingData)
  | lost (p : TrackerLostMode)
  | confirm (p : TrackerFoundConfirm)
  | sweep (order : Tally.HashOrder String) (epoch : ℕ)

/-- What a call leaves, whether it went through or not. -/
def TrackerOp.apply (w : World) : TrackerOp → World
  | .subscribe p => { w with chain := ((applyTrackerSubscription p).run w.chain).2 }
  | .sighting p => { w with chain := ((applyTrackerSightingData p).run w.chain).2 }
  | .lost p => { w with chain := ((applyTrackerLostMode p).run w.chain).2 }
  | .confirm p => { w with chain := ((applyTrackerFoundConfirm p).run w.chain).2 }
  | .sweep order epoch =>
    ⟨((sweepTrackerSubscriptionFees order epoch).run w.chain).2, epoch + 1⟩

/-- Trackers on a chain that has no subscriptions yet. What else happens there moves native coin
between accounts at most. -/
def trackers (start : Chain) : Component World TrackerOp where
  init := fun w => w.chain = start ∧ ∀ key, start.stateGet .trackerSubEscrow key = none
  step := TrackerOp.apply
  other := fun w w' => w'.next = w.next ∧ w'.chain.nativeBalances = w.chain.nativeBalances ∧
    w'.chain.state .trackerSubEscrow = w.chain.state .trackerSubEscrow ∧
    w'.chain.state .trackerLostEscrow = w.chain.state .trackerLostEscrow

/-- From `epoch` to the expiry there are enough epochs to pay what is left. -/
def InTime (epoch : ℕ) (r : TrackerSubEscrow) : Prop :=
  r.totalEscrowed - r.paidOut ≤ r.feePerEpoch * (r.expiresEpoch + 1 - max epoch r.startEpoch)

instance (epoch : ℕ) (r : TrackerSubEscrow) : Decidable (InTime epoch r) :=
  inferInstanceAs (Decidable (_ ≤ _))

/-- No record is overwritten that holds something, no bounty is confirmed twice, observers share
evenly, and a subscription is made, and swept, in time. -/
def Safe (w : World) : TrackerOp → Prop
  | .subscribe p => Subscribes w.chain p →
      w.chain.escrowAt .trackerSubEscrow (trackerKey p.claimer p.serialCommitment) = 0 ∧
        InTime w.next (subscription p)
  | .sighting _ => True
  | .lost p => Declares w.chain p →
      w.chain.escrowAt .trackerLostEscrow (trackerKey p.claimer p.serialCommitment) = 0
  | .confirm p =>
      ∀ r ∈ w.chain.stateGet .trackerLostEscrow (trackerKey p.claimer p.serialCommitment),
        r.status = "active" ∧ Roomy w.chain
  | .sweep order epoch => w.next ≤ epoch ∧ Roomy w.chain ∧
      ∀ row ∈ (w.chain.state .trackerSubEscrow).scan (hasPrefix ""),
        (0 < subscriptionFee epoch row.2 → Even order epoch w.chain row.2) ∧ InTime epoch row.2

instance (s : Chain) : Decidable (Roomy s) := inferInstanceAs (Decidable (_ < _))

instance (w : World) : (op : TrackerOp) → Decidable (Safe w op)
  | .subscribe p => inferInstanceAs (Decidable (Subscribes w.chain p → _ ∧ _))
  | .sighting _ => .isTrue trivial
  | .lost p => inferInstanceAs (Decidable (Declares w.chain p → _))
  | .confirm p => inferInstanceAs (Decidable (∀ r ∈
      w.chain.stateGet .trackerLostEscrow (trackerKey p.claimer p.serialCommitment), _ ∧ _))
  | .sweep _ _ => inferInstanceAs (Decidable (_ ∧ _ ∧
      ∀ row ∈ (w.chain.state .trackerSubEscrow).scan (hasPrefix ""), (_ → _) ∧ _))

/-- A bounty goes to the record under `key`. -/
def Posts (key : String) (c : World × TrackerOp) : Prop :=
  ∃ p, c.2 = .lost p ∧ trackerKey p.claimer p.serialCommitment = key ∧ Declares c.1.chain p

/-- The bounty of the record under `key` is paid. -/
def Releases (key : String) (c : World × TrackerOp) : Prop :=
  ∃ p, c.2 = .confirm p ∧ trackerKey p.claimer p.serialCommitment = key ∧
    ∃ r, c.1.chain.stateGet .trackerLostEscrow key = some r ∧ 0 < r.bountyHunits

/-- Nothing is lost or made, each bounty is paid once, and a subscription that has expired is
spent. -/
structure Sound (start : Chain) (hist : List (World × TrackerOp)) (w : World) : Prop where
  constant : money w.chain = money start
  once : ∀ key later second middle first earlier,
    hist = later ++ second :: (middle ++ first :: earlier) →
      Releases key first → Releases key second → ∃ c ∈ middle, Posts key c
  spent : ∀ key r, w.chain.stateGet .trackerSubEscrow key = some r → r.expiresEpoch < w.next →
    r.totalEscrowed ≤ r.paidOut

/-! ### One step -/

section Step

variable {w : World} {op : TrackerOp}

/-- The record of a subscription after a step. -/
def subscriptionAfter (w : World) (key : String) : TrackerOp → Option TrackerSubEscrow
  | .subscribe p =>
    if Subscribes w.chain p ∧ trackerKey p.claimer p.serialCommitment = key then
      some (subscription p) else w.chain.stateGet .trackerSubEscrow key
  | .sweep _ epoch => (w.chain.stateGet .trackerSubEscrow key).map (swept epoch)
  | _ => w.chain.stateGet .trackerSubEscrow key

/-- The record of a bounty after a step. -/
def bountyAfter (w : World) (key : String) : TrackerOp → Option TrackerLostEscrow
  | .lost p =>
    if Declares w.chain p ∧ trackerKey p.claimer p.serialCommitment = key then some (bounty p)
    else w.chain.stateGet .trackerLostEscrow key
  | .confirm p =>
    if trackerKey p.claimer p.serialCommitment = key then
      (w.chain.stateGet .trackerLostEscrow key).map (confirmed p.epoch)
    else w.chain.stateGet .trackerLostEscrow key
  | _ => w.chain.stateGet .trackerLostEscrow key

/-- What a step does to the holdings and to the two families. -/
structure Does (w : World) (op : TrackerOp) : Prop where
  holdings : (op.apply w).chain.holdings = w.chain.holdings
  subscriptions : ∀ key, (op.apply w).chain.stateGet .trackerSubEscrow key =
    subscriptionAfter w key op
  bounties : ∀ key, (op.apply w).chain.stateGet .trackerLostEscrow key = bountyAfter w key op

theorem does_subscribe {p : TrackerSubscription} (hop : Safe w (.subscribe p)) :
    Does w (.subscribe p) := by
  have hrun : ((TrackerOp.subscribe p).apply w).chain = _ := run_subscription (s := w.chain) p
  by_cases hsub : Subscribes w.chain p
  · rw [if_pos hsub] at hrun
    have hset := holdings_stateSet (w.chain.debited p.claimer nativeToken (totalFee p))
      (trackerKey p.claimer p.serialCommitment) (subscription p) (f := .trackerSubEscrow) (by decide)
    have hdeb := holdings_debited_native hsub.2.2
    have hat : (w.chain.debited p.claimer nativeToken (totalFee p)).escrowAt .trackerSubEscrow
        (trackerKey p.claimer p.serialCommitment) = 0 := (hop hsub).1
    rw [hat, escrowed] at hset
    refine ⟨?_, ?_, ?_⟩
    · rw [hrun]
      unfold subscription at hset ⊢
      dsimp only at hset ⊢
      omega
    · intro key
      rw [hrun, stateGet_stateSet]
      dsimp only [subscriptionAfter]
      by_cases hkey : trackerKey p.claimer p.serialCommitment = key
      · rw [if_pos hkey, if_pos ⟨hsub, hkey⟩]
      · rw [if_neg hkey, if_neg fun h => hkey h.2]
        rfl
    · intro key
      rw [hrun, stateGet_stateSet_of_ne _ (by decide)]
      rfl
  · rw [if_neg hsub] at hrun
    refine ⟨by rw [hrun], ?_, fun key => by rw [hrun]; rfl⟩
    intro key
    rw [hrun]
    dsimp only [subscriptionAfter]
    rw [if_neg fun h => hsub h.1]

theorem does_lost {p : TrackerLostMode} (hop : Safe w (.lost p)) : Does w (.lost p) := by
  have hrun : OnClaims _ ((TrackerOp.lost p).apply w).chain := run_lostMode (s := w.chain) p
  by_cases hdec : Declares w.chain p
  · rw [if_pos hdec] at hrun
    have hset := holdings_stateSet (w.chain.debited p.claimer nativeToken p.bountyHunits)
      (trackerKey p.claimer p.serialCommitment) (bounty p) (f := .trackerLostEscrow) (by decide)
    have hdeb := holdings_debited_native hdec.2
    have hat : (w.chain.debited p.claimer nativeToken p.bountyHunits).escrowAt .trackerLostEscrow
        (trackerKey p.claimer p.serialCommitment) = 0 := hop hdec
    rw [hat, escrowed] at hset
    refine ⟨?_, ?_, ?_⟩
    · rw [hrun.holdings]
      unfold bounty at hset ⊢
      dsimp only at hset ⊢
      rw [if_pos rfl] at hset
      omega
    · intro key
      rw [stateGet_of_state (hrun.state (by decide)),
        stateGet_stateSet_of_ne _ (by decide)]
      rfl
    · intro key
      rw [stateGet_of_state (hrun.state (by decide)), stateGet_stateSet]
      dsimp only [bountyAfter]
      by_cases hkey : trackerKey p.claimer p.serialCommitment = key
      · rw [if_pos hkey, if_pos ⟨hdec, hkey⟩]
      · rw [if_neg hkey, if_neg fun h => hkey h.2]
        rfl
  · rw [if_neg hdec] at hrun
    refine ⟨hrun.holdings, fun key => stateGet_of_state (hrun.state (by decide)) key, ?_⟩
    intro key
    rw [stateGet_of_state (hrun.state (by decide))]
    dsimp only [bountyAfter]
    rw [if_neg fun h => hdec h.1]

theorem does_confirm {p : TrackerFoundConfirm} (hop : Safe w (.confirm p)) :
    Does w (.confirm p) := by
  cases hget : w.chain.stateGet .trackerLostEscrow (trackerKey p.claimer p.serialCommitment) with
  | none =>
    have hrun : OnClaims w.chain ((TrackerOp.confirm p).apply w).chain := run_foundConfirm_none hget
    refine ⟨hrun.holdings, fun key => stateGet_of_state (hrun.state (by decide)) key, ?_⟩
    intro key
    rw [stateGet_of_state (hrun.state (by decide))]
    dsimp only [bountyAfter]
    split
    · next hkey =>
      rw [← hkey, hget]
      rfl
    · rfl
  | some r =>
    obtain ⟨hactive, hroomy⟩ := hop r hget
    obtain ⟨v, hhold, hstate, hrun⟩ := run_foundConfirm hroomy hactive hget
    have hrun' : OnClaims _ ((TrackerOp.confirm p).apply w).chain := hrun
    have hsame : ∀ f key, v.stateGet f key = w.chain.stateGet f key := fun f =>
      stateGet_of_state (congrFun hstate f)
    have hset := holdings_stateSet v (trackerKey p.claimer p.serialCommitment)
      (confirmed p.epoch r) (f := .trackerLostEscrow) (by decide)
    rw [escrowAt_of_get ((hsame _ _).trans hget), escrowed, escrowed, if_pos hactive] at hset
    refine ⟨?_, ?_, ?_⟩
    · rw [hrun'.holdings]
      rw [if_neg (status_confirmed _ _)] at hset
      omega
    · intro key
      rw [stateGet_of_state (hrun'.state (by decide)),
        stateGet_stateSet_of_ne _ (by decide), hsame]
      rfl
    · intro key
      rw [stateGet_of_state (hrun'.state (by decide)), stateGet_stateSet, hsame]
      dsimp only [bountyAfter]
      split
      · next hkey =>
        rw [← hkey, hget]
        rfl
      · rfl

theorem does_sweep {order : Tally.HashOrder String} {epoch : ℕ} (hop : Safe w (.sweep order epoch)) :
    Does w (.sweep order epoch) := by
  obtain ⟨-, hroomy, hrows⟩ := hop
  have hrun : SweptTo epoch w.chain ((TrackerOp.sweep order epoch).apply w).chain :=
    run_sweep hroomy fun row hrow => (hrows row hrow).1
  exact ⟨hrun.holdings, hrun.record, stateGet_of_state (hrun.other _ (by decide))⟩

theorem does_of_safe (hop : Safe w op) : Does w op := by
  cases op with
  | subscribe p => exact does_subscribe hop
  | sighting p =>
    refine ⟨holdings_stateSet_other _ _ _ (by decide), ?_, ?_⟩ <;>
      exact fun key => stateGet_stateSet_of_ne _ (by decide) _ _ _
  | lost p => exact does_lost hop
  | confirm p => exact does_confirm hop
  | sweep order epoch => exact does_sweep hop

/-- The families that the entries and the sweep write. -/
def trackerFamilies : List Family :=
  [.trackerClaim, .trackerRoute, .trackerSubEscrow, .trackerLostEscrow]

theorem touches_modifyClaim {W : Footprint} (key : String)
    (g : TrackerClaimRecord → TrackerClaimRecord) :
    Along (Touch { f | f ∈ trackerFamilies })
      (stateModify .trackerClaim key g : Prog W Unit) := by
  refine along_inspect.bind fun found => ?_
  cases found with
  | none => exact along_pure _
  | some r => exact touches_stateSet (by decide) _ _ _

theorem touch_apply (w : World) (op : TrackerOp) :
    Touch { f | f ∈ trackerFamilies } w.chain (op.apply w).chain := by
  cases op with
  | subscribe p =>
    have halong : Along (Touch { f | f ∈ trackerFamilies }) (applyTrackerSubscription p) :=
      along_inspect.bind fun _ => touches_orBail.bind fun _ => touches_ensure.bind fun _ =>
        touches_when ((touches_debit _).bind fun _ => touches_stateSet (by decide) _ _ _)
    exact halong w.chain
  | sighting p => exact touch_stateSet (by decide) _ _ _
  | lost p =>
    have halong : Along (Touch { f | f ∈ trackerFamilies }) (applyTrackerLostMode p) :=
      Along.bind (touches_when ((touches_debit _).bind fun _ =>
        touches_stateSet (by decide) _ _ _)) fun _ => touches_modifyClaim _ _
    exact halong w.chain
  | confirm p =>
    have halong : Along (Touch { f | f ∈ trackerFamilies }) (applyTrackerFoundConfirm p) := by
      refine along_inspect.bind fun found => ?_
      cases found with
      | none => exact touches_modifyClaim _ _
      | some r =>
        exact Along.bind (touches_when (touches_credit.bind fun _ => touches_credit.bind fun _ =>
          touches_credit)) fun _ => (touches_stateSet (by decide) _ _ _).bind fun _ =>
          touches_modifyClaim _ _
    exact halong w.chain
  | sweep order epoch =>
    exact touches_sweepTrackerSubscriptionFees epoch (W := { f | f ∈ trackerFamilies })
      (by decide) order w.chain

/-- What the holdings keep is kept between balances and the two families. -/
theorem Does.money (h : Does w op) : money (op.apply w).chain = money w.chain := by
  have htouch := holdings_of_touch trackerFamilies (touch_apply w op)
  have hfilter : escrowFamilies.filter (· ∈ trackerFamilies) =
      [.trackerSubEscrow, .trackerLostEscrow] := by decide
  rw [hfilter, h.holdings] at htouch
  simp only [List.map_cons, List.map_nil, List.sum_cons, List.sum_nil, Nat.add_zero] at htouch
  unfold Trackers.money
  omega

/-- What is paid out in time leaves the rest in time. -/
theorem InTime.swept {epoch : ℕ} {r : TrackerSubEscrow} (h : InTime epoch r) :
    InTime (epoch + 1) (swept epoch r) := by
  unfold InTime Trackers.swept subscriptionFee at *
  dsimp only
  split
  · next hout =>
    rcases hout with hexpired | hearly
    · have hnone : r.expiresEpoch + 1 - max epoch r.startEpoch = 0 := by omega
      rw [hnone, Nat.mul_zero] at h
      omega
    · have hstart : max (epoch + 1) r.startEpoch = max epoch r.startEpoch := by omega
      rw [hstart, Nat.add_zero]
      exact h
  · next hin =>
    have hnow : r.expiresEpoch + 1 - max epoch r.startEpoch =
        r.expiresEpoch + 1 - max (epoch + 1) r.startEpoch + 1 := by omega
    rw [hnow, Nat.mul_succ] at h
    omega

/-- In time at the end means spent. -/
theorem InTime.spent {epoch : ℕ} {r : TrackerSubEscrow} (h : InTime epoch r)
    (hend : r.expiresEpoch < epoch) : r.totalEscrowed ≤ r.paidOut := by
  unfold InTime at h
  have hnone : r.expiresEpoch + 1 - max epoch r.startEpoch = 0 := by omega
  rw [hnone, Nat.mul_zero] at h
  omega

end Step

/-! ### The results -/

section Results

variable {start : Chain} {hist : List (World × TrackerOp)} {w : World}

theorem money_run (h : Run (trackers start) Safe hist w) : money w.chain = money start := by
  refine h.invariant (I := fun w => money w.chain = money start) ?_ ?_ ?_
  · rintro w ⟨rfl, -⟩
    rfl
  · intro w op hop hI
    exact (does_of_safe hop).money.trans hI
  · rintro w w' ⟨-, hbalances, hsub, hlost⟩ hI
    rw [← hI]
    unfold money Chain.escrowOf
    rw [hbalances, hsub, hlost]

/-- A bounty that was paid is closed until another is posted. -/
theorem closed_run {key : String} (h : Run (trackers start) Safe hist w)
    (hpaid : Since (Releases key) (Posts key) hist) :
    ∀ r, w.chain.stateGet .trackerLostEscrow key = some r → r.status ≠ "active" := by
  induction h with
  | start => exact absurd hpaid id
  | @step hist w op hrun hop ih =>
    intro r hget
    rw [show (trackers start).step w op = op.apply w from rfl, (does_of_safe hop).bounties] at hget
    cases op with
    | lost p =>
      dsimp only [bountyAfter] at hget
      rcases hpaid with ⟨q, hq, -⟩ | ⟨hnot, hbefore⟩
      · cases hq
      split at hget
      · next hposts => exact absurd ⟨p, rfl, hposts.2, hposts.1⟩ hnot
      · exact ih hbefore r hget
    | confirm p =>
      dsimp only [bountyAfter] at hget
      split at hget
      · obtain ⟨r₀, -, rfl⟩ := Option.map_eq_some_iff.1 hget
        exact status_confirmed _ _
      · next hkey =>
        rcases hpaid with ⟨q, hq, hqkey, -⟩ | ⟨-, hbefore⟩
        · cases hq
          exact absurd hqkey hkey
        · exact ih hbefore r hget
    | subscribe p =>
      rcases hpaid with ⟨q, hq, -⟩ | ⟨-, hbefore⟩
      · cases hq
      · exact ih hbefore r hget
    | sighting p =>
      rcases hpaid with ⟨q, hq, -⟩ | ⟨-, hbefore⟩
      · cases hq
      · exact ih hbefore r hget
    | sweep order epoch =>
      rcases hpaid with ⟨q, hq, -⟩ | ⟨-, hbefore⟩
      · cases hq
      · exact ih hbefore r hget
  | other _ hs ih =>
    intro r hget
    exact ih hpaid r (by rwa [← stateGet_of_state hs.2.2.2])

theorem once_run {key : String} {later middle earlier : List (World × TrackerOp)}
    {first second : World × TrackerOp}
    (h : Run (trackers start) Safe (later ++ second :: (middle ++ first :: earlier)) w)
    (hfirst : Releases key first) (hsecond : Releases key second) : ∃ c ∈ middle, Posts key c := by
  by_contra hnone
  push Not at hnone
  obtain ⟨hrun, hop⟩ := h.cut
  have hclosed := closed_run hrun (since_iff.2 ⟨middle, first, earlier, rfl, hfirst, hnone⟩)
  obtain ⟨p, hp, hkey, r, hget, -⟩ := hsecond
  rw [hp] at hop
  exact hclosed r hget (hop r (by rwa [hkey])).1

end Results

/-! ### A tag of alice's -/

end HoneNode.Trackers
