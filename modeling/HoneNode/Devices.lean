import HoneNode.Lib.Trace
import HoneNode.Rewards.Holdings

/-!
# Devices — device claims and the stakes behind them

A claim holds a stake, and a higher bid sends it back. The bid is recorded in
full although its premium has been paid out, so every premium is created; a
claim that is renewed loses what it held. The stakers who share a premium are
found by a prefix of their keys, and keys of a longer serial may have it too.
-/

namespace HoneNode.Devices

open Entry Prog Within Trace

/-! ## What is recorded -/

/-- What the owners and stakers of devices have, in hand and on record. -/
def worth (s : Chain) : ℕ :=
  s.nativeBalances + s.escrowOf .deviceClaim + s.escrowOf .yieldStake + s.escrowOf .unbonding

/-- Neither balances nor the three kinds of records differ. -/
structure Still (s t : Chain) : Prop where
  balances : t.balances = s.balances
  claims : t.state .deviceClaim = s.state .deviceClaim
  yields : t.state .yieldStake = s.state .yieldStake
  unbondings : t.state .unbonding = s.state .unbonding

section Worth

variable {s t : Chain}

theorem Still.of_noted (h : Noted s t) : Still s t where
  balances := h.balances
  claims := h.state _ (by decide)
  yields := h.state _ (by decide)
  unbondings := h.state _ (by decide)

theorem worth_congr (h : Still s t) : worth t = worth s := by
  unfold worth
  rw [nativeBalances_congr h.balances, escrowOf_congr h.claims, escrowOf_congr h.yields,
    escrowOf_congr h.unbondings]

theorem worth_credited (a : String) (n : ℕ) : worth (s.credited a nativeToken n) = worth s + n := by
  have hsum := nativeBalances_credited s a n
  have hrest : (s.credited a nativeToken n).escrowOf = s.escrowOf := rfl
  unfold worth
  rw [hrest]
  omega

theorem worth_debited {a : String} {n : ℕ} (h : n ≤ native s a) :
    worth (s.debited a nativeToken n) + n = worth s := by
  have hsum := nativeBalances_debited h
  have hrest : (s.debited a nativeToken n).escrowOf = s.escrowOf := rfl
  unfold worth
  rw [hrest]
  omega

/-- A record of one of the three kinds counts by what it holds. -/
theorem worth_of_family {f : Family} (hf : f = .deviceClaim ∨ f = .yieldStake ∨ f = .unbonding)
    (hb : t.balances = s.balances) (hs : ∀ g, g ≠ f → t.state g = s.state g) :
    worth t + s.escrowOf f = worth s + t.escrowOf f := by
  have hsame : ∀ g, g ≠ f → t.escrowOf g = s.escrowOf g := fun g hg => escrowOf_congr (hs g hg)
  have hbal := nativeBalances_congr hb
  unfold worth
  rcases hf with rfl | rfl | rfl
  · rw [hsame .yieldStake (by decide), hsame .unbonding (by decide)]
    omega
  · rw [hsame .deviceClaim (by decide), hsame .unbonding (by decide)]
    omega
  · rw [hsame .deviceClaim (by decide), hsame .yieldStake (by decide)]
    omega

theorem worth_stateSet {f : Family} (hf : f = .deviceClaim ∨ f = .yieldStake ∨ f = .unbonding)
    (key : String) (v : f.Val) :
    worth (s.stateSet f key v) + s.escrowAt f key = worth s + escrowed f v := by
  have hown := escrowOf_stateSet s key v
  have hworth := worth_of_family hf (s.stateSet_balances f key v)
    fun g hg => s.state_stateSet_of_ne hg key v
  omega

theorem worth_stateDelete {f : Family} (hf : f = .deviceClaim ∨ f = .yieldStake ∨ f = .unbonding)
    (key : String) : worth (s.stateDelete f key) + s.escrowAt f key = worth s := by
  have hown := escrowOf_stateDelete s (f := f) key
  have hworth := worth_of_family hf (s.stateDelete_balances f key)
    fun g hg => s.state_stateDelete_of_ne hg key
  omega

theorem worth_stateSet_yield (key serial staker : String) (n : ℕ) :
    worth (s.stateSet .yieldStake key ⟨serial, staker, n⟩) + s.escrowAt .yieldStake key =
      worth s + n := worth_stateSet (f := .yieldStake) (.inr (.inl rfl)) key _

theorem worth_stateSet_unbonding (key account : String) (n release : ℕ) :
    worth (s.stateSet .unbonding key ⟨account, n, release⟩) + s.escrowAt .unbonding key =
      worth s + n := worth_stateSet (f := .unbonding) (.inr (.inr rfl)) key _

theorem amount_yield (key : String) :
    ((s.stateGet .yieldStake key).map (·.amount)).getD 0 = s.escrowAt .yieldStake key := by
  unfold Chain.escrowAt
  cases s.stateGet .yieldStake key <;> rfl

theorem amount_unbonding (key : String) :
    ((s.stateGet .unbonding key).map (·.amount)).getD 0 = s.escrowAt .unbonding key := by
  unfold Chain.escrowAt
  cases s.stateGet .unbonding key <;> rfl

/-- What has been queued is there, unless the sum wraps around. -/
theorem worth_queueUnbonding {F : Footprint} (account : String) (amount epoch : ℕ)
    (hfits : s.escrowAt .unbonding (unbondingKey (wrapAdd epoch unbondingEpochs) account) + amount <
      2 ^ 64) :
    worth ((queueUnbonding account amount epoch : Prog F Unit).run s).2 = worth s + amount := by
  unfold queueUnbonding
  dsimp only
  rw [run_stateGet_bind, run_stateSet, amount_unbonding]
  have hset := worth_stateSet_unbonding (s := s)
    (unbondingKey (wrapAdd epoch unbondingEpochs) account) account
    (wrapAdd (s.escrowAt .unbonding (unbondingKey (wrapAdd epoch unbondingEpochs) account)) amount)
    (wrapAdd epoch unbondingEpochs)
  have hsum : wrapAdd (s.escrowAt .unbonding
      (unbondingKey (wrapAdd epoch unbondingEpochs) account)) amount = s.escrowAt .unbonding
        (unbondingKey (wrapAdd epoch unbondingEpochs) account) + amount := Nat.mod_eq_of_lt hfits
  rw [hsum] at hset ⊢
  dsimp only
  omega

end Worth

/-! ## Who is paid -/

/-- The stakers a scan for the device finds. -/
def stakersOf (s : Chain) (serial : String) : List (String × ℕ) :=
  (((s.state .yieldStake).scan (hasPrefix s!"{serial}:")).map
    fun r => (r.2.staker, r.2.amount)).filter fun st => 0 < st.2

/-- What an account gets of a pot, in shares that are rounded down. -/
def shareOf (pot total : ℕ) (stakers : List (String × ℕ)) (a : String) : ℕ :=
  (stakers.map fun st => if st.1 = a then pot * st.2 / total % 2 ^ 64 else 0).sum

/-- What an account gets of the premium over an old claim. -/
def premiumShare (s : Chain) (serial : String) (amount : ℕ) (old : DeviceClaim) (a : String) : ℕ :=
  shareOf ((amount - old.stake) * 5000 / 10000 % 2 ^ 64)
    (((stakersOf s serial).map (·.2)).sum % 2 ^ 64) (stakersOf s serial) a

/-- What the owner of an old claim gets back. -/
def refund (old : DeviceClaim) (a : String) : ℕ := if old.owner = a then old.stake else 0

/-- Every account is given its part, or the payments stop on the way. The recycle fund takes
what is nobody's. -/
structure Gives (given : String → ℕ) (s : Chain) (out : Except Fault Unit × Chain) : Prop where
  state : out.2.state = s.state
  grows : ∀ a, native s a ≤ native out.2 a
  most : ∀ a, a ≠ recycleFund → native out.2 a ≤ native s a + given a
  least : out.1 = .ok () → ∀ a, native s a + given a ≤ native out.2 a

section Gives

variable {s : Chain} {F : Footprint} {given given' : String → ℕ}

theorem gives_pure : Gives (fun _ => 0) s (.ok (), s) :=
  ⟨rfl, fun _ => le_rfl, fun _ _ => le_rfl, fun _ _ => le_rfl⟩

theorem gives_error (e : Fault) : Gives given s (.error e, s) :=
  ⟨rfl, fun _ => le_rfl, fun _ _ => Nat.le_add_right _ _, nofun⟩

theorem gives_credit (a : String) (n : ℕ) :
    Gives (fun b => if a = b then n else 0) s ((credit a nativeToken n : Prog F Unit).run s) := by
  rw [run_credit]
  split
  · refine ⟨rfl, fun b => ?_, fun b _ => ?_, fun _ b => native_credited.ge⟩
    · dsimp only
      rw [native_credited]
      exact Nat.le_add_right _ _
    · exact native_credited.le
  · exact gives_error _

theorem gives_recycled (n : ℕ) :
    Gives (fun _ => 0) s ((ignoreErr (credit recycleFund nativeToken n) : Prog F Unit).run s) := by
  rw [run_ignoreErr, run_credit]
  split
  · refine ⟨rfl, fun b => ?_, fun b hb => ?_, fun _ b => ?_⟩
    · dsimp only
      rw [native_credited]
      exact Nat.le_add_right _ _
    · dsimp only
      rw [native_credited, if_neg hb.symm]
    · dsimp only
      rw [native_credited]
      exact Nat.le_add_right _ _
  · exact gives_pure

theorem Gives.bind {m : Prog F Unit} {f : Unit → Prog F Unit} (hm : Gives given s (m.run s))
    (hf : ∀ t, t.state = s.state → Gives given' t ((f ()).run t)) :
    Gives (fun a => given a + given' a) s ((m >>= f).run s) := by
  obtain ⟨hstate, hgrows, hmost, hleast⟩ := hm
  rcases hrun : m.run s with ⟨e | u, t⟩
  · rw [hrun] at hstate hgrows hmost
    rw [run_bind_error hrun]
    refine ⟨hstate, hgrows, fun a ha => ?_, nofun⟩
    exact (hmost a ha).trans (Nat.add_le_add_left (Nat.le_add_right _ _) _)
  · rw [hrun] at hstate hgrows hmost hleast
    rw [run_bind_ok hrun]
    have hrest : Gives given' t ((f u).run t) := hf t hstate
    refine ⟨hrest.state.trans hstate, fun a => (hgrows a).trans (hrest.grows a), fun a ha => ?_,
      fun hok a => ?_⟩
    · have hfirst := hmost a ha
      have hsecond := hrest.most a ha
      dsimp only at hfirst
      omega
    · have hfirst := hleast rfl a
      have hsecond := hrest.least hok a
      dsimp only at hfirst
      omega

theorem Gives.congr {out : Except Fault Unit × Chain} (h : Gives given s out)
    (heq : ∀ a, given a = given' a) : Gives given' s out := funext heq ▸ h

/-- By induction on the stakers, of whom each is paid after the ones before. -/
theorem gives_payShares (pot total : ℕ) (stakers : List (String × ℕ)) :
    Gives (shareOf pot total stakers) s
      ((payShares pot total (fun a n => credit a nativeToken n) stakers : Prog F Unit).run s) := by
  induction stakers generalizing s with
  | nil => exact gives_pure
  | cons st rest ih =>
    have hone : Gives (fun a => if st.1 = a then pot * st.2 / total % 2 ^ 64 else 0) s
        ((when (0 < pot * st.2 / total % 2 ^ 64)
          (credit st.1 nativeToken (pot * st.2 / total % 2 ^ 64)) : Prog F Unit).run s) := by
      rw [run_when]
      split
      · exact gives_credit _ _
      · next hzero =>
        rw [Nat.eq_zero_of_not_pos hzero]
        exact gives_pure.congr fun a => (ite_self 0).symm
    exact (hone.bind fun t _ => ih).congr fun a => (List.sum_cons).symm

/-- Without a pot or a stake there are no shares. -/
theorem shareOf_eq_zero {pot total : ℕ} (h : ¬ (0 < total ∧ 0 < pot)) (stakers : List (String × ℕ))
    (a : String) : shareOf pot total stakers a = 0 := by
  have hnone : ∀ n, pot * n / total % 2 ^ 64 = 0 := by
    intro n
    rcases Nat.eq_zero_or_pos total with rfl | htotal
    · rw [Nat.div_zero, Nat.zero_mod]
    · have hpot : pot = 0 := Nat.eq_zero_of_not_pos fun hpot => h ⟨htotal, hpot⟩
      rw [hpot, Nat.zero_mul, Nat.zero_div, Nat.zero_mod]
  unfold shareOf
  simp only [hnone, ite_self, List.map_const', List.sum_replicate_nat, Nat.mul_zero]

/-- The settlement of a bid pays the old owner and the stakers found. -/
theorem gives_settleOverbid (serial : String) (amount : ℕ) (old : DeviceClaim) :
    Gives (fun a => refund old a + premiumShare s serial amount old a) s
      ((settleOverbid serial amount old : Prog F Unit).run s) := by
  unfold settleOverbid
  by_cases hbid : old.stake * 3 / 2 % 2 ^ 64 ≤ amount
  case neg =>
    rw [run_bind_error (by rw [run_ensure]; exact if_neg hbid)]
    exact gives_error _
  rw [run_bind_ok (by rw [run_ensure]; exact if_pos hbid)]
  refine (gives_credit _ _).bind fun t ht => ?_
  have hscan : premiumShare s serial amount old = premiumShare t serial amount old := by
    unfold premiumShare stakersOf
    rw [ht]
  rw [hscan, run_ite]
  split
  case isFalse hnone =>
    refine gives_pure.congr fun a => (shareOf_eq_zero ?_ _ _).symm
    rintro ⟨-, hpot⟩
    rw [Nat.eq_zero_of_not_pos hnone] at hpot
    exact absurd hpot (by decide)
  rw [run_stateScan_bind]
  have hrecycle : ∀ u : Chain, Gives (fun _ => 0) u
      ((when (0 < amount - old.stake - (amount - old.stake) * 5000 / 10000 % 2 ^ 64)
        (ignoreErr (credit recycleFund nativeToken
          (amount - old.stake - (amount - old.stake) * 5000 / 10000 % 2 ^ 64))) :
            Prog F Unit).run u) := by
    intro u
    rw [run_when]
    split
    · exact gives_recycled _
    · exact gives_pure
  dsimp only
  rw [run_ite]
  split
  · exact ((gives_payShares _ _ _).bind fun u _ => hrecycle u).congr fun a => Nat.add_zero _
  · next hnone =>
    refine ((gives_recycled _).bind fun u _ => hrecycle u).congr fun a => ?_
    exact (shareOf_eq_zero hnone _ _).symm

end Gives

/-! ## The arms -/

/-- The bid is against someone else's claim. -/
structure Overbids (s : Chain) (p : DeviceClaimStake) (old : DeviceClaim) : Prop where
  found : s.stateGet .deviceClaim p.deviceSerial = some old
  owned : old.owner ≠ ""
  other : old.owner ≠ p.owner

/-- What the bidder pays. -/
def outlay (p : DeviceClaimStake) (a : String) : ℕ := if p.owner = a then p.amount else 0

/-- The old owner is paid back, whether or not the bidder can pay. -/
structure Returns (s : Chain) (p : DeviceClaimStake) (old : DeviceClaim) : Prop where
  enough : old.stake * 3 / 2 % 2 ^ 64 ≤ p.amount
  fits : native s old.owner + old.stake < 2 ^ 64

/-- The end of the arm: the bidder pays and the claim is recorded. -/
def recordClaim (p : DeviceClaimStake) :
    Prog { pays := {balanceKey p.owner nativeToken} } Unit := do
  debit p.owner nativeToken p.amount (owner_pays p)
  stateSet .deviceClaim p.deviceSerial ⟨p.deviceSerial, p.owner, p.amount, p.epoch⟩
    (deviceClaim_open p)

/-- The claim as it is recorded. -/
def claimed (s : Chain) (p : DeviceClaimStake) : Chain :=
  (s.debited p.owner nativeToken p.amount).stateSet .deviceClaim p.deviceSerial
    ⟨p.deviceSerial, p.owner, p.amount, p.epoch⟩

/-- The claim neither meets a premium nor replaces a stake. -/
structure Even (s : Chain) (p : DeviceClaimStake) : Prop where
  bid : ∀ old, Overbids s p old → Returns s p old →
    p.amount ≤ old.stake ∧ p.amount ≤ native s p.owner
  claim : (∀ old, ¬ Overbids s p old) → p.amount ≤ native s p.owner →
    s.escrowAt .deviceClaim p.deviceSerial = 0

section ClaimStake

variable {s : Chain} {p : DeviceClaimStake} {old : DeviceClaim}

theorem run_overbid (h : Overbids s p old) : (applyDeviceClaimStake p).run s =
    (settleOverbid p.deviceSerial p.amount old >>= fun _ => recordClaim p).run
      (s.withAccount p.owner p.epoch) := by
  have hfound : (s.withAccount p.owner p.epoch).stateGet .deviceClaim p.deviceSerial = some old :=
    ((noted_refl s).withAccount _ _).stateGet (by decide) _ |>.trans h.found
  unfold applyDeviceClaimStake
  rw [run_ensureAccount_bind, run_stateGet_bind, hfound]
  dsimp only
  rw [show when (old.owner ≠ "" ∧ old.owner ≠ p.owner) (settleOverbid p.deviceSerial p.amount old) =
    settleOverbid p.deviceSerial p.amount old from if_pos ⟨h.owned, h.other⟩]
  rfl

/-- Without a rival the claim is only recorded. -/
theorem run_claim (h : ∀ old, ¬ Overbids s p old) : (applyDeviceClaimStake p).run s =
    (recordClaim p).run (s.withAccount p.owner p.epoch) := by
  have hfound : (s.withAccount p.owner p.epoch).stateGet .deviceClaim p.deviceSerial =
      s.stateGet .deviceClaim p.deviceSerial :=
    ((noted_refl s).withAccount _ _).stateGet (by decide) _
  unfold applyDeviceClaimStake
  rw [run_ensureAccount_bind, run_stateGet_bind, hfound]
  rcases hget : s.stateGet .deviceClaim p.deviceSerial with _ | old
  · rfl
  · dsimp only
    rw [run_bind_ok (by
      rw [run_when]
      exact if_neg fun hrival => h old ⟨hget, hrival.1, hrival.2⟩)]
    rfl

theorem run_recordClaim : (recordClaim p).run s =
    if p.amount ≤ native s p.owner then (.ok (), claimed s p)
    else (.error (.err
      s!"insufficient balance: {p.owner} has {s.getBalance p.owner nativeToken} {nativeToken}"), s) := by
  unfold recordClaim
  split
  · next hcovered => exact run_debit_bind hcovered
  · next hcovered => exact run_bind_error (by rw [run_debit, if_neg hcovered])

theorem native_claimed (a : String) : native (claimed s p) a = native s a - outlay p a := native_debited

theorem worth_claimed (h : p.amount ≤ native s p.owner) :
    worth (claimed s p) + s.escrowAt .deviceClaim p.deviceSerial = worth s := by
  have hdebited := worth_debited h
  have hset := worth_stateSet (s := s.debited p.owner nativeToken p.amount) (f := .deviceClaim)
    (.inl rfl) p.deviceSerial ⟨p.deviceSerial, p.owner, p.amount, p.epoch⟩
  have hkept : (s.debited p.owner nativeToken p.amount).escrowAt .deviceClaim p.deviceSerial =
    s.escrowAt .deviceClaim p.deviceSerial := rfl
  have hheld : escrowed .deviceClaim
    (⟨p.deviceSerial, p.owner, p.amount, p.epoch⟩ : DeviceClaim) = p.amount := rfl
  rw [hkept, hheld] at hset
  unfold claimed
  omega

/-- The shares are of the stakes, not of the accounts. -/
theorem premiumShare_withAccount : premiumShare (s.withAccount p.owner p.epoch) p.deviceSerial
    p.amount old = premiumShare s p.deviceSerial p.amount old := by
  unfold premiumShare stakersOf
  rw [((noted_refl s).withAccount p.owner p.epoch).state .yieldStake (by decide)]

/-- What a bid does to the balances, also where it fails half way. -/
theorem native_overbid_le (h : Overbids s p old) {a : String} (ha : a ≠ recycleFund) :
    native ((applyDeviceClaimStake p).run s).2 a ≤
      native s a + refund old a + premiumShare s p.deviceSerial p.amount old a := by
  have hnoted := (noted_refl s).withAccount p.owner p.epoch
  have hgives := gives_settleOverbid (s := s.withAccount p.owner p.epoch)
    (F := { pays := {balanceKey p.owner nativeToken} }) p.deviceSerial p.amount old
  have hmost := hgives.most a ha
  rw [premiumShare_withAccount, native_congr hnoted.balances] at hmost
  rw [run_overbid h]
  rcases hrun : (settleOverbid p.deviceSerial p.amount old).run (s.withAccount p.owner p.epoch) with
    ⟨e | u, t⟩
  · rw [hrun] at hmost
    rw [run_bind_error hrun]
    dsimp only at hmost ⊢
    omega
  · rw [hrun] at hmost
    rw [run_bind_ok hrun, run_recordClaim]
    split
    · dsimp only at hmost ⊢
      rw [native_claimed]
      omega
    · dsimp only at hmost ⊢
      omega

theorem native_overbid (h : Overbids s p old) (hok : ((applyDeviceClaimStake p).run s).1 = .ok ())
    (a : String) :
    native s a + refund old a + premiumShare s p.deviceSerial p.amount old a ≤
        native ((applyDeviceClaimStake p).run s).2 a + outlay p a ∧
      (a ≠ recycleFund → native ((applyDeviceClaimStake p).run s).2 a + outlay p a =
        native s a + refund old a + premiumShare s p.deviceSerial p.amount old a) := by
  have hnoted := (noted_refl s).withAccount p.owner p.epoch
  have hgives := gives_settleOverbid (s := s.withAccount p.owner p.epoch)
    (F := { pays := {balanceKey p.owner nativeToken} }) p.deviceSerial p.amount old
  rw [run_overbid h] at hok ⊢
  rcases hrun : (settleOverbid p.deviceSerial p.amount old).run (s.withAccount p.owner p.epoch) with
    ⟨e | u, t⟩
  · rw [run_bind_error hrun] at hok
    cases hok
  · rw [hrun] at hgives
    have hleast := hgives.least rfl a
    have hmost := hgives.most a
    rw [premiumShare_withAccount, native_congr hnoted.balances] at hleast hmost
    rw [run_bind_ok hrun, run_recordClaim] at hok ⊢
    split at hok
    case isFalse => cases hok
    next hcovered =>
      rw [if_pos hcovered]
      have hle : outlay p a ≤ native t a := by
        unfold outlay
        split
        · next hself => exact hself ▸ hcovered
        · exact Nat.zero_le _
      dsimp only at hleast hmost ⊢
      rw [native_claimed, Nat.sub_add_cancel hle]
      refine ⟨by omega, fun ha => ?_⟩
      have := hmost ha
      omega

/-- A bid that is not settled changes nothing. -/
theorem refused_settleOverbid {F : Footprint} (h : ¬ Returns s p old) :
    Refused s ((settleOverbid p.deviceSerial p.amount old : Prog F Unit).run s) := by
  unfold settleOverbid
  by_cases hbid : old.stake * 3 / 2 % 2 ^ 64 ≤ p.amount
  · have hfits : ¬ native s old.owner + old.stake < 2 ^ 64 := fun hfits => h ⟨hbid, hfits⟩
    rw [run_bind_ok (by rw [run_ensure]; exact if_pos hbid)]
    exact ⟨_, run_bind_error (by rw [run_credit, if_neg hfits])⟩
  · exact ⟨_, run_bind_error (by rw [run_ensure]; exact if_neg hbid)⟩

/-- Without a premium the settlement only pays the old owner back. -/
theorem run_settleOverbid {F : Footprint} (h : Returns s p old) (hle : p.amount ≤ old.stake) :
    (settleOverbid p.deviceSerial p.amount old : Prog F Unit).run s =
      (.ok (), s.credited old.owner nativeToken old.stake) := by
  have hnone : ¬ 0 < p.amount - old.stake := by omega
  unfold settleOverbid
  rw [run_bind_ok (by rw [run_ensure]; exact if_pos h.enough),
    run_credit_bind h.fits, run_ite, if_neg hnone, run_pure]

theorem worth_claimStake (h : Even s p) : worth ((applyDeviceClaimStake p).run s).2 = worth s := by
  have hnoted := (noted_refl s).withAccount p.owner p.epoch
  have hworth := worth_congr (Still.of_noted hnoted)
  have hat : (s.withAccount p.owner p.epoch).escrowAt .deviceClaim p.deviceSerial =
    s.escrowAt .deviceClaim p.deviceSerial := escrowAt_congr (hnoted.state _ (by decide)) _
  have hbal : ∀ a, native (s.withAccount p.owner p.epoch) a = native s a := native_congr hnoted.balances
  by_cases hrival : ∃ old, Overbids s p old
  · obtain ⟨old, hold⟩ := hrival
    rw [run_overbid hold]
    by_cases hreturns : Returns s p old
    · have hsettles : Returns (s.withAccount p.owner p.epoch) p old :=
        ⟨hreturns.enough, by rw [hbal]; exact hreturns.fits⟩
      obtain ⟨hle, hcovered⟩ := h.bid old hold hreturns
      rw [run_bind_ok (run_settleOverbid hsettles hle), run_recordClaim]
      have hpays : p.amount ≤
          native ((s.withAccount p.owner p.epoch).credited old.owner nativeToken old.stake) p.owner := by
        rw [native_credited, if_neg hold.other, hbal]
        exact hcovered
      rw [if_pos hpays]
      have hclaimed := worth_claimed hpays
      have hcredited := worth_credited (s := s.withAccount p.owner p.epoch) old.owner old.stake
      have hheld : ((s.withAccount p.owner p.epoch).credited old.owner nativeToken
          old.stake).escrowAt .deviceClaim p.deviceSerial = old.stake :=
        hat.trans (escrowAt_of_get hold.found)
      rw [hheld] at hclaimed
      dsimp only
      omega
    · have hunsettled : ¬ Returns (s.withAccount p.owner p.epoch) p old :=
        fun hr => hreturns ⟨hr.enough, by rw [← hbal]; exact hr.fits⟩
      obtain ⟨msg, hrun⟩ := refused_settleOverbid
        (F := { pays := {balanceKey p.owner nativeToken} }) hunsettled
      rw [run_bind_error hrun]
      exact hworth
  · have hnone : ∀ old, ¬ Overbids s p old := fun old hold => hrival ⟨old, hold⟩
    rw [run_claim hnone, run_recordClaim]
    split
    · next hcovered =>
      have hclaimed := worth_claimed hcovered
      have hfree := h.claim hnone (by rw [← hbal]; exact hcovered)
      rw [hat, hfree] at hclaimed
      dsimp only
      omega
    · exact hworth

end ClaimStake

section Others

variable {s : Chain}

/-- The claim goes into the queue whole, if the sum there fits. -/
theorem worth_claimUnstake {p : DeviceClaimUnstake}
    (h : ∀ claim, s.stateGet .deviceClaim p.deviceSerial = some claim → claim.owner = p.owner →
      s.escrowAt .unbonding (unbondingKey (wrapAdd p.epoch unbondingEpochs) p.owner) + claim.stake <
        2 ^ 64) : worth ((applyDeviceClaimUnstake p).run s).2 = worth s := by
  unfold applyDeviceClaimUnstake
  rw [run_stateGet_bind]
  cases hfound : (s.stateGet .deviceClaim p.deviceSerial).filter (·.owner = p.owner) with
  | none => rfl
  | some claim =>
    rw [run_bind_ok (run_orBail_some _ _ _), run_stateDelete_bind,
      run_ensureAccount_bind]
    obtain ⟨hget, howner⟩ := Option.filter_eq_some_iff.1 hfound
    have hnoted := (noted_refl (s.stateDelete .deviceClaim p.deviceSerial)).withAccount p.owner p.epoch
    have hqueue : ((s.stateDelete .deviceClaim p.deviceSerial).withAccount p.owner p.epoch).state
        .unbonding = s.state .unbonding :=
      (hnoted.state _ (by decide)).trans (s.state_stateDelete_of_ne (by decide) _)
    have hfits := h claim hget (of_decide_eq_true howner)
    rw [← escrowAt_congr hqueue] at hfits
    have hheld : s.escrowAt .deviceClaim p.deviceSerial = claim.stake := escrowAt_of_get hget
    have hdeleted := worth_stateDelete (s := s) (f := .deviceClaim) (.inl rfl) p.deviceSerial
    rw [worth_queueUnbonding p.owner claim.stake p.epoch hfits, worth_congr (Still.of_noted hnoted)]
    omega

/-- What is staked is there, if the sum fits. -/
theorem worth_yieldStake {p : DeviceYieldStake}
    (h : p.amount ≤ native s p.staker →
      s.escrowAt .yieldStake (yieldKey p.deviceSerial p.staker) + p.amount < 2 ^ 64) :
    worth ((applyDeviceYieldStake p).run s).2 = worth s := by
  have hnoted := (noted_refl s).withAccount p.staker p.epoch
  have hworth := worth_congr (Still.of_noted hnoted)
  unfold applyDeviceYieldStake
  rw [run_ensureAccount_bind]
  by_cases hcovered : p.amount ≤ native (s.withAccount p.staker p.epoch) p.staker
  case neg =>
    rw [run_bind_error (by rw [run_debit, if_neg hcovered])]
    exact hworth
  rw [run_debit_bind hcovered, run_stateGet_bind, run_stateSet]
  have hfits := h (by rw [← native_congr hnoted.balances]; exact hcovered)
  have hdebited := worth_debited hcovered
  have hat : ((s.withAccount p.staker p.epoch).debited p.staker nativeToken p.amount).escrowAt
      .yieldStake (yieldKey p.deviceSerial p.staker) =
        s.escrowAt .yieldStake (yieldKey p.deviceSerial p.staker) :=
    escrowAt_congr (hnoted.state .yieldStake (by decide)) _
  have hsum : wrapAdd (s.escrowAt .yieldStake (yieldKey p.deviceSerial p.staker)) p.amount =
    s.escrowAt .yieldStake (yieldKey p.deviceSerial p.staker) + p.amount := Nat.mod_eq_of_lt hfits
  have hset := worth_stateSet_yield
    (s := (s.withAccount p.staker p.epoch).debited p.staker nativeToken p.amount)
    (yieldKey p.deviceSerial p.staker) p.deviceSerial p.staker
    (s.escrowAt .yieldStake (yieldKey p.deviceSerial p.staker) + p.amount)
  rw [amount_yield, hat, hsum]
  rw [hat] at hset
  dsimp only
  omega

/-- What is taken out of a stake is paid, if it fits. -/
theorem worth_yieldUnstake {p : DeviceYieldUnstake}
    (h : p.amount ≤ s.escrowAt .yieldStake (yieldKey p.deviceSerial p.staker) →
      native s p.staker + p.amount < 2 ^ 64) :
    worth ((applyDeviceYieldUnstake p).run s).2 = worth s := by
  unfold applyDeviceYieldUnstake
  dsimp only
  rw [run_stateGet_bind, amount_yield]
  by_cases hle : p.amount ≤ s.escrowAt .yieldStake (yieldKey p.deviceSerial p.staker)
  case neg => rw [run_bind_error (by rw [run_ensure, if_neg hle])]
  rw [run_ensure_bind hle]
  -- the record is lowered, and dropped at zero
  have hpays : ∀ t : Chain, t.balances = s.balances → worth t + p.amount = worth s →
      worth ((credit p.staker nativeToken p.amount : Prog {} Unit).run t).2 = worth s := by
    intro t hb hless
    have hfits := h hle
    rw [← native_congr hb] at hfits
    have hcredited := worth_credited (s := t) p.staker p.amount
    rw [run_credit, if_pos hfits]
    dsimp only
    omega
  rw [run_ite]
  split
  · next hzero =>
    have hdeleted := worth_stateDelete (s := s) (f := .yieldStake) (.inr (.inl rfl))
      (yieldKey p.deviceSerial p.staker)
    rw [run_stateDelete_bind]
    exact hpays _ (s.stateDelete_balances _ _) (by omega)
  · have hset := worth_stateSet_yield (s := s) (yieldKey p.deviceSerial p.staker) p.deviceSerial
      p.staker (s.escrowAt .yieldStake (yieldKey p.deviceSerial p.staker) - p.amount)
    rw [run_stateSet_bind]
    exact hpays _ (s.stateSet_balances _ _ _) (by omega)

end Others

/-! ## A run -/

inductive Op where
  | claimStake (p : DeviceClaimStake)
  | claimUnstake (p : DeviceClaimUnstake)
  | yieldStake (p : DeviceYieldStake)
  | yieldUnstake (p : DeviceYieldUnstake)

def Op.entry : Op → LedgerEntry
  | .claimStake p => .deviceClaimStake p
  | .claimUnstake p => .deviceClaimUnstake p
  | .yieldStake p => .deviceYieldStake p
  | .yieldUnstake p => .deviceYieldUnstake p

/-- None of the arms reads the clock or the environment. -/
def Op.run (s : Chain) (op : Op) : Except Fault Unit × Chain := applyEntry .bare 0 op.entry s

/-- The entries in any order, and in between whatever moves none of what they hold. -/
def market (s₀ : Chain) : Component Chain Op where
  init := fun s => s = s₀
  step := fun s op => (op.run s).2
  other := Still

/-- The step neither creates nor loses anything. -/
def Conserves (s : Chain) : Op → Prop
  | .claimStake p => Even s p
  | .claimUnstake p =>
    ∀ claim, s.stateGet .deviceClaim p.deviceSerial = some claim → claim.owner = p.owner →
      s.escrowAt .unbonding (unbondingKey (wrapAdd p.epoch unbondingEpochs) p.owner) + claim.stake <
        2 ^ 64
  | .yieldStake p =>
    p.amount ≤ native s p.staker →
      s.escrowAt .yieldStake (yieldKey p.deviceSerial p.staker) + p.amount < 2 ^ 64
  | .yieldUnstake p =>
    p.amount ≤ s.escrowAt .yieldStake (yieldKey p.deviceSerial p.staker) →
      native s p.staker + p.amount < 2 ^ 64

theorem worth_step {s : Chain} {op : Op} (h : Conserves s op) : worth (op.run s).2 = worth s := by
  cases op with
  | claimStake p => exact worth_claimStake h
  | claimUnstake p => exact worth_claimUnstake h
  | yieldStake p => exact worth_yieldStake h
  | yieldUnstake p => exact worth_yieldUnstake h

/-- The account has a stake in the device. -/
def StakerOf (s : Chain) (serial a : String) : Prop :=
  ∃ b ∈ (s.state .yieldStake).bindings,
    b.2.deviceSerial = serial ∧ b.2.staker = a ∧ 0 < b.2.amount

instance (s : Chain) (serial a : String) : Decidable (StakerOf s serial a) :=
  inferInstanceAs (Decidable (∃ b ∈ _, _))

/-- No stake in another device is filed under the prefix of this one. -/
def Apart (s : Chain) (serial : String) : Prop :=
  ∀ b ∈ (s.state .yieldStake).bindings,
    hasPrefix s!"{serial}:" b.1 = true → b.2.deviceSerial = serial

/-- Only who is found among the stakers has a share of the premium. -/
theorem stakerOf_of_premiumShare {s : Chain} {serial a : String} {amount : ℕ} {old : DeviceClaim}
    (hapart : Apart s serial) (h : premiumShare s serial amount old a ≠ 0) :
    StakerOf s serial a := by
  unfold premiumShare shareOf at h
  obtain ⟨n, hn, hpos⟩ := List.exists_mem_ne_zero_of_sum_ne_zero h
  obtain ⟨st, hst, rfl⟩ := List.mem_map.1 hn
  obtain ⟨hrow, hstaked⟩ := List.mem_filter.1 hst
  obtain ⟨b, hb, rfl⟩ := List.mem_map.1 hrow
  obtain ⟨hmem, hprefix⟩ := List.mem_filter.1 hb
  refine ⟨b, hmem, hapart b hmem hprefix, ?_, of_decide_eq_true hstaked⟩
  by_contra hne
  exact hpos (if_neg hne)

/-- The claims of a run are kept: nothing is created or lost where every step conserves, a
displaced owner is paid back, and the premium is shared among the stakers of the device. -/
structure Kept (s₀ : Chain) (hist : List (Chain × Op)) (s : Chain) : Prop where
  constant : (∀ c ∈ hist, Conserves c.1 c.2) → worth s = worth s₀
  returned : ∀ t p old, (t, Op.claimStake p) ∈ hist → Overbids t p old →
    ((Op.claimStake p).run t).1 = .ok () → ∀ a,
      native t a + refund old a + premiumShare t p.deviceSerial p.amount old a ≤
          native ((Op.claimStake p).run t).2 a + outlay p a ∧
        (a ≠ recycleFund → native ((Op.claimStake p).run t).2 a + outlay p a =
          native t a + refund old a + premiumShare t p.deviceSerial p.amount old a)
  spent : ∀ t p old, (t, Op.claimStake p) ∈ hist → Overbids t p old → ∀ a, a ≠ recycleFund →
    native ((Op.claimStake p).run t).2 a ≤
      native t a + refund old a + premiumShare t p.deviceSerial p.amount old a
  shared : ∀ t p old, (t, Op.claimStake p) ∈ hist → Overbids t p old → Apart t p.deviceSerial →
    ∀ a, premiumShare t p.deviceSerial p.amount old a ≠ 0 → StakerOf t p.deviceSerial a

theorem claims_kept {s₀ s : Chain} {hist : List (Chain × Op)}
    (h : Trace.Run (market s₀) (fun _ _ => True) hist s) : Kept s₀ hist s where
  constant := by
    intro hall
    induction h with
    | start h => rw [h]
    | @step hist s op hrun _ ih =>
      have hstep := worth_step (hall (s, op) List.mem_cons_self)
      exact hstep.trans (ih fun c hc => hall c (List.mem_cons_of_mem _ hc))
    | other _ hs ih => exact (worth_congr hs).trans (ih hall)
  returned := fun t p old _ hold hok a => native_overbid hold hok a
  spent := fun t p old _ hold a ha => native_overbid_le hold ha
  shared := fun t p old _ _ hapart a hne => stakerOf_of_premiumShare hapart hne

/-! ### Two bids -/

section Samples

def purses : Chain :=
  ((({} : Chain).credited "ann" nativeToken 100).credited "bob" nativeToken 200).credited "cal"
    nativeToken 20

def calStakes : DeviceYieldStake :=
  { deviceSerial := "X:Y", staker := "cal", amount := 20, epoch := 1, nonce := 0, signedBy := "cal" }

def annClaims : DeviceClaimStake := ⟨"X", "ann", 100, 1, 0, "ann"⟩

def bobBids : DeviceClaimStake := ⟨"X", "bob", 200, 2, 0, "bob"⟩

def annLeaves : DeviceClaimUnstake := ⟨"X", "ann", 3, 1, "ann"⟩

/-- A claim that nobody contests comes back whole. -/
theorem claims_kept_ann :
    worth ((market purses).exec purses [.claimStake annClaims, .claimUnstake annLeaves]) =
      worth purses := by
  have hrun : Trace.Run (market purses) (fun _ _ => True) _ _ :=
    .exec (.start rfl) (legal_true purses [.claimStake annClaims, .claimUnstake annLeaves])
  refine (claims_kept hrun).constant fun c hc => ?_
  rcases List.mem_cons.1 hc with rfl | hc
  · intro claim hget _
    have hclaim : ((Op.claimStake annClaims).run purses).2.stateGet .deviceClaim "X" =
        some ⟨"X", "ann", 100, 1⟩ := by decide
    cases hget.symm.trans hclaim
    decide
  · cases List.mem_singleton.1 hc
    have hfree : purses.stateGet .deviceClaim "X" = none := rfl
    refine ⟨fun old hold => ?_, fun _ _ => rfl⟩
    cases hold.found.symm.trans hfree

/-- The premium of `bob` over the claim of `ann` is created, and half of it goes to `cal`, who has
a stake in a device of a longer serial. -/
theorem claims_broken :
    ∃ hist s, Trace.Run (market purses) (fun _ _ => True) hist s ∧ worth s ≠ worth purses ∧
      ∃ t p old, (t, Op.claimStake p) ∈ hist ∧ Overbids t p old ∧ "cal" ≠ recycleFund ∧
        refund old "cal" = 0 ∧ ¬ StakerOf t p.deviceSerial "cal" ∧
          native t "cal" < native ((Op.claimStake p).run t).2 "cal" := by
  refine ⟨_, _, .exec (.start rfl) (legal_true _ [.yieldStake calStakes, .claimStake annClaims,
    .claimStake bobBids]), ?_, _, bobBids, ⟨"X", "ann", 100, 1⟩, List.mem_cons_self,
    ⟨?_, ?_, ?_⟩, ?_, ?_, ?_, ?_⟩
  all_goals decide

end Samples

end HoneNode.Devices
