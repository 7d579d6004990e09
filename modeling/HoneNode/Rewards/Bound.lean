import HoneNode.Rewards.Expiry

/-!
# Rewards.Bound — how much an emission mints

Each reward arm mints at most the amount of its entry, the shares of a pool add
up to at most the pool, and the parts the pool is cut into add up to it. So,
without clock rewards, which are minted beside the pool, an emission raises the
holdings by at most what the epoch has to give.
-/

namespace HoneNode

open Entry Prog Within Supply

/-! ## The reward arms -/

section Arms

variable {F : Footprint}

/-- The stakes a scan finds on a node are part of the holdings. -/
theorem sum_stakers_le (p : String → Bool) (s : Chain) :
    (((((s.state .roleStake).scan p).map fun r => (r.2.staker, r.2.amount)).filter
      fun st => 0 < st.2).map (·.2)).sum ≤ s.holdings := by
  refine le_trans ?_ (escrowOf_le_holdings s (f := .roleStake) (by decide))
  unfold Chain.escrowOf Kv.sumBy Kv.scan
  induction (s.state .roleStake).bindings with
  | nil => exact Nat.zero_le _
  | cons b rest ih =>
    have hworth : escrowed .roleStake b.2 = b.2.amount := rfl
    by_cases hp : p b.1 = true
    · by_cases hpos : 0 < b.2.amount
      · simp only [Kv.sumList, List.filter_cons, hp, if_true, List.map_cons, hpos,
          decide_true, List.sum_cons, hworth]
        omega
      · simp only [Kv.sumList, List.filter_cons, hp, if_true, List.map_cons, hpos,
          decide_false, Bool.false_eq_true, if_false]
        omega
    · simp only [Kv.sumList, List.filter_cons, hp, Bool.false_eq_true, if_false]
      omega

/-- Best-effort payments by stake come to an end and pay at most the pot. -/
theorem run_payShares (pot : ℕ) {total : ℕ} {stakers : List (String × ℕ)} {s : Chain}
    (htotal : (stakers.map (·.2)).sum ≤ total) (hs : s.holdings + pot < 2 ^ 64) :
    ∃ t, (payShares pot total (fun a n => ignoreErr (credit a nativeToken n)) stakers :
        Prog F Unit).run s = (.ok (), t) ∧ t.holdings ≤ s.holdings + pot := by
  have hmints : Mints pot (payShares pot total
      (fun a n => ignoreErr (credit a nativeToken n)) stakers : Prog F Unit) :=
    (raises_forM fun st _ => mints_when mints_credit.ignoreErr).mono
      (Shares.sum_mul_div_mod_le pot (2 ^ 64) htotal)
  have hok : ∃ t, (payShares pot total (fun a n => ignoreErr (credit a nativeToken n)) stakers :
      Prog F Unit).run s = (.ok (), t) ∧ True := by
    refine run_forM_of_invariant _ (fun _ _ => True) ?_ trivial
    intro st rest t _
    dsimp only
    rw [run_when]
    split
    · exact ⟨_, rfl, trivial⟩
    · exact ⟨_, rfl, trivial⟩
  obtain ⟨t, hrun, -⟩ := hok
  have hle := hmints s hs
  rw [hrun] at hle
  exact ⟨t, hrun, hle⟩

/-- What the backers of a node get and what is left for it come to at most the reward. -/
theorem run_distributeRoleBackerReward (role node : String) {total : ℕ} {s : Chain}
    (hs : s.holdings + total < 2 ^ 64) :
    ∃ left t, (distributeRoleBackerReward role node total : Prog F ℕ).run s = (.ok left, t) ∧
      t.holdings + left ≤ s.holdings + total := by
  have hstakes := sum_stakers_le (hasPrefix s!"{role}:{node}:") s
  unfold distributeRoleBackerReward
  rw [run_stateGet_bind]
  dsimp only
  rw [run_stateScan_bind]
  generalize ((((s.state .roleStake).scan (hasPrefix s!"{role}:{node}:")).map
    fun r => (r.2.staker, r.2.amount)).filter fun st => 0 < st.2) = stakers at hstakes ⊢
  generalize hbps : min (((s.stateGet .roleOpt s!"{role}:{node}").bind
    (·.backerShareBps)).getD 0) 5000 = bps
  have hle : total * bps / 10000 % 2 ^ 64 ≤ total := by
    have hbps' : bps ≤ 10000 := by omega
    exact (Nat.mod_le _ _).trans (Nat.div_le_of_le_mul (by nlinarith))
  generalize total * bps / 10000 % 2 ^ 64 = backerTotal at hle ⊢
  rw [Nat.mod_eq_of_lt (by omega : (stakers.map (·.2)).sum < 2 ^ 64)]
  split
  · obtain ⟨t, hrun, hpaid⟩ := run_payShares (F := F) backerTotal
      (le_refl (stakers.map (·.2)).sum) (s := s) (by omega)
    rw [run_bind_ok hrun]
    exact ⟨_, _, rfl, by omega⟩
  · exact ⟨_, _, rfl, le_refl _⟩

/-- A reward shared with the backers mints no more than one that is not. -/
theorem mints_backed {role node : String} {total : ℕ} {k : ℕ → Prog F Unit}
    (hk : ∀ left, Mints left (k left)) :
    Mints total (distributeRoleBackerReward role node total >>= k) := by
  intro s hs
  obtain ⟨left, t, hrun, hle⟩ := run_distributeRoleBackerReward (F := F) role node hs
  have := hk left t (by omega)
  rw [run_bind_ok hrun]
  omega

theorem mints_applyMineReward (p : MineReward) : Mints p.amount (applyMineReward p) :=
  mints_ensureAccount.andThen fun _ =>
    Raises.andThen (mints_when (mints_mapErr (mints_debit _))) fun _ =>
    mints_backed fun _ => mints_credit

theorem mints_applyReward (account : String) (amount epoch : ℕ) :
    Mints amount (applyReward account amount epoch) :=
  mints_ensureAccount.andThen fun _ => mints_credit

theorem mints_applyGatewayRewardSplit (p : GatewayRewardSplit) :
    Mints (p.sensorAmount + p.gatewayAmount) (applyGatewayRewardSplit p) :=
  mints_ensureAccount.andThen fun _ => mints_ensureAccount.andThen fun _ =>
    mints_credit.bind fun _ => mints_credit

theorem mints_applyInferenceJobPost (p : InferenceJobPost) :
    Mints 0 (applyInferenceJobPost p) := by
  refine (raises_inspect _).andThen fun _ => ?_
  refine Raises.andThen ((raises_pure ()).ite (raises_fail _)) fun _ => ?_
  refine mints_debit_bind _ ?_
  exact (mints_credit.bind fun _ => (raises_inspect _).andThen fun _ =>
    mints_stateSet_other (by decide) _ _ _).mono (Nat.add_zero _).le

end Arms

/-! ## Moves between accounts -/

/-- A reward the fund covers is moved, or lost if it does not fit. -/
theorem holdings_applyTestnetReward {p : TestnetReward} {s : Chain}
    (hfund : p.amount ≤ s.getBalance testnetFund nativeToken) :
    ((applyTestnetReward p).run s).2.holdings ≤ s.holdings ∧
      s.getBalance testnetFund nativeToken - p.amount ≤
        ((applyTestnetReward p).run s).2.getBalance testnetFund nativeToken := by
  have hfund' : p.amount ≤ (s.withAccount p.mainnetAccount p.epoch).getBalance testnetFund
      nativeToken := by rwa [Chain.getBalance_withAccount]
  have hdeb := holdings_debited_native hfund'
  rw [holdings_withAccount] at hdeb
  have hrow : ((s.withAccount p.mainnetAccount p.epoch).debited testnetFund nativeToken
      p.amount).getBalance testnetFund nativeToken =
      s.getBalance testnetFund nativeToken - p.amount := by
    rw [getBalance_eq_row, row_debited, if_pos rfl, Chain.row_withAccount,
      getBalance_eq_row]
  unfold applyTestnetReward
  rw [run_ensureAccount_bind, run_bind_ok (run_ignoreErr _ _), run_debit,
    if_pos hfund', run_credit]
  generalize (s.withAccount p.mainnetAccount p.epoch).debited testnetFund nativeToken p.amount = t
    at hdeb hrow ⊢
  dsimp only
  split
  · have hcred := t.row_credited p.mainnetAccount nativeToken p.amount
      (balanceKey testnetFund nativeToken)
    rw [← getBalance_eq_row, ← getBalance_eq_row] at hcred
    dsimp only
    rw [holdings_credited_native]
    omega
  · exact ⟨by dsimp only; omega, hrow.ge⟩

/-- A fund that covers the rest of the rounds pays each of them. -/
theorem mints_emitTestnetRewards (epoch : ℕ) : Mints 0 (emitTestnetRewards epoch) := by
  intro s _
  unfold emitTestnetRewards
  rw [run_inspect_bind, run_inspect_bind]
  dsimp only
  generalize s.records .testnetOp "" = operators
  have hcover : testnetShare epoch (s.getBalance testnetFund nativeToken) operators *
      operators.length ≤ s.getBalance testnetFund nativeToken := by
    unfold testnetShare
    dsimp only
    split
    · exact (Nat.div_mul_le_self _ _).trans (min_le_left _ _)
    · omega
  generalize testnetShare epoch (s.getBalance testnetFund nativeToken) operators = share at hcover ⊢
  have hpre : IsPreorder Chain fun a b : Chain => b.holdings ≤ a.holdings :=
    { refl := fun _ => le_refl _, trans := fun _ _ _ h h' => h'.trans h }
  refine along_forM_of_invariant (Q := fun a b : Chain => b.holdings ≤ a.holdings) _
    (fun rest t => share * rest.length ≤ t.getBalance testnetFund nativeToken) ?_ hcover
  intro op rest t hfund
  rw [List.length_cons, Nat.mul_succ] at hfund
  obtain ⟨hle, hleft⟩ := holdings_applyTestnetReward
    (p := ⟨op.mainnetAccount, op.testnetNodeId, share, epoch⟩) (s := t) (by simp only; omega)
  rw [run_when]
  split
  · refine ⟨hle, ?_⟩
    rintro t' heq
    cases heq
    exact le_trans (by simp only; omega) hleft
  · refine ⟨le_refl _, ?_⟩
    rintro t' heq
    cases heq
    omega

/-- A subscription pays out at most the fee it gives up. -/
theorem settles_releaseSubscription (order : Tally.HashOrder String) {epoch : ℕ} {s : Chain}
    {r : String × TrackerSubEscrow} (hcap : s.holdings < 2 ^ 64)
    (hget : s.stateGet .trackerSubEscrow r.1 = some r.2) :
    SettlesRow False .trackerSubEscrow r.1 s
      (releaseSubscription order epoch (subscriptionFee epoch r.2) r.1 r.2) := by
  have hfee : subscriptionFee epoch r.2 ≤ r.2.totalEscrowed - r.2.paidOut := by
    unfold subscriptionFee
    split
    · omega
    · exact min_le_right _ _
  generalize subscriptionFee epoch r.2 = fee at hfee ⊢
  have hobs : wrapMul fee 50 / 100 ≤ fee / 2 := by
    have := Nat.mod_le (fee * 50) (2 ^ 64)
    unfold wrapMul
    omega
  have htre : wrapMul fee 15 / 100 ≤ fee / 2 := by
    have := Nat.mod_le (fee * 15) (2 ^ 64)
    unfold wrapMul
    omega
  unfold SettlesRow releaseSubscription
  rw [run_inspect_bind]
  generalize subscriptionObservers order epoch r.2.serialCommitment s = observers
  generalize wrapMul fee 50 / 100 = observerCut at hobs ⊢
  generalize wrapMul fee 15 / 100 = treasuryCut at htre ⊢
  dsimp only
  have hpays : ∀ (account : String) (n : ℕ), PaysOut .trackerSubEscrow r.1 n
      (when (0 < n) (ignoreErr (credit account nativeToken n)) : Prog {} Unit) :=
    fun account n => (paysOut_credit (by decide) account).ignoreErr.whenPos
  have hcuts : PaysOut .trackerSubEscrow r.1 (treasuryCut + (fee - observerCut - treasuryCut)) (do
      when (0 < treasuryCut) (ignoreErr (credit treasuryName nativeToken treasuryCut))
      when (0 < fee - observerCut - treasuryCut)
        (ignoreErr (credit recycleFund nativeToken (fee - observerCut - treasuryCut))) :
      Prog {} Unit) := (hpays _ _).bind (hpays _ _)
  have hclose : ∀ {n : ℕ} {m : Prog {} Unit}, n ≤ observerCut → PaysOut .trackerSubEscrow r.1 n m →
      SettlesRow False .trackerSubEscrow r.1 s (do
        m
        when (0 < treasuryCut) (ignoreErr (credit treasuryName nativeToken treasuryCut))
        when (0 < fee - observerCut - treasuryCut)
          (ignoreErr (credit recycleFund nativeToken (fee - observerCut - treasuryCut)))
        stateSet .trackerSubEscrow r.1 { r.2 with paidOut := r.2.paidOut + fee }) := by
    intro n m hn hm
    obtain ⟨t, hrun, hhold, hstate⟩ := (hm.bind (g := fun _ => _) hcuts) s (by
      unfold Room
      rw [escrowAt_of_get hget, escrowed]
      omega)
    obtain ⟨⟨⟩, u, hrun₁, hrun₂⟩ := run_bind_eq_ok.1 hrun
    obtain ⟨⟨⟩, v, hrun₃, hrun₄⟩ := run_bind_eq_ok.1 hrun₂
    unfold SettlesRow
    rw [run_bind_ok hrun₁, run_bind_ok hrun₃, run_bind_ok hrun₄, run_stateSet]
    refine settles_close (by decide) hget hhold (by rw [hstate]) ?_ False.elim
    simp only [escrowed]
    omega
  split
  · refine hclose ?_ (paysOut_forM fun o _ => hpays o (observerCut / observers.length))
    exact Nat.div_mul_le_self _ _
  · exact hclose (le_refl _) (paysOut_credit (by decide) recycleFund).ignoreErr

theorem mints_sweepTrackerSubscriptionFees (order : Tally.HashOrder String) (epoch : ℕ) :
    Mints 0 (sweepTrackerSubscriptionFees order epoch) := by
  intro s hs
  have hrows : Settles False s ((sweepTrackerSubscriptionFees order epoch).run s).2 :=
    settles_rows (pending_scan .trackerSubEscrow _ s) hs fun _ _ _ hcap hget =>
      settlesRow_when fun _ => settles_releaseSubscription order hcap hget
  exact hrows.le

/-! ## Paying a pool out -/

section Pools

variable {nodes : List (String × ℕ)} {pool : ℕ}

theorem totalScore_eq (h : (nodes.map (·.2)).sum < 2 ^ 64) :
    totalScore nodes = (nodes.map (·.2)).sum := Nat.mod_eq_of_lt h

/-- The shares of a pool are at most the pool, while the scores add up without a wrap. -/
theorem sum_shareOf_le (h : (nodes.map (·.2)).sum < 2 ^ 64) :
    (nodes.map fun n => shareOf pool n.2 nodes).sum ≤ pool := by
  unfold shareOf
  split
  · exact Shares.sum_div_length_le pool nodes
  · rw [totalScore_eq h]
    exact Shares.sum_mul_div_mod_le pool (2 ^ 64) (le_refl _)

theorem mints_distributeRewards {pay : String → ℕ → RewardProg Unit}
    (hpay : ∀ a n, Mints n (pay a n)) (h : (nodes.map (·.2)).sum < 2 ^ 64) :
    Mints pool (distributeRewards nodes pool pay) :=
  (raises_pure ()).ite ((raises_forM fun n _ =>
    mints_when (hpay n.1 (shareOf pool n.2 nodes)).ignoreErr).mono (sum_shareOf_le h))

theorem mints_paySensor (gateways : Kv String String) (epoch : ℕ) (node : String) (amount : ℕ) :
    Mints amount (paySensor gateways epoch node amount) := by
  unfold paySensor
  split
  · refine (mints_free (mints_applyGatewayRewardSplit _)).mono ?_
    have h₁ := Nat.mod_le (amount * 6000 / 10000) (2 ^ 64)
    have h₂ := Nat.mod_le (amount * 4000 / 10000) (2 ^ 64)
    dsimp only
    omega
  · exact mints_free (mints_applyReward _ _ _)

theorem mints_distributeSensors (gateways : Kv String String) (epoch : ℕ)
    (h : (nodes.map (·.2)).sum < 2 ^ 64) :
    Mints pool (distributeSensors nodes pool gateways epoch) := by
  refine (raises_forM fun n _ => mints_when (mints_paySensor gateways epoch n.1 _).ignoreErr).mono ?_
  rw [totalScore_eq h]
  exact Shares.sum_mul_div_mod_le pool (2 ^ 64) (le_refl _)

theorem mints_distributeRepos {repos : List ServedRepo} {total : ℕ} (epoch : ℕ)
    (h : (repos.map (·.serveCount)).sum ≤ total) :
    Mints pool (distributeRepos repos pool total epoch) := by
  have hrepo : ∀ r ∈ repos, Mints (pool * r.serveCount / total % 2 ^ 64)
      (if total = 0 then fail (.panic "attempt to divide by zero")
      else when (0 < pool * r.serveCount / total % 2 ^ 64) (ignoreErr (applyLinkGitServeReward
        ⟨r.repoId, r.owner, pool * r.serveCount / total % 2 ^ 64, r.serveCount, epoch⟩).free) :
        RewardProg Unit) :=
    fun r _ => (raises_fail _).ite (mints_when (mints_free mints_credit).ignoreErr)
  exact mints_when ((raises_forM hrepo).mono (Shares.sum_mul_div_mod_le pool (2 ^ 64) h))

theorem mints_payPools {w : Work} (hscores : ∀ p, ((w.contributors p).map (·.2)).sum < 2 ^ 64)
    (hrepos : w.contributors .linkgit = w.repos.map fun r => (r.repoId, r.serveCount))
    (gated : ℕ) (cm : WorkPool → ℕ) (epoch : ℕ) :
    Mints (w.distributed gated cm) (payPools w gated cm epoch) := by
  have hlinkgit : (w.repos.map (·.serveCount)).sum ≤ totalScore (w.contributors .linkgit) := by
    have h := hscores .linkgit
    rw [totalScore_eq h, hrepos, List.map_map]
    exact le_refl _
  have hreward : ∀ a n, Mints n ((applyReward a n epoch).free : RewardProg Unit) :=
    fun a n => mints_free (mints_applyReward a n epoch)
  have hmine : ∀ a n, Mints n ((applyMineReward ⟨a, n, epoch⟩).payingFrom
      recycleFund_mem_rewardFunds : RewardProg Unit) :=
    fun a n => mints_payingFrom (mints_applyMineReward ⟨a, n, epoch⟩)
  have hcredit : ∀ a n, Mints n (credit a nativeToken n : RewardProg Unit) := fun a n => mints_credit
  refine ((mints_distributeRewards hmine (hscores _)).bind fun _ =>
    (mints_distributeRewards hreward (hscores _)).bind fun _ =>
    (mints_distributeSensors w.gateways epoch (hscores _)).bind fun _ =>
    (mints_distributeRewards hreward (hscores _)).bind fun _ =>
    (mints_distributeRewards hreward (hscores _)).bind fun _ =>
    (mints_distributeRewards hreward (hscores _)).bind fun _ =>
    (mints_distributeRewards hcredit (hscores _)).bind fun _ =>
    (mints_distributeRepos epoch hlinkgit).bind fun _ =>
    mints_distributeRewards hcredit (hscores _)).mono ?_
  simp only [Work.distributed, WorkPool.all, List.map_cons, List.map_nil, List.sum_cons,
    List.sum_nil]
  omega

end Pools

/-! ## How the pool is cut -/

namespace Work

variable (w : Work) (pool : WorkPool) (activity gated : ℕ) (cm : WorkPool → ℕ)

theorem util_le : w.util pool ≤ activityRatioDenom := min_le_right _ _

/-- An average of the pools in use is at most full. -/
theorem totalUtil_le : w.totalUtil ≤ w.activeCount * activityRatioDenom := by
  unfold totalUtil activeCount
  induction WorkPool.all with
  | nil => exact Nat.zero_le _
  | cons p rest ih =>
    have hp := w.util_le p
    rw [List.map_cons, List.sum_cons, List.filter_cons]
    split
    · rw [List.length_cons, Nat.succ_mul]
      omega
    · next hz =>
      rw [decide_eq_true_iff] at hz
      omega

theorem activityRatio_le : w.activityRatio ≤ activityRatioDenom := by
  unfold activityRatio
  split
  · exact Nat.zero_le _
  · refine max_le (Nat.div_le_of_le_mul ?_) (by decide)
    exact w.totalUtil_le

theorem gatedBase_le : w.gatedBase activity ≤ activity := by
  refine (Nat.mod_le _ _).trans (Nat.div_le_of_le_mul ?_)
  rw [Nat.mul_comm]
  exact Nat.mul_le_mul_right _ w.activityRatio_le

/-- What is not gated is recycled. -/
theorem gatedPool_add_idleRecycle_le :
    w.gatedPool activity + w.idleRecycle activity ≤ activity := by
  have hbase := w.gatedBase_le activity
  have hboost : w.feeBoost activity ≤ w.idleBeforeBoost activity := min_le_right _ _
  have hgated : w.gatedPool activity ≤ w.gatedBase activity + w.feeBoost activity := min_le_left _ _
  unfold idleRecycle
  unfold idleBeforeBoost at hboost ⊢
  omega

theorem sum_allocPool_le : (WorkPool.all.map fun p => w.allocPool p gated).sum ≤ gated := by
  unfold allocPool
  split
  · simp
  · exact Shares.sum_mul_div_mod_le gated (2 ^ 64) (le_refl _)

theorem payoutFactor_le (count criticalMass : ℕ) :
    payoutFactor count criticalMass ≤ activityRatioDenom := by
  unfold payoutFactor
  split
  · exact le_refl _
  · refine Nat.div_le_of_le_mul ((Nat.mod_le _ _).trans ?_)
    exact Nat.mul_le_mul_right _ (min_le_right _ _)

theorem effectivePool_le : w.effectivePool pool gated cm ≤ w.allocPool pool gated := by
  refine (Nat.mod_le _ _).trans (Nat.div_le_of_le_mul ?_)
  rw [Nat.mul_comm]
  exact Nat.mul_le_mul_right _ (payoutFactor_le _ _)

/-- What the pools pay out and what scarcity takes from them. -/
theorem distributed_add_scarcityRecycle_le :
    w.distributed gated cm + w.scarcityRecycle gated cm ≤ gated := by
  refine le_trans (le_of_eq ?_) (w.sum_allocPool_le gated)
  unfold distributed scarcityRecycle
  induction WorkPool.all with
  | nil => rfl
  | cons p rest ih =>
    have hp := w.effectivePool_le p gated cm
    simp only [List.map_cons, List.sum_cons, scattered] at ih ⊢
    omega

end Work

theorem adjustedPool_le (raw fast slow : ℕ) : adjustedPool raw fast slow ≤ raw := by
  have hscalar : layerAScalar fast slow ≤ layerAScalarDenom := by
    unfold layerAScalar layerAScalarMin layerAScalarMax layerAScalarDenom
    omega
  refine (Nat.mod_le _ _).trans (Nat.div_le_of_le_mul ?_)
  rw [Nat.mul_comm]
  exact Nat.mul_le_mul_right _ hscalar

/-- The three parts of the reserve. -/
theorem reserve_sum (pool : ℕ) (h : pool < 2 ^ 64) :
    recycleSplit pool + testnetTopUp pool + treasurySplit pool + activityPool pool = pool := by
  have hreserve : reserveTotal pool = pool * 2 / 100 := Nat.mod_eq_of_lt (by omega)
  have htestnet : testnetTopUp pool = pool * 4 / 1000 := Nat.mod_eq_of_lt (by omega)
  have htreasury : treasurySplit pool = pool / 1000 := Nat.mod_eq_of_lt (by omega)
  unfold activityPool recycleSplit
  omega

/-! ## The whole emission -/

section Emission

variable (env : Env) (orders : RewardOrders) (epoch : ℕ)

theorem mints_splitReserve (pool : ℕ) :
    Mints (recycleSplit pool + testnetTopUp pool + treasurySplit pool) (splitReserve pool) :=
  (mints_creditIfAny.bind fun _ => mints_creditIfAny.bind fun _ => mints_creditIfAny).mono
    (Nat.add_assoc _ _ _).ge

theorem mints_updateUptime (sealers : List String) : Mints 0 (updateUptime sealers) :=
  (raises_inspect _).andThen fun nodes =>
    (raises_forM (g := fun _ => 0) fun _ _ => (raises_inspect _).andThen fun _ =>
      mints_stateSet_other (by decide) _ _ _).mono (by simp)

theorem mints_updateAverages (w : Work) (cm : WorkPool → ℕ) (fast slow : ℕ) :
    Mints 0 (updateAverages w cm fast slow) := by
  have hpools : Mints 0 (WorkPool.all.forM fun p => stateSet .emaCriticalMass p.key
      (emaStep emaAlphaNum emaAlphaDenom (w.contributors p).length (cm p)) : RewardProg Unit) :=
    (raises_forM (g := fun _ => 0) fun _ _ => mints_stateSet_other (by decide) _ _ _).mono (by simp)
  exact hpools.andThen fun _ => (mints_stateSet_other (by decide) _ _ _).andThen fun _ =>
    mints_stateSet_other (by decide) _ _ _

theorem mints_postBenchmarks (jobs : List ℕ) : Mints 0 (postBenchmarks epoch jobs) := by
  induction jobs with
  | nil => exact raises_pure _
  | cons i rest ih =>
    have hjob : Mints 0 (applyInferenceJobPost (benchmarkJob epoch i)) :=
      mints_applyInferenceJobPost (benchmarkJob epoch i)
    have hpost : Mints 0 (postBenchmark epoch i) :=
      Raises.andThen (mints_payingFrom hjob) fun _ => mints_stateSet_other (by decide) _ _ _
    exact (raises_inspect _).andThen fun _ => (raises_inspect _).andThen fun _ =>
      ih.ite ((raises_pure _).ite (hpost.ignoreErr.andThen fun _ => ih))

theorem mints_pruneProofs : Mints 0 (pruneProofs epoch) := by
  have hjob : ∀ jobId, Mints 0 (pruneJob epoch jobId) := by
    intro jobId
    refine (raises_inspect _).andThen fun found => ?_
    split
    · exact mints_stateSet_other (by decide) _ _ _
    · exact raises_fail _
    · exact raises_pure _
  exact (raises_inspect _).andThen fun rows => (raises_forM (g := fun _ => 0) fun r _ =>
    mints_when ((hjob r.2).andThen fun _ => mints_stateDelete_other (by decide) _ _)).mono (by simp)

/-- Layers B and C pay out at most the activity pool. -/
theorem raises_emitActivity {activity fast slow : ℕ} {s : Chain}
    (hscores : ∀ p, (((workOf orders epoch s).contributors p).map (·.2)).sum < 2 ^ 64) :
    RaisesAt (2 ^ 64) Chain.holdings activity (emitActivity orders epoch activity fast slow) s := by
  unfold emitActivity
  rw [raisesAt_inspect_bind, raisesAt_inspect_bind]
  generalize (fun p => readEmaCm p s) = cm
  have hrepos : (workOf orders epoch s).contributors .linkgit =
      (workOf orders epoch s).repos.map fun r => (r.repoId, r.serveCount) := rfl
  generalize workOf orders epoch s = w at hscores hrepos ⊢
  have hcut := w.gatedPool_add_idleRecycle_le activity
  have hpools := w.distributed_add_scarcityRecycle_le (w.gatedPool activity) cm
  dsimp only
  generalize w.gatedPool activity = gated at hcut hpools ⊢
  have hall : Mints (w.idleRecycle activity + (w.scarcityRecycle gated cm +
      (w.distributed gated cm + w.remainder gated cm))) (do
        creditIfAny recycleFund (w.idleRecycle activity)
        creditIfAny recycleFund (w.scarcityRecycle gated cm)
        payPools w gated cm epoch
        updateAverages w cm fast slow
        (sweepTrackerSubscriptionFees orders.observers epoch).free
        creditIfAny recycleFund (w.remainder gated cm)
        when (epoch < mineGracePeriodEpochs)
          (postBenchmarks epoch (List.range mineGraceBenchmarkJobsPerEpoch))
        when (inferencePruneWindowEpochs ≤ epoch) (pruneProofs epoch) : RewardProg Unit) :=
    mints_creditIfAny.bind fun _ => mints_creditIfAny.bind fun _ =>
      (mints_payPools hscores hrepos gated cm epoch).bind fun _ =>
      (mints_updateAverages w cm fast slow).andThen fun _ =>
      (mints_free (mints_sweepTrackerSubscriptionFees _ _)).andThen fun _ =>
      (mints_creditIfAny.bind fun _ => (mints_when (mints_postBenchmarks epoch _)).andThen fun _ =>
        mints_when (mints_pruneProofs epoch)).mono (Nat.add_zero _).le
  refine (hall s).mono ?_
  unfold Work.remainder
  omega

/-- A part of the prelude: it keeps what the reports are read from. -/
theorem raisesAt_bind_touch {α : Type} {m : RewardProg α} {f : α → RewardProg Unit} {a b : ℕ}
    {s t : Chain} (ht : Touch preludeWrites s t) (hm : Mints a m)
    (htouch : Along (Touch preludeWrites) m)
    (hf : ∀ x u, Touch preludeWrites s u → RaisesAt (2 ^ 64) Chain.holdings b (f x) u) :
    RaisesAt (2 ^ 64) Chain.holdings (a + b) (m >>= f) t := by
  refine (hm t).bind fun x u hu => hf x u ?_
  have htu := htouch t
  rw [hu] at htu
  exact trans_of (Touch preludeWrites) ht htu

/-- A pool without clock rewards mints at most itself. -/
theorem raises_emitPool (raw : ℕ) {s t : Chain} (ht : Touch preludeWrites s t)
    (hscores : ∀ p, (((workOf orders epoch s).contributors p).map (·.2)).sum < 2 ^ 64) :
    RaisesAt (2 ^ 64) Chain.holdings raw (emitPool env orders epoch [] raw) t := by
  intro hcap
  unfold emitPool
  rw [run_inspect_bind, run_inspect_bind]
  dsimp only
  generalize layerAEma "fast_ema" t = fast
  generalize layerAEma "slow_ema" t = slow
  have hadjusted := adjustedPool_le raw fast slow
  generalize adjustedPool raw fast slow = adjusted at hadjusted ⊢
  have hparts := reserve_sum adjusted (by omega)
  have hclock : Mints 0 (emitClockRewards env epoch []) := raises_pure _
  have hactivity : ∀ {u : Chain}, Touch preludeWrites s u →
      RaisesAt (2 ^ 64) Chain.holdings (activityPool adjusted) (when (0 < activityPool adjusted)
        (emitActivity orders epoch (activityPool adjusted) fast slow)) u := by
    intro u hu
    unfold when
    split
    · exact raises_emitActivity orders epoch (by rwa [workOf_of_touch hu])
    · exact raises_pure _ u
  have hidle : Mints (raw - adjusted) (creditIfAny recycleFund (raw - adjusted) : RewardProg Unit) :=
    mints_creditIfAny
  have hall := raisesAt_bind_touch ht hidle touches_creditIfAny
    fun _ _ ht => raisesAt_bind_touch ht (mints_splitReserve adjusted)
      (touches_splitReserve adjusted)
    fun _ _ ht => raisesAt_bind_touch ht (mints_updateUptime []) (touches_updateUptime [])
    fun _ _ ht => raisesAt_bind_touch ht hclock (touches_emitClockRewards env epoch [])
    fun _ _ ht => raisesAt_bind_touch ht (mints_emitTestnetRewards epoch)
      (touches_emitTestnetRewards epoch) fun _ _ ht => hactivity ht
  exact hall.mono (by omega) hcap

end Emission

/-! ## Emissions that mint no more than they may -/

/-- What the store has to look like for an emission to mint no more than the pool: sound
records to sweep, scores that add up without a wrap, and room for the pool. -/
structure SoundEmission (env : Env) (orders : RewardOrders) (epoch : ℕ) (s : Chain) : Prop
    extends SoundExpiry env epoch s where
  scores : ∀ p, (((workOf orders epoch s).contributors p).map (·.2)).sum < 2 ^ 64
  fits : s.holdings + blockRewardAt epoch < 2 ^ 64

theorem holdings_emitEpochRewards {env : Env} (hsha : ∀ b, (env.sha256 b).length = 32)
    {orders : RewardOrders} {epoch : ℕ} {s : Chain} (hera : era epoch < recycleEra)
    (hsound : SoundEmission env orders epoch s) :
    ((emitEpochRewards env orders epoch []).run s).2.holdings ≤
      s.holdings + blockRewardAt epoch := by
  have hfits := hsound.fits
  have hsweep : Settles False s ((sweepExpired env orders.tasks epoch).run s).2 :=
    settles_sweepExpired hsha orders.tasks (by omega) hsound.toSoundExpiry False.elim
  have htouch := touches_sweepExpired env orders.tasks epoch s
  unfold emitEpochRewards
  rw [run_bind]
  cases hrun : ((sweepExpired env orders.tasks epoch).free : RewardProg Unit).run s with
  | mk r t =>
    have hrun' : (sweepExpired env orders.tasks epoch).run s = (r, t) := hrun
    rw [hrun'] at hsweep htouch
    have hle := hsweep.le
    cases r with
    | error e =>
      dsimp only at hle ⊢
      omega
    | ok u =>
      have hraw : rawPool epoch t = blockRewardAt epoch := by
        unfold rawPool
        rw [if_neg (by omega)]
      dsimp only at hle htouch ⊢
      rw [run_inspect_bind, hraw, run_when]
      split
      · have := raises_emitPool env orders epoch (blockRewardAt epoch) htouch hsound.scores
          (by omega)
        omega
      · dsimp only
        omega

/-- Without a pool an emission only sweeps. -/
theorem settles_of_no_pool {env : Env} (hsha : ∀ b, (env.sha256 b).length = 32)
    {orders : RewardOrders} {epoch : ℕ} (sealers : List String) {lossless : Prop} {s : Chain}
    (hcap : s.holdings < 2 ^ 64) (hsound : SoundExpiry env epoch s)
    (heven : lossless → EvenExpiry epoch s)
    (hpool : rawPool epoch ((sweepExpired env orders.tasks epoch).run s).2 = 0) :
    Settles lossless s ((emitEpochRewards env orders epoch sealers).run s).2 := by
  have hsweep := settles_sweepExpired hsha orders.tasks hcap hsound heven
  unfold emitEpochRewards
  rw [run_bind]
  cases hrun : ((sweepExpired env orders.tasks epoch).free : RewardProg Unit).run s with
  | mk r t =>
    have hrun' : (sweepExpired env orders.tasks epoch).run s = (r, t) := hrun
    rw [hrun'] at hsweep hpool
    cases r with
    | error e => exact hsweep
    | ok u =>
      dsimp only at hpool ⊢
      rw [run_inspect_bind, hpool, run_when, if_neg (lt_irrefl 0)]
      exact hsweep

/-- A fund of less than a hundred thousand hunits has nothing to give. -/
theorem rawPool_eq_zero {epoch : ℕ} {s : Chain} (hera : recycleEra ≤ era epoch)
    (hfund : s.getBalance recycleFund nativeToken < 100000) : rawPool epoch s = 0 := by
  unfold rawPool recycleRewardRate recycleRewardDenom
  rw [if_pos hera]
  omega

/-! ## Runs of emissions -/

/-- A call of `emit_epoch_rewards`, with the store it finds. -/
structure EmissionCall where
  orders : RewardOrders
  epoch : ℕ
  sealers : List String
  before : Chain

namespace EmissionCall

variable (env : Env) (c : EmissionCall)

def after : Chain := ((emitEpochRewards env c.orders c.epoch c.sealers).run c.before).2

/-- The recycle fund as the sweeps of the call leave it. -/
def fundSwept : ℕ :=
  ((sweepExpired env c.orders.tasks c.epoch).run c.before).2.getBalance recycleFund nativeToken

/-- The native supply the call creates. -/
def minted : ℕ := (c.after env).holdings - c.before.holdings

/-- A call in a minting era that has no clock rewards to mint beside the pool. -/
structure Covered : Prop extends SoundEmission env c.orders c.epoch c.before where
  minting : era c.epoch < recycleEra
  unsealed : c.sealers = []

/-- A call in the recycle era that finds nothing to give away. -/
structure Drained : Prop extends SoundExpiry env c.epoch c.before where
  recycling : recycleEra ≤ era c.epoch
  fits : c.before.holdings < 2 ^ 64
  empty : c.fundSwept env < 100000

variable {env c}

theorem Covered.holdings_le (hsha : ∀ b, (env.sha256 b).length = 32) (h : c.Covered env) :
    (c.after env).holdings ≤ c.before.holdings + blockRewardAt c.epoch := by
  unfold after
  rw [h.unsealed]
  exact holdings_emitEpochRewards hsha h.minting h.toSoundEmission

theorem Drained.settles (hsha : ∀ b, (env.sha256 b).length = 32) (h : c.Drained env)
    {lossless : Prop} (heven : lossless → EvenExpiry c.epoch c.before) :
    Settles lossless c.before (c.after env) :=
  settles_of_no_pool hsha c.sealers h.fits h.toSoundExpiry heven
    (rawPool_eq_zero h.recycling h.empty)

theorem minted_le (hsha : ∀ b, (env.sha256 b).length = 32) (h : c.Covered env ∨ c.Drained env) :
    c.minted env ≤ blockRewardAt c.epoch := by
  unfold minted
  rcases h with h | h
  · have := h.holdings_le hsha
    omega
  · have hsettles : Settles False c.before (c.after env) := h.settles hsha False.elim
    have := hsettles.le
    omega

end EmissionCall

/-- Without clock rewards, an emission of a minting era creates at most the block reward of its
epoch; so the emissions of distinct epochs, whatever happens in between and whether they mint or
recycle, create at most the supply cap. -/
theorem minted_within_block_reward {env : Env} (hsha : ∀ b, (env.sha256 b).length = 32) :
    (∀ c : EmissionCall, c.Covered env →
      (c.after env).holdings ≤ c.before.holdings + blockRewardAt c.epoch) ∧
    ∀ calls : List EmissionCall, (calls.map (·.epoch)).Nodup →
      (∀ c ∈ calls, c.Covered env ∨ c.Drained env) →
        (calls.map (·.minted env)).sum ≤ supplyCapHunits := by
  refine ⟨fun c h => h.holdings_le hsha, ?_⟩
  intro calls hnodup hcalls
  calc (calls.map (·.minted env)).sum
      ≤ (calls.map fun c => blockRewardAt c.epoch).sum :=
        List.sum_le_sum fun c hc => EmissionCall.minted_le hsha (hcalls c hc)
    _ = ((calls.map (·.epoch)).map blockRewardAt).sum := by rw [List.map_map]; rfl
    _ ≤ supplyCapHunits := sum_blockRewardAt_le hnodup

/-- The proof of a storage node in epoch 1. -/
def sampleBeat (node : String) (bytes : ℕ) : StorageBeat :=
  { nodeId := node, epoch := 1, bytesProven := bytes, queryCount := 0, proofValid := true,
    tier := 1 }

/-- One storage node shares the pool of epoch 1. -/
def sampleEmission : EmissionCall where
  orders := .stored
  epoch := 1
  sealers := []
  before := ({} : Chain).stateSet .storageBeat "1:node" (sampleBeat "node" 10000000000)

theorem minted_within_block_reward_of_sample :
    (sampleEmission.after .bare).getBalance "node" nativeToken = 3920000000 ∧
      (sampleEmission.after .bare).holdings ≤ sampleEmission.before.holdings + blockRewardAt 1 ∧
      ([sampleEmission].map (·.minted .bare)).sum ≤ supplyCapHunits := by
  have hsha : ∀ b, (Env.bare.sha256 b).length = 32 := fun _ => List.length_replicate
  have hcovered : sampleEmission.Covered .bare :=
    { tasks := by decide
      ensembles := by decide
      scores := by intro p; cases p <;> decide
      fits := by decide +kernel
      minting := by decide
      unsealed := rfl }
  have h := minted_within_block_reward hsha
  refine ⟨by decide, h.1 sampleEmission hcovered, h.2 [sampleEmission] ?_ ?_⟩
  · exact List.nodup_singleton _
  · intro c hc
    rw [List.mem_singleton.1 hc]
    exact .inl hcovered

/-- One sealed epoch on an empty chain mints its clock reward beside the block reward; and two
storage nodes whose scores add up past a word are both paid the whole pool. -/
theorem minted_beyond_block_reward :
    ((emitEpochRewards .bare .stored 1 ["clock"]).run {}).2.holdings =
        ({} : Chain).holdings + blockRewardAt 1 + 10000000 ∧
      ¬ ((emitEpochRewards .bare .stored 1 []).run
          ((({} : Chain).stateSet .storageBeat "1:a" (sampleBeat "a" (2 ^ 64 - 1))).stateSet
            .storageBeat "1:b" (sampleBeat "b" (2 ^ 64 - 1)))).2.holdings ≤ blockRewardAt 1 := by
  decide +kernel

/-- In the recycle era, an emission that finds the fund drained keeps the holdings, unless an
ensemble's pool leaves a remainder. -/
theorem holdings_of_drained {env : Env} (hsha : ∀ b, (env.sha256 b).length = 32)
    {c : EmissionCall} (h : c.Drained env) (heven : EvenExpiry c.epoch c.before) :
    (c.after env).holdings = c.before.holdings :=
  (h.settles hsha fun _ => heven).eq trivial

/-- A session and an ensemble job that nobody voted on have expired. -/
def sampleDrained : EmissionCall where
  orders := .stored
  epoch := recycleEra * doublingInterval
  sealers := ["clock"]
  before := (({} : Chain).stateSet .agentSession "session"
      ⟨"session", "client", "", "", "auto", 1, 2, 0, 500, .open, none, [], none⟩).stateSet .ensembleJob
      "ensemble-job-1" ⟨"ensemble-job-1", "requester", "auto", "", 700, 2, 1, 4, [], .voting, none⟩

theorem holdings_of_drained_sample :
    (sampleDrained.after .bare).getBalance "client" nativeToken = 500 ∧
      (sampleDrained.after .bare).getBalance "requester" nativeToken = 700 ∧
      (sampleDrained.after .bare).holdings = sampleDrained.before.holdings := by
  have hsha : ∀ b, (Env.bare.sha256 b).length = 32 := fun _ => List.length_replicate
  have hdrained : sampleDrained.Drained .bare :=
    { tasks := by decide
      ensembles := by decide
      recycling := by decide
      fits := by decide +kernel
      empty := by decide }
  have heven : EvenExpiry sampleDrained.epoch sampleDrained.before := by
    unfold EvenExpiry
    decide +kernel
  exact ⟨by decide, by decide, holdings_of_drained hsha hdrained heven⟩

/-- The first epoch of the recycle era, with a fund that has one hunit to give: the clock is
paid without a debit, and without a clock the fund is paid from nothing. -/
theorem recycle_era_mints :
    ((emitEpochRewards .bare .stored (recycleEra * doublingInterval) ["clock"]).run
        (({} : Chain).credited recycleFund nativeToken 100000)).2.holdings =
      (({} : Chain).credited recycleFund nativeToken 100000).holdings + 320000001 ∧
    ((emitEpochRewards .bare .stored (recycleEra * doublingInterval) []).run
        (({} : Chain).credited recycleFund nativeToken 100000)).2.holdings =
      (({} : Chain).credited recycleFund nativeToken 100000).holdings + 1 := by
  decide +kernel

end HoneNode
