import HoneNode.ClockNodes.Evidence
import HoneNode.Tx.Frame

/-!
# ClockNodes.Accounting — the stakes of clock nodes and where they count

Registering moves a balance into a stake, a slash moves the stake into three
balances, and only rewards add to the two together. A reward adds exactly its
amount if what the backers get is divided without remainder and nothing
overflows. A slashed node has no stake, but within the grace window it counts as
a clock node without one.
-/

namespace HoneNode.ClockNodes

open Entry Prog Within Trace

/-- Native balances and registered stakes together. -/
def clockFunds (s : Chain) : ℕ := s.nativeBalances + s.escrowOf .clockReg

/-! ## Registering -/

section Register

variable {env : Env} {s : Chain}

theorem funds_register (p : ClockNodeRegister) :
    clockFunds ((applyClockNodeRegister env p).run s).2 = clockFunds s := by
  rcases @run_register env s p with ⟨msg, hrun⟩ | ⟨u, stake, hrun, hposted⟩
  · rw [hrun]
  · rw [hrun]
    have hfunds := hposted.funds
    have hset := escrowOf_stateSet u (f := .clockReg) p.nodeId (registration s p stake)
    have hworth : escrowed .clockReg (registration s p stake) = stake := rfl
    rw [escrowAt_clockReg, stakeOf_congr (congrFun hposted.state _), hworth,
      escrowOf_congr (congrFun hposted.state _)] at hset
    have htouched := noted_touched (u.stateSet .clockReg p.nodeId (registration s p stake))
      p.nodeId p.epoch
    unfold clockFunds
    rw [nativeBalances_congr htouched.balances, escrowOf_congr (htouched.state _ (by decide))]
    have hsame : (u.stateSet .clockReg p.nodeId (registration s p stake)).nativeBalances =
      u.nativeBalances := rfl
    omega

end Register

/-! ## Slashing -/

/-- Where one share of a slash is paid, so are the other two. -/
def Settles (env : Env) (s : Chain) (q : ClockDoubleSignEvidence) : Prop :=
  HalfPaid env s q → Payable s q

section Evidence

variable {env : Env} {s : Chain} {q : ClockDoubleSignEvidence}

theorem nativeBalances_shared :
    (shared s q).nativeBalances = s.nativeBalances + stakeOf s q.offender := by
  have hle : tenth s q + tenth s q ≤ stakeOf s q.offender := by
    unfold tenth
    omega
  unfold shared
  rw [nativeBalances_credited, nativeBalances_credited, nativeBalances_credited]
  omega

theorem funds_slashedBy : clockFunds (slashedBy s q) = clockFunds s := by
  have hset := escrowOf_stateSet (shared s q) (f := .clockReg) q.offender
    ⟨q.offender, 0, none, some q.epoch, keyOf s q.offender⟩
  have hworth : escrowed .clockReg
    (⟨q.offender, 0, none, some q.epoch, keyOf s q.offender⟩ : ClockReg) = 0 := rfl
  have hstake : stakeOf (shared s q) q.offender = stakeOf s q.offender := rfl
  rw [escrowAt_clockReg, hworth, hstake] at hset
  have hescrow : (shared s q).escrowOf .clockReg = s.escrowOf .clockReg := rfl
  have hmark : (slashedBy s q).escrowOf .clockReg = ((shared s q).stateSet .clockReg q.offender
      ⟨q.offender, 0, none, some q.epoch, keyOf s q.offender⟩).escrowOf .clockReg :=
    escrowOf_congr (state_stateSet_of_ne _ (by decide) _ _)
  have hbal : (slashedBy s q).nativeBalances = (shared s q).nativeBalances := rfl
  have hshared := nativeBalances_shared (s := s) (q := q)
  unfold clockFunds
  omega

theorem funds_evidence (h : Settles env s q) :
    clockFunds ((applyClockDoubleSignEvidence env q).run s).2 = clockFunds s := by
  rcases @run_evidence env s q with ⟨hnot, -, hstate, hpaid⟩ |
    ⟨-, -, hrun, -⟩
  · unfold clockFunds
    rw [escrowOf_congr (congrFun hstate _)]
    rcases hpaid with hsame | hhalf
    · rw [hsame]
    · exact absurd ⟨hhalf.1, h hhalf⟩ hnot
  · rw [hrun, funds_slashedBy]

end Evidence

/-! ## Rewards -/

/-- The backers a scan of the role stakes finds. -/
def backersOf (s : Chain) (role node : String) : List (String × ℕ) :=
  (((s.state .roleStake).scan (hasPrefix s!"{role}:{node}:")).map
    fun r => (r.2.staker, r.2.amount)).filter fun st => 0 < st.2

def backing (s : Chain) (role node : String) : ℕ := ((backersOf s role node).map (·.2)).sum

/-- What of a reward is set aside for the backers. -/
def backerPot (s : Chain) (role node : String) (total : ℕ) : ℕ :=
  total * min (((s.stateGet .roleOpt s!"{role}:{node}").bind (·.backerShareBps)).getD 0) 5000
    / 10000 % 2 ^ 64

/-- The reward can be paid, and its backers' part is divided without remainder. -/
structure Divides (s : Chain) (role node : String) (total : ℕ) : Prop where
  fits : native s node + total < 2 ^ 64
  word : 0 < backerPot s role node total → backing s role node < 2 ^ 64
  exact : 0 < backerPot s role node total → ∀ st ∈ backersOf s role node,
    native s st.1 + total < 2 ^ 64 ∧ backing s role node ∣ backerPot s role node total * st.2

section Reward

variable {env : Env} {s u : Chain} {F : Footprint} {p : ClockReward}

/-- Shares without remainder, all of which fit, come to the pot. -/
theorem run_payShares_exact {pot total : ℕ} {stakers : List (String × ℕ)} (hpos : 0 < total)
    (htotal : (stakers.map (·.2)).sum = total) (hpot : pot < 2 ^ 64)
    (hexact : ∀ st ∈ stakers, native u st.1 + pot < 2 ^ 64 ∧ total ∣ pot * st.2) :
    ∃ t, (payShares pot total (fun a n => ignoreErr (credit a nativeToken n)) stakers :
        Prog F Unit).run u = (.ok (), t) ∧ t.nativeBalances = u.nativeBalances + pot ∧
      ∀ a, native t a ≤ native u a + pot := by
  have hshare : ∀ st ∈ stakers, pot * st.2 / total % 2 ^ 64 = pot * st.2 / total := by
    intro st hst
    have hle : st.2 ≤ total := htotal ▸ List.single_le_sum (fun _ _ => Nat.zero_le _) _
      (List.mem_map_of_mem hst)
    refine Nat.mod_eq_of_lt ((Nat.div_le_of_le_mul ?_).trans_lt hpot)
    rw [Nat.mul_comm total]
    exact Nat.mul_le_mul_left pot hle
  have hsum := Shares.sum_mul_div_eq hpos htotal fun st hst => (hexact st hst).2
  -- what has been paid and what is left to pay come to the pot
  obtain ⟨t, hrun, -, hdone, hrows⟩ := run_forM_of_invariant
    (fun st : String × ℕ => (do
      let payout := pot * st.2 / total % 2 ^ 64
      when (0 < payout) (ignoreErr (credit st.1 nativeToken payout)) : Prog F Unit))
    (fun rest t => (∀ st ∈ rest, st ∈ stakers) ∧
      t.nativeBalances + (rest.map fun st => pot * st.2 / total).sum = u.nativeBalances + pot ∧
      ∀ a, native t a + (rest.map fun st => pot * st.2 / total).sum ≤ native u a + pot)
    (fun st rest t ⟨hmem, htotal, hrows⟩ => by
      have hst := hmem st List.mem_cons_self
      have hrest : ∀ st ∈ rest, st ∈ stakers := fun x hx => hmem x (List.mem_cons_of_mem _ hx)
      rw [List.map_cons, List.sum_cons] at htotal hrows
      dsimp only
      rw [hshare st hst, run_when]
      split
      · have hfit : t.getBalance st.1 nativeToken + pot * st.2 / total < 2 ^ 64 := by
          have hrow := hrows st.1
          have hroom := (hexact st hst).1
          unfold native at hrow hroom
          omega
        refine ⟨_, by rw [run_ignoreErr, run_credit, if_pos hfit], hrest, ?_, ?_⟩
        · dsimp only
          rw [nativeBalances_credited]
          omega
        · intro a
          have hrow := hrows a
          dsimp only
          rw [native_credited]
          split <;> omega
      · next hzero =>
        rw [Nat.eq_zero_of_not_pos hzero, Nat.zero_add] at htotal
        refine ⟨t, rfl, hrest, htotal, fun a => ?_⟩
        have hrow := hrows a
        rwa [Nat.eq_zero_of_not_pos hzero, Nat.zero_add] at hrow)
    (l := stakers) (s := u) ⟨fun _ h => h, by rw [hsum], fun _ => by rw [hsum]⟩
  rw [List.map_nil, List.sum_nil] at hdone
  refine ⟨t, hrun, hdone, fun a => ?_⟩
  have hrow := hrows a
  rwa [List.map_nil, List.sum_nil] at hrow

/-- The backers get their part, whole, and the node what is left. -/
theorem run_backers_exact {role node : String} {total : ℕ} (h : Divides s role node total) :
    ∃ paid t, (distributeRoleBackerReward role node total : Prog F ℕ).run s =
        (.ok (total - paid), t) ∧ paid ≤ total ∧
      t.nativeBalances = s.nativeBalances + paid ∧ ∀ a, native t a ≤ native s a + paid := by
  have hpotle : backerPot s role node total ≤ total := by
    refine (Nat.mod_le _ _).trans (Nat.div_le_of_le_mul ?_)
    rw [Nat.mul_comm 10000]
    exact Nat.mul_le_mul_left _ ((Nat.min_le_right _ _).trans (by decide))
  unfold distributeRoleBackerReward
  rw [run_stateGet_bind]
  dsimp only
  rw [run_stateScan_bind, run_ite]
  split
  · next hshares =>
    have hpot : 0 < backerPot s role node total := hshares.2.2.2
    have hword : backing s role node % 2 ^ 64 = backing s role node := Nat.mod_eq_of_lt (h.word hpot)
    have hpos : 0 < backing s role node := hword ▸ hshares.2.2.1
    obtain ⟨t, hrun, hsum, hrows⟩ := @run_payShares_exact s F
      (backerPot s role node total) _ _ hpos rfl
      (hpotle.trans_lt ((Nat.le_add_left _ _).trans_lt h.fits)) fun st hst => by
        have hfit := (h.exact hpot st hst).1
        exact ⟨by omega, (h.exact hpot st hst).2⟩
    refine ⟨backerPot s role node total, t, ?_, hpotle, hsum, hrows⟩
    rw [← hword] at hrun
    exact run_bind_ok hrun
  · exact ⟨0, s, rfl, Nat.zero_le _, rfl, fun _ => le_rfl⟩

theorem Divides.withAccount {role node account : String} {total epoch : ℕ}
    (h : Divides s role node total) : Divides (s.withAccount account epoch) role node total := by
  have hbal : ∀ a, native (s.withAccount account epoch) a = native s a :=
    native_congr ((noted_refl s).withAccount account epoch).balances
  have hbackers : backersOf (s.withAccount account epoch) role node = backersOf s role node := by
    unfold backersOf
    rw [s.state_withAccount]
  have hpot : backerPot (s.withAccount account epoch) role node total =
      backerPot s role node total := by
    unfold backerPot
    rw [s.stateGet_withAccount]
  constructor
  · rw [hbal]
    exact h.fits
  · unfold backing
    rw [hpot, hbackers]
    exact h.word
  · intro hpos st hst
    unfold backing
    rw [hpot] at hpos ⊢
    rw [hbackers] at hst ⊢
    rw [hbal]
    exact h.exact hpos st hst

/-- A reward adds exactly its amount to what the nodes own. -/
theorem funds_reward (h : Divides s "clock" p.nodeId p.amount) :
    ((applyClockReward env p).run s).1 = .ok () ∧
    ((applyClockReward env p).run s).2.nativeBalances +
        stakeOf ((applyClockReward env p).run s).2 p.nodeId =
      s.nativeBalances + stakeOf s p.nodeId + p.amount ∧
    clockFunds ((applyClockReward env p).run s).2 = clockFunds s + p.amount := by
  obtain ⟨left, u, v, hbackers, -, hstate, hsaved, hrun⟩ := @run_reward env s p
  obtain ⟨paid, u', hexact, hle, hsum, hrows⟩ := run_backers_exact (F := {})
    (@Divides.withAccount _ _ _ p.nodeId _ p.epoch h)
  rw [hexact] at hbackers
  cases hbackers
  have hbal := ((noted_refl s).withAccount p.nodeId p.epoch).balances
  rw [nativeBalances_congr hbal] at hsum
  have hrow := hrows p.nodeId
  rw [native_congr hbal] at hrow
  have hinto : clockStakeShare env u p.epoch (s.stateGet .clockReg p.nodeId) (p.amount - paid) ≤
      p.amount - paid := clockStakeShare_le
  generalize clockStakeShare env u p.epoch (s.stateGet .clockReg p.nodeId) (p.amount - paid) =
    into at hsaved hrun hinto
  -- what is neither paid to the backers nor saved is credited
  have hfits := h.fits
  have hroom : v.getBalance p.nodeId nativeToken + (p.amount - paid - into) < 2 ^ 64 := by
    have hsame := native_congr hsaved.balances p.nodeId
    unfold native at hsame hrow hfits
    omega
  have hdone : ∃ t, (applyClockReward env p).run s = (.ok (), t) ∧
      t.nativeBalances = v.nativeBalances + (p.amount - paid - into) ∧ t.state = v.state := by
    rw [hrun, run_when]
    split
    · exact ⟨_, by rw [run_credit, if_pos hroom], nativeBalances_credited v _ _, rfl⟩
    · exact ⟨v, rfl, by omega, rfl⟩
  obtain ⟨t, ht, htbal, htstate⟩ := hdone
  rw [ht]
  have hvbal := nativeBalances_congr hsaved.balances
  have hstake := hsaved.stake p.nodeId
  have hwas : stakeOf u p.nodeId = stakeOf s p.nodeId := stakeOf_congr (congrFun hstate _)
  have hnow : stakeOf t p.nodeId = stakeOf v p.nodeId := stakeOf_congr (congrFun htstate _)
  have hescrow := hsaved.escrow
  have hewas : u.escrowOf .clockReg = s.escrowOf .clockReg := escrowOf_congr (congrFun hstate _)
  have henow : t.escrowOf .clockReg = v.escrowOf .clockReg := escrowOf_congr (congrFun htstate _)
  rw [if_pos rfl] at hstake
  refine ⟨rfl, ?_, ?_⟩
  · dsimp only
    omega
  · unfold clockFunds
    dsimp only
    omega

/-- A reward never saves more than the minimum asks for. -/
theorem stakeOf_reward_le : stakeOf ((applyClockReward env p).run s).2 p.nodeId ≤
    max (stakeOf s p.nodeId) (clockMinStake env s) := by
  obtain ⟨left, hrewarded⟩ := @rewarded env s p
  rw [hrewarded.stake, if_pos rfl]
  unfold clockStakeShare stakeOf
  cases s.stateGet .clockReg p.nodeId with
  | none => exact le_max_left _ _
  | some r =>
    dsimp only [Option.map_some, Option.getD_some]
    split <;> omega

end Reward

/-! ## Transfers -/

/-- The transfer is accepted up to its delivery. -/
structure Starts (s : Chain) (p : Entry.Transfer) : Prop where
  positive : 0 < p.amount
  nonce : p.nonce = s.expectedNonce p.from_
  covered : p.amount ≤ s.getBalance p.from_ p.token

/-- Nothing native is lost on the way: the amount is in HONE itself if its rows count as such,
it fits, and so does a native fee of the recipient's gate. -/
structure Delivers (s : Chain) (p : Entry.Transfer) : Prop where
  token : counted p.token p.amount ≠ 0 → p.token = nativeToken
  fits : p.token = nativeToken →
    native (s.debited p.from_ p.token p.amount) p.to_ + p.amount < 2 ^ 64
  fee : ∀ fee feeToken, p.token ≠ nativeToken → s.tokenApproved p.to_ p.token p.from_ = false →
    s.spamGate p.to_ p.token = some (.onChain fee feeToken) → counted feeToken fee ≠ 0 →
    ((s.debited p.from_ p.token p.amount).debited p.from_ feeToken fee).getBalance p.to_ feeToken +
      fee < 2 ^ 64

section Transfer

variable {env : Env} {now : ℕ} {s t : Chain} {p : Entry.Transfer}

theorem nativeBalances_credit {F : Footprint} {account token : String} {n : ℕ}
    (h : counted token n ≠ 0 → t.getBalance account token + n < 2 ^ 64) :
    ((credit account token n : Prog F Unit).run t).2.nativeBalances =
      t.nativeBalances + counted token n := by
  rw [run_credit]
  split
  · exact nativeBalances_credited_counted
  · next hover =>
    have hnothing : counted token n = 0 := by
      by_contra hne
      exact hover (h hne)
    rw [hnothing]
    rfl

/-- The fee of a gate goes from one native row to another. -/
theorem nativeBalances_fee {fee : ℕ} {feeToken : String} {m : Prog { pays := rowsOf p.from_ } Unit}
    (hfits : counted feeToken fee ≠ 0 →
      (t.debited p.from_ feeToken fee).getBalance p.to_ feeToken + fee < 2 ^ 64)
    (hm : ∀ u, (m.run u).2.nativeBalances = u.nativeBalances) :
    ((do
      debit p.from_ feeToken fee
      credit p.to_ feeToken fee
      m : Prog { pays := rowsOf p.from_ } Unit).run t).2.nativeBalances = t.nativeBalances := by
  by_cases hcov : fee ≤ t.getBalance p.from_ feeToken
  · rw [run_debit_bind hcov]
    have hdebited := nativeBalances_debited_counted hcov
    have hcredited := nativeBalances_credit (F := { pays := rowsOf p.from_ }) hfits
    rw [run_bind]
    rcases hrun : (credit p.to_ feeToken fee : Prog { pays := rowsOf p.from_ } Unit).run
      (t.debited p.from_ feeToken fee) with ⟨_ | _, u⟩
    · rw [hrun] at hcredited
      dsimp only at hcredited ⊢
      omega
    · rw [hrun] at hcredited
      dsimp only at hcredited ⊢
      rw [hm]
      omega
  · rw [run_bind_error (by rw [run_debit, if_neg hcov])]

theorem nativeBalances_deliver (htoken : counted p.token p.amount ≠ 0 → p.token = nativeToken)
    (hfits : p.token = nativeToken → native t p.to_ + p.amount < 2 ^ 64)
    (hfee : ∀ fee feeToken, p.token ≠ nativeToken → t.tokenApproved p.to_ p.token p.from_ = false →
      t.spamGate p.to_ p.token = some (.onChain fee feeToken) → counted feeToken fee ≠ 0 →
      (t.debited p.from_ feeToken fee).getBalance p.to_ feeToken + fee < 2 ^ 64) :
    ((deliverTransfer p).run t).2.nativeBalances =
      t.nativeBalances + counted p.token p.amount := by
  have hcredit : ∀ u : Chain, (p.token = nativeToken → native u p.to_ + p.amount < 2 ^ 64) →
      ((credit p.to_ p.token p.amount : Prog { pays := rowsOf p.from_ } Unit).run
        u).2.nativeBalances = u.nativeBalances + counted p.token p.amount := by
    intro u hu
    refine nativeBalances_credit fun hne => ?_
    have hroom := hu (htoken hne)
    rw [htoken hne]
    exact hroom
  unfold deliverTransfer
  rw [run_inspect_bind, run_inspect_bind, run_ite]
  by_cases happroved : (decide (p.token = nativeToken) ||
      t.tokenApproved p.to_ p.token p.from_) = true
  · rw [if_pos happroved]
    exact hcredit t hfits
  · rw [if_neg happroved]
    rw [Bool.or_eq_true, not_or, decide_eq_true_eq, Bool.not_eq_true] at happroved
    obtain ⟨hother, hnot⟩ := happroved
    -- from here on the amount counts for nothing
    have hnothing : counted p.token p.amount = 0 := by
      by_contra hne
      exact hother (htoken hne)
    rw [hnothing, Nat.add_zero]
    cases hgate : t.spamGate p.to_ p.token with
    | none => rfl
    | some gate =>
      cases gate with
      | evm addr cid => rfl
      | onChain fee feeToken =>
        dsimp only
        rw [run_inspect_bind]
        by_cases hhas : fee ≤ t.getBalance p.from_ feeToken
        · rw [run_ensure_bind hhas]
          refine nativeBalances_fee (hfee fee feeToken hother hnot hgate) fun u => ?_
          rw [hcredit u fun heq => absurd heq hother, hnothing, Nat.add_zero]
        · rw [run_bind_error (by rw [run_ensure, if_neg hhas])]

theorem nativeBalances_applyTransfer (h : Starts s p → Delivers s p) :
    ((applyTransfer p).run s).2.nativeBalances = s.nativeBalances := by
  unfold applyTransfer
  rw [run_touchAlive_bind]
  by_cases hpos : 0 < p.amount
  case neg =>
    rw [run_bind_error (by rw [run_ensure, if_neg hpos])]
    exact nativeBalances_congr (noted_touched s p.from_ p.epoch).balances
  rw [run_ensure_bind hpos]
  have hexpected : (s.touched p.from_ p.epoch).expectedNonce p.from_ = s.expectedNonce p.from_ := by
    unfold Chain.expectedNonce
    rw [Chain.getAccount_touched]
  by_cases hnonce : p.nonce = s.expectedNonce p.from_
  case neg =>
    rw [run_bind_error (by rw [run_checkNonce, hexpected, if_neg hnonce])]
    exact nativeBalances_congr (noted_touched s p.from_ p.epoch).balances
  rw [run_bind_ok (by rw [run_checkNonce, hexpected, if_pos hnonce]),
    run_ensureAccount_bind]
  have hnoted := (noted_touched s p.from_ p.epoch).withAccount p.to_ p.epoch
  generalize (s.touched p.from_ p.epoch).withAccount p.to_ p.epoch = u at hnoted ⊢
  have hsum := nativeBalances_congr hnoted.balances
  by_cases hcov : p.amount ≤ s.getBalance p.from_ p.token
  case neg =>
    rw [run_bind_error (by rw [run_debit, hnoted.getBalance, if_neg hcov])]
    exact hsum
  have hcov' : p.amount ≤ u.getBalance p.from_ p.token := by
    rw [hnoted.getBalance]
    exact hcov
  have hdelivers := h ⟨hpos, hnonce, hcov⟩
  have hdrawn := hnoted.debited p.from_ p.token p.amount
  rw [run_debit_bind hcov', nativeBalances_deliver hdelivers.token]
  · have := nativeBalances_debited_counted hcov'
    omega
  · intro heq
    have hroom := hdelivers.fits heq
    unfold native at hroom ⊢
    rwa [hdrawn.getBalance]
  · intro fee feeToken hother hnot hgate hne
    have happroved : s.tokenApproved p.to_ p.token p.from_ = false := by
      have hget : ∀ key, (u.debited p.from_ p.token p.amount).stateGet .tokenApproval key =
        s.stateGet .tokenApproval key := fun key => hdrawn.stateGet (by decide) key
      rw [← hnot]
      simp only [Chain.tokenApproved, hget]
    have hgate' : s.spamGate p.to_ p.token = some (.onChain fee feeToken) := by
      have hget : ∀ key, (u.debited p.from_ p.token p.amount).stateGet .spamGate key =
        s.stateGet .spamGate key := fun key => hdrawn.stateGet (by decide) key
      rw [← hgate]
      simp only [Chain.spamGate, hget]
    rw [(hdrawn.debited p.from_ feeToken fee).getBalance]
    exact hdelivers.fee fee feeToken hother happroved hgate' hne

theorem nativeBalances_transfer (h : Starts s p → Delivers s p) :
    (applyEntry env now (.transfer p) s).2.nativeBalances = s.nativeBalances := by
  have hkept := nativeBalances_applyTransfer h
  rw [applyEntry_transfer]
  rcases hrun : (applyTransfer p).run s with ⟨_ | _, t⟩
  · rw [hrun] at hkept
    exact hkept
  · rw [hrun] at hkept
    refine Eq.trans (nativeBalances_congr ?_) hkept
    dsimp only
    unfold Chain.bumpNonce
    split <;> rfl

end Transfer

/-! ## A run of the books -/

inductive Move where
  | register (p : ClockNodeRegister)
  | reward (p : ClockReward)
  | evidence (q : ClockDoubleSignEvidence)
  | transfer (p : Entry.Transfer)

def Move.entry : Move → LedgerEntry
  | .register p => .clockNodeRegister p
  | .reward p => .clockReward p
  | .evidence q => .clockDoubleSignEvidence q
  | .transfer p => .transfer p

/-- None of the four arms reads the clock. -/
def Move.run (env : Env) (s : Chain) (m : Move) : Except Fault Unit × Chain :=
  applyEntry env 0 m.entry s

/-- The entries in any order, and in between whatever moves neither balances nor stakes. -/
def books (env : Env) (s₀ : Chain) : Component Chain Move where
  init := fun s => s = s₀
  step := fun s m => (m.run env s).2
  other := fun s t => t.balances = s.balances ∧ t.state .clockReg = s.state .clockReg

/-- Nothing is rounded away, and nothing is half done. -/
def Sound (env : Env) (s : Chain) : Move → Prop
  | .register _ => True
  | .reward p => Divides s "clock" p.nodeId p.amount
  | .evidence q => Settles env s q
  | .transfer p => Starts s p → Delivers s p

/-- The amount of an accepted reward. -/
def mintedBy (env : Env) (c : Chain × Move) : ℕ :=
  match c.2 with
  | .reward p => if (c.2.run env c.1).1 = .ok () then p.amount else 0
  | _ => 0

/-- Evidence against the node has been accepted. -/
def Convicted (env : Env) (a : String) (c : Chain × Move) : Prop :=
  ∃ q, c.2 = .evidence q ∧ q.offender = a ∧ (c.2.run env c.1).1 = .ok ()

/-- The node has registered a stake, or a reward within the grace window is saved as one. -/
def Restaked (env : Env) (a : String) (c : Chain × Move) : Prop :=
  (∃ p, c.2 = .register p ∧ p.nodeId = a ∧ (c.2.run env c.1).1 = .ok () ∧ 0 < p.stake) ∨
    ∃ p, c.2 = .reward p ∧ p.nodeId = a ∧ p.epoch ≤ clockBootstrapGraceEndEpoch ∧
      0 < p.amount ∧ 0 < clockMinStake env c.1

/-- The node is on file without a stake. -/
structure Struck (s : Chain) (a : String) : Prop where
  stake : stakeOf s a = 0
  filed : s.stateGet .clockReg a ≠ none

section Struck

variable {env : Env} {s t : Chain} {a : String} {m : Move}

theorem Struck.of_state (h : Struck s a) (ht : t.state .clockReg = s.state .clockReg) :
    Struck t a where
  stake := (stakeOf_congr ht).trans h.stake
  filed := by
    rw [stateGet_of_state ht]
    exact h.filed

theorem struck_stateSet {r : ClockReg} (h : r.stake = 0) :
    Struck (s.stateSet .clockReg a r) a where
  stake := by rw [stakeOf_stateSet, if_pos rfl, h]
  filed := by
    rw [stateGet_stateSet, if_pos rfl]
    exact nofun

theorem Struck.stateSet_of_ne {b : String} {r : ClockReg} (h : Struck s a) (hne : b ≠ a) :
    Struck (s.stateSet .clockReg b r) a where
  stake := by rw [stakeOf_stateSet, if_neg hne, h.stake]
  filed := by
    rw [stateGet_stateSet, if_neg hne]
    exact h.filed

/-- Only a new stake ends it. -/
theorem Struck.step (h : Struck s a) (hnot : ¬ Restaked env a (s, m)) :
    Struck (m.run env s).2 a := by
  cases m with
  | register p =>
    have hrun : (Move.register p).run env s = (applyClockNodeRegister env p).run s := rfl
    rw [hrun]
    rcases @run_register env s p with ⟨msg, hreg⟩ | ⟨u, stake, hreg, hposted⟩
    · rw [hreg]
      exact h
    · rw [hreg]
      refine Struck.of_state (s := u.stateSet .clockReg p.nodeId (registration s p stake)) ?_
        (Chain.state_touched _ _ _ (by decide))
      by_cases hself : p.nodeId = a
      · have hfree : stake = 0 := by
          rw [hposted.first (hself ▸ h.stake)]
          by_contra hpos
          exact hnot (.inl ⟨p, rfl, hself, by rw [hrun, hreg], Nat.pos_of_ne_zero hpos⟩)
        rw [← hself]
        exact struck_stateSet hfree
      · exact (h.of_state (congrFun hposted.state _)).stateSet_of_ne hself
  | reward p =>
    have hrun : (Move.reward p).run env s = (applyClockReward env p).run s := rfl
    rw [hrun]
    obtain ⟨left, hrewarded⟩ := @rewarded env s p
    refine ⟨?_, fun hnone => h.filed ((hrewarded.known a).1 hnone)⟩
    rw [hrewarded.stake, h.stake, Nat.zero_add]
    split
    · next hself =>
      by_contra hsaved
      have hle := hrewarded.le
      unfold clockStakeShare at hsaved
      split at hsaved
      · split at hsaved
        · next r _ hsaves =>
          have hleft : left ≠ 0 := fun hzero => hsaved (by rw [hzero, Nat.zero_min])
          exact hnot (.inr ⟨p, rfl, hself, hsaves.1, by omega,
            (Nat.zero_le r.stake).trans_lt hsaves.2⟩)
        · exact hsaved rfl
      · exact hsaved rfl
    · rfl
  | evidence q =>
    have hrun : (Move.evidence q).run env s = (applyClockDoubleSignEvidence env q).run s := rfl
    rw [hrun]
    rcases @run_evidence env s q with ⟨-, -, hstate, -⟩ | ⟨-, -, hslashed, -⟩
    · exact h.of_state (congrFun hstate _)
    · rw [hslashed]
      refine Struck.of_state (s := (shared s q).stateSet .clockReg q.offender _) ?_
        (state_stateSet_of_ne _ (by decide) _ _)
      by_cases hself : q.offender = a
      · rw [← hself]
        exact struck_stateSet rfl
      · exact Struck.stateSet_of_ne (h.of_state rfl) hself
  | transfer p => exact h.of_state (state_transfer (by decide) (by decide))

theorem struck_of_convicted (h : Convicted env a (s, m)) : Struck (m.run env s).2 a := by
  obtain ⟨q, rfl, rfl, hok⟩ := h
  have hrun : (Move.evidence q).run env s = (applyClockDoubleSignEvidence env q).run s := rfl
  rw [hrun] at hok ⊢
  rcases @run_evidence env s q with ⟨-, hfails, -⟩ | ⟨-, -, hslashed, -⟩
  · exact absurd hok hfails
  · rw [hslashed]
    exact Struck.of_state (s := (shared s q).stateSet .clockReg q.offender _)
      (struck_stateSet rfl) (state_stateSet_of_ne _ (by decide) _ _)

/-- A struck node counts only through others' stakes, or within the grace window. -/
theorem Struck.mem_registered (h : Struck s a) {epoch : ℕ} :
    a ∈ registeredClockNodes env s epoch ↔ Backed env s a ∨ inGrace epoch = true := by
  rw [mem_registeredClockNodes]
  refine or_congr_right ?_
  have hstake := h.stake
  constructor
  · rintro ⟨reg, hget, hpos | hgrace⟩
    · unfold stakeOf at hstake
      rw [hget] at hstake
      exact absurd hstake hpos.ne'
    · exact hgrace
  · intro hgrace
    cases hget : s.stateGet .clockReg a with
    | none => exact absurd hget h.filed
    | some reg => exact ⟨reg, hget, .inr hgrace⟩

end Struck

/-- The books of a run: what the nodes own, how each reward was split, who counts. -/
structure Accounted (env : Env) (s₀ : Chain) (hist : List (Chain × Move)) (s : Chain) : Prop where
  funds : clockFunds s = clockFunds s₀ + (hist.map (mintedBy env)).sum
  split : ∀ t p, (t, Move.reward p) ∈ hist →
    ((Move.reward p).run env t).2.nativeBalances +
        stakeOf ((Move.reward p).run env t).2 p.nodeId =
      t.nativeBalances + stakeOf t p.nodeId + p.amount
  capped : ∀ t p, (t, Move.reward p) ∈ hist →
    stakeOf ((Move.reward p).run env t).2 p.nodeId ≤ max (stakeOf t p.nodeId) (clockMinStake env t)
  excluded : ∀ a epoch, Since (Convicted env a) (Restaked env a) hist →
    (a ∈ registeredClockNodes env s epoch ↔ Backed env s a ∨ inGrace epoch = true)

section Runs

variable {env : Env} {s₀ s : Chain} {hist : List (Chain × Move)} {a : String}

theorem struck_of_run {P : Chain → Move → Prop} (h : Trace.Run (books env s₀) P hist s)
    (hsince : Since (Convicted env a) (Restaked env a) hist) : Struck s a := by
  induction h with
  | start => exact hsince.elim
  | step op _ _ ih =>
    rcases hsince with hnow | ⟨hnot, hbefore⟩
    · exact struck_of_convicted hnow
    · exact (ih hbefore).step hnot
  | other _ hs ih => exact (ih hsince).of_state hs.2

/-- A sound step adds what it mints. -/
theorem funds_step {m : Move} (h : Sound env s m) :
    clockFunds (m.run env s).2 = clockFunds s + mintedBy env (s, m) := by
  cases m with
  | register p => exact funds_register p
  | reward p =>
    obtain ⟨hok, -, hfunds⟩ := @funds_reward env s p h
    have hminted : mintedBy env (s, .reward p) = p.amount := if_pos hok
    rw [hminted]
    exact hfunds
  | evidence q => exact funds_evidence h
  | transfer p =>
    have hbal : ((Move.transfer p).run env s).2.nativeBalances = s.nativeBalances :=
      nativeBalances_transfer h
    have hreg : ((Move.transfer p).run env s).2.state .clockReg = s.state .clockReg :=
      (state_transfer (by decide) (by decide))
    unfold clockFunds
    rw [hbal, escrowOf_congr hreg]
    rfl

/-- Where every step is sound, the books of a run are in order. -/
theorem clock_books_kept (h : Trace.Run (books env s₀) (Sound env) hist s) :
    Accounted env s₀ hist s where
  funds := by
    induction h with
    | start h =>
      rw [h]
      rfl
    | @step hist s m hrun hop ih =>
      have hstep := @funds_step env _ _ hop
      rw [List.map_cons, List.sum_cons]
      change clockFunds (m.run env s).2 = _
      omega
    | other _ hs ih =>
      unfold clockFunds at ih ⊢
      rw [nativeBalances_congr hs.1, escrowOf_congr hs.2]
      exact ih
  split := fun t p hmem => (funds_reward (h.of_mem hmem).1).2.1
  capped := fun _ _ _ => stakeOf_reward_le
  excluded := fun _ _ hsince => (struck_of_run h hsince).mem_registered

end Runs

/-! ### Two runs -/

section Samples

def bootRegisters : ClockNodeRegister :=
  { nodeId := "boot", stake := 0, epoch := 1, pubkey := none, signature := none }

def bootReward : ClockReward := ⟨"boot", 6 * hunitsPerHone, 2⟩

/-- `ann` gives half of her rewards to two backers, one of whom has staked twice as much. -/
def backedChain : Chain :=
  ((({} : Chain).stateSet .roleOpt "clock:ann" ⟨"ann", "clock", some 5000, none, false, 0⟩).stateSet
    .roleStake "clock:ann:bea" ⟨"ann", "clock", "bea", 1, some 0⟩).stateSet
    .roleStake "clock:ann:cal" ⟨"ann", "clock", "cal", 2, some 0⟩

def annsReward : ClockReward := ⟨"ann", 20, 2⟩

/-- A clock that starts with nothing saves its reward up to the minimum. -/
theorem clock_books_kept_boot :
    let s₁ := ((Move.register bootRegisters).run .bare ({} : Chain)).2
    Accounted .bare {} [(s₁, .reward bootReward), ({}, .register bootRegisters)]
      ((Move.reward bootReward).run .bare s₁).2 := by
  have hpot : ∀ s : Chain, backerPot s "clock" "boot" (6 * hunitsPerHone) = 0 →
      native s "boot" + 6 * hunitsPerHone < 2 ^ 64 →
      Divides s "clock" "boot" (6 * hunitsPerHone) := by
    intro s hzero hfits
    exact ⟨hfits, fun hpos => absurd hzero hpos.ne', fun hpos => absurd hzero hpos.ne'⟩
  refine clock_books_kept (.step _ (.step _ (.start rfl) trivial) (hpot _ ?_ ?_))
  · decide
  · decide

/-- A slash within the grace window leaves `mal` on the list, and the shares of two backers
lose a hunit of the reward. -/
theorem clock_books_broken :
    (∃ hist s, Trace.Run (books sealedNode malsChain) (fun _ _ => True) hist s ∧
      Since (Convicted sealedNode "mal") (Restaked sealedNode "mal") hist ∧
      "mal" ∈ registeredClockNodes sealedNode s 7) ∧
    ∃ hist s, Trace.Run (books .bare backedChain) (fun _ _ => True) hist s ∧
      clockFunds s ≠ clockFunds backedChain + (hist.map (mintedBy .bare)).sum := by
  constructor
  · -- the evidence is upheld, so the state it leaves is known without running it
    have hconvicts := malsChain_exposed.2.convicts malsChain_exposed.1 bobReports_carries
    have hpayable : Payable malsChain bobReports := ⟨by decide, by decide, by decide⟩
    rcases @run_evidence sealedNode malsChain bobReports with ⟨hnot, -, -⟩ | ⟨-, -, hslashed, hok⟩
    · exact absurd ⟨hconvicts, hpayable⟩ hnot
    have hmove : ∀ s, (Move.evidence bobReports).run sealedNode s =
      (applyClockDoubleSignEvidence sealedNode bobReports).run s := fun _ => rfl
    have hstep : ∀ s m, (books sealedNode malsChain).step s m = (m.run sealedNode s).2 :=
      fun _ _ => rfl
    have hrun : Trace.Run (books sealedNode malsChain) (fun _ _ => True)
        [(malsChain, Move.evidence bobReports)] _ :=
      .step (Move.evidence bobReports) (.start rfl) trivial
    rw [hstep, hmove, hslashed] at hrun
    refine ⟨_, _, hrun, .inl ⟨bobReports, rfl, rfl, ?_⟩, ?_⟩
    · have hprintable : Printable sealedNode bobReports := nofun
      have haccepted := hok.2 hprintable
      rw [← hmove] at haccepted
      exact haccepted
    · decide +kernel
  · refine ⟨_, _, .step (.reward annsReward) (.start rfl) trivial, ?_⟩
    decide

end Samples

end HoneNode.ClockNodes
