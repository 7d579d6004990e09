import HoneNode.ClockNodes.Registered
import HoneNode.Rewards.Holdings

/-!
# ClockNodes.Stake — the registered stake and key of a clock node

A registration pays a first stake and may replace the key, a reward may add to
the stake, and evidence of a double signature takes it all. Each arm is summed
up once by what it does to the `clock_reg:` record.
-/

namespace HoneNode.ClockNodes

open Entry Prog Within

/-! ## Reading the record -/

/-- The registered stake of a node; none is registered without a record. -/
def stakeOf (s : Chain) (a : String) : ℕ := ((s.stateGet .clockReg a).map (·.stake)).getD 0

/-- The key that its seals are checked with. -/
def keyOf (s : Chain) (a : String) : Option String := (s.stateGet .clockReg a).bind (·.pubkey)

section Reads

variable {s t : Chain} {a b : String} {r : ClockReg}

theorem stakeOf_congr (h : t.state .clockReg = s.state .clockReg) : stakeOf t a = stakeOf s a := by
  unfold stakeOf
  rw [stateGet_of_state h]

theorem keyOf_congr (h : t.state .clockReg = s.state .clockReg) : keyOf t a = keyOf s a := by
  unfold keyOf
  rw [stateGet_of_state h]

theorem stakeOf_stateSet :
    stakeOf (s.stateSet .clockReg b r) a = if b = a then r.stake else stakeOf s a := by
  unfold stakeOf
  rw [stateGet_stateSet]
  split <;> rfl

theorem keyOf_stateSet :
    keyOf (s.stateSet .clockReg b r) a = if b = a then r.pubkey else keyOf s a := by
  unfold keyOf
  rw [stateGet_stateSet]
  split <;> rfl

theorem escrowAt_clockReg : s.escrowAt .clockReg a = stakeOf s a := by
  unfold Chain.escrowAt stakeOf
  cases s.stateGet .clockReg a <;> rfl

end Reads

/-! ## Registering -/

/-- The record a registration leaves. -/
def registration (s : Chain) (p : ClockNodeRegister) (stake : ℕ) : ClockReg :=
  ⟨p.nodeId, stake, some p.epoch, none, p.pubkey.or (keyOf s p.nodeId)⟩

/-- `u` comes from `s` by paying up to `stake`; a stake that was there stays. -/
structure Posted (s u : Chain) (p : ClockNodeRegister) (stake : ℕ) : Prop where
  state : u.state = s.state
  funds : u.nativeBalances + stake = s.nativeBalances + stakeOf s p.nodeId
  kept : stakeOf s p.nodeId ≠ 0 → stake = stakeOf s p.nodeId
  first : stakeOf s p.nodeId = 0 → stake = p.stake

section Register

variable {env : Env} {s : Chain} {p : ClockNodeRegister}

theorem run_clockRegisterStake :
    (∃ msg, (clockRegisterStake env p (stakeOf s p.nodeId)).run s = (.error (.err msg), s)) ∨
      ∃ u stake, (clockRegisterStake env p (stakeOf s p.nodeId)).run s = (.ok stake, u) ∧
        Posted s u p stake := by
  have hpaid : stakeOf s p.nodeId = 0 → p.stake ≤ native s p.nodeId →
      Posted s (s.debited p.nodeId nativeToken p.stake) p p.stake := by
    intro hnone hle
    refine ⟨rfl, ?_, fun hne => absurd hnone hne, fun _ => rfl⟩
    rw [hnone]
    exact nativeBalances_debited hle
  unfold clockRegisterStake
  rw [run_ite]
  split
  · next hne => exact .inr ⟨s, _, rfl, rfl, rfl, fun _ => rfl, fun hzero => absurd hzero hne⟩
  · next hzero =>
    have hnone : stakeOf s p.nodeId = 0 := not_not.1 hzero
    rw [run_ite]
    split
    · by_cases hpos : 0 < p.stake
      · by_cases hle : p.stake ≤ native s p.nodeId
        · refine .inr ⟨_, _, ?_, hpaid hnone hle⟩
          rw [run_bind_ok (by rw [run_when, if_pos hpos, run_debit, if_pos hle]), run_pure]
        · exact .inl ⟨_, run_bind_error
            (by rw [run_when, if_pos hpos, run_debit, if_neg hle])⟩
      · have hfree : p.stake = 0 := by omega
        refine .inr ⟨s, p.stake, ?_, rfl, ?_, fun hne => absurd hnone hne, fun _ => rfl⟩
        · rw [run_bind_ok (by rw [run_when, if_neg hpos]), run_pure]
        · rw [hfree, hnone]
    · rw [run_inspect_bind]
      by_cases hmin : clockMinStake env s ≤ p.stake
      · rw [run_ensure_bind hmin]
        by_cases hle : p.stake ≤ native s p.nodeId
        · refine .inr ⟨_, _, ?_, hpaid hnone hle⟩
          rw [run_debit_bind hle, run_pure]
        · exact .inl ⟨_, run_bind_error (by rw [run_debit, if_neg hle])⟩
      · exact .inl ⟨_, run_bind_error (by rw [run_ensure, if_neg hmin])⟩

/-- A registration is turned down, or leaves its record. -/
theorem run_register : Refused s ((applyClockNodeRegister env p).run s) ∨ ∃ u stake,
    (applyClockNodeRegister env p).run s = (.ok (),
      (u.stateSet .clockReg p.nodeId (registration s p stake)).touched p.nodeId p.epoch) ∧
      Posted s u p stake := by
  unfold applyClockNodeRegister
  rw [run_stateGet_bind]
  rcases @run_clockRegisterStake env s p with ⟨msg, hrun⟩ |
    ⟨u, stake, hrun, hposted⟩
  · exact .inl ⟨msg, run_bind_error hrun⟩
  · exact .inr ⟨u, stake, run_bind_ok hrun, hposted⟩

end Register

/-! ## Evidence -/

/-- A signed seal, as evidence carries it. -/
structure Seal where
  (hash : String) (timestamp : ℕ) (sig : String)
deriving DecidableEq

/-- The seal is the node's for the epoch, by a signature of the key. -/
def Seal.Verifies (env : Env) (node : String) (epoch : ℕ) (pk : String) (x : Seal) : Prop :=
  verifyClockSealSig env epoch x.hash node x.timestamp pk x.sig = true

def sealA (q : ClockDoubleSignEvidence) : Seal := ⟨q.sealHashA, q.timestampA, q.sigA⟩
def sealB (q : ClockDoubleSignEvidence) : Seal := ⟨q.sealHashB, q.timestampB, q.sigB⟩

/-- The mark that evidence against the node for the epoch has been applied. -/
def slashMark (s : Chain) (node : String) (epoch : ℕ) : Option Unit :=
  s.stateGet .dblSlash s!"{node}:{epoch}"

/-- The evidence is good: two seals that differ, unpunished, of a node with a stake. -/
structure Convicts (env : Env) (s : Chain) (q : ClockDoubleSignEvidence) : Prop where
  differ : q.sealHashA ≠ q.sealHashB
  fresh : slashMark s q.offender q.epoch = none
  staked : 0 < stakeOf s q.offender
  proved : ∃ pk, keyOf s q.offender = some pk ∧
    (sealA q).Verifies env q.offender q.epoch pk ∧ (sealB q).Verifies env q.offender q.epoch pk

/-- The share of the submitter, and of the legal fund. -/
def tenth (s : Chain) (q : ClockDoubleSignEvidence) : ℕ := stakeOf s q.offender / 10

def legalFund : String := "__legal__"

/-- The balances after the shares of a slash are paid. -/
def shared (s : Chain) (q : ClockDoubleSignEvidence) : Chain :=
  ((s.credited q.submitter nativeToken (tenth s q)).credited legalFund nativeToken
    (tenth s q)).credited recycleFund nativeToken
      (stakeOf s q.offender - tenth s q - tenth s q)

/-- None of the shares overflows a balance. -/
structure Payable (s : Chain) (q : ClockDoubleSignEvidence) : Prop where
  submitter : native s q.submitter + tenth s q < 2 ^ 64
  legal : native (s.credited q.submitter nativeToken (tenth s q)) legalFund + tenth s q < 2 ^ 64
  recycle : native ((s.credited q.submitter nativeToken (tenth s q)).credited legalFund nativeToken
    (tenth s q)) recycleFund + (stakeOf s q.offender - tenth s q - tenth s q) < 2 ^ 64

/-- The chain after a slash: the stake is gone, the key stays on file. -/
def slashedBy (s : Chain) (q : ClockDoubleSignEvidence) : Chain :=
  ((shared s q).stateSet .clockReg q.offender
    ⟨q.offender, 0, none, some q.epoch, keyOf s q.offender⟩).stateSet .dblSlash
      s!"{q.offender}:{q.epoch}" ()

/-- The log line prints the first bytes of both hashes. -/
def Printable (env : Env) (q : ClockDoubleSignEvidence) : Prop :=
  env.warn = true →
    isBoundary q.sealHashA (min q.sealHashA.utf8ByteSize 12) = true ∧
      isBoundary q.sealHashB (min q.sealHashB.utf8ByteSize 12) = true

section Evidence

variable {env : Env} {s : Chain} {q : ClockDoubleSignEvidence}

/-- Log lines leave the chain, and come to an end if their cuts fall between characters. -/
theorem run_logSlices {W : Footprint} {a b : String} {n : ℕ} {enabled : Bool} :
    ((logSlice enabled a n >>= fun _ => logSlice enabled b n : Prog W Unit).run s).2 = s ∧
      (((logSlice enabled a n >>= fun _ => logSlice enabled b n : Prog W Unit).run s).1 = .ok () ↔
        (enabled = true → isBoundary a (min a.utf8ByteSize n) = true ∧
          isBoundary b (min b.utf8ByteSize n) = true)) := by
  rw [run_bind, run_logSlice]
  cases enabled with
  | false => exact ⟨rfl, iff_of_true rfl nofun⟩
  | true =>
    cases ha : isBoundary a (min a.utf8ByteSize n) with
    | false => exact ⟨rfl, iff_of_false nofun fun h => nomatch (h rfl).1⟩
    | true =>
      rw [Bool.or_true, if_pos rfl]
      dsimp only
      rw [run_logSlice]
      cases hb : isBoundary b (min b.utf8ByteSize n) with
      | false => exact ⟨rfl, iff_of_false nofun fun h => nomatch (h rfl).2⟩
      | true => exact ⟨rfl, iff_of_true rfl fun _ => ⟨rfl, rfl⟩⟩

/-- Some of the shares have been paid, and the others do not fit. -/
def HalfPaid (env : Env) (s : Chain) (q : ClockDoubleSignEvidence) : Prop :=
  Convicts env s q ∧ 0 < tenth s q ∧ native s q.submitter + tenth s q < 2 ^ 64

/-- Evidence slashes if it is good and the shares can be paid; otherwise it fails, and leaves
at most some of the shares. -/
theorem run_evidence :
    (¬ (Convicts env s q ∧ Payable s q) ∧
        ((applyClockDoubleSignEvidence env q).run s).1 ≠ .ok () ∧
        ((applyClockDoubleSignEvidence env q).run s).2.state = s.state ∧
        (((applyClockDoubleSignEvidence env q).run s).2.nativeBalances = s.nativeBalances ∨
          HalfPaid env s q)) ∨
      (Convicts env s q ∧ Payable s q ∧
        ((applyClockDoubleSignEvidence env q).run s).2 = slashedBy s q ∧
        (((applyClockDoubleSignEvidence env q).run s).1 = .ok () ↔ Printable env q)) := by
  unfold applyClockDoubleSignEvidence
  by_cases hdiffer : q.sealHashA ≠ q.sealHashB
  case neg =>
    rw [run_bind_error (by rw [run_ensure, if_neg hdiffer])]
    exact .inl ⟨fun h => hdiffer h.1.differ, nofun, rfl, .inl rfl⟩
  rw [run_ensure_bind hdiffer, run_stateGet_bind]
  by_cases hfresh : slashMark s q.offender q.epoch = none
  case neg =>
    rw [run_bind_error (by
      rw [run_ensure]; exact if_neg fun h => hfresh (Option.isNone_iff_eq_none.1 h))]
    exact .inl ⟨fun h => hfresh h.1.fresh, nofun, rfl, .inl rfl⟩
  rw [run_bind_ok (by rw [run_ensure]; exact if_pos (Option.isNone_iff_eq_none.2 hfresh)),
    run_stateGet_bind]
  dsimp only
  by_cases hstaked : 0 < stakeOf s q.offender
  case neg =>
    rw [run_bind_error (by rw [run_ensure]; exact if_neg hstaked)]
    exact .inl ⟨fun h => hstaked h.1.staked, nofun, rfl, .inl rfl⟩
  rw [run_bind_ok (by rw [run_ensure]; exact if_pos hstaked)]
  cases hkey : keyOf s q.offender with
  | none =>
    have hkey' : (s.stateGet .clockReg q.offender).bind (·.pubkey) = none := hkey
    rw [hkey', run_bind_error (run_orBail_none _ _)]
    refine .inl ⟨?_, nofun, rfl, .inl rfl⟩
    rintro ⟨hconvicts, -⟩
    obtain ⟨pk, hpk, -⟩ := hconvicts.proved
    rw [hkey] at hpk
    cases hpk
  | some pk =>
  have hkey' : (s.stateGet .clockReg q.offender).bind (·.pubkey) = some pk := hkey
  rw [hkey', run_bind_ok (run_orBail_some _ _ _)]
  have hproved : ∀ h : Convicts env s q, (sealA q).Verifies env q.offender q.epoch pk ∧
      (sealB q).Verifies env q.offender q.epoch pk := by
    intro h
    obtain ⟨pk', hpk', hboth⟩ := h.proved
    rw [hkey] at hpk'
    cases hpk'
    exact hboth
  by_cases hA : (sealA q).Verifies env q.offender q.epoch pk
  case neg =>
    rw [run_bind_error (by rw [run_ensure]; exact if_neg hA)]
    exact .inl ⟨fun h => hA (hproved h.1).1, nofun, rfl, .inl rfl⟩
  by_cases hB : (sealB q).Verifies env q.offender q.epoch pk
  case neg =>
    rw [run_bind_ok (by rw [run_ensure]; exact if_pos hA),
      run_bind_error (by rw [run_ensure]; exact if_neg hB)]
    exact .inl ⟨fun h => hB (hproved h.1).2, nofun, rfl, .inl rfl⟩
  have hconvicts : Convicts env s q := ⟨hdiffer, hfresh, hstaked, pk, hkey, hA, hB⟩
  rw [run_bind_ok (by rw [run_ensure]; exact if_pos hA),
    run_bind_ok (by rw [run_ensure]; exact if_pos hB)]
  -- from here on only the shares and the log line can fail
  by_cases hsubmitter : native s q.submitter + tenth s q < 2 ^ 64
  case neg =>
    rw [run_bind_error (by rw [run_credit]; exact if_neg hsubmitter)]
    exact .inl ⟨fun h => hsubmitter h.2.submitter, nofun, rfl, .inl rfl⟩
  rw [run_bind_ok (by rw [run_credit]; exact if_pos hsubmitter)]
  by_cases hlegal : native (s.credited q.submitter nativeToken (tenth s q)) legalFund +
      tenth s q < 2 ^ 64
  case neg =>
    rw [run_bind_error (by rw [run_credit]; exact if_neg hlegal)]
    refine .inl ⟨fun h => hlegal h.2.legal, nofun, rfl, ?_⟩
    rcases Nat.eq_zero_or_pos (tenth s q) with hzero | hpos
    · refine .inl ((nativeBalances_credited s _ _).trans ?_)
      unfold tenth stakeOf at hzero
      omega
    · exact .inr ⟨hconvicts, hpos, hsubmitter⟩
  rw [run_bind_ok (by rw [run_credit]; exact if_pos hlegal)]
  by_cases hrecycle : native ((s.credited q.submitter nativeToken (tenth s q)).credited legalFund
      nativeToken (tenth s q)) recycleFund + (stakeOf s q.offender - tenth s q - tenth s q) < 2 ^ 64
  case neg =>
    rw [run_bind_error (by rw [run_credit]; exact if_neg hrecycle)]
    refine .inl ⟨fun h => hrecycle h.2.recycle, nofun, rfl, ?_⟩
    rcases Nat.eq_zero_or_pos (tenth s q) with hzero | hpos
    · refine .inl ((nativeBalances_credited _ _ _).trans ?_)
      rw [nativeBalances_credited]
      unfold tenth stakeOf at hzero
      omega
    · exact .inr ⟨hconvicts, hpos, hsubmitter⟩
  rw [run_bind_ok (by rw [run_credit]; exact if_pos hrecycle),
    run_stateSet_bind, run_stateSet_bind]
  refine .inr ⟨hconvicts, ⟨hsubmitter, hlegal, hrecycle⟩, ?_⟩
  have hslashed : slashedBy s q = ((shared s q).stateSet .clockReg q.offender
      ⟨q.offender, 0, none, some q.epoch, some pk⟩).stateSet .dblSlash
        s!"{q.offender}:{q.epoch}" () := by
    unfold slashedBy
    rw [hkey]
  rw [hslashed]
  exact run_logSlices
end Evidence

/-! ## Rewards -/

/-- `v` comes from `u` by saving `into` as stake of the node, if it has a record. -/
structure Saved (u v : Chain) (node : String) (into : ℕ) : Prop where
  balances : v.balances = u.balances
  others : ∀ f, f ≠ .clockReg → v.state f = u.state f
  known : ∀ a, v.stateGet .clockReg a = none ↔ u.stateGet .clockReg a = none
  stake : ∀ a, stakeOf v a = stakeOf u a + if node = a then into else 0
  key : ∀ a, keyOf v a = keyOf u a
  escrow : v.escrowOf .clockReg = u.escrowOf .clockReg + into

section Reward

variable {env : Env} {s : Chain} {p : ClockReward}

theorem saved_nothing {node : String} (u : Chain) : Saved u u node 0 where
  balances := rfl
  others := fun _ _ => rfl
  known := fun _ => Iff.rfl
  stake := by
    intro a
    rw [ite_self, Nat.add_zero]
  key := fun _ => rfl
  escrow := rfl

theorem saved_stateSet {u : Chain} {node : String} {r : ClockReg}
    (h : u.stateGet .clockReg node = some r) (n : ℕ) :
    Saved u (u.stateSet .clockReg node { r with stake := r.stake + n }) node n where
  balances := rfl
  others := fun _ hf => u.state_stateSet_of_ne hf _ _
  known := by
    intro a
    rw [stateGet_stateSet]
    split
    · next heq => rw [← heq, h]; exact iff_of_false nofun nofun
    · exact Iff.rfl
  stake := by
    intro a
    rw [stakeOf_stateSet]
    split
    · next heq =>
      unfold stakeOf
      rw [← heq, h]
      rfl
    · rfl
  key := by
    intro a
    rw [keyOf_stateSet]
    split
    · next heq =>
      unfold keyOf
      rw [← heq, h]
      rfl
    · rfl
  escrow := by
    have hset := escrowOf_stateSet u (f := .clockReg) node { r with stake := r.stake + n }
    have hold := escrowAt_of_get h
    have hworth : escrowed .clockReg { r with stake := r.stake + n } = r.stake + n := rfl
    have hwas : escrowed .clockReg r = r.stake := rfl
    omega

/-- Paying the backers comes to an end, and touches balances only. -/
theorem run_backers {W : Footprint} (role node : String) (total : ℕ) (s : Chain) :
    ∃ left u, (distributeRoleBackerReward role node total : Prog W ℕ).run s = (.ok left, u) ∧
      left ≤ total ∧ u.state = s.state := by
  have htouch := @touches_distributeRoleBackerReward ∅ W role node total s
  have hok : ∃ left u, (distributeRoleBackerReward role node total : Prog W ℕ).run s =
      (.ok left, u) ∧ left ≤ total := by
    unfold distributeRoleBackerReward
    rw [run_stateGet_bind]
    dsimp only
    rw [run_stateScan_bind, run_ite]
    split
    · obtain ⟨t, hrun, -⟩ := run_forM_of_invariant
        (fun st : String × ℕ => (when (0 < _) (ignoreErr (credit st.1 nativeToken _)) : Prog W Unit))
        (fun _ _ => True) (fun st rest t _ => by
          rw [run_when]
          split
          · exact ⟨_, rfl, trivial⟩
          · exact ⟨_, rfl, trivial⟩) trivial
      exact ⟨_, t, run_bind_ok hrun, Nat.sub_le _ _⟩
    · exact ⟨_, _, rfl, le_rfl⟩
  obtain ⟨left, u, hrun, hle⟩ := hok
  rw [hrun] at htouch
  exact ⟨left, u, hrun, hle, funext fun f => htouch.family f (Set.notMem_empty f)⟩

theorem clockStakeShare_le {u : Chain} {epoch n : ℕ} {reg : Option ClockReg} :
    clockStakeShare env u epoch reg n ≤ n := by
  unfold clockStakeShare
  split
  · split
    · exact Nat.min_le_left _ _
    · exact Nat.zero_le _
  · exact Nat.zero_le _

/-- A reward pays the backers, saves a part as stake and credits the rest. -/
theorem run_reward : ∃ left u v,
    (distributeRoleBackerReward "clock" p.nodeId p.amount : Prog {} ℕ).run
        (s.withAccount p.nodeId p.epoch) = (.ok left, u) ∧ left ≤ p.amount ∧ u.state = s.state ∧
      (let into := clockStakeShare env u p.epoch (s.stateGet .clockReg p.nodeId) left
      Saved u v p.nodeId into ∧ (applyClockReward env p).run s =
        (when (0 < left - into) (credit p.nodeId nativeToken (left - into)) :
          Prog {} Unit).run v) := by
  obtain ⟨left, u, hrun, hle, hstate⟩ := run_backers (W := {}) "clock" p.nodeId p.amount
    (s.withAccount p.nodeId p.epoch)
  have hsame : u.state = s.state :=
    hstate.trans (funext fun f => s.state_withAccount p.nodeId p.epoch f)
  have hget : u.stateGet .clockReg p.nodeId = s.stateGet .clockReg p.nodeId :=
    stateGet_of_state (congrFun hsame _) _
  unfold applyClockReward
  rw [run_ensureAccount_bind, run_bind_ok hrun, run_stateGet_bind,
    run_inspect_bind, run_inspect_bind, hget]
  dsimp only
  cases hreg : s.stateGet .clockReg p.nodeId with
  | none => exact ⟨left, u, u, hrun, hle, hsame, saved_nothing u, rfl⟩
  | some r =>
    rw [hreg] at hget
    by_cases hsaves : p.epoch ≤ clockBootstrapGraceEndEpoch ∧ r.stake < clockMinStake env u
    · exact ⟨left, u, _, hrun, hle, hsame, saved_stateSet hget _,
        run_bind_ok (by rw [run_when, if_pos hsaves]; rfl)⟩
    · have hnothing : clockStakeShare env u p.epoch (some r) left = 0 := if_neg hsaves
      refine ⟨left, u, u, hrun, hle, hsame, ?_, run_bind_ok (by rw [run_when, if_neg hsaves])⟩
      rw [hnothing]
      exact saved_nothing u

theorem clockMinStake_congr {u : Chain} (h : u.state .chainParam = s.state .chainParam) :
    clockMinStake env u = clockMinStake env s := by
  unfold clockMinStake Chain.param
  rw [stateGet_of_state h]

theorem clockStakeShare_congr {u : Chain} {reg : Option ClockReg} {n : ℕ}
    (h : u.state .chainParam = s.state .chainParam) :
    clockStakeShare env u p.epoch reg n = clockStakeShare env s p.epoch reg n := by
  unfold clockStakeShare
  rw [clockMinStake_congr h]

/-- What a reward leaves of the records, whether it succeeds or not. -/
structure Rewarded (env : Env) (s t : Chain) (p : ClockReward) (left : ℕ) : Prop where
  le : left ≤ p.amount
  others : ∀ f, f ≠ .clockReg → t.state f = s.state f
  known : ∀ a, t.stateGet .clockReg a = none ↔ s.stateGet .clockReg a = none
  stake : ∀ a, stakeOf t a = stakeOf s a +
    if p.nodeId = a then clockStakeShare env s p.epoch (s.stateGet .clockReg a) left else 0
  key : ∀ a, keyOf t a = keyOf s a

theorem rewarded (p : ClockReward) :
    ∃ left, Rewarded env s ((applyClockReward env p).run s).2 p left := by
  obtain ⟨left, u, v, -, hle, hstate, hsaved, hrun⟩ := @run_reward env s p
  have hcredit : ∀ n, ((when (0 < n) (credit p.nodeId nativeToken n) :
      Prog {} Unit).run v).2.state = v.state := by
    intro n
    exact funext fun f => keeps_when (f := f) keeps_credit v
  refine ⟨left, hle, fun f hf => ?_, fun a => ?_, fun a => ?_, fun a => ?_⟩
  · rw [hrun, hcredit, hsaved.others f hf, hstate]
  · rw [hrun, stateGet_of_state (congrFun (hcredit _) _), hsaved.known,
      stateGet_of_state (congrFun hstate _)]
  · rw [hrun, stakeOf_congr (congrFun (hcredit _) _), hsaved.stake,
      stakeOf_congr (congrFun hstate _), clockStakeShare_congr (congrFun hstate _)]
    split
    · next hself => rw [hself]
    · rfl
  · rw [hrun, keyOf_congr (congrFun (hcredit _) _), hsaved.key, keyOf_congr (congrFun hstate _)]

end Reward

end HoneNode.ClockNodes
