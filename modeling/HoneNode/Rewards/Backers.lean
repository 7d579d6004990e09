import HoneNode.ClockNodes.Accounting
import HoneNode.Slashing

/-!
# Rewards.Backers — what the backers of a node get of a reward

The pot of the backers is taken off the reward as a whole and then divided with
every share rounded down; a share that does not fit a balance is dropped. The
backers are all accounts whose record lies under a key that begins with the role
and the node, so that a node shares with the backers of another whose name
continues its own behind a colon.
-/

namespace HoneNode

open Prog Within ClockNodes Shares

/-! ## Handing out -/

/-- The payments that go through when they are made one after the other. -/
def handedOut (bal : String → ℕ) : List (String × ℕ) → List (String × ℕ)
  | [] => []
  | x :: rest =>
    if 0 < x.2 ∧ bal x.1 + x.2 < 2 ^ 64 then
      x :: handedOut (Function.update bal x.1 (bal x.1 + x.2)) rest
    else handedOut bal rest

section Payments

variable {bal : String → ℕ} {a : String} {x : String × ℕ} {l : List (String × ℕ)}

theorem handedOut_sublist (bal : String → ℕ) (l : List (String × ℕ)) :
    (handedOut bal l).Sublist l := by
  induction l generalizing bal with
  | nil => exact List.Sublist.refl _
  | cons x rest ih =>
    unfold handedOut
    split
    · exact (ih _).cons_cons _
    · exact (ih _).cons _

theorem pos_of_mem_handedOut (h : x ∈ handedOut bal l) : 0 < x.2 := by
  induction l generalizing bal with
  | nil => cases h
  | cons y rest ih =>
    unfold handedOut at h
    split at h
    · next hpaid =>
      rcases List.mem_cons.1 h with rfl | h
      · exact hpaid.1
      · exact ih h
    · exact ih h

/-- Nothing is dropped where what each account is due fits its balance. -/
theorem handedOut_eq_self_iff (hpos : ∀ x ∈ l, 0 < x.2) :
    handedOut bal l = l ↔ ∀ x ∈ l, bal x.1 + dueTo x.1 l < 2 ^ 64 := by
  induction l generalizing bal with
  | nil => exact iff_of_true rfl fun x hx => by cases hx
  | cons y rest ih =>
    have hrest : ∀ x ∈ rest, 0 < x.2 := fun x hx => hpos x (List.mem_cons_of_mem _ hx)
    have hle : y.2 ≤ dueTo y.1 (y :: rest) := le_dueTo List.mem_cons_self
    have hupdate : ∀ a, Function.update bal y.1 (bal y.1 + y.2) a + dueTo a rest =
        bal a + dueTo a (y :: rest) := by
      intro a
      rw [Function.update_apply, dueTo_cons]
      by_cases h : a = y.1
      · subst h
        rw [if_pos rfl, if_pos rfl, Nat.add_assoc]
      · rw [if_neg h, if_neg (Ne.symm h), Nat.zero_add]
    unfold handedOut
    constructor
    · intro h
      split at h
      · next hpaid =>
        have hfits := (ih hrest).1 (List.cons.inj h).2
        intro x hx
        rw [← hupdate]
        rcases List.mem_cons.1 hx with rfl | hx
        · by_cases hagain : ∃ z ∈ rest, z.1 = x.1
          · obtain ⟨z, hz, hzx⟩ := hagain
            have hz' := hfits z hz
            rwa [hzx] at hz'
          · have hnone : dueTo x.1 rest = 0 := dueTo_eq_zero fun z hz hzx => hagain ⟨z, hz, hzx⟩
            rw [hnone, Function.update_self]
            exact hpaid.2
        · exact hfits x hx
      · have hlength := (handedOut_sublist bal rest).length_le
        rw [h, List.length_cons] at hlength
        omega
    · intro h
      have hy := h y List.mem_cons_self
      rw [if_pos ⟨hpos y List.mem_cons_self, by omega⟩]
      refine congrArg _ ((ih hrest).2 fun x hx => ?_)
      rw [hupdate]
      exact h x (List.mem_cons_of_mem _ hx)

/-- Part of a list of positive payments comes to the whole only if it is all of them. -/
theorem sum_handedOut_eq_iff (hpos : ∀ x ∈ l, 0 < x.2) :
    ((handedOut bal l).map (·.2)).sum = (l.map (·.2)).sum ↔ handedOut bal l = l := by
  refine ⟨fun hsum => ?_, fun h => by rw [h]⟩
  have hsub := handedOut_sublist bal l
  generalize handedOut bal l = paid at hsum hsub
  induction hsub with
  | slnil => rfl
  | cons x hsub ih =>
    rw [List.map_cons, List.sum_cons] at hsum
    have hle := (hsub.map (·.2)).sum_le_sum fun _ _ => Nat.zero_le _
    have hx := hpos x List.mem_cons_self
    omega
  | cons_cons x hsub ih =>
    rw [List.map_cons, List.sum_cons, List.map_cons, List.sum_cons] at hsum
    rw [ih (fun z hz => hpos z (List.mem_cons_of_mem _ hz)) (by omega)]

end Payments

/-! ## A split -/

/-- The shares of the backers, as they are computed. -/
def sharesOf (s : Chain) (role node : String) (total : ℕ) : List (String × ℕ) :=
  (backersOf s role node).map fun st =>
    (st.1, backerPot s role node total * st.2 / (backing s role node % 2 ^ 64) % 2 ^ 64)

/-- The node has opted in, and neither the pot nor the stake total is zero. -/
def Shared (s : Chain) (role node : String) (total : ℕ) : Prop :=
  (s.stateGet .roleOpt s!"{role}:{node}").isSome ∧
    0 < min (((s.stateGet .roleOpt s!"{role}:{node}").bind (·.backerShareBps)).getD 0) 5000 ∧
    0 < backing s role node % 2 ^ 64 ∧ 0 < backerPot s role node total

/-- The account stakes at this node, in this role. -/
def StakesAt (s : Chain) (role node a : String) : Prop :=
  ∃ key r, s.stateGet .roleStake key = some r ∧ r.role = role ∧ r.node = node ∧ r.staker = a ∧
    0 < r.amount

section Split

variable {F : Footprint} {s t : Chain} {role node : String} {total left : ℕ}

theorem backerPot_le : backerPot s role node total ≤ total := by
  refine (Nat.mod_le _ _).trans (Nat.div_le_of_le_mul ?_)
  rw [Nat.mul_comm 10000]
  exact Nat.mul_le_mul_left _ ((Nat.min_le_right _ _).trans (by decide))

theorem run_payShares_handedOut (pot total : ℕ) (stakers : List (String × ℕ)) (s : Chain) :
    ∃ t, (payShares pot total (fun a n => ignoreErr (credit a nativeToken n)) stakers :
        Prog F Unit).run s = (.ok (), t) ∧
      t.nativeBalances = s.nativeBalances + ((handedOut (native s) (stakers.map fun st =>
        (st.1, pot * st.2 / total % 2 ^ 64))).map (·.2)).sum ∧
      ∀ a, native t a = native s a + dueTo a (handedOut (native s) (stakers.map fun st =>
        (st.1, pot * st.2 / total % 2 ^ 64))) := by
  induction stakers generalizing s with
  | nil => exact ⟨s, rfl, rfl, fun _ => rfl⟩
  | cons st rest ih =>
    have hhead : ∃ u, ((do
        let payout := pot * st.2 / total % 2 ^ 64
        when (0 < payout) (ignoreErr (credit st.1 nativeToken payout))) : Prog F Unit).run s =
          (.ok (), u) ∧ u = if 0 < pot * st.2 / total % 2 ^ 64 ∧
            native s st.1 + pot * st.2 / total % 2 ^ 64 < 2 ^ 64 then
              s.credited st.1 nativeToken (pot * st.2 / total % 2 ^ 64) else s := by
      refine ⟨_, ?_, rfl⟩
      dsimp only
      rw [run_when]
      by_cases hpos : 0 < pot * st.2 / total % 2 ^ 64
      · rw [if_pos hpos, Slashing.run_ignoreErr_credit]
        simp only [hpos, true_and]
      · rw [if_neg hpos, if_neg fun h => hpos h.1]
    obtain ⟨u, hrun, hu⟩ := hhead
    obtain ⟨t, hrest, hsum, hdue⟩ := ih u
    refine ⟨t, (run_bind_ok hrun).trans hrest, ?_⟩
    rw [List.map_cons, handedOut]
    dsimp only
    by_cases hpaid : 0 < pot * st.2 / total % 2 ^ 64 ∧
        native s st.1 + pot * st.2 / total % 2 ^ 64 < 2 ^ 64
    · rw [if_pos hpaid] at hu ⊢
      have hbal : native u = Function.update (native s) st.1
          (native s st.1 + pot * st.2 / total % 2 ^ 64) := by
        funext a
        rw [hu, native_credited, Function.update_apply]
        by_cases h : a = st.1
        · rw [if_pos h.symm, if_pos h, h]
        · rw [if_neg (Ne.symm h), if_neg h, Nat.add_zero]
      rw [← hbal]
      refine ⟨?_, fun a => ?_⟩
      · rw [hsum, hu, nativeBalances_credited, List.map_cons, List.sum_cons, Nat.add_assoc]
      · rw [hdue, dueTo_cons, ← Nat.add_assoc, hu, native_credited]
    · rw [if_neg hpaid] at hu ⊢
      subst hu
      exact ⟨hsum, hdue⟩

/-- What a split leaves: only backers of this node and role are paid, and nothing of the reward
is lost. -/
structure Splits (s t : Chain) (role node : String) (total left : ℕ) : Prop where
  stakers : ∀ a, native t a ≠ native s a → StakesAt s role node a
  whole : left + t.nativeBalances = s.nativeBalances + total

/-- The shares come out even, fit, and go to backers of this node and role. -/
structure Even (s : Chain) (role node : String) (total : ℕ) : Prop where
  exact : ∀ st ∈ backersOf s role node, backing s role node ∣ backerPot s role node total * st.2
  fits : ∀ st ∈ backersOf s role node,
    native s st.1 + dueTo st.1 (sharesOf s role node total) < 2 ^ 64
  stakers : ∀ st ∈ backersOf s role node, StakesAt s role node st.1

/-- The shares that are handed out come to the pot, to backers of this node and role. -/
structure ComesOut (s : Chain) (role node : String) (total : ℕ) : Prop where
  whole : ((handedOut (native s) (sharesOf s role node total)).map (·.2)).sum =
    backerPot s role node total
  stakers : ∀ x ∈ handedOut (native s) (sharesOf s role node total), StakesAt s role node x.1

theorem run_unshared (h : ¬ Shared s role node total) :
    (distributeRoleBackerReward role node total : Prog F ℕ).run s = (.ok total, s) := by
  unfold distributeRoleBackerReward
  rw [run_stateGet_bind]
  dsimp only
  rw [run_stateScan_bind, run_ite]
  split
  · next hshared => exact absurd hshared h
  · rfl

/-- The node is left with the reward less the pot, whatever was handed out. -/
theorem run_shared (h : Shared s role node total) :
    ∃ t, (distributeRoleBackerReward role node total : Prog F ℕ).run s =
        (.ok (total - backerPot s role node total), t) ∧
      t.nativeBalances = s.nativeBalances +
        ((handedOut (native s) (sharesOf s role node total)).map (·.2)).sum ∧
      ∀ a, native t a = native s a +
        dueTo a (handedOut (native s) (sharesOf s role node total)) := by
  obtain ⟨t, hrun, hpaid⟩ := run_payShares_handedOut (F := F) (backerPot s role node total)
    (backing s role node % 2 ^ 64) (backersOf s role node) s
  refine ⟨t, ?_, hpaid⟩
  unfold distributeRoleBackerReward
  rw [run_stateGet_bind]
  dsimp only
  rw [run_stateScan_bind, run_ite]
  split
  · exact run_bind_ok hrun
  · next hunshared => exact absurd h hunshared

theorem dueTo_ne_zero_iff {a : String} {l : List (String × ℕ)} (hpos : ∀ x ∈ l, 0 < x.2) :
    dueTo a l ≠ 0 ↔ ∃ x ∈ l, x.1 = a := by
  constructor
  · intro h
    by_contra hnone
    exact h (dueTo_eq_zero fun x hx hxa => hnone ⟨x, hx, hxa⟩)
  · rintro ⟨x, hx, rfl⟩
    exact Nat.ne_of_gt ((hpos x hx).trans_le (le_dueTo hx))

/-- A split is right exactly where what is handed out is. -/
theorem splits_iff_comesOut :
    (∃ left t, (distributeRoleBackerReward role node total : Prog F ℕ).run s = (.ok left, t) ∧
      Splits s t role node total left) ↔
    (Shared s role node total → ComesOut s role node total) := by
  by_cases hshared : Shared s role node total
  · obtain ⟨t, hrun, hsum, hdue⟩ := run_shared (F := F) hshared
    have hpot : backerPot s role node total ≤ total := backerPot_le
    have hpaid : ∀ a, native t a ≠ native s a ↔
        ∃ x ∈ handedOut (native s) (sharesOf s role node total), x.1 = a := by
      intro a
      rw [hdue, ← dueTo_ne_zero_iff fun x => pos_of_mem_handedOut]
      omega
    rw [hrun]
    constructor
    · rintro ⟨left, u, ⟨⟩, hsplits⟩ -
      constructor
      · have hwhole := hsplits.whole
        omega
      · exact fun x hx => hsplits.stakers x.1 ((hpaid x.1).2 ⟨x, hx, rfl⟩)
    · intro h
      have hcomes := h hshared
      refine ⟨_, t, rfl, fun a ha => ?_, ?_⟩
      · obtain ⟨x, hx, rfl⟩ := (hpaid a).1 ha
        exact hcomes.stakers x hx
      · have hwhole := hcomes.whole
        omega
  · rw [run_unshared hshared]
    exact iff_of_true ⟨total, s, rfl, fun a ha => absurd rfl ha, Nat.add_comm _ _⟩
      fun h => absurd h hshared

/-- While the stakes fit a word, a share is the pot by stake, rounded down. -/
theorem sharesOf_eq (hword : backing s role node < 2 ^ 64) :
    sharesOf s role node total = (backersOf s role node).map fun st =>
      (st.1, backerPot s role node total * st.2 / backing s role node) := by
  refine List.map_congr_left fun st hst => congrArg (Prod.mk st.1) ?_
  have hle : st.2 ≤ backing s role node :=
    List.single_le_sum (fun _ _ => Nat.zero_le _) _ (List.mem_map_of_mem hst)
  have hpot : backerPot s role node total < 2 ^ 64 := Nat.mod_lt _ (by decide)
  rw [Nat.mod_eq_of_lt hword, Nat.mod_eq_of_lt]
  refine (Nat.div_le_of_le_mul ?_).trans_lt hpot
  rw [Nat.mul_comm (backing s role node)]
  exact Nat.mul_le_mul_left _ hle

/-- Exact shares of a pot are positive. -/
theorem pos_of_mem_sharesOf (hword : backing s role node < 2 ^ 64)
    (hshared : Shared s role node total)
    (hexact : ∀ st ∈ backersOf s role node,
      backing s role node ∣ backerPot s role node total * st.2) :
    ∀ x ∈ sharesOf s role node total, 0 < x.2 := by
  intro x hx
  rw [sharesOf_eq hword] at hx
  obtain ⟨st, hst, rfl⟩ := List.mem_map.1 hx
  have hstake : 0 < st.2 := of_decide_eq_true (List.mem_filter.1 hst).2
  have hpositive := Nat.mul_pos hshared.2.2.2 hstake
  exact Nat.div_pos (Nat.le_of_dvd hpositive (hexact st hst))
    (Nat.pos_of_dvd_of_pos (hexact st hst) hpositive)

/-- While the stakes fit a word, what is handed out comes to the pot only if every share is
exact and goes through. -/
theorem comesOut_iff_even (hword : backing s role node < 2 ^ 64)
    (hshared : Shared s role node total) :
    ComesOut s role node total ↔ Even s role node total := by
  have hpos : 0 < backing s role node := Nat.mod_eq_of_lt hword ▸ hshared.2.2.1
  have hsum : ((sharesOf s role node total).map (·.2)).sum =
      ((backersOf s role node).map fun st =>
        backerPot s role node total * st.2 / backing s role node).sum := by
    rw [sharesOf_eq hword, List.map_map]
    rfl
  have hle : ((sharesOf s role node total).map (·.2)).sum ≤ backerPot s role node total := by
    rw [hsum]
    exact Shares.sum_mul_div_le _ le_rfl
  have hexact_iff : ((sharesOf s role node total).map (·.2)).sum = backerPot s role node total ↔
      ∀ st ∈ backersOf s role node,
        backing s role node ∣ backerPot s role node total * st.2 := by
    rw [hsum]
    exact Shares.sum_mul_div_eq_iff hpos rfl
  have hmem : ∀ st ∈ backersOf s role node, ∃ n, (st.1, n) ∈ sharesOf s role node total :=
    fun st hst => ⟨_, List.mem_map_of_mem hst⟩
  constructor
  · intro h
    have hsub := ((handedOut_sublist (native s) (sharesOf s role node total)).map
      (·.2)).sum_le_sum fun _ _ => Nat.zero_le _
    have hwhole := h.whole
    have hexact := hexact_iff.1 (by omega)
    have hshares := pos_of_mem_sharesOf hword hshared hexact
    have hall : handedOut (native s) (sharesOf s role node total) = sharesOf s role node total :=
      (sum_handedOut_eq_iff hshares).1 (by omega)
    have hfits := (handedOut_eq_self_iff hshares).1 hall
    refine ⟨hexact, fun st hst => ?_, fun st hst => ?_⟩
    · obtain ⟨n, hn⟩ := hmem st hst
      exact hfits (st.1, n) hn
    · obtain ⟨n, hn⟩ := hmem st hst
      exact h.stakers (st.1, n) (hall.symm ▸ hn)
  · intro h
    have hshares := pos_of_mem_sharesOf hword hshared h.exact
    have hstaker : ∀ x ∈ sharesOf s role node total, ∃ st ∈ backersOf s role node, st.1 = x.1 := by
      intro x hx
      obtain ⟨st, hst, rfl⟩ := List.mem_map.1 hx
      exact ⟨st, hst, rfl⟩
    have hall : handedOut (native s) (sharesOf s role node total) = sharesOf s role node total := by
      refine (handedOut_eq_self_iff hshares).2 fun x hx => ?_
      obtain ⟨st, hst, heq⟩ := hstaker x hx
      exact heq ▸ h.fits st hst
    refine ⟨by rw [hall, hexact_iff.2 h.exact], fun x hx => ?_⟩
    obtain ⟨st, hst, heq⟩ := hstaker x (hall ▸ hx)
    exact heq ▸ h.stakers st hst

/-- The split is exact and local exactly where no pot is divided, or the shares come out even;
where the stake total has wrapped around, the shares of what is left of it would have to come to
the pot by chance. -/
theorem backer_split_iff (F : Footprint) (s : Chain) (role node : String) (total : ℕ) :
    (∃ left t, (distributeRoleBackerReward role node total : Prog F ℕ).run s = (.ok left, t) ∧
      Splits s t role node total left) ↔
    (Shared s role node total →
      (backing s role node < 2 ^ 64 → Even s role node total) ∧
      (2 ^ 64 ≤ backing s role node → ComesOut s role node total)) := by
  rw [splits_iff_comesOut]
  refine forall_congr' fun hshared => ?_
  rcases Nat.lt_or_ge (backing s role node) (2 ^ 64) with hword | hwrapped
  · rw [comesOut_iff_even hword hshared]
    exact ⟨fun h => ⟨fun _ => h, fun hge => absurd hword (Nat.not_lt.2 hge)⟩, fun h => h.1 hword⟩
  · exact ⟨fun h => ⟨fun hlt => absurd hlt (Nat.not_lt.2 hwrapped), fun _ => h⟩,
      fun h => h.2 hwrapped⟩

/-- `alice` and `bob` back the node `n`, and `carol` backs another node, `n:x`. -/
def backedChain : Chain :=
  ((((({} : Chain).stateSet .roleOpt "miner:n" ⟨"n", "miner", some 5000, some 20, false, 0⟩)
    ).stateSet .roleStake (roleKey "miner" "n" "alice") ⟨"n", "miner", "alice", 1, some 0⟩
    ).stateSet .roleStake (roleKey "miner" "n" "bob") ⟨"n", "miner", "bob", 1, some 0⟩
    ).stateSet .roleStake (roleKey "miner" "n:x" "carol") ⟨"n:x", "miner", "carol", 1, some 0⟩

/-- Of a reward of ten the node keeps five, three backers get one each, and two are lost;
`carol` is paid for a node that she does not back. -/
theorem backer_pot_leaks :
    ∃ t, (distributeRoleBackerReward "miner" "n" 10 : Prog {} ℕ).run backedChain = (.ok 5, t) ∧
      t.nativeBalances = 3 ∧ backedChain.nativeBalances = 0 ∧
      native t "carol" = 1 ∧ native backedChain "carol" = 0 ∧
      ¬ StakesAt backedChain "miner" "n" "carol" ∧
      ¬ Splits backedChain t "miner" "n" 10 5 := by
  refine ⟨_, rfl, by decide, by decide, by decide, by decide, ?_, ?_⟩
  · rintro ⟨key, r, hget, -, hnode, hstaker, -⟩
    have hall : ∀ p ∈ (backedChain.state .roleStake).bindings,
        p.2.node = "n" → p.2.staker ≠ "carol" := by decide
    have hmem := (Kv.lookup_eq_some_iff (backedChain.state .roleStake).sorted).1 hget
    exact hall _ hmem hnode hstaker
  · intro h
    exact absurd h.whole (by decide)

end Split

end HoneNode
