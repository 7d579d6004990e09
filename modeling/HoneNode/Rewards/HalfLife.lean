import Mathlib.Data.List.Chain
import HoneNode.Rewards.Decay

/-!
# Rewards.HalfLife — decay over a hundred epochs

The rate of the decay halves a balance in two years when it is applied once in
a hundred epochs. `Window` holds the states in which the driver applies it in
epochs that follow each other, and `decay_sound_iff` says when a hundred of them
take no more than the rate.
-/

namespace HoneNode

open Prog Within Supply

/-! ## One balance -/

/-- A balance after decay. -/
def leftOf (b : ℕ) : ℕ := b - bleedOf b

/-- What a hundred epochs may take from a balance: its part at the rate, rounded up, and at
least one unit. -/
def intervalLoss (b : ℕ) : ℕ :=
  max 1 ((b * entropyRateNum + (entropyRateDenom - 1)) / entropyRateDenom)

/-- The balance is too small to lose more, or so large that a unit in each epoch is not more
than its part, and below the denominator of the rate. -/
def LosesLittle (b : ℕ) : Prop :=
  b ≤ 1 ∨ 99 * entropyRateDenom < b * entropyRateNum ∧ b < entropyRateDenom

instance (b : ℕ) : Decidable (LosesLittle b) := inferInstanceAs (Decidable (_ ∨ _))

section Balance

variable {b : ℕ}

theorem bleedOf_eq (h : b < 2 ^ 64) :
    bleedOf b = min (max (b / 1000000000 * 32946) 1) b := by
  unfold bleedOf satMul u64Max entropyRateDenom entropyRateNum
  omega

/-- Below the denominator of the rate a balance loses a unit. -/
theorem leftOf_of_small (h : b < entropyRateDenom) : leftOf b = b - 1 := by
  unfold entropyRateDenom at h
  unfold leftOf
  rw [bleedOf_eq (by omega), Nat.div_eq_of_lt h]
  omega

theorem iterate_of_small (h : b < entropyRateDenom) (k : ℕ) : leftOf^[k] b = b - k := by
  induction k with
  | zero => rfl
  | succ k ih =>
    rw [Function.iterate_succ_apply', ih, leftOf_of_small (by omega)]
    omega

theorem iterate_le (k : ℕ) : leftOf^[k] b ≤ b := by
  induction k with
  | zero => exact le_rfl
  | succ k ih =>
    rw [Function.iterate_succ_apply']
    exact (Nat.sub_le _ _).trans ih

theorem leftOf_of_large (h : b < 2 ^ 64) (hlarge : 1000000000 ≤ b) :
    leftOf b = b - b / 1000000000 * 32946 := by
  unfold leftOf
  rw [bleedOf_eq h]
  omega

/-- From the denominator of the rate on, the first three epochs or the many after the first one
take more than the part. -/
theorem interval_exceeded (h : b < 2 ^ 64) (hlarge : entropyRateDenom ≤ b) :
    leftOf^[100] b + intervalLoss b < b := by
  unfold entropyRateDenom at hlarge
  have hfirst := leftOf_of_large h hlarge
  unfold intervalLoss entropyRateDenom entropyRateNum
  by_cases hnear : b < 1000000000 + 32946
  · have hlast : leftOf^[100] b = leftOf b - 99 := by
      rw [Function.iterate_succ_apply]
      refine iterate_of_small ?_ 99
      unfold entropyRateDenom
      omega
    rw [hlast, hfirst]
    omega
  · have hlarge₁ : 1000000000 ≤ leftOf b := by omega
    have hsecond := leftOf_of_large (b := leftOf b) (by omega) hlarge₁
    have hthird : leftOf (leftOf (leftOf b)) < leftOf (leftOf b) := by
      have hpos : 0 < bleedOf (leftOf (leftOf b)) := by
        rw [bleedOf_eq (by omega)]
        omega
      have hle := bleedOf_le (leftOf (leftOf b))
      exact Nat.sub_lt (by omega) hpos
    have hlast : leftOf^[100] b ≤ leftOf (leftOf (leftOf b)) := by
      rw [Function.iterate_succ_apply, Function.iterate_succ_apply, Function.iterate_succ_apply]
      exact iterate_le 97
    omega

/-- A hundred epochs take no more than the part at the rate from just these balances. -/
theorem interval_iff (h : b < 2 ^ 64) : b - leftOf^[100] b ≤ intervalLoss b ↔ LosesLittle b := by
  by_cases hsmall : b < entropyRateDenom
  · rw [iterate_of_small hsmall]
    unfold LosesLittle intervalLoss
    unfold entropyRateDenom entropyRateNum at *
    omega
  · have hexceeded := interval_exceeded h (not_lt.1 hsmall)
    unfold LosesLittle
    unfold entropyRateDenom at *
    omega

end Balance

/-! ## What the driver applies -/

/-- An application of the decay: its epoch and the state that it found. -/
structure Decay where
  (epoch : ℕ) (before : Chain)

namespace Decay

variable (d : Decay) (account token : String)

def after : Chain := ((applyEntropyDecay d.epoch).run d.before).2

/-- The account has a record and is dormant. -/
def Reaches : Prop := account ∈ accountIds d.before ∧ Dormant d.epoch d.before account

/-- The fund can take what the decay takes of a token. -/
def HasRoom : Prop :=
  d.before.getBalance recycleFund token +
    takenOf d.epoch d.before (accountIds d.before) token < 2 ^ 64

def balanceBefore : ℕ := d.before.getBalance account token

def balanceAfter : ℕ := d.after.getBalance account token

end Decay

namespace Node

/-- The decay that the driver applies with an event. -/
def decayDue (n : Node) : Event → List Decay
  | .drive _ => match n.phase with
    | .paid epoch _ => [⟨epoch, n.chain⟩]
    | _ => []
  | _ => []

/-- The decays that the driver applies with the events, in that order. -/
def decays (env : Env) (orders : RewardOrders) : List Event → Node → List Decay
  | [], _ => []
  | ev :: evs, n => n.decayDue ev ++ decays env orders evs (n.after env orders ev)

end Node

/-! ## Windows -/

/-- Nothing but the decay changes the balance from the first application to the last. -/
def Untouched (account token : String) (ds : List Decay) : Prop :=
  ds.IsChain fun d d' => d'.balanceBefore account token = d.balanceAfter account token

/-- The balance that the first application finds. -/
def balanceAtFirst (account token : String) (ds : List Decay) : ℕ :=
  (ds.head?.map (·.balanceBefore account token)).getD 0

/-- What the applications take from the balance. -/
def lost (account token : String) (ds : List Decay) : ℕ :=
  (ds.map fun d => d.balanceBefore account token - d.balanceAfter account token).sum

/-- The decay keeps every token whole, changes nothing but balances of dormant accounts and of
the fund that receives them, and takes no more in these epochs than the part of one interval. -/
structure DecaySound (ds : List Decay) : Prop where
  conserved : ∀ d ∈ ds, ∀ token, supply token d.after = supply token d.before
  frame : ∀ d ∈ ds, d.after = { d.before with balances := d.after.balances }
  selective : ∀ d ∈ ds, ∀ account token,
    d.balanceAfter account token ≠ d.balanceBefore account token →
      account = recycleFund ∨ Dormant d.epoch d.before account
  slow : ∀ account token, (∀ d ∈ ds, d.Reaches account) → Untouched account token ds →
    lost account token ds ≤ intervalLoss (balanceAtFirst account token ds)

section Windows

variable {d : Decay} {ds : List Decay} {account token : String}

theorem Decay.bled (h : Plain d.before) :
    Bled (takenFrom d.epoch d.before (accountIds d.before))
      (takenOf d.epoch d.before (accountIds d.before)) d.before d.after :=
  bled_applyEntropyDecay h d.epoch

/-- A dormant balance keeps what its part leaves. -/
theorem balanceAfter_of_reaches (h : Plain d.before) (hreach : d.Reaches account) :
    d.balanceAfter account token = leftOf (d.balanceBefore account token) := by
  have hrow := (Decay.bled h).rows account token hreach.2.ne_recycleFund
  have htaken : takenFrom d.epoch d.before (accountIds d.before) account token =
      bleedOf (d.before.getBalance account token) := if_pos hreach
  rw [htaken] at hrow
  unfold Decay.balanceAfter Decay.balanceBefore leftOf
  omega

theorem selective_of_plain (h : Plain d.before)
    (hne : d.balanceAfter account token ≠ d.balanceBefore account token) :
    account = recycleFund ∨ Dormant d.epoch d.before account := by
  by_cases hfund : account = recycleFund
  · exact .inl hfund
  · right
    by_contra hawake
    have hrow := (Decay.bled h).rows account token hfund
    unfold takenFrom at hrow
    rw [if_neg fun hin => hawake hin.2] at hrow
    exact hne hrow

theorem lost_cons : lost account token (d :: ds) =
    (d.balanceBefore account token - d.balanceAfter account token) + lost account token ds := rfl

/-- An untouched dormant balance decays in every epoch. -/
theorem lost_eq (hplain : ∀ d ∈ ds, Plain d.before) (hreach : ∀ d ∈ ds, d.Reaches account)
    (hstill : Untouched account token ds) {b : ℕ}
    (hfirst : ∀ d ∈ ds.head?, d.balanceBefore account token = b) :
    lost account token ds = b - leftOf^[ds.length] b := by
  induction ds generalizing b with
  | nil => exact (Nat.sub_self b).symm
  | cons d rest ih =>
    have hb : d.balanceBefore account token = b := hfirst d rfl
    have hafter : d.balanceAfter account token = leftOf b := by
      rw [balanceAfter_of_reaches (hplain d List.mem_cons_self) (hreach d List.mem_cons_self), hb]
    have hrest : lost account token rest = leftOf b - leftOf^[rest.length] (leftOf b) := by
      refine ih (fun e he => hplain e (List.mem_cons_of_mem _ he))
        (fun e he => hreach e (List.mem_cons_of_mem _ he)) hstill.tail fun e he => ?_
      cases rest with
      | nil => cases he
      | cons e' rest' =>
        cases he
        exact (List.isChain_cons_cons.1 hstill).1.trans hafter
    have hle : leftOf b ≤ b := Nat.sub_le _ _
    have hlater := iterate_le (b := leftOf b) rest.length
    rw [lost_cons, hb, hafter, hrest, List.length_cons, Function.iterate_succ_apply]
    omega

theorem slow_iff (hplain : ∀ d ∈ ds, Plain d.before) (hlength : ds.length = 100)
    (hreach : ∀ d ∈ ds, d.Reaches account) (hstill : Untouched account token ds) :
    lost account token ds ≤ intervalLoss (balanceAtFirst account token ds) ↔
      LosesLittle (balanceAtFirst account token ds) := by
  obtain ⟨d, rest, rfl⟩ := List.exists_cons_of_length_eq_add_one hlength
  have hlt : d.balanceBefore account token < 2 ^ 64 :=
    (hplain d List.mem_cons_self).getBalance_lt account token
  have hlost : lost account token (d :: rest) =
      d.balanceBefore account token - leftOf^[(d :: rest).length] (d.balanceBefore account token) :=
    lost_eq hplain hreach hstill fun e he => by cases he; rfl
  rw [hlost, hlength]
  exact interval_iff hlt

/-- Over a hundred epochs of the driver the decay is sound exactly when the fund has room for
all that it takes, and every dormant balance is one that loses little. -/
theorem decay_sound_iff (env : Env) (orders : RewardOrders) (n : Node) (evs : List Event)
    {first : ℕ} (hepochs : (n.decays env orders evs).map (·.epoch) = List.range' first 100)
    (hplain : ∀ d ∈ n.decays env orders evs, Plain d.before) :
    DecaySound (n.decays env orders evs) ↔
      (∀ d ∈ n.decays env orders evs, ∀ token, d.HasRoom token) ∧
        ∀ account token, (∀ d ∈ n.decays env orders evs, d.Reaches account) →
          Untouched account token (n.decays env orders evs) →
            LosesLittle (balanceAtFirst account token (n.decays env orders evs)) := by
  have hlength : (n.decays env orders evs).length = 100 := by
    rw [← List.length_map, hepochs, List.length_range']
  constructor
  · intro h
    refine ⟨fun d hd token => ?_, fun account token hreach hstill => ?_⟩
    · exact ((Decay.bled (hplain d hd)).supply_eq_iff token).1 (h.conserved d hd token)
    · exact (slow_iff hplain hlength hreach hstill).1 (h.slow account token hreach hstill)
  · rintro ⟨hroom, hlittle⟩
    refine ⟨fun d hd token => ?_, fun d hd => (Decay.bled (hplain d hd)).rest,
      fun d hd account token => selective_of_plain (hplain d hd),
      fun account token hreach hstill => ?_⟩
    · exact ((Decay.bled (hplain d hd)).supply_eq_iff token).2 (hroom d hd token)
    · exact (slow_iff hplain hlength hreach hstill).2 (hlittle account token hreach hstill)

end Windows

/-! ## A node that only recycles -/

/-- The driver is in an epoch, nobody has sealed the ones up to `stop`, and an account sleeps. -/
structure Quiet (account : String) (n : Node) (epoch stop : ℕ) : Prop where
  phase : n.phase = .paid epoch stop
  plain : Plain n.chain
  metas : ∀ i, epoch < i → i ≤ stop → ∃ m, n.chain.epochs.get i = some m ∧ m.sealedBy = []
  unmarked : ∀ i, epoch < i → i ≤ stop → rewarded n.chain i = false
  reaches : Decay.Reaches ⟨epoch, n.chain⟩ account
  bounded : stop < 2 ^ 64

section Quiet

variable {env : Env} {orders : RewardOrders} {n : Node} {account token : String} {epoch stop : ℕ}

variable (env orders epoch) in
/-- Recycling a block reward changes nothing but the fund. -/
theorem run_payEpoch_nil {s : Chain} (h : Plain s) : ∃ t,
    (payEpoch env orders epoch []).run s = (.ok (), t) ∧ Plain t ∧
      t = { s with balances := t.balances } ∧
      ∀ a u, a ≠ recycleFund → t.getBalance a u = s.getBalance a u := by
  unfold payEpoch creditIfAny
  rw [if_neg (not_not_intro rfl), run_when]
  split
  · rw [run_ignoreErr, run_credit]
    split
    · next hroom =>
      refine ⟨_, rfl, h.setBalance nulFree_recycleFund nulFree_nativeToken hroom, rfl,
        fun a u ha => ?_⟩
      have hset := getBalance_setBalance (s := s)
        (n := s.getBalance recycleFund nativeToken + blockRewardAt epoch)
        nulFree_recycleFund nulFree_nativeToken a u
      rw [if_neg fun heq => ha heq.1] at hset
      exact hset
    · exact ⟨s, rfl, h, rfl, fun _ _ _ => rfl⟩
  · exact ⟨s, rfl, h, rfl, fun _ _ _ => rfl⟩

/-- Decay, marker and payment bring the driver to the next epoch. -/
theorem Quiet.next (h : Quiet account n epoch stop) (hmore : epoch < stop) (depth : ℕ) :
    ∃ n₁ n₂ n₃, n.drive env orders depth = n₁ ∧ n₁.phase = .decayed epoch stop ∧
      n₁.drive env orders depth = n₂ ∧ n₂.phase = .walking (epoch + 1) stop ∧
      n₂.drive env orders depth = n₃ ∧ Quiet account n₃ (epoch + 1) stop ∧
      ∀ a u, a ≠ recycleFund →
        n₃.chain.getBalance a u = (Decay.after ⟨epoch, n.chain⟩).getBalance a u := by
  have hbled := Decay.bled (d := ⟨epoch, n.chain⟩) h.plain
  let t := Decay.after ⟨epoch, n.chain⟩
  have hrest : t = { n.chain with balances := t.balances } := hbled.rest
  let t' := t.stateSet .epochFinalizedDone (doneKey epoch) ()
  have hplain' : Plain t' := ⟨hbled.plain.ids, hbled.plain.rows⟩
  have hepochs' : t.epochs = n.chain.epochs := by rw [hrest]
  have haccounts' : t.accounts = n.chain.accounts := by rw [hrest]
  have hstate : t.state = n.chain.state := hbled.state_eq
  have hunmarked' : ∀ i, epoch < i → i ≤ stop → rewarded t' i = false := by
    intro i hi hle
    have hkey : doneKey epoch ≠ doneKey i := fun heq => by
      have hbound := h.bounded
      exact absurd (Text.toString_inj (by omega) (by omega) heq) hi.ne
    unfold rewarded
    rw [stateGet_stateSet, if_neg hkey, Chain.stateGet, hstate]
    exact h.unmarked i hi hle
  have hfirst : n.drive env orders depth = { n with chain := t, phase := .decayed epoch stop } := by
    unfold Node.drive
    rw [h.phase]
    rfl
  have hsecond : Node.drive env orders { n with chain := t, phase := .decayed epoch stop } depth =
      { n with chain := t', driver := { n.driver with lastRewarded := epoch },
               phase := .walking (epoch + 1) stop } := by
    unfold Node.drive Node.through
    dsimp only
    rw [if_pos hmore]
  obtain ⟨m, hmeta, hnobody⟩ := h.metas (epoch + 1) (Nat.lt_succ_self _) hmore
  obtain ⟨u, hpay, hplain, hcalm, hkept⟩ := run_payEpoch_nil env orders (epoch + 1)
    hplain'
  have hthird : Node.drive env orders
      { n with chain := t', driver := { n.driver with lastRewarded := epoch },
               phase := .walking (epoch + 1) stop } depth =
      { n with chain := u, driver := { n.driver with lastRewarded := epoch },
               phase := .paid (epoch + 1) stop,
               paidOut := n.paidOut ++ [⟨epoch + 1, []⟩] } := by
    unfold Node.drive Node.walk
    dsimp only
    have hfound : t'.epochs.get (epoch + 1) = some m := hepochs' ▸ hmeta
    rw [hunmarked' _ (Nat.lt_succ_self _) hmore, if_neg Bool.false_ne_true, hfound]
    dsimp only
    rw [hnobody, hpay]
  have hstate' : u.state = t'.state := by rw [hcalm]
  have hepochs : u.epochs = n.chain.epochs := by rw [hcalm]; exact hepochs'
  have haccounts : u.accounts = n.chain.accounts := by rw [hcalm]; exact haccounts'
  refine ⟨_, _, _, hfirst, rfl, hsecond, rfl, hthird, ?_, fun a w ha => hkept a w ha⟩
  refine
    { phase := rfl
      plain := hplain
      metas := fun i hi hle => ?_
      unmarked := fun i hi hle => ?_
      reaches := ?_
      bounded := h.bounded }
  · change ∃ m, u.epochs.get i = some m ∧ m.sealedBy = []
    rw [hepochs]
    exact h.metas i (by omega) hle
  · change (u.stateGet .epochFinalizedDone (doneKey i)).isSome = false
    rw [Chain.stateGet, hstate']
    exact hunmarked' i (by omega) hle
  · obtain ⟨hrecord, hsystem, hsilent⟩ := h.reaches
    refine ⟨?_, hsystem, ?_⟩
    · unfold accountIds at hrecord ⊢
      rw [haccounts]
      exact hrecord
    · have halive : u.stateGet .alive account = n.chain.stateGet .alive account := by
        have hother : t'.state .alive = t.state .alive :=
          t.state_stateSet_of_ne (f := .epochFinalizedDone) (by decide) (doneKey epoch) ()
        rw [Chain.stateGet, Chain.stateGet, hstate', hother, hstate]
      change _ < epoch + 1 - (u.stateGet .alive account).getD 0
      rw [halive]
      exact lt_of_lt_of_le hsilent (Nat.sub_le_sub_right (Nat.le_succ epoch) _)

/-- The events of so many more epochs. -/
def quietEvents : ℕ → List Event
  | 0 => [.drive 0]
  | k + 1 => .drive 0 :: .drive 0 :: .drive 0 :: quietEvents k

/-- The decays of a quiet node reach the account in one epoch after the other. -/
structure QuietDecays (account token : String) (first : Decay) (k : ℕ) (ds : List Decay) :
    Prop where
  epochs : ds.map (·.epoch) = List.range' first.epoch (k + 1)
  plain : ∀ d ∈ ds, Plain d.before
  reaches : ∀ d ∈ ds, d.Reaches account
  untouched : Untouched account token ds
  head : ∃ rest, ds = first :: rest

theorem Quiet.decays (h : Quiet account n epoch stop) {k : ℕ} (hk : epoch + k ≤ stop) :
    QuietDecays account token ⟨epoch, n.chain⟩ k (n.decays env orders (quietEvents k)) := by
  induction k generalizing n epoch with
  | zero =>
    have hds : n.decays env orders (quietEvents 0) = [⟨epoch, n.chain⟩] := by
      unfold quietEvents Node.decays Node.decayDue
      rw [h.phase]
      rfl
    rw [hds]
    refine ⟨rfl, fun d hd => ?_, fun d hd => ?_, List.isChain_singleton _, [], rfl⟩
    · rw [List.mem_singleton.1 hd]
      exact h.plain
    · rw [List.mem_singleton.1 hd]
      exact h.reaches
  | succ k ih =>
    obtain ⟨n₁, n₂, n₃, hfirst, hphase₁, hsecond, hphase₂, hthird, hnext, hkept⟩ :=
      h.next (by omega) 0
    have hlater := ih hnext (by omega)
    have hds : n.decays env orders (quietEvents (k + 1)) =
        ⟨epoch, n.chain⟩ :: n₃.decays env orders (quietEvents k) := by
      simp only [quietEvents, Node.decays, Node.decayDue, Node.after]
      rw [h.phase, hfirst, hphase₁, hsecond, hphase₂, hthird]
      rfl
    rw [hds]
    refine ⟨?_, fun d hd => ?_, fun d hd => ?_, ?_, _, rfl⟩
    · rw [List.map_cons, hlater.epochs]
      exact List.range'_succ.symm
    · rcases List.mem_cons.1 hd with rfl | hd
      · exact h.plain
      · exact hlater.plain d hd
    · rcases List.mem_cons.1 hd with rfl | hd
      · exact h.reaches
      · exact hlater.reaches d hd
    · obtain ⟨rest, hrest⟩ := hlater.head
      have hchain := hlater.untouched
      rw [hrest] at hchain ⊢
      exact List.isChain_cons_cons.2
        ⟨hkept account token h.reaches.2.ne_recycleFund, hchain⟩

end Quiet

/-! ## A sleeper -/

/-- Metas of epochs that nobody has sealed. -/
def unsealedMetas (first count : ℕ) : Kv ℕ EpochMeta where
  bindings := (List.range' first count).map fun epoch => (epoch, ⟨"", 0, "", 0, []⟩)
  sorted := List.pairwise_map.2 List.pairwise_lt_range'

/-- An account that holds an amount and was never alive. -/
def sleepyChain (amount : ℕ) : Chain where
  accounts := (∅ : Kv String Account).put "sleeper" { accountId := "sleeper", createdEpoch := 0 }
  balances := (∅ : Kv String ℕ).put (balanceKey "sleeper" nativeToken) amount
  epochs := unsealedMetas 5259601 100

def sleepyNode (amount : ℕ) : Node :=
  ⟨sleepyChain amount, ⟨5259600, true, true⟩, .paid 5259601 5259700, []⟩

section Sleeper

variable {amount : ℕ}

theorem plain_sleepyChain (h : amount < 2 ^ 64) : Plain (sleepyChain amount) := by
  constructor
  · intro account hrecord
    unfold sleepyChain at hrecord
    dsimp only at hrecord
    rw [Kv.get_put, Kv.get_empty] at hrecord
    by_cases hname : "sleeper" = account
    · rw [← hname]
      decide
    · rw [if_neg hname] at hrecord
      cases hrecord
  · intro k n hget
    unfold sleepyChain at hget
    dsimp only at hget
    rw [Kv.get_put, Kv.get_empty] at hget
    by_cases hkey : balanceKey "sleeper" nativeToken = k
    · rw [if_pos hkey, Option.some_inj] at hget
      subst hget
      exact ⟨h, "sleeper", nativeToken, by decide, nulFree_nativeToken, hkey.symm⟩
    · rw [if_neg hkey] at hget
      cases hget

theorem getBalance_sleepyChain :
    (sleepyChain amount).getBalance "sleeper" nativeToken = amount := by
  unfold Chain.getBalance sleepyChain
  rw [Kv.get_put_self, Option.getD_some]

theorem quiet_sleepyNode (h : amount < 2 ^ 64) :
    Quiet "sleeper" (sleepyNode amount) 5259601 5259700 where
  phase := rfl
  plain := plain_sleepyChain h
  metas i hi hle := by
    refine ⟨⟨"", 0, "", 0, []⟩, ?_, rfl⟩
    refine (Kv.lookup_eq_some_iff (unsealedMetas 5259601 100).sorted).2 ?_
    exact List.mem_map.2 ⟨i, List.mem_range'_1.2 (by omega), rfl⟩
  unmarked _ _ _ := rfl
  reaches := by
    refine ⟨List.mem_singleton.2 rfl, by decide, ?_⟩
    change livenessGraceEpochs + livenessDecayDelayEpochs < 5259601 - 0
    decide
  bounded := by decide

/-- The decays of a hundred epochs. -/
def sleepyDecays (amount : ℕ) : List Decay :=
  (sleepyNode amount).decays .bare .stored (quietEvents 99)

theorem quietDecays_sleeper (h : amount < 2 ^ 64) : QuietDecays "sleeper" nativeToken
    ⟨5259601, sleepyChain amount⟩ 99 (sleepyDecays amount) :=
  (quiet_sleepyNode h).decays le_rfl

theorem balanceAtFirst_sleeper (h : amount < 2 ^ 64) :
    balanceAtFirst "sleeper" nativeToken (sleepyDecays amount) = amount := by
  obtain ⟨rest, hrest⟩ := (quietDecays_sleeper h).head
  rw [hrest]
  exact getBalance_sleepyChain

/-- A sleeper with 50 hunits loses more than the rate allows, so the decays are not sound. -/
theorem decay_sound_iff_of_sleeper : ¬ LosesLittle 50 ∧ ¬ DecaySound (sleepyDecays 50) := by
  have hquiet : QuietDecays "sleeper" nativeToken ⟨5259601, sleepyChain 50⟩ 99
      (sleepyDecays 50) := quietDecays_sleeper (by decide)
  have hmuch : ¬ LosesLittle 50 := by decide
  refine ⟨hmuch, fun h => ?_⟩
  have hlittle : LosesLittle (balanceAtFirst "sleeper" nativeToken (sleepyDecays 50)) :=
    ((decay_sound_iff .bare .stored (sleepyNode 50) (quietEvents 99) hquiet.epochs
      hquiet.plain).1 h).2 _ _ hquiet.reaches hquiet.untouched
  rw [balanceAtFirst_sleeper (by decide)] at hlittle
  exact hmuch hlittle

/-- The recycle fund is full, and a sleeper has a hunit. -/
def fullFund : Chain :=
  { sleepyChain 1 with
    balances := (sleepyChain 1).balances.put (balanceKey recycleFund nativeToken) (2 ^ 64 - 1) }

/-- A sleeper with 50 hunits loses them all in a hundred epochs, where the rate allows for one;
and a fund that is full loses what it is given. -/
theorem sleeper_loses_all :
    (sleepyDecays 50).map (·.epoch) = List.range' 5259601 100 ∧
      lost "sleeper" nativeToken (sleepyDecays 50) = 50 ∧
      intervalLoss 50 = 1 ∧ ¬ DecaySound (sleepyDecays 50) ∧
      supply nativeToken fullFund = 2 ^ 64 ∧
      supply nativeToken ((applyEntropyDecay 5259601).run fullFund).2 = 2 ^ 64 - 1 := by
  have hquiet : QuietDecays "sleeper" nativeToken ⟨5259601, sleepyChain 50⟩ 99
      (sleepyDecays 50) := quietDecays_sleeper (by decide)
  obtain ⟨rest, hrest⟩ := hquiet.head
  have hlength : (sleepyDecays 50).length = 100 := by
    rw [← List.length_map, hquiet.epochs, List.length_range']
  have hlost : lost "sleeper" nativeToken (sleepyDecays 50) = 50 := by
    rw [lost_eq hquiet.plain hquiet.reaches hquiet.untouched (b := 50) fun d hd => ?_, hlength,
      iterate_of_small (by decide)]
    rw [hrest] at hd
    cases hd
    exact getBalance_sleepyChain
  have hallowed : intervalLoss 50 = 1 := by decide
  refine ⟨hquiet.epochs, hlost, hallowed, fun h => ?_, by decide, by decide⟩
  have hslow := h.slow _ _ hquiet.reaches hquiet.untouched
  rw [hlost, balanceAtFirst_sleeper (by decide), hallowed] at hslow
  exact absurd hslow (by decide)

end Sleeper

end HoneNode
