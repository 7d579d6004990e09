import HoneNode.Lib.Decimal
import HoneNode.Lib.Trace
import HoneNode.Rewards.Holdings
import HoneNode.Tx.Frame

/-!
# Unstaking — unbonding completes, and never early

What an `Unstake` or a `DeviceClaimUnstake` frees is queued under a release epoch
taken from the entry, and the seal of exactly that epoch pays it out. Meant is
the first seal at least `UNBONDING_EPOCHS` after the epoch of the chain.

1. **The queue**: records under their own keys, one drain (`run_drainUnbonding`).
2. **The component**: unstaking entries and seals, with what is owed.
3. **Runs** whose release epochs are met pay every withdrawal once, when it is due
   (`unbonding_completes`).
-/

namespace HoneNode.Unstaking

open Prog Within Trace

/-! ## The queue -/

/-- What is queued for an account under a release epoch. -/
def queued (s : Chain) (release : ℕ) (account : String) : ℕ :=
  Supply.queuedAt s (unbondingKey release account)

/-- Every record lies under the key of its epoch and account. -/
def Filed (s : Chain) : Prop :=
  ∀ key u, s.stateGet .unbonding key = some u → key = unbondingKey u.releaseEpoch u.account

section Keys

variable {n m : ℕ} {a b : String}

theorem unbondingKey_inj : unbondingKey n a = unbondingKey m b ↔ n = m ∧ a = b :=
  Text.numbered_inj

/-- The scan of an epoch finds the keys of that epoch. -/
theorem hasPrefix_unbondingKey : hasPrefix s!"{m}:" (unbondingKey n a) = true ↔ n = m :=
  Text.hasPrefix_numbered

end Keys

section Drain

variable {s t : Chain} {epoch n : ℕ} {a : String} {rows : List (String × Unbonding)}

theorem queued_of_get {u : Unbonding} (h : s.stateGet .unbonding (unbondingKey n a) = some u) :
    queued s n a = u.amount := by
  unfold queued Supply.queuedAt
  rw [h]
  rfl

theorem queued_of_none (h : s.stateGet .unbonding (unbondingKey n a) = none) :
    queued s n a = 0 := by
  unfold queued Supply.queuedAt
  rw [h]
  rfl

/-- The drain of an epoch with the records still to come: what left the queue of the epoch
went to its accounts, and the queues of the other epochs are as they were. -/
structure Draining (s : Chain) (epoch : ℕ) (rows : List (String × Unbonding)) (t : Chain) :
    Prop where
  pending : Supply.Pending (f := .unbonding) rows t
  ofEpoch : ∀ r ∈ rows, r.1 = unbondingKey epoch r.2.account
  filed : Filed t
  moved : ∀ a, native t a + queued t epoch a = native s a + queued s epoch a
  shrunk : ∀ a, queued t epoch a ≤ queued s epoch a
  others : ∀ m, m ≠ epoch → ∀ a, queued t m a = queued s m a
  left : ∀ a, queued t epoch a ≠ 0 → unbondingKey epoch a ∈ rows.map Prod.fst

theorem draining_start (h : Filed s) : Draining s epoch
    ((s.state .unbonding).scan (hasPrefix s!"{epoch}:")) s where
  pending := Supply.pending_scan .unbonding _ s
  ofEpoch := by
    intro r hr
    obtain ⟨hget, hpfx⟩ := Kv.mem_scan.1 hr
    have hkey := h r.1 r.2 hget
    rw [hkey, hasPrefix_unbondingKey] at hpfx
    rw [hkey, hpfx]
  filed := h
  moved := fun _ => rfl
  shrunk := fun _ => le_rfl
  others := fun _ _ _ => rfl
  left := by
    intro a ha
    cases hget : s.stateGet .unbonding (unbondingKey epoch a) with
    | none => exact absurd (queued_of_none hget) ha
    | some u =>
      exact List.mem_map.2 ⟨(unbondingKey epoch a, u),
        Kv.mem_scan.2 ⟨hget, hasPrefix_unbondingKey.2 rfl⟩, rfl⟩

/-- One record is paid out, or has nothing in it. -/
theorem Draining.next {r : String × Unbonding} (h : Draining s epoch (r :: rows) t)
    (hfits : ∀ a, queued s epoch a ≠ 0 → native s a + queued s epoch a < 2 ^ 64) :
    ∃ t', (when (0 < r.2.amount) (releaseUnbonding r.1 r.2) : Prog {} Unit).run t = (.ok (), t') ∧
      Draining s epoch rows t' := by
  have hkey := h.ofEpoch r List.mem_cons_self
  have hget := h.pending.bound r List.mem_cons_self
  have hamount : queued t epoch r.2.account = r.2.amount := queued_of_get (by rw [← hkey, hget])
  have hrest : ∀ q ∈ rows, q.1 = unbondingKey epoch q.2.account :=
    fun q hq => h.ofEpoch q (List.mem_cons_of_mem _ hq)
  rw [run_when]
  by_cases hpos : 0 < r.2.amount
  · rw [if_pos hpos]
    have hfit : t.getBalance r.2.account nativeToken + r.2.amount < 2 ^ 64 := by
      have hmoved := h.moved r.2.account
      have hshrunk := h.shrunk r.2.account
      rw [hamount] at hmoved hshrunk
      exact lt_of_eq_of_lt hmoved (hfits r.2.account (hpos.trans_le hshrunk).ne')
    have hother : ∀ m a, unbondingKey m a ≠ r.1 →
        queued ((t.credited r.2.account nativeToken r.2.amount).stateDelete .unbonding r.1) m a =
          queued t m a := by
      intro m a hne
      unfold queued Supply.queuedAt
      rw [stateGet_stateDelete, if_neg (Ne.symm hne), Chain.stateGet_credited]
    have hgone : queued ((t.credited r.2.account nativeToken r.2.amount).stateDelete .unbonding r.1)
        epoch r.2.account = 0 := by
      apply queued_of_none
      rw [stateGet_stateDelete, if_pos hkey]
    refine ⟨(t.credited r.2.account nativeToken r.2.amount).stateDelete .unbonding r.1, ?_, ?_⟩
    · unfold releaseUnbonding
      rw [run_ignoreErr, run_credit_bind hfit, run_stateDelete]
    · constructor
      · apply h.pending.tail
        intro k hk
        rw [stateGet_stateDelete, if_neg (Ne.symm hk), Chain.stateGet_credited]
      · exact hrest
      · intro key u hu
        rw [stateGet_stateDelete] at hu
        split at hu
        · cases hu
        · exact h.filed key u hu
      · intro a
        have hnative : native ((t.credited r.2.account nativeToken r.2.amount).stateDelete
            .unbonding r.1) a = native t a + if r.2.account = a then r.2.amount else 0 :=
          native_credited
        rw [hnative, ← h.moved a]
        by_cases ha : r.2.account = a
        · subst ha
          rw [if_pos rfl, hgone, hamount]
          rfl
        · rw [if_neg ha, hother epoch a (by rw [hkey]; exact fun heq => ha (unbondingKey_inj.1 heq).2.symm)]
          rfl
      · intro a
        by_cases hself : unbondingKey epoch a = r.1
        · rw [hkey] at hself
          rw [(unbondingKey_inj.1 hself).2, hgone]
          exact Nat.zero_le _
        · rw [hother epoch a hself]
          exact h.shrunk a
      · intro m hm a
        rw [hother m a (by rw [hkey]; exact fun heq => hm (unbondingKey_inj.1 heq).1)]
        exact h.others m hm a
      · intro a ha
        by_cases hself : unbondingKey epoch a = r.1
        · rw [hkey] at hself
          rw [(unbondingKey_inj.1 hself).2] at ha
          exact absurd hgone ha
        · rw [hother epoch a hself] at ha
          rcases List.mem_cons.1 (h.left a ha) with heq | hmem
          · exact absurd heq hself
          · exact hmem
  · rw [if_neg hpos]
    refine ⟨t, rfl, h.pending.tail fun _ _ => rfl, hrest, h.filed, h.moved, h.shrunk, h.others, ?_⟩
    intro a ha
    rcases List.mem_cons.1 (h.left a ha) with heq | hmem
    · have hown := (unbondingKey_inj.1 (heq.trans hkey)).2
      rw [hown, hamount] at ha
      exact absurd (Nat.pos_of_ne_zero ha) hpos
    · exact hmem

/-- A drain whose credits fit empties the queue of its epoch into the balances. -/
theorem run_drainUnbonding (h : Filed s)
    (hfits : ∀ a, queued s epoch a ≠ 0 → native s a + queued s epoch a < 2 ^ 64) :
    ∃ t, (drainUnbonding epoch).run s = (.ok (), t) ∧ Filed t ∧
      (∀ a, native t a = native s a + queued s epoch a) ∧
      ∀ m a, queued t m a = if m = epoch then 0 else queued s m a := by
  unfold drainUnbonding
  rw [run_stateScan_bind]
  obtain ⟨t, ht, hdone⟩ := run_forM_of_invariant
    (fun r : String × Unbonding => (when (0 < r.2.amount) (releaseUnbonding r.1 r.2) :
      Prog {} Unit))
    (Draining s epoch) (fun _ _ _ hI => hI.next hfits) (draining_start h)
  have hempty : ∀ a, queued t epoch a = 0 := by
    intro a
    by_contra ha
    cases hdone.left a ha
  refine ⟨t, ht, hdone.filed, ?_, ?_⟩
  · intro a
    rw [← hdone.moved a, hempty, Nat.add_zero]
  · intro m a
    by_cases hm : m = epoch
    · rw [if_pos hm, hm, hempty]
    · rw [if_neg hm, hdone.others m hm]

end Drain

/-! ## The entries -/

/-- The entries that free a stake. -/
inductive Withdrawal where
  | unstake (p : Entry.Unstake)
  | deviceClaimUnstake (p : Entry.DeviceClaimUnstake)

namespace Withdrawal

def entry : Withdrawal → LedgerEntry
  | .unstake p => .unstake p
  | .deviceClaimUnstake p => .deviceClaimUnstake p

/-- Whom the stake goes back to. -/
def account : Withdrawal → String
  | .unstake p => p.account
  | .deviceClaimUnstake p => p.owner

/-- The epoch written into the entry. -/
def epoch : Withdrawal → ℕ
  | .unstake p => p.epoch
  | .deviceClaimUnstake p => p.epoch

/-- The epoch its record is filed under. -/
def release (w : Withdrawal) : ℕ := wrapAdd w.epoch unbondingEpochs

/-- The stake it frees. -/
def frees (s : Chain) : Withdrawal → ℕ
  | .unstake p => p.amount
  | .deviceClaimUnstake p =>
    (((s.stateGet .deviceClaim p.deviceSerial).filter (·.owner = p.owner)).map (·.stake)).getD 0

end Withdrawal

/-- An amount was put on top of what is queued for an account. -/
def Enqueued (s : Chain) (account : String) (amount release : ℕ) (t : Chain) : Prop :=
  t.state .unbonding = (s.state .unbonding).put (unbondingKey release account)
    ⟨account, wrapAdd (queued s release account) amount, release⟩

section Entries

variable {env : Env} {m : Tx.Moment} {s t : Chain} {a account sig : String} {n amount release : ℕ}

theorem Enqueued.filed (h : Enqueued s account amount release t) (hs : Filed s) : Filed t := by
  intro key u hu
  rw [Chain.stateGet, h, Kv.get_put] at hu
  split at hu
  · next hkey =>
    cases hu
    exact hkey.symm
  · exact hs key u hu

theorem Enqueued.queued (h : Enqueued s account amount release t) :
    queued t n a = if n = release ∧ a = account then
      wrapAdd (queued s release account) amount else queued s n a := by
  unfold Unstaking.queued Supply.queuedAt
  rw [Chain.stateGet, h, Kv.get_put]
  by_cases hkey : n = release ∧ a = account
  · rw [if_pos hkey, if_pos (unbondingKey_inj.2 ⟨hkey.1.symm, hkey.2.symm⟩)]
    rfl
  · rw [if_neg hkey, if_neg fun heq => hkey ?_]
    · rfl
    · obtain ⟨hn, ha⟩ := unbondingKey_inj.1 heq
      exact ⟨hn.symm, ha.symm⟩

theorem filed_of_state (h : t.state .unbonding = s.state .unbonding) (hs : Filed s) : Filed t := by
  intro key u hu
  rw [stateGet_of_state h] at hu
  exact hs key u hu

theorem queued_of_state (h : t.state .unbonding = s.state .unbonding) : queued t n a = queued s n a := by
  unfold queued Supply.queuedAt
  rw [stateGet_of_state h]

/-- What an arm ends with; the steps before it leave the queue. -/
theorem run_queueUnbonding {F : Footprint} {u : Chain} (h : u.state .unbonding = s.state .unbonding)
    (account : String) (amount epoch : ℕ) :
    ∃ t, (queueUnbonding account amount epoch : Prog F Unit).run u = (.ok (), t) ∧
      t.balances = u.balances ∧ Enqueued s account amount (wrapAdd epoch unbondingEpochs) t := by
  refine ⟨_, rfl, rfl, ?_⟩
  unfold Enqueued
  rw [state_stateSet_self, h, ← queued_of_state h]
  rfl

/-- An arm moves no balance; it queues what it frees, or fails and queues nothing. -/
theorem applied (now : ℕ) (w : Withdrawal) :
    (applyEntry env now w.entry s).2.balances = s.balances ∧
      ((∃ f, (applyEntry env now w.entry s).1 = .error f) ∧
          (applyEntry env now w.entry s).2.state .unbonding = s.state .unbonding ∨
        (applyEntry env now w.entry s).1 = .ok () ∧
          Enqueued s w.account (w.frees s) w.release (applyEntry env now w.entry s).2) := by
  cases w with
  | unstake p =>
    have hrun : applyEntry env now (Withdrawal.unstake p).entry s = (applyUnstake p).run s := rfl
    rw [hrun]
    have hnoted := noted_touched s p.account p.epoch
    unfold applyUnstake
    rw [run_touchAlive_bind, run_inspect_bind]
    by_cases hle : p.amount ≤ (s.touched p.account p.epoch).getStake p.account
    · rw [run_ensure_bind hle, run_bind_ok (run_setStake _ _ _ _)]
      have hstate : ((s.touched p.account p.epoch).setStake p.account
          ((s.touched p.account p.epoch).getStake p.account - p.amount)).state .unbonding =
          s.state .unbonding := hnoted.state .unbonding (by decide)
      obtain ⟨t, ht, hbalances, hqueued⟩ := run_queueUnbonding hstate p.account p.amount p.epoch
      rw [ht]
      exact ⟨hbalances.trans hnoted.balances, .inr ⟨rfl, hqueued⟩⟩
    · rw [run_bind_error (by rw [run_ensure, if_neg hle])]
      exact ⟨hnoted.balances, .inl ⟨⟨_, rfl⟩, hnoted.state _ (by decide)⟩⟩
  | deviceClaimUnstake p =>
    have hrun : applyEntry env now (Withdrawal.deviceClaimUnstake p).entry s =
        (applyDeviceClaimUnstake p).run s := rfl
    rw [hrun]
    unfold applyDeviceClaimUnstake
    rw [run_stateGet_bind]
    cases hfound : (s.stateGet .deviceClaim p.deviceSerial).filter (·.owner = p.owner) with
    | none => exact ⟨rfl, .inl ⟨⟨_, rfl⟩, rfl⟩⟩
    | some claim =>
      have hfrees : (Withdrawal.deviceClaimUnstake p).frees s = claim.stake :=
        congrArg (fun found => (found.map (·.stake)).getD 0) hfound
      have hnoted : Noted (s.stateDelete .deviceClaim p.deviceSerial)
          ((s.stateDelete .deviceClaim p.deviceSerial).withAccount p.owner p.epoch) :=
        (noted_refl _).withAccount _ _
      have hstate : ((s.stateDelete .deviceClaim p.deviceSerial).withAccount p.owner p.epoch).state
          .unbonding = s.state .unbonding :=
        (hnoted.state _ (by decide)).trans (s.state_stateDelete_of_ne (by decide) _)
      rw [run_bind_ok (run_orBail_some _ _ _), run_stateDelete_bind,
        run_ensureAccount_bind, hfrees]
      obtain ⟨t, ht, hbalances, hqueued⟩ := run_queueUnbonding hstate p.owner claim.stake p.epoch
      rw [ht]
      exact ⟨hbalances.trans hnoted.balances, .inr ⟨rfl, hqueued⟩⟩

/-- The fee goes to the recycle fund, nobody else gains by it. -/
theorem native_deductFee_le (e : LedgerEntry) (ha : a ≠ recycleFund) :
    native (Tx.deductFee env e s) a ≤ native s a := by
  have hpay : ∀ payer fee, native (Tx.payFee payer fee s) a ≤ native s a := by
    intro payer fee
    have hdebit : native (s.debited payer nativeToken fee) a ≤ native s a := by
      rw [native_debited]
      exact Nat.sub_le _ _
    unfold Tx.payFee
    dsimp only
    split
    · split
      · rw [native_credited, if_neg (Ne.symm ha)]
        exact hdebit
      · exact hdebit
    · exact le_rfl
  unfold Tx.deductFee
  split
  · exact le_rfl
  · split
    · exact hpay _ _
    · split
      · exact hpay _ _
      · exact le_rfl

theorem native_of_balances (h : t.balances = s.balances) (a : String) : native t a = native s a := by
  unfold native Chain.getBalance
  rw [h]

/-- An entry is accepted and queues what it frees, or it is refused and queues nothing. Either
way no balance grows by it, the recycle fund's apart. -/
theorem submitted (m : Tx.Moment) (w : Withdrawal) (sig : Option String) :
    ((∃ f, (Tx.validateAndApply env m w.entry sig s).1 = .error f) ∧
        (Tx.validateAndApply env m w.entry sig s).2.state .unbonding = s.state .unbonding ∨
      (∃ hash, (Tx.validateAndApply env m w.entry sig s).1 = .ok hash) ∧
        Enqueued s w.account (w.frees s) w.release (Tx.validateAndApply env m w.entry sig s).2) ∧
      ∀ a, a ≠ recycleFund →
        native (Tx.validateAndApply env m w.entry sig s).2 a ≤ native s a := by
  have hplain : Tx.isPlain w.entry = true := by cases w <;> rfl
  obtain ⟨hbalances, happ⟩ := @applied env s m.now w
  rcases hrun : Tx.validateAndApply env m w.entry sig s with ⟨f | hash, t⟩
  · rcases Tx.rejected_of_plain hplain hrun with rfl | hfailed
    · exact ⟨.inl ⟨⟨f, rfl⟩, rfl⟩, fun _ _ => le_rfl⟩
    · rw [hfailed] at hbalances happ
      rcases happ with ⟨-, hstate⟩ | ⟨hok, -⟩
      · exact ⟨.inl ⟨⟨f, rfl⟩, hstate⟩, fun a _ => (native_of_balances hbalances a).le⟩
      · cases hok
  · obtain ⟨u, hu, ht⟩ := Tx.accepted_of_plain hplain hrun
    rw [hu] at hbalances happ
    rcases happ with ⟨⟨f, hf⟩, -⟩ | ⟨-, hqueued⟩
    · cases hf
    · have hadvance : (Tx.advance w.entry u).balances = s.balances := by
        obtain ⟨accounts, haccounts⟩ := Tx.advance_eq u w.entry
        rw [haccounts]
        exact hbalances
      rw [ht]
      refine ⟨.inr ⟨⟨hash, rfl⟩, ?_⟩, ?_⟩
      · unfold Enqueued
        rw [Tx.state_deductFee, Tx.state_advance]
        exact hqueued
      · intro a ha
        exact (native_deductFee_le _ ha).trans (native_of_balances hadvance a).le

end Entries

/-! ## The component -/

/-- A stake that was freed and is not due yet. -/
structure Owed where
  account : String
  amount : ℕ
  /-- The epoch of the chain when the entry was applied. -/
  applied : ℕ
  /-- The epoch its record is filed under. -/
  release : ℕ
deriving DecidableEq, Repr

/-- At a seal of `epoch` the unbonding period is over. -/
def Owed.Due (epoch : ℕ) (w : Owed) : Prop := w.applied + unbondingEpochs ≤ epoch

instance (epoch : ℕ) (w : Owed) : Decidable (w.Due epoch) := inferInstanceAs (Decidable (_ ≤ _))

/-- The chain, with what is owed and the last seal. -/
structure Ledger where
  chain : Chain
  owed : List Owed := []
  lastSeal : Option ℕ := none

inductive Op where
  | submit (m : Tx.Moment) (w : Withdrawal) (sig : Option String)
  | seal (epoch : ℕ)

/-- Each seal closes what is due by it: an amount is owed up to the first such seal. -/
def step (env : Env) (l : Ledger) : Op → Ledger
  | .submit m w sig => match Tx.validateAndApply env m w.entry sig l.chain with
    | (.ok _, s) =>
      { l with chain := s, owed := ⟨w.account, w.frees l.chain, l.chain.currentEpoch, w.release⟩ :: l.owed }
    | (.error _, s) => { l with chain := s }
  | .seal epoch =>
    { chain := ((drainUnbonding epoch).run l.chain).2,
      owed := l.owed.filter fun w => ¬ w.Due epoch,
      lastSeal := some epoch }

/-- The rest of the node does what it likes, but for the queue. Epochs may pass without a
seal that resolves. -/
def component (env : Env) : Component Ledger Op where
  init := fun l => l.chain.state .unbonding = ∅ ∧ l.owed = [] ∧ l.lastSeal = none
  step := step env
  other := fun l l' => l'.chain.state .unbonding = l.chain.state .unbonding ∧ l'.owed = l.owed ∧
    l'.lastSeal = l.lastSeal

/-- Seals come in increasing order. -/
def Increasing (l : Ledger) : Op → Prop
  | .submit _ _ _ => True
  | .seal epoch => ∀ last ∈ l.lastSeal, last < epoch

/-- The amounts of a list that meet `P` for an account. -/
def total (P : Owed → Prop) [DecidablePred P] (account : String) : List Owed → ℕ
  | [] => 0
  | w :: rest => (if w.account = account ∧ P w then w.amount else 0) + total P account rest

/-- A seal credits every account with what is due to it, no more and no less; an entry pays
nothing out, up to its fee. -/
def Completes (env : Env) (l : Ledger) : Op → Prop
  | .submit m w sig => ∀ a, a ≠ recycleFund → native (step env l (.submit m w sig)).chain a ≤ native l.chain a
  | .seal epoch => ∀ a, native (step env l (.seal epoch)).chain a =
      native l.chain a + total (·.Due epoch) a l.owed

/-- Every step of a run did. -/
def AllComplete (env : Env) (hist : List (Ledger × Op)) : Prop :=
  ∀ c ∈ hist, Completes env c.1 c.2

/-- A withdrawal still fits its queue. A seal meets the release epochs: what it finds filed
under its epoch is what is due by then, and the credits fit. -/
def Honoured (env : Env) (l : Ledger) : Op → Prop
  | .submit _ w sig => Tx.preflight env l.chain w.entry sig = .ok () →
      queued l.chain w.release w.account + w.frees l.chain < 2 ^ 64
  | .seal epoch => ∀ w ∈ l.owed, w.amount ≠ 0 →
      (w.Due epoch ↔ w.release = epoch) ∧
        (w.Due epoch → native l.chain w.account + total (·.Due epoch) w.account l.owed < 2 ^ 64)

/-! ## The run -/

section Totals

variable {P Q : Owed → Prop} [DecidablePred P] [DecidablePred Q] {a : String} {l : List Owed}

theorem total_congr (h : ∀ w ∈ l, w.amount ≠ 0 → (P w ↔ Q w)) : total P a l = total Q a l := by
  induction l with
  | nil => rfl
  | cons w rest ih =>
    have hrest := ih fun q hq => h q (List.mem_cons_of_mem _ hq)
    unfold total
    rw [hrest]
    by_cases hzero : w.amount = 0
    · rw [hzero, ite_self, ite_self]
    · rw [if_congr (and_congr_right fun _ => h w List.mem_cons_self hzero) rfl rfl]

theorem total_filter : total P a (l.filter fun w => Q w) = total (fun w => P w ∧ Q w) a l := by
  induction l with
  | nil => rfl
  | cons w rest ih =>
    by_cases hq : Q w
    · rw [List.filter_cons_of_pos (by simpa using hq)]
      unfold total
      rw [ih, if_congr (and_congr_right fun _ => (and_iff_left hq).symm) rfl rfl]
    · rw [List.filter_cons_of_neg (by simpa using hq), ih]
      conv_rhs => unfold total
      rw [if_neg fun h => hq h.2.2, Nat.zero_add]

/-- Something counts only when it is there. -/
theorem exists_of_total_ne_zero (h : total P a l ≠ 0) :
    ∃ w ∈ l, w.account = a ∧ P w ∧ w.amount ≠ 0 := by
  induction l with
  | nil => exact absurd rfl h
  | cons w rest ih =>
    by_cases hw : (w.account = a ∧ P w) ∧ w.amount ≠ 0
    · exact ⟨w, List.mem_cons_self, hw.1.1, hw.1.2, hw.2⟩
    · have hnone : (if w.account = a ∧ P w then w.amount else 0) = 0 := by
        split
        · next hcounts => exact by_contra fun hne => hw ⟨hcounts, hne⟩
        · rfl
      unfold total at h
      rw [hnone, Nat.zero_add] at h
      obtain ⟨q, hq, hrest⟩ := ih h
      exact ⟨q, List.mem_cons_of_mem _ hq, hrest⟩

theorem total_eq_zero (h : ∀ w ∈ l, w.amount ≠ 0 → ¬ P w) : total P a l = 0 := by
  by_contra hne
  obtain ⟨w, hw, -, hp, hamount⟩ := exists_of_total_ne_zero hne
  exact h w hw hamount hp

end Totals

/-- The queue holds what is owed, under the epochs the entries asked for. -/
structure Booked (l : Ledger) : Prop where
  filed : Filed l.chain
  sums : ∀ n a, queued l.chain n a = total (·.release = n) a l.owed

section Run

variable {env : Env} {l : Ledger} {hist : List (Ledger × Op)}

theorem booked_submit (h : Booked l) {m : Tx.Moment} {w : Withdrawal} {sig : Option String}
    (hfits : Honoured env l (.submit m w sig)) : Booked (step env l (.submit m w sig)) := by
  obtain ⟨hqueued, -⟩ := @submitted env l.chain m w sig
  simp only [step]
  rcases hrun : Tx.validateAndApply env m w.entry sig l.chain with ⟨f | hash, t⟩
  · rw [hrun] at hqueued
    rcases hqueued with ⟨-, hstate⟩ | ⟨⟨_, hok⟩, -⟩
    · exact ⟨filed_of_state hstate h.filed, fun n a => (queued_of_state hstate).trans (h.sums n a)⟩
    · cases hok
  · have hpre := (Tx.validateAndApply_eq_ok_iff.1 hrun).1
    rw [hrun] at hqueued
    rcases hqueued with ⟨⟨_, hf⟩, -⟩ | ⟨-, henq⟩
    · cases hf
    · refine ⟨henq.filed h.filed, ?_⟩
      intro n a
      rw [henq.queued]
      unfold total
      by_cases hown : n = w.release ∧ a = w.account
      · obtain ⟨rfl, rfl⟩ := hown
        rw [if_pos ⟨rfl, rfl⟩, if_pos ⟨rfl, rfl⟩, ← h.sums, Nat.add_comm]
        exact Nat.mod_eq_of_lt (hfits hpre)
      · rw [if_neg hown, if_neg fun heq => hown ⟨heq.2.symm, heq.1.symm⟩, Nat.zero_add]
        exact h.sums n a

/-- What is filed under the epoch of a seal is what is due. -/
theorem queued_eq_due (h : Booked l) {epoch : ℕ} (hmet : Honoured env l (.seal epoch)) (a : String) :
    queued l.chain epoch a = total (·.Due epoch) a l.owed := by
  rw [h.sums]
  exact total_congr fun w hw hamount => (hmet w hw hamount).1.symm

/-- The drain of a seal that meets the release epochs. -/
theorem run_seal (h : Booked l) {epoch : ℕ} (hmet : Honoured env l (.seal epoch)) :
    ∃ t, (drainUnbonding epoch).run l.chain = (.ok (), t) ∧ Filed t ∧
      (∀ a, native t a = native l.chain a + total (·.Due epoch) a l.owed) ∧
      ∀ n a, queued t n a = if n = epoch then 0 else queued l.chain n a := by
  have hfits : ∀ a, queued l.chain epoch a ≠ 0 →
      native l.chain a + queued l.chain epoch a < 2 ^ 64 := by
    intro a ha
    rw [queued_eq_due h hmet] at ha ⊢
    obtain ⟨w, hw, rfl, hdue, hamount⟩ := exists_of_total_ne_zero ha
    exact (hmet w hw hamount).2 hdue
  obtain ⟨t, ht, hfiled, hnative, hleft⟩ := run_drainUnbonding h.filed hfits
  refine ⟨t, ht, hfiled, ?_, hleft⟩
  intro a
  rw [hnative, queued_eq_due h hmet]

theorem booked_seal (h : Booked l) {epoch : ℕ} (hmet : Honoured env l (.seal epoch)) :
    Booked (step env l (.seal epoch)) := by
  obtain ⟨t, ht, hfiled, -, hleft⟩ := run_seal h hmet
  simp only [step, ht]
  refine ⟨hfiled, ?_⟩
  intro n a
  rw [hleft, total_filter]
  split
  · next hn =>
    -- all of this epoch is due
    symm
    apply total_eq_zero
    rintro w hw hamount ⟨hrelease, hnot⟩
    exact hnot ((hmet w hw hamount).1.2 (hrelease.trans hn))
  · next hn =>
    -- and nothing of another
    rw [h.sums]
    apply total_congr
    intro w hw hamount
    refine ⟨fun hrelease => ⟨hrelease, fun hdue => hn ?_⟩, fun hboth => hboth.1⟩
    rw [← hrelease]
    exact (hmet w hw hamount).1.1 hdue

theorem booked_step (h : Booked l) {op : Op} (hmet : Honoured env l op) : Booked (step env l op) := by
  cases op with
  | submit m w sig => exact booked_submit h hmet
  | «seal» epoch => exact booked_seal h hmet

theorem completes_of_booked (h : Booked l) {op : Op} (hmet : Honoured env l op) :
    Completes env l op := by
  cases op with
  | submit m w sig =>
    intro a ha
    have hle := (@submitted env l.chain m w sig).2 a ha
    simp only [step]
    rcases hrun : Tx.validateAndApply env m w.entry sig l.chain with ⟨f | hash, t⟩
    all_goals
      rw [hrun] at hle
      exact hle
  | «seal» epoch =>
    obtain ⟨t, ht, -, hnative, -⟩ := run_seal h hmet
    intro a
    simp only [step, ht]
    exact hnative a

theorem booked_of_run (h : Run (component env) (fun l op => Increasing l op ∧ Honoured env l op) hist l) :
    Booked l := by
  refine h.invariant ?_ ?_ ?_
  · rintro l ⟨hempty, howed, -⟩
    have hnone : ∀ key, l.chain.stateGet .unbonding key = none := by
      intro key
      unfold Chain.stateGet
      rw [hempty]
      rfl
    refine ⟨fun key u hu => ?_, fun n a => ?_⟩
    · rw [hnone] at hu
      cases hu
    · rw [queued_of_none (hnone _), howed]
      rfl
  · intro l op hop hl
    exact booked_step hl hop.2
  · rintro l l' ⟨hstate, howed, -⟩ hl
    refine ⟨filed_of_state hstate hl.filed, fun n a => ?_⟩
    rw [queued_of_state hstate, howed]
    exact hl.sums n a

/-- In every run whose seals meet the release epochs, each seal credits what is due by it. -/
theorem unbonding_completes
    (h : Run (component env) (fun l op => Increasing l op ∧ Honoured env l op) hist l) :
    AllComplete env hist := by
  rintro ⟨l', op⟩ hmem
  obtain ⟨hop, before, hrun⟩ := h.of_mem hmem
  exact completes_of_booked (booked_of_run hrun) hop.2

end Run

/-! ### Alice unstakes -/

instance (env : Env) (l : Ledger) (op : Op) : Decidable (Increasing l op ∧ Honoured env l op) := by
  cases op <;> unfold Increasing Honoured <;> infer_instance

/-- Alice, without a key on record, has a stake and the money for the fee. -/
def staked (epoch : ℕ) : Ledger where
  chain := { (({} : Chain).setBalance "alice" nativeToken 100000000).setStake "alice" 5 with
    currentEpoch := epoch }

def unstaking (epoch : ℕ) : Op := .submit default (.unstake ⟨"alice", 5, epoch, 1, "alice"⟩) none

/-- Nothing is due before the tenth epoch, and all of it then. -/
theorem unbonding_completes_alice : AllComplete .bare
    ((component .bare).record (staked 0) [unstaking 0, .seal 9, .seal 10] []) := by
  refine unbonding_completes (l := (component .bare).exec (staked 0)
    [unstaking 0, .seal 9, .seal 10]) (Run.exec (.start ⟨rfl, rfl, rfl⟩) ?_)
  decide

/-- When the release epoch is skipped the next seal pays nothing, and an entry dated back five
epochs is paid five epochs early. -/
theorem unbonding_lost_or_early :
    ¬ Completes .bare ((component .bare).exec (staked 0) [unstaking 0, .seal 9]) (.seal 11) ∧
    ¬ Completes .bare ((component .bare).exec (staked 5) [unstaking 0]) (.seal 10) ∧
    ¬ ∀ hist l, Run (component .bare) Increasing hist l → AllComplete .bare hist := by
  have hlost : ¬ Completes .bare ((component .bare).exec (staked 0) [unstaking 0, .seal 9])
      (.seal 11) := by
    intro hcredits
    have halice := hcredits "alice"
    revert halice
    decide
  refine ⟨hlost, ?_, ?_⟩
  · intro hcredits
    have halice := hcredits "alice"
    revert halice
    decide
  · intro hall
    have hrun : Run (component .bare) Increasing _ _ := Run.exec (.start ⟨rfl, rfl, rfl⟩)
      (show Legal (component .bare) Increasing (staked 0) [unstaking 0, .seal 9, .seal 11] by
        refine ⟨trivial, nofun, ?_, trivial⟩
        rintro last ⟨⟩
        decide)
    exact hlost (hall _ _ hrun _ List.mem_cons_self)

end HoneNode.Unstaking
