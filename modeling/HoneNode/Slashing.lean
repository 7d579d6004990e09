import HoneNode.Lib.Trace
import HoneNode.Rewards.Holdings

/-!
# Slashing — what a slash takes and what an appeal gives back

A slash is a tenth of the accused's stake, but it is taken from the liquid
balance: the stake stays, and every further slash takes as much again. When the
panel overturns it, the accused gets the amount back, and the reporter's share
goes to the recycle fund, which keeps its own share too; so the amount has been
minted.
-/

namespace HoneNode.Slashing

open Entry Prog Within Trace

/-! ## The slash -/

/-- What a report takes: a tenth of the stake. -/
def amountOf (s : Chain) (accused : String) : ℕ := s.getStake accused / 10

theorem reporterCut_le (n : ℕ) : 2 * reporterCut n ≤ n := by
  have := Nat.mod_le (n * 5000) (2 ^ 64)
  unfold reporterCut wrapMul
  omega

/-- The record a report leaves. -/
def recordOf (s : Chain) (p : SlashValidator) : SlashRecord :=
  ⟨p.slashId, p.reporter, p.accused, p.evidence, p.violation, p.epoch,
    wrapAdd p.epoch appealWindowEpochs, amountOf s p.accused, .active, []⟩

/-- The money after a report. -/
def slashed (s : Chain) (p : SlashValidator) : Chain :=
  let amount := amountOf s p.accused
  ((s.debited p.accused nativeToken amount).credited p.reporter nativeToken
    (reporterCut amount)).credited recycleFund nativeToken (amount - reporterCut amount)

section Slash

variable {s s' : Chain} {p : SlashValidator}

/-- A report that goes through. -/
theorem ok_slash (h : (applySlashValidator p).run s = (.ok (), s')) :
    minSlashStake ≤ s.getStake p.accused ∧ amountOf s p.accused ≤ native s p.accused ∧
      s' = (slashed s p).stateSet .slash p.slashId (recordOf s p) := by
  unfold applySlashValidator at h
  rw [run_stateGet_bind, ok_ensure_bind, run_inspect_bind,
    ok_ensure_bind, run_stateGet_bind, ok_ensure_bind] at h
  obtain ⟨-, hstake, -, h⟩ := h
  rw [ok_debit_bind] at h
  obtain ⟨hle, h⟩ := h
  have hpos : 0 < s.getStake p.accused / 10 - reporterCut (s.getStake p.accused / 10) := by
    have := reporterCut_le (s.getStake p.accused / 10)
    unfold minSlashStake at hstake
    omega
  dsimp only at h
  rw [ok_credit_bind] at h
  obtain ⟨-, h⟩ := h
  unfold when at h
  rw [if_pos hpos, ok_credit_bind, run_stateSet] at h
  obtain ⟨-, h⟩ := h
  cases h
  exact ⟨hstake, hle, rfl⟩

/-- The slash moves money and makes none. -/
theorem nativeBalances_slashed (h : amountOf s p.accused ≤ native s p.accused) :
    (slashed s p).nativeBalances = s.nativeBalances := by
  have hdeb := nativeBalances_debited h
  have hcut := reporterCut_le (amountOf s p.accused)
  unfold slashed
  dsimp only
  rw [nativeBalances_credited, nativeBalances_credited]
  omega

theorem native_slashed (a : String) : native (slashed s p) a =
    native s a - (if p.accused = a then amountOf s p.accused else 0) +
      (if p.reporter = a then reporterCut (amountOf s p.accused) else 0) +
      if recycleFund = a then amountOf s p.accused - reporterCut (amountOf s p.accused) else 0 := by
  unfold slashed
  dsimp only
  rw [native_credited, native_credited, native_debited]

end Slash

/-! ## The appeal -/

/-- The money after the panel has overturned a slash; each payment is made if it can be. -/
def paidBack (s : Chain) (record : SlashRecord) : Chain :=
  let cut := reporterCut record.slashedAmount
  let refunded := if native s record.accused + record.slashedAmount < 2 ^ 64 then
    s.credited record.accused nativeToken record.slashedAmount else s
  let clawed := if cut ≤ native refunded record.reporter then
    refunded.debited record.reporter nativeToken cut else refunded
  if native clawed recycleFund + cut < 2 ^ 64 then clawed.credited recycleFund nativeToken cut
  else clawed

/-- The slash can still be appealed. -/
def Open (record : SlashRecord) : Prop := record.status = .active ∨ record.status = .appealed

section Appeal

variable {s s' : Chain} {q : SlashAppeal}

theorem run_ignoreErr_credit {W : Footprint} (a : String) (n : ℕ) :
    (ignoreErr (credit a nativeToken n) : Prog W Unit).run s =
      (.ok (), if native s a + n < 2 ^ 64 then s.credited a nativeToken n else s) := by
  rw [run_ignoreErr, run_credit]
  split <;> rfl

theorem run_ignoreErr_debit {W : Footprint} (a : String) (n : ℕ)
    (h : balanceKey a nativeToken ∈ W.pays) :
    (ignoreErr (debit a nativeToken n h) : Prog W Unit).run s =
      (.ok (), if n ≤ native s a then s.debited a nativeToken n else s) := by
  rw [run_ignoreErr, run_debit]
  split <;> rfl

theorem run_closeAppeal (record : SlashRecord) :
    (closeAppeal record).run s = (.ok .overturned, paidBack s record) ∨
      (closeAppeal record).run s = (.ok .upheld, s) := by
  unfold closeAppeal
  dsimp only
  rw [run_ite]
  split
  · rw [run_bind_ok (run_ignoreErr_credit _ _), run_bind_ok (run_ignoreErr_debit _ _ _),
      run_bind_ok (run_ignoreErr_credit _ _), run_pure]
    exact .inl rfl
  · exact .inr rfl

/-- A vote that goes through is recorded, and the slash is paid back if that overturns it. -/
theorem ok_appeal (h : (applySlashAppeal q).run s = (.ok (), s')) :
    ∃ record, s.stateGet .slash q.slashId = some record ∧ Open record ∧
      let votes := record.appealVotes ++ [⟨q.panelist, q.overturn, q.epoch⟩]
      (s' = (paidBack s record).stateSet .slash q.slashId
        { record with status := .overturned, appealVotes := votes }) ∨
      ∃ status, status ≠ .overturned ∧ s' = s.stateSet .slash q.slashId
        { record with status := status, appealVotes := votes } := by
  unfold applySlashAppeal at h
  rw [run_stateGet_bind, ok_orBail_bind] at h
  obtain ⟨record, hget, h⟩ := h
  rw [ok_ensure_bind, ok_ensure_bind, ok_ensure_bind] at h
  obtain ⟨hopen, -, -, h⟩ := h
  refine ⟨record, hget, hopen, ?_⟩
  dsimp only at h ⊢
  split at h
  · -- the panel is complete
    rcases run_closeAppeal (s := s) { record with
        status := .appealed
        appealVotes := record.appealVotes ++ [⟨q.panelist, q.overturn, q.epoch⟩] } with hrun | hrun
    · rw [run_bind_ok hrun, run_stateSet] at h
      cases h
      exact .inl rfl
    · rw [run_bind_ok hrun, run_stateSet] at h
      cases h
      exact .inr ⟨.upheld, by decide, rfl⟩
  · rw [run_bind_ok (run_pure _ _), run_stateSet] at h
    cases h
    exact .inr ⟨.appealed, by decide, rfl⟩

end Appeal

/-! ## From the slash to the verdict -/

/-- The chain after a slash: votes on it are taken, and money moves that leaves its record and
the supply alone. `net` adds up what these moves did to each account. -/
inductive Aftermath (s₁ : Chain) (id : String) : (String → ℤ) → Chain → Prop where
  | start : Aftermath s₁ id (fun _ => 0) s₁
  | vote {net : String → ℤ} {s s' : Chain} (q : SlashAppeal) (h : Aftermath s₁ id net s)
      (hid : q.slashId = id) (hq : (applySlashAppeal q).run s = (.ok (), s')) :
      Aftermath s₁ id net s'
  | moves {net : String → ℤ} {s s' : Chain} (h : Aftermath s₁ id net s)
      (hrecord : s'.stateGet .slash id = s.stateGet .slash id)
      (hsupply : s'.nativeBalances = s.nativeBalances) :
      Aftermath s₁ id (fun a => net a + ((native s' a : ℤ) - native s a)) s'

/-- The supply is what it was, and the three parties have what the other moves left them. -/
structure Undone (s₀ s : Chain) (p : SlashValidator) (net : String → ℤ) : Prop where
  supply : s.nativeBalances = s₀.nativeBalances
  accused : (native s p.accused : ℤ) = native s₀ p.accused + net p.accused
  reporter : (native s p.reporter : ℤ) = native s₀ p.reporter + net p.reporter
  recycle : (native s recycleFund : ℤ) = native s₀ recycleFund + net recycleFund

/-- The accused is the recycle fund itself, and so full that the refund does not fit, while the
rest of the verdict goes through or moves nothing. -/
def RefundLost (t : Chain) (p : SlashValidator) (amount : ℕ) : Prop :=
  p.accused = recycleFund ∧ 2 ^ 64 ≤ native t recycleFund + amount ∧
    (p.reporter = recycleFund ∨ reporterCut amount = 0 ∨
      reporterCut amount ≤ native t p.reporter ∧
        native t recycleFund + reporterCut amount < 2 ^ 64)

section Verdict

variable {s₀ s₁ t s : Chain} {p : SlashValidator} {q : SlashAppeal}
  {net : String → ℤ} {id : String}

/-- While the slash can be appealed, only the other moves touch the balances. -/
theorem Aftermath.kept (h : Aftermath s₁ id net t) {record record₁ : SlashRecord}
    (hrecord₁ : s₁.stateGet .slash id = some record₁)
    (hrecord : t.stateGet .slash id = some record) (hopen : Open record) :
    (∀ a, (native t a : ℤ) = native s₁ a + net a) ∧ t.nativeBalances = s₁.nativeBalances ∧
      record.accused = record₁.accused ∧ record.reporter = record₁.reporter ∧
      record.slashedAmount = record₁.slashedAmount := by
  induction h generalizing record with
  | start =>
    rw [hrecord₁] at hrecord
    cases hrecord
    exact ⟨fun a => (add_zero _).symm, rfl, rfl, rfl, rfl⟩
  | vote q _ hid hq ih =>
    obtain ⟨before, hbefore, hwas, hcases⟩ := ok_appeal hq
    rw [hid] at hbefore hcases
    obtain ⟨hnative, hsupply, hsame⟩ := ih hbefore hwas
    rcases hcases with rfl | ⟨status, hstatus, rfl⟩
    · -- an overturned slash cannot be appealed again
      rw [stateGet_stateSet, if_pos rfl] at hrecord
      cases hrecord
      rcases hopen with hopen | hopen
      · cases hopen
      · cases hopen
    · rw [stateGet_stateSet, if_pos rfl] at hrecord
      cases hrecord
      exact ⟨hnative, hsupply, hsame⟩
  | moves _ hkept hsupply ih =>
    rw [hkept] at hrecord
    obtain ⟨hnative, hbefore, hsame⟩ := ih hrecord hopen
    refine ⟨?_, hsupply.trans hbefore, hsame⟩
    intro a
    have := hnative a
    dsimp only
    omega

/-- What the verdict really pays the accused, takes from the reporter and pays the recycle
fund. -/
def refund (t : Chain) (record : SlashRecord) : ℕ :=
  if native t record.accused + record.slashedAmount < 2 ^ 64 then record.slashedAmount else 0

def clawback (t : Chain) (record : SlashRecord) : ℕ :=
  let cut := reporterCut record.slashedAmount
  if cut ≤ native t record.reporter + (if record.accused = record.reporter then refund t record else 0)
  then cut else 0

def windfall (t : Chain) (record : SlashRecord) : ℕ :=
  let cut := reporterCut record.slashedAmount
  if native t recycleFund + (if record.accused = recycleFund then refund t record else 0) -
      (if record.reporter = recycleFund then clawback t record else 0) + cut < 2 ^ 64
  then cut else 0

theorem native_ite_credited {c : Prop} [Decidable c] {a b : String} {n : ℕ} :
    native (if c then t.credited a nativeToken n else t) b =
      native t b + if a = b then (if c then n else 0) else 0 := by
  split
  · exact native_credited
  · rw [ite_self]
    rfl

theorem native_ite_debited {c : Prop} [Decidable c] {a b : String} {n : ℕ} :
    native (if c then t.debited a nativeToken n else t) b =
      native t b - if a = b then (if c then n else 0) else 0 := by
  split
  · exact native_debited
  · rw [ite_self]
    rfl

theorem native_paidBack (record : SlashRecord) (a : String) :
    native (paidBack t record) a =
      native t a + (if record.accused = a then refund t record else 0) -
        (if record.reporter = a then clawback t record else 0) +
        if recycleFund = a then windfall t record else 0 := by
  unfold paidBack windfall clawback refund
  dsimp only
  simp only [native_ite_credited, native_ite_debited]

theorem nativeBalances_ite_credited {c : Prop} [Decidable c] {a : String} {n : ℕ} :
    (if c then t.credited a nativeToken n else t).nativeBalances =
      t.nativeBalances + if c then n else 0 := by
  split
  · exact nativeBalances_credited t a n
  · rfl

theorem nativeBalances_paidBack (record : SlashRecord) :
    (paidBack t record).nativeBalances + clawback t record =
      t.nativeBalances + refund t record + windfall t record := by
  unfold paidBack windfall clawback refund
  dsimp only
  rw [nativeBalances_ite_credited]
  simp only [native_ite_debited, native_ite_credited]
  generalize hrefunded : (if native t record.accused + record.slashedAmount < 2 ^ 64 then
    t.credited record.accused nativeToken record.slashedAmount else t) = refunded
  have hsupply : refunded.nativeBalances = t.nativeBalances +
      if native t record.accused + record.slashedAmount < 2 ^ 64 then record.slashedAmount else 0 := by
    rw [← hrefunded, nativeBalances_ite_credited]
  have hnative : native refunded record.reporter = native t record.reporter +
      if record.accused = record.reporter then
        (if native t record.accused + record.slashedAmount < 2 ^ 64 then record.slashedAmount else 0)
      else 0 := by
    rw [← hrefunded, native_ite_credited]
  rw [← hnative, ← hsupply]
  split
  · next hle =>
    have := nativeBalances_debited hle
    omega
  · omega

/-- The entries of a slash and of its verdict cancel only where the refund is lost. -/
theorem cancels_iff {A R F : String} {b₀ b b' : String → ℕ} {a c r d k : ℕ} {net : String → ℤ}
    (hpos : 0 < a) (hsmall : 10 * a < 2 ^ 64) (hcut : 2 * c ≤ a) (hle : a ≤ b₀ A)
    (hF64 : b F < 2 ^ 64)
    (hb : ∀ x, (b x : ℤ) = (b₀ x - (if A = x then a else 0) + (if R = x then c else 0) +
      if F = x then a - c else 0 : ℕ) + net x)
    (hb' : ∀ x, b' x = b x + (if A = x then r else 0) - (if R = x then d else 0) +
      if F = x then k else 0)
    (hr : r = if b A + a < 2 ^ 64 then a else 0)
    (hd : d = if c ≤ b R + (if A = R then r else 0) then c else 0)
    (hk : k = if b F + (if A = F then r else 0) - (if R = F then d else 0) + c < 2 ^ 64 then c else 0) :
    (r + k = d ∧ (b' A : ℤ) = b₀ A + net A ∧ (b' R : ℤ) = b₀ R + net R ∧
      (b' F : ℤ) = b₀ F + net F) ↔
    A = F ∧ 2 ^ 64 ≤ b F + a ∧ (R = F ∨ c = 0 ∨ c ≤ b R ∧ b F + c < 2 ^ 64) := by
  have hA := hb A
  have hR := hb R
  have hF := hb F
  have hA' := hb' A
  have hR' := hb' R
  have hF' := hb' F
  by_cases hAF : A = F
  · subst hAF
    by_cases hRA : R = A
    · subst hRA
      simp only [if_true, true_and, true_or, and_true] at *
      split at hr <;> split at hd <;> split at hk <;> omega
    · simp only [if_true, if_neg (Ne.symm hRA), hRA, if_false, true_and, false_or] at *
      split at hr <;> split at hd <;> split at hk <;> omega
  · -- the accused gets back the amount, and then the supply has grown by it
    simp only [hAF, false_and, iff_false]
    rintro ⟨hsum, hrefund, -, -⟩
    have hback : r = a := by
      by_cases hRA : R = A
      · subst hRA
        simp only [if_true, if_neg (Ne.symm hAF)] at *
        split at hr <;> split at hd <;> omega
      · simp only [if_true, if_neg (Ne.symm hAF), if_neg hRA] at *
        split at hr <;> omega
    have hclaw : d ≤ c := by
      rw [hd]
      exact (ite_le_sup _ _ _).trans (sup_le le_rfl (Nat.zero_le c))
    omega

/-- The verdict undoes the slash only where the refund is lost on a full recycle fund. Stakes and
balances are 64 bits wide. -/
theorem undone_iff (hstake : s₀.getStake p.accused < 2 ^ 64)
    (hfund : native t recycleFund < 2 ^ 64)
    (hslash : (applySlashValidator p).run s₀ = (.ok (), s₁))
    (hafter : Aftermath s₁ p.slashId net t) (hid : q.slashId = p.slashId)
    (hvote : (applySlashAppeal q).run t = (.ok (), s))
    (hverdict : ∃ record ∈ s.stateGet .slash p.slashId, record.status = .overturned) :
    Undone s₀ s p net ↔ RefundLost t p (amountOf s₀ p.accused) := by
  obtain ⟨hmin, hle, rfl⟩ := ok_slash hslash
  obtain ⟨record, hget, hopen, hcases⟩ := ok_appeal hvote
  rw [hid] at hget hcases
  obtain ⟨hnative, hsupply, haccused, hreporter, hamount⟩ := hafter.kept
    (by rw [stateGet_stateSet, if_pos rfl]) hget hopen
  have hsame : (∀ a, native s a = native (paidBack t record) a) ∧
      s.nativeBalances = (paidBack t record).nativeBalances := by
    rcases hcases with rfl | ⟨status, hstatus, rfl⟩
    · exact ⟨fun a => rfl, rfl⟩
    · obtain ⟨record', hget', hstatus'⟩ := hverdict
      rw [stateGet_stateSet, if_pos rfl] at hget'
      cases hget'
      exact absurd hstatus' hstatus
  have hbounds : 0 < amountOf s₀ p.accused ∧ 10 * amountOf s₀ p.accused < 2 ^ 64 := by
    unfold minSlashStake at hmin
    unfold amountOf
    omega
  have hsum := nativeBalances_paidBack (t := t) record
  have hsupply' : t.nativeBalances = s₀.nativeBalances := by
    rw [hsupply, ← nativeBalances_slashed hle, Chain.nativeBalances, Chain.stateSet_balances,
      Chain.nativeBalances]
  have hfinal : ∀ x, native s x = native t x + (if p.accused = x then refund t record else 0) -
      (if p.reporter = x then clawback t record else 0) +
      if recycleFund = x then windfall t record else 0 := by
    intro x
    rw [hsame.1 x, native_paidBack, haccused, hreporter]
    rfl
  have hbefore : ∀ x, (native t x : ℤ) = (native s₀ x -
      (if p.accused = x then amountOf s₀ p.accused else 0) +
      (if p.reporter = x then reporterCut (amountOf s₀ p.accused) else 0) +
      if recycleFund = x then amountOf s₀ p.accused - reporterCut (amountOf s₀ p.accused) else 0 :
        ℕ) + net x := by
    intro x
    rw [hnative x, ← native_slashed]
    rfl
  have hrefund : refund t record = if native t p.accused + amountOf s₀ p.accused < 2 ^ 64 then
      amountOf s₀ p.accused else 0 := by
    rw [refund, haccused, hamount]
    rfl
  have hclawback : clawback t record = if reporterCut (amountOf s₀ p.accused) ≤
      native t p.reporter + (if p.accused = p.reporter then refund t record else 0) then
      reporterCut (amountOf s₀ p.accused) else 0 := by
    rw [clawback, haccused, hreporter, hamount]
    rfl
  have hwindfall : windfall t record = if native t recycleFund +
      (if p.accused = recycleFund then refund t record else 0) -
      (if p.reporter = recycleFund then clawback t record else 0) +
        reporterCut (amountOf s₀ p.accused) < 2 ^ 64 then
      reporterCut (amountOf s₀ p.accused) else 0 := by
    rw [windfall, haccused, hreporter, hamount]
    rfl
  rw [RefundLost, ← cancels_iff hbounds.1 hbounds.2 (reporterCut_le _) hle hfund hbefore hfinal
    hrefund hclawback hwindfall]
  constructor
  · rintro ⟨h₁, h₂, h₃, h₄⟩
    exact ⟨by omega, h₂, h₃, h₄⟩
  · rintro ⟨h₁, h₂, h₃, h₄⟩
    exact ⟨by omega, h₂, h₃, h₄⟩

theorem Aftermath.voted (q : SlashAppeal) (h : Aftermath s₁ id net t) (hid : q.slashId = id)
    (hok : ((applySlashAppeal q).run t).1 = .ok ()) :
    Aftermath s₁ id net ((applySlashAppeal q).run t).2 := h.vote q hid (Prod.ext hok rfl)

/-- A payment between two accounts is one of the other moves. -/
theorem Aftermath.paid {a b : String} {n : ℕ} (h : Aftermath s₁ id net t) (hle : n ≤ native t a) :
    ∃ net', Aftermath s₁ id net' ((t.debited a nativeToken n).credited b nativeToken n) := by
  refine ⟨_, h.moves rfl ?_⟩
  rw [nativeBalances_credited]
  exact nativeBalances_debited hle

end Verdict

/-! ### A slash that is overturned -/

/-- `acc` has 20 million hunits at stake and as many in its balance, `rep` a clock stake. -/
def accusedChain : Chain :=
  ((({} : Chain).setBalance "acc" nativeToken 20000000).setStake "acc" 20000000).stateSet
    .clockStake "rep" 1000000

def slashOf (id : String) : SlashValidator :=
  ⟨id, "rep", "acc", "double_sign", "evidence_hash_00", 5, 1, "rep", none⟩

def appealOf (panelist : String) : SlashAppeal :=
  ⟨"slash1", panelist, true, 6, 1, panelist, none⟩

/-- The chain after the slash and four votes. -/
def almostOverturned : Chain :=
  ["p1", "p2", "p3", "p4"].foldl (fun s name => ((applySlashAppeal (appealOf name)).run s).2)
    ((applySlashValidator (slashOf "slash1")).run accusedChain).2

theorem aftermath_four_votes : Aftermath
    ((applySlashValidator (slashOf "slash1")).run accusedChain).2 "slash1" (fun _ => 0)
    almostOverturned :=
  (((Aftermath.start.voted (appealOf "p1") rfl (by decide)).voted (appealOf "p2") rfl
    (by decide)).voted (appealOf "p3") rfl (by decide)).voted (appealOf "p4") rfl
    (by decide)

/-- The reporter spends the reward before the fifth vote; the slash is not undone. -/
theorem undone_iff_reward_spent : ∃ net,
    let spent := (almostOverturned.debited "rep" nativeToken 1000000).credited "shop" nativeToken
      1000000
    let overturned := ((applySlashAppeal (appealOf "p5")).run spent).2
    native almostOverturned "rep" = 1000000 ∧
      ¬ Undone accusedChain overturned (slashOf "slash1") net := by
  obtain ⟨net, hafter⟩ := aftermath_four_votes.paid (a := "rep") (b := "shop") (n := 1000000)
    (by decide)
  refine ⟨net, ?_⟩
  intro spent overturned
  refine ⟨by decide, ?_⟩
  have hslash : (applySlashValidator (slashOf "slash1")).run accusedChain =
      (.ok (), ((applySlashValidator (slashOf "slash1")).run accusedChain).2) :=
    Prod.ext (by decide) rfl
  have hvote : (applySlashAppeal (appealOf "p5")).run spent = (.ok (), overturned) :=
    Prod.ext (by decide) rfl
  have hiff : Undone accusedChain overturned (slashOf "slash1") net ↔ _ :=
    undone_iff (by decide) (by decide) hslash hafter rfl hvote (by decide)
  intro h
  exact absurd (hiff.1 h).1 (by decide)

/-- The panel mints what was slashed: the accused has it back, and so has the recycle fund. -/
theorem slash_minted_by_verdict :
    let slashed := ((applySlashValidator (slashOf "slash1")).run accusedChain).2
    let overturned := ((applySlashAppeal (appealOf "p5")).run almostOverturned).2
    (slashed.nativeBalances = 20000000 ∧ native slashed "acc" = 18000000 ∧
      native slashed "rep" = 1000000 ∧ native slashed recycleFund = 1000000) ∧
    (overturned.nativeBalances = 22000000 ∧ native overturned "acc" = 20000000 ∧
      native overturned "rep" = 0 ∧ native overturned recycleFund = 2000000) := by
  decide +kernel

/-! ## Slashes of one account -/

/-- Reports from a chain on; what happens in between leaves the stakes alone. -/
def court (start : Chain) : Component Chain SlashValidator where
  init := (· = start)
  step := fun s p => ((applySlashValidator p).run s).2
  other := fun s s' => s'.stakes = s.stakes

/-- The report went through. -/
def accepted (c : Chain × SlashValidator) : Bool := ((applySlashValidator c.2).run c.1).1.isOk

/-- The amount in the record of a report. -/
def recorded (c : Chain × SlashValidator) : ℕ :=
  (((applySlashValidator c.2).run c.1).2.stateGet .slash c.2.slashId).elim 0 (·.slashedAmount)

/-- The amount came out of the stake, and the balance was left alone. -/
def TakesStake (c : Chain × SlashValidator) : Prop :=
  ((applySlashValidator c.2).run c.1).2.getStake c.2.accused + recorded c =
      c.1.getStake c.2.accused ∧
    native ((applySlashValidator c.2).run c.1).2 c.2.accused = native c.1 c.2.accused

/-- The reports against an account that went through, and what they took. -/
def against (a : String) (hist : List (Chain × SlashValidator)) :
    List (Chain × SlashValidator) :=
  hist.filter fun c => accepted c && c.2.accused = a

def takenFrom (a : String) (hist : List (Chain × SlashValidator)) : ℕ :=
  ((against a hist).map recorded).sum

section Court

variable {start s : Chain} {p : SlashValidator} {hist : List (Chain × SlashValidator)}

/-- No report changes a stake. -/
theorem stakes_slash (s : Chain) (p : SlashValidator) :
    ((applySlashValidator p).run s).2.stakes = s.stakes := by
  have htouches : Along (Touch {.slash}) (applySlashValidator p) := by
    refine along_inspect.bind fun _ => touches_ensure.bind fun _ => ?_
    refine along_inspect.bind fun _ => touches_ensure.bind fun _ => ?_
    refine along_inspect.bind fun _ => touches_ensure.bind fun _ => ?_
    refine (touches_debit _).bind fun _ => touches_credit.bind fun _ => ?_
    exact Along.bind (touches_when touches_credit) fun _ =>
      touches_stateSet (Set.mem_singleton _) _ _ _
  exact (htouches s).stakes

/-- A report that goes through records a tenth of a stake above the minimum. -/
theorem recorded_of_accepted (h : accepted (s, p) = true) :
    minSlashStake ≤ s.getStake p.accused ∧ recorded (s, p) = s.getStake p.accused / 10 := by
  unfold accepted at h
  rcases hrun : (applySlashValidator p).run s with ⟨f | u, s'⟩
  · rw [hrun] at h
    cases h
  · obtain ⟨hmin, -, rfl⟩ := ok_slash hrun
    refine ⟨hmin, ?_⟩
    unfold recorded
    rw [hrun, stateGet_stateSet, if_pos rfl]
    rfl

/-- Where the stakes never move, each report takes the same tenth again. -/
theorem takenFrom_run (h : Run (court start) (fun _ _ => True) hist s) (a : String) :
    s.stakes = start.stakes ∧
      (against a hist = [] ∨ minSlashStake ≤ start.getStake a) ∧
      takenFrom a hist = (against a hist).length * (start.getStake a / 10) := by
  induction h with
  | @start s hs =>
    obtain rfl : s = start := hs
    exact ⟨rfl, .inl rfl, (Nat.zero_mul _).symm⟩
  | @step hist s p _ _ ih =>
    obtain ⟨hstakes, hmin, htaken⟩ := ih
    refine ⟨(stakes_slash s p).trans hstakes, ?_⟩
    unfold takenFrom against at *
    rw [List.filter_cons]
    split
    · next hhit =>
      rw [Bool.and_eq_true, decide_eq_true_iff] at hhit
      obtain ⟨hacc, rfl⟩ := hhit
      obtain ⟨hmin', hrecorded⟩ := recorded_of_accepted hacc
      have hstake : s.getStake p.accused = start.getStake p.accused := by
        unfold Chain.getStake
        rw [hstakes]
      rw [hstake] at hmin' hrecorded
      refine ⟨.inr hmin', ?_⟩
      rw [List.map_cons, List.sum_cons, hrecorded, htaken, List.length_cons, Nat.succ_mul,
        Nat.add_comm]
    · exact ⟨hmin, htaken⟩
  | other _ hs ih => exact ⟨Eq.trans hs ih.1, ih.2⟩

/-- No slash that goes through comes out of the stake; and as the stake stays, the slashes of an
account take more than it as soon as there are eleven. -/
theorem slashes_leave_stake (h : Run (court start) (fun _ _ => True) hist s) :
    (∀ c ∈ hist, accepted c = true → ¬ TakesStake c) ∧
      ∀ a, takenFrom a hist ≤ start.getStake a ↔ (against a hist).length ≤ 10 := by
  refine ⟨?_, ?_⟩
  · rintro ⟨t, p⟩ - hacc ⟨htaken, -⟩
    obtain ⟨hmin, hrecorded⟩ := recorded_of_accepted hacc
    have hstake : ((applySlashValidator p).run t).2.getStake p.accused = t.getStake p.accused := by
      unfold Chain.getStake
      rw [stakes_slash]
    dsimp only at htaken
    rw [hrecorded, hstake] at htaken
    unfold minSlashStake at hmin
    omega
  · intro a
    obtain ⟨-, hmin, htaken⟩ := takenFrom_run h a
    rw [htaken]
    rcases hmin with hnone | hmin
    · simp [hnone]
    · unfold minSlashStake at hmin
      constructor
      · intro hle
        by_contra hmany
        have := Nat.mul_le_mul_right (start.getStake a / 10)
          (show 11 ≤ (against a hist).length by omega)
        omega
      · intro hfew
        have := Nat.mul_le_mul_right (start.getStake a / 10) hfew
        omega

end Court

/-- Two slashes of one account. -/
theorem slashes_leave_stake_two :
    let ops := [slashOf "slash1", slashOf "slash2"]
    let hist := (court accusedChain).record accusedChain ops []
    takenFrom "acc" hist = 4000000 ∧ takenFrom "acc" hist ≤ accusedChain.getStake "acc" ∧
      ∀ c ∈ hist, accepted c = true → ¬ TakesStake c := by
  intro ops hist
  have hrun := slashes_leave_stake ((Run.start rfl).exec (legal_true accusedChain ops) :
    Run (court accusedChain) _ hist _)
  exact ⟨by decide, (hrun.2 "acc").2 (by decide), hrun.1⟩

/-- A slash leaves the stake where it is, and eleven of them take more than there is at stake. -/
theorem slashed_beyond_stake :
    let funded := accusedChain.setBalance "acc" nativeToken 30000000
    let ops := ["a", "b", "c", "d", "e", "f", "g", "h", "i", "j", "k"].map slashOf
    let hist := (court funded).record funded ops []
    let s := (court funded).exec funded ops
    (accepted (funded, slashOf "a") = true ∧ ¬ TakesStake (funded, slashOf "a")) ∧
      takenFrom "acc" hist = 22000000 ∧ s.getStake "acc" = 20000000 ∧
      native s "acc" = 8000000 := by
  intro funded ops hist s
  have hliquid : native ((applySlashValidator (slashOf "a")).run funded).2 "acc" ≠
      native funded "acc" := by decide
  refine ⟨⟨by decide, fun h => hliquid h.2⟩, ?_⟩
  decide +kernel

end HoneNode.Slashing
