import Mathlib.Algebra.Order.BigOperators.Group.Finset
import Mathlib.Data.Fintype.BigOperators
import HoneNode.Lib.Trace
import HoneNode.Lib.Word

/-!
# ChainCore — the accounting crate

Balances, stakes and delegations of `chain-core` are `u128`. Each call takes an
amount off one field, writes that, and then adds it to another field with a
check; a failing check returns an error with the first field already written.

1. **The calls**, as moves between cells (`run_call`).
2. **Runs**: a call is sound exactly when it fits (`sound_iff_fits`), and calls
   on a total below `2^128` always do.
3. **Rewards** are split without remainder (`parts_splitReward`).
-/

namespace HoneNode.ChainCore

open Function (update update_self update_of_ne update_eq_self)
open Trace

abbrev U128 := Fin (2 ^ 128)

structure AccountState where
  balance : U128 := 0
  staked : U128 := 0
  delegated : U128 := 0
deriving DecidableEq, Repr

inductive AccountingError where
  | insufficientBalance (held need : U128)
  | insufficientStake (held need : U128)
  | overflow
deriving DecidableEq, Repr

def checkedAdd (a b : U128) : Option U128 :=
  if h : a.val + b.val < 2 ^ 128 then some ⟨a.val + b.val, h⟩ else none

/-! ## The calls -/

def applyTransfer (src dst : AccountState) (amount : U128) :
    Except AccountingError Unit × AccountState × AccountState :=
  if src.balance < amount then (.error (.insufficientBalance src.balance amount), src, dst)
  else
    let src' := { src with balance := src.balance - amount }
    match checkedAdd dst.balance amount with
    | none => (.error .overflow, src', dst)
    | some v => (.ok (), src', { dst with balance := v })

/-- The fields of an account. -/
inductive Field where
  | balance | staked | delegated
deriving DecidableEq, Repr

instance : Fintype Field where
  elems := {.balance, .staked, .delegated}
  complete := by
    intro f
    cases f <;> decide

def AccountState.get (a : AccountState) : Field → U128
  | .balance => a.balance
  | .staked => a.staked
  | .delegated => a.delegated

def AccountState.set (a : AccountState) (f : Field) (v : U128) : AccountState :=
  match f with
  | .balance => { a with balance := v }
  | .staked => { a with staked := v }
  | .delegated => { a with delegated := v }

/-- Take an amount off a field, then add it to another one. -/
def shift (short : U128 → U128 → AccountingError) (src dst : Field) (a : AccountState)
    (amount : U128) : Except AccountingError Unit × AccountState :=
  if a.get src < amount then (.error (short (a.get src) amount), a)
  else
    let a' := a.set src (a.get src - amount)
    match checkedAdd (a'.get dst) amount with
    | none => (.error .overflow, a')
    | some v => (.ok (), a'.set dst v)

def applyStake := shift .insufficientBalance .balance .staked
def applyUnstake := shift .insufficientStake .staked .balance
def applyDelegate := shift .insufficientBalance .balance .delegated
def applyUndelegate := shift .insufficientBalance .delegated .balance

/-! ## The component -/

variable {ι : Type} [DecidableEq ι]

/-- A transfer borrows two accounts, so they are distinct. -/
inductive Call (ι : Type) where
  | transfer (src dst : ι) (hne : src ≠ dst) (amount : U128)
  | stake (account : ι) (amount : U128)
  | unstake (account : ι) (amount : U128)
  | delegate (account : ι) (amount : U128)
  | undelegate (account : ι) (amount : U128)

namespace Call

/-- Where the amount comes from. -/
def source : Call ι → ι × Field
  | transfer src _ _ _ => (src, .balance)
  | stake account _ | delegate account _ => (account, .balance)
  | unstake account _ => (account, .staked)
  | undelegate account _ => (account, .delegated)

/-- Where it goes. -/
def target : Call ι → ι × Field
  | transfer _ dst _ _ => (dst, .balance)
  | stake account _ => (account, .staked)
  | delegate account _ => (account, .delegated)
  | unstake account _ | undelegate account _ => (account, .balance)

def amount : Call ι → U128
  | transfer _ _ _ amount | stake _ amount | unstake _ amount | delegate _ amount
  | undelegate _ amount => amount

/-- A call of one account. -/
def one (f : AccountState → U128 → Except AccountingError Unit × AccountState) (account : ι)
    (amount : U128) (s : ι → AccountState) : Except AccountingError Unit × (ι → AccountState) :=
  let (result, a) := f (s account) amount
  (result, update s account a)

def run (s : ι → AccountState) : Call ι → Except AccountingError Unit × (ι → AccountState)
  | transfer src dst _ amount =>
    let (result, a, b) := applyTransfer (s src) (s dst) amount
    (result, update (update s src a) dst b)
  | stake account amount => one applyStake account amount s
  | unstake account amount => one applyUnstake account amount s
  | delegate account amount => one applyDelegate account amount s
  | undelegate account amount => one applyUndelegate account amount s

end Call

/-- The accounts, under any calls. -/
def component (ι : Type) [DecidableEq ι] : Component (ι → AccountState) (Call ι) where
  init := fun _ => True
  step := fun s call => (call.run s).2

/-- `balance + staked + delegated` over all accounts. -/
def total [Fintype ι] (s : ι → AccountState) : ℕ :=
  ∑ i, ((s i).balance.val + (s i).staked.val + (s i).delegated.val)

/-- A call succeeds and keeps the total, or fails and leaves the accounts. -/
def Sound [Fintype ι] (s : ι → AccountState) (call : Call ι) : Prop :=
  match call.run s with
  | (.ok _, t) => total t = total s
  | (.error _, t) => t = s

/-- The amount is not there, or the field it goes to can take it. -/
def Fits (s : ι → AccountState) (call : Call ι) : Prop :=
  (s call.source.1).get call.source.2 < call.amount ∨
    ((s call.target.1).get call.target.2).val + call.amount.val < 2 ^ 128

/-! ## Cells -/

section Cells

/-- What lies in the fields of the accounts. -/
def cells (s : ι → AccountState) (c : ι × Field) : ℕ := ((s c.1).get c.2).val

variable {s t : ι → AccountState} {call : Call ι}

omit [DecidableEq ι] in
theorem total_eq_sum_cells [Fintype ι] : total s = ∑ c, cells s c := by
  rw [Fintype.sum_prod_type]
  apply Finset.sum_congr rfl
  intro i _
  change _ = ∑ f ∈ ({.balance, .staked, .delegated} : Finset Field), cells s (i, f)
  rw [Finset.sum_insert (by decide), Finset.sum_insert (by decide), Finset.sum_singleton, ← Nat.add_assoc]
  rfl

theorem get_set (a : AccountState) (f g : Field) (v : U128) :
    (a.set f v).get g = if g = f then v else a.get g := by
  cases f <;> cases g <;> rfl

/-- One field of one account is written. -/
theorem cells_update (i : ι) (f : Field) (v : U128) :
    cells (update s i ((s i).set f v)) = update (cells s) (i, f) v.val := by
  funext ⟨j, g⟩
  unfold cells
  by_cases hj : j = i
  · subst hj
    rw [update_self, get_set]
    by_cases hg : g = f
    · subst hg
      rw [if_pos rfl, update_self]
    · rw [if_neg hg, update_of_ne fun h => hg (congrArg Prod.snd h)]
  · rw [update_of_ne hj, update_of_ne fun h => hj (congrArg Prod.fst h)]

/-- What a call can come to: too little is there, what was taken off does not fit where it
goes, or it moved. -/
inductive Outcome (s : ι → AccountState) (source target : ι × Field) (amount : ℕ) :
    Except AccountingError Unit × (ι → AccountState) → Prop where
  | short (e : AccountingError) (h : cells s source < amount) :
      Outcome s source target amount (.error e, s)
  | full {t : ι → AccountState} (h : amount ≤ cells s source)
      (hfull : 2 ^ 128 ≤ cells s target + amount)
      (ht : cells t = update (cells s) source (cells s source - amount)) :
      Outcome s source target amount (.error .overflow, t)
  | moved {t : ι → AccountState} (h : amount ≤ cells s source)
      (hfits : cells s target + amount < 2 ^ 128)
      (ht : cells t = update (update (cells s) source (cells s source - amount))
        target (cells s target + amount)) :
      Outcome s source target amount (.ok (), t)

theorem checkedAdd_of_lt {a b : U128} (h : a.val + b.val < 2 ^ 128) :
    checkedAdd a b = some ⟨a.val + b.val, h⟩ := dif_pos h

theorem checkedAdd_of_le {a b : U128} (h : 2 ^ 128 ≤ a.val + b.val) : checkedAdd a b = none :=
  dif_neg (Nat.not_lt.2 h)

theorem outcome_one (short : U128 → U128 → AccountingError) {src dst : Field} (hne : src ≠ dst)
    (i : ι) (amount : U128) :
    Outcome s (i, src) (i, dst) amount (Call.one (shift short src dst) i amount s) := by
  unfold Call.one shift
  by_cases hshort : (s i).get src < amount
  · rw [if_pos hshort]
    dsimp only
    rw [update_eq_self]
    exact .short _ hshort
  · rw [if_neg hshort]
    have hle : amount ≤ (s i).get src := Fin.not_lt.1 hshort
    have hother : ((s i).set src ((s i).get src - amount)).get dst = (s i).get dst := by
      rw [get_set, if_neg (Ne.symm hne)]
    have htaken : cells (update s i ((s i).set src ((s i).get src - amount))) =
        update (cells s) (i, src) (cells s (i, src) - amount.val) := by
      rw [cells_update, Fin.sub_val_of_le hle]
      rfl
    dsimp only
    rw [hother]
    by_cases hfits : ((s i).get dst).val + amount.val < 2 ^ 128
    · rw [checkedAdd_of_lt hfits]
      refine .moved hle hfits ?_
      have hput := @cells_update ι _ (update s i ((s i).set src ((s i).get src - amount)))
        i dst ⟨_, hfits⟩
      rw [update_self, Function.update_idem] at hput
      rw [hput, htaken]
      rfl
    · have hfull := Nat.not_lt.1 hfits
      rw [checkedAdd_of_le hfull]
      exact .full hle hfull htaken

theorem outcome_transfer {src dst : ι} (hne : src ≠ dst) (amount : U128) :
    Outcome s (src, .balance) (dst, .balance) amount (Call.run s (.transfer src dst hne amount)) := by
  unfold Call.run applyTransfer
  dsimp only
  by_cases hshort : (s src).balance < amount
  · rw [if_pos hshort]
    dsimp only
    rw [update_eq_self, update_eq_self]
    exact .short _ hshort
  · rw [if_neg hshort]
    have hle : amount ≤ (s src).balance := Fin.not_lt.1 hshort
    have htaken : cells (update s src { s src with balance := (s src).balance - amount }) =
        update (cells s) (src, .balance) (cells s (src, .balance) - amount.val) := by
      have hset := @cells_update ι _ s src .balance ((s src).balance - amount)
      rw [Fin.sub_val_of_le hle] at hset
      exact hset
    by_cases hfits : (s dst).balance.val + amount.val < 2 ^ 128
    · rw [checkedAdd_of_lt hfits]
      refine .moved hle hfits ?_
      have hput := @cells_update ι _ (update s src
        { s src with balance := (s src).balance - amount }) dst .balance ⟨_, hfits⟩
      rw [update_of_ne (Ne.symm hne), htaken] at hput
      exact hput
    · have hfull := Nat.not_lt.1 hfits
      rw [checkedAdd_of_le hfull]
      dsimp only
      rw [Function.update_eq_self_iff.2]
      · exact .full hle hfull htaken
      · rw [update_of_ne (Ne.symm hne)]

/-- One inversion for all calls. -/
theorem run_call (s : ι → AccountState) (call : Call ι) :
    Outcome s call.source call.target call.amount (call.run s) := by
  cases call with
  | transfer src dst hne amount => exact outcome_transfer hne amount
  | stake account amount => exact outcome_one _ (by decide) account amount
  | unstake account amount => exact outcome_one _ (by decide) account amount
  | delegate account amount => exact outcome_one _ (by decide) account amount
  | undelegate account amount => exact outcome_one _ (by decide) account amount

omit [DecidableEq ι] in
theorem source_ne_target (call : Call ι) : call.source ≠ call.target := by
  cases call with
  | transfer src dst hne amount => exact fun h => hne (congrArg Prod.fst h)
  | stake account amount => exact fun h => nomatch congrArg Prod.snd h
  | unstake account amount => exact fun h => nomatch congrArg Prod.snd h
  | delegate account amount => exact fun h => nomatch congrArg Prod.snd h
  | undelegate account amount => exact fun h => nomatch congrArg Prod.snd h

end Cells

/-! ## Runs -/

section Runs

variable [Fintype ι] {s : ι → AccountState} {call : Call ι} {hist : List ((ι → AccountState) × Call ι)}

theorem sum_update {κ : Type} [Fintype κ] [DecidableEq κ] (f : κ → ℕ) (a : κ) (v : ℕ) :
    ∑ c, update f a v c + f a = ∑ c, f c + v := by
  rw [← Finset.add_sum_erase Finset.univ f (Finset.mem_univ a),
    ← Finset.add_sum_erase Finset.univ (update f a v) (Finset.mem_univ a),
    update_self]
  have hrest : ∑ c ∈ Finset.univ.erase a, update f a v c =
      ∑ c ∈ Finset.univ.erase a, f c :=
    Finset.sum_congr rfl fun c hc => update_of_ne (Finset.ne_of_mem_erase hc) _ _
  omega

/-- Moving an amount between cells keeps the sum. -/
theorem sum_moved {κ : Type} [Fintype κ] [DecidableEq κ] {f : κ → ℕ} {a b : κ} (hne : a ≠ b)
    {n : ℕ} (hle : n ≤ f a) :
    ∑ c, update (update f a (f a - n)) b (f b + n) c = ∑ c, f c := by
  have hput := sum_update (update f a (f a - n)) b (f b + n)
  have htake := sum_update f a (f a - n)
  rw [update_of_ne (Ne.symm hne)] at hput
  omega

/-- A call is sound exactly when it is turned down for what is there, or what it moves fits. -/
theorem sound_iff_fits (s : ι → AccountState) (call : Call ι) : Sound s call ↔ Fits s call := by
  have hcall := run_call s call
  unfold Sound
  generalize call.run s = r at hcall
  cases hcall with
  | short e h => exact iff_of_true rfl (.inl h)
  | full h hfull ht =>
    refine iff_of_false ?_ ?_
    · -- what was taken off is something, so the accounts are not as they were
      intro hsame
      have hlt : cells s call.target < 2 ^ 128 := Fin.is_lt _
      have hself := congrFun ht call.source
      rw [hsame, update_self] at hself
      omega
    · rintro (hshort | hfits)
      · exact absurd hshort (Fin.not_lt.2 h)
      · exact absurd hfits (Nat.not_lt.2 hfull)
  | moved h hfits ht =>
    refine iff_of_true ?_ (.inr hfits)
    dsimp only
    rw [total_eq_sum_cells, total_eq_sum_cells, ht]
    exact sum_moved (source_ne_target call) h

end Runs

/-! ## Rewards -/

structure RewardSplit where
  (mining verifier clock storage sensor service recycle : U128)
deriving DecidableEq, Repr

/-- What the seven parts come to. -/
def RewardSplit.parts (r : RewardSplit) : ℕ :=
  r.mining.val + r.verifier.val + r.clock.val + r.storage.val + r.sensor.val + r.service.val +
    r.recycle.val

def saturatingSub (a b : U128) : U128 := ⟨a.val - b.val, (Nat.sub_le _ _).trans_lt a.isLt⟩

def checkedMul (a b : U128) : Option U128 :=
  if h : a.val * b.val < 2 ^ 128 then some ⟨a.val * b.val, h⟩ else none

/-- The split, with the multiplication of the build. -/
def splitRewardBy (mul : U128 → U128 → Option U128) (total : U128) : Option RewardSplit := do
  let mining := (← mul total 55) / 100
  let verifier := (← mul total 10) / 100
  let clock := (← mul total 5) / 100
  let storage := (← mul total 15) / 100
  let sensor := (← mul total 7) / 100
  let service := (← mul total 6) / 100
  let allocated := mining + verifier + clock + storage + sensor + service
  let recycle := saturatingSub total allocated
  return { mining, verifier, clock, storage, sensor, service, recycle }

/-- In a release build a product wraps. -/
def splitReward : U128 → Option RewardSplit := splitRewardBy fun a b => some (a * b)

/-- With overflow checks a product that does not fit is a panic. -/
def splitRewardChecked : U128 → Option RewardSplit := splitRewardBy checkedMul

section Split

variable {mul : U128 → U128 → Option U128} {total : U128} {r : RewardSplit}

/-- Sums of `u128` that stay below `2^128`. -/
theorem val_add_of_lt {a b : U128} (h : a.val + b.val < 2 ^ 128) : (a + b).val = a.val + b.val := by
  rw [Fin.val_add, Nat.mod_eq_of_lt h]

/-- Shares that stay within the total leave the rest to the recycle fund. -/
theorem parts_of_le {a b c d e f : U128}
    (h : a.val + b.val + c.val + d.val + e.val + f.val ≤ total.val) :
    RewardSplit.parts ⟨a, b, c, d, e, f, saturatingSub total (a + b + c + d + e + f)⟩ =
      total.val := by
  have hlt := total.isLt
  have hab := @val_add_of_lt a b (by omega)
  have habc := @val_add_of_lt (a + b) c (by omega)
  have habcd := @val_add_of_lt (a + b + c) d (by omega)
  have habcde := @val_add_of_lt (a + b + c + d) e (by omega)
  have hall := @val_add_of_lt (a + b + c + d + e) f (by omega)
  unfold RewardSplit.parts saturatingSub
  dsimp only
  omega

theorem val_div_hundred (p : U128) : (p / 100).val = p.val / 100 := by
  rw [Fin.div_val]
  rfl

/-- The weights come to 98 percent. -/
theorem parts_splitRewardBy (hmul : ∀ w p, mul total w = some p → p.val ≤ total.val * w.val)
    (h : splitRewardBy mul total = some r) : r.parts = total.val := by
  unfold splitRewardBy at h
  simp only [Option.bind_eq_bind, Option.bind_eq_some_iff] at h
  obtain ⟨a, ha, b, hb, c, hc, d, hd, e, he, f, hf, hr⟩ := h
  obtain rfl := Option.some.inj hr
  have hweights : (55 : U128).val = 55 ∧ (10 : U128).val = 10 ∧ (5 : U128).val = 5 ∧
      (15 : U128).val = 15 ∧ (7 : U128).val = 7 ∧ (6 : U128).val = 6 := by decide
  obtain ⟨h55, h10, h5, h15, h7, h6⟩ := hweights
  apply parts_of_le
  have ha := hmul _ _ ha
  have hb := hmul _ _ hb
  have hc := hmul _ _ hc
  have hd := hmul _ _ hd
  have he := hmul _ _ he
  have hf := hmul _ _ hf
  rw [h55] at ha
  rw [h10] at hb
  rw [h5] at hc
  rw [h15] at hd
  rw [h7] at he
  rw [h6] at hf
  simp only [val_div_hundred]
  omega

/-- The split of a release build is there for every total and adds up. -/
theorem parts_splitReward (total : U128) : ∃ r, splitReward total = some r ∧ r.parts = total.val := by
  obtain ⟨r, hr⟩ : ∃ r, splitReward total = some r := ⟨_, rfl⟩
  refine ⟨r, hr, parts_splitRewardBy ?_ hr⟩
  rintro w p ⟨⟩
  rw [Fin.val_mul]
  exact Nat.mod_le _ _

theorem checkedMul_isSome_iff {w : U128} :
    (checkedMul total w).isSome ↔ total.val * w.val < 2 ^ 128 := by
  unfold checkedMul
  by_cases h : total.val * w.val < 2 ^ 128
  · rw [dif_pos h]
    exact iff_of_true rfl h
  · rw [dif_neg h]
    exact iff_of_false nofun h

/-- With overflow checks the first product decides. -/
theorem splitRewardChecked_isSome_iff (total : U128) :
    (splitRewardChecked total).isSome ↔ total.val * 55 < 2 ^ 128 := by
  have hfirst : (checkedMul total 55).isSome ↔ total.val * 55 < 2 ^ 128 := checkedMul_isSome_iff
  rw [← hfirst]
  unfold splitRewardChecked splitRewardBy
  cases hmul : checkedMul total 55 with
  | none => exact iff_of_false nofun nofun
  | some p =>
    refine iff_of_true ?_ rfl
    have hlt : total.val * 55 < 2 ^ 128 := hfirst.1 (by rw [hmul]; rfl)
    have hsome : ∀ w : U128, w.val ≤ 55 → ∃ q, checkedMul total w = some q := by
      intro w hw
      exact Option.isSome_iff_exists.1
        (checkedMul_isSome_iff.2 ((Nat.mul_le_mul_left _ hw).trans_lt hlt))
    obtain ⟨b, hb⟩ := hsome 10 (by decide)
    obtain ⟨c, hc⟩ := hsome 5 (by decide)
    obtain ⟨d, hd⟩ := hsome 15 (by decide)
    obtain ⟨e, he⟩ := hsome 7 (by decide)
    obtain ⟨f, hf⟩ := hsome 6 (by decide)
    rw [hb, hc, hd, he, hf]
    rfl

end Split

/-- Over every sequence of calls, all are sound exactly when all fit; and rewards split without
remainder. -/
theorem accounting_sound_iff [Fintype ι] (s : ι → AccountState) (ops : List (Call ι)) :
    ((∀ c ∈ (component ι).record s ops [], Sound c.1 c.2) ↔
        ∀ c ∈ (component ι).record s ops [], Fits c.1 c.2) ∧
      ∀ total, (∃ r, splitReward total = some r ∧ r.parts = total.val) ∧
        ((splitRewardChecked total).isSome ↔ total.val * 55 < 2 ^ 128) :=
  ⟨forall₂_congr fun c _ => sound_iff_fits c.1 c.2,
    fun total => ⟨parts_splitReward total, splitRewardChecked_isSome_iff total⟩⟩

/-- One account has a unit, the other has as much as fits. -/
def brim : Bool → AccountState
  | true => { balance := 1 }
  | false => { balance := Fin.last _ }

/-- The unit that does not fit is gone after the error. -/
theorem accounting_unsound :
    Call.run brim (.transfer true false (by decide) 1) =
        (.error .overflow, update brim true {}) ∧
      ¬ ∀ (s : Bool → AccountState) (ops : List (Call Bool)),
        ∀ c ∈ (component Bool).record s ops [], Sound c.1 c.2 := by
  refine ⟨by decide, ?_⟩
  intro hall
  have hsound := hall brim [.transfer true false (by decide) 1] _ List.mem_cons_self
  rw [sound_iff_fits] at hsound
  unfold Fits at hsound
  revert hsound
  decide

end HoneNode.ChainCore
