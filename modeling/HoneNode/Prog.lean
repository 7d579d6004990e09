import HoneNode.Lib.Text
import HoneNode.Lib.Within
import HoneNode.Store

/-!
# Prog — ledger programs and what they may touch

The arms of `apply_entry` are programs over the `Chain`. A program of type
`Prog W` comes with the proof that no run of it, failing or not, does more than
its footprint `W` names: it lowers only the balance rows in `W.pays` and the
stakes in `W.unstakes`, rewrites only the key slots of accounts in `W.rekeys`,
and writes a guarded family only if `W.grants` has it. Nothing a program does
moves a nonce; the nonce bump is a step of its own, taken outside.
-/

namespace HoneNode

export Text (hexEncode hexDecode hasPrefix leBytes beBytes trim isBoundary dropPrefix parseU64
  splitOnce hexDecode_hexEncode bytes_injective)

/-- How an arm stops: `Err` with the message of `bail!`/`ensure!`, or a panic. -/
inductive Fault where
  | err (msg : String)
  | panic (msg : String)
deriving DecidableEq, Repr

/-- Families that carry authority over somebody's funds, the right to report included. -/
def Family.guarded : Family → Bool
  | .delegation | .externalSigner | .externalSignerNonce | .clockNode | .clockStake => true
  | _ => false

/-! ## Footprints -/

/-- What a program may lower, rekey and grant. -/
structure Footprint where
  pays : Set String := ∅
  unstakes : Set String := ∅
  rekeys : Set String := ∅
  grants : Set Family := ∅

/-- `s'` comes from `s` by changes that `W` names. -/
structure Footprint.Allows (W : Footprint) (s s' : Chain) : Prop where
  balance : ∀ k, k ∉ W.pays → (s.balances.get k).getD 0 ≤ (s'.balances.get k).getD 0
  stake : ∀ a, a ∉ W.unstakes → s.getStake a ≤ s'.getStake a
  record : ∀ a r, s.getAccount a = some r →
    ∃ r', s'.getAccount a = some r' ∧ r'.nonce = r.nonce ∧ (a ∉ W.rekeys → r'.keys = r.keys)
  fresh : ∀ a r', s.getAccount a = none → s'.getAccount a = some r' →
    r'.nonce = 0 ∧ (a ∉ W.rekeys → r'.keys = ∅)
  family : ∀ f : Family, f.guarded = true → f ∉ W.grants → s'.state f = s.state f

namespace Footprint

variable {W : Footprint} {s s' s'' : Chain}

theorem Allows.refl (W : Footprint) (s : Chain) : W.Allows s s where
  balance := fun _ _ => le_rfl
  stake := fun _ _ => le_rfl
  record := fun _ r h => ⟨r, h, rfl, fun _ => rfl⟩
  fresh := by
    intro a r' h h'
    rw [h] at h'
    cases h'
  family := fun _ _ _ => rfl

theorem Allows.trans (h : W.Allows s s') (h' : W.Allows s' s'') : W.Allows s s'' where
  balance := fun k hk => (h.balance k hk).trans (h'.balance k hk)
  stake := fun a ha => (h.stake a ha).trans (h'.stake a ha)
  record := by
    intro a r hr
    obtain ⟨r₁, hr₁, hn₁, hk₁⟩ := h.record a r hr
    obtain ⟨r₂, hr₂, hn₂, hk₂⟩ := h'.record a r₁ hr₁
    exact ⟨r₂, hr₂, hn₂.trans hn₁, fun ha => (hk₂ ha).trans (hk₁ ha)⟩
  fresh := by
    intro a r'' hnone hr''
    cases hmid : s'.getAccount a with
    | none => exact h'.fresh a r'' hmid hr''
    | some r' =>
      -- created in the first half, kept in the second
      obtain ⟨hn, hk⟩ := h.fresh a r' hnone hmid
      obtain ⟨r₂, hr₂, hn₂, hk₂⟩ := h'.record a r' hmid
      rw [hr''] at hr₂
      cases hr₂
      exact ⟨hn₂.trans hn, fun ha => (hk₂ ha).trans (hk ha)⟩
  family := fun f hg hf => (h'.family f hg hf).trans (h.family f hg hf)

instance (W : Footprint) : IsPreorder Chain W.Allows where
  refl := Allows.refl W
  trans := fun _ _ _ => Allows.trans

/-- The footprint of most arms. -/
instance isPreorder_bare : IsPreorder Chain ({} : Footprint).Allows := inferInstance

instance isPreorder_payAll : IsPreorder Chain ({ pays := Set.univ } : Footprint).Allows :=
  inferInstance

/-- The footprint of the arms that take HONE from one account. -/
instance isPreorder_payHone (account : String) :
    IsPreorder Chain ({ pays := {balanceKey account nativeToken} } : Footprint).Allows :=
  inferInstance

theorem hone_pays (account : String) :
    balanceKey account nativeToken ∈ ({balanceKey account nativeToken} : Set String) :=
  rfl

/-- A larger footprint allows at least as much. -/
theorem Allows.mono {W' : Footprint} (hp : W.pays ⊆ W'.pays) (hu : W.unstakes ⊆ W'.unstakes)
    (hr : W.rekeys ⊆ W'.rekeys) (hg : W.grants ⊆ W'.grants) (h : W.Allows s s') :
    W'.Allows s s' where
  balance := fun k hk => h.balance k (fun hk' => hk (hp hk'))
  stake := fun a ha => h.stake a (fun ha' => ha (hu ha'))
  record := by
    intro a r hs
    obtain ⟨r', hr', hn, hk⟩ := h.record a r hs
    exact ⟨r', hr', hn, fun ha => hk (fun ha' => ha (hr ha'))⟩
  fresh := by
    intro a r' hs hs'
    obtain ⟨hn, hk⟩ := h.fresh a r' hs hs'
    exact ⟨hn, fun ha => hk (fun ha' => ha (hr ha'))⟩
  family := fun f hf hf' => h.family f hf (fun hf'' => hf' (hg hf''))

end Footprint

/-! ## Writes -/

namespace Chain

variable (s : Chain)

@[simps] def setBalance (account token : String) (amount : ℕ) : Chain :=
  { s with balances := s.balances.put (balanceKey account token) amount }

@[simps] def setStake (account : String) (amount : ℕ) : Chain :=
  { s with stakes := s.stakes.put account amount }

@[simps] def setAccount (account : String) (r : Account) : Chain :=
  { s with accounts := s.accounts.put account r }

@[simps] def setEpochMeta (epoch : ℕ) (m : EpochMeta) : Chain :=
  { s with epochs := s.epochs.put epoch m }

@[simps] def stateSet (f : Family) (key : String) (v : f.Val) : Chain :=
  { s with state := Function.update s.state f ((s.state f).put key v) }

@[simps] def stateDelete (f : Family) (key : String) : Chain :=
  { s with state := Function.update s.state f ((s.state f).del key) }

/-- The record of the account, an empty one if there was none. -/
def withAccount (account : String) (epoch : ℕ) : Chain :=
  if (s.getAccount account).isSome then s
  else s.setAccount account { accountId := account, createdEpoch := epoch }

/-- The account noted as active in `epoch`. -/
def touched (account : String) (epoch : ℕ) : Chain :=
  if (s.stateGet .alive account).getD 0 < epoch then s.stateSet .alive account epoch else s

/-! ### Reads after writes -/

/-- The amount in a balance row. -/
def row (k : String) : ℕ := (s.balances.get k).getD 0

variable (account token : String) (f : Family)

theorem getBalance_eq_row :
    s.getBalance account token = s.row (balanceKey account token) := rfl

theorem row_setBalance (n : ℕ) (k : String) :
    (s.setBalance account token n).row k = if k = balanceKey account token then n else s.row k := by
  simp only [row, setBalance_balances, Kv.get_put, eq_comm]
  split <;> simp

@[simp] theorem stateGet_setStake (account key : String) (n : ℕ) (f : Family) :
    (s.setStake account n).stateGet f key = s.stateGet f key := rfl

@[simp] theorem row_stateSet (key k : String) (v : f.Val) :
    (s.stateSet f key v).row k = s.row k := rfl

@[simp] theorem getBalance_stateSet (key account token : String) (v : f.Val) :
    (s.stateSet f key v).getBalance account token = s.getBalance account token := rfl

theorem stateGet_of_state {s t : Chain} {f : Family} (h : t.state f = s.state f) (key : String) :
    t.stateGet f key = s.stateGet f key := by
  unfold stateGet
  rw [h]

theorem stateGet_stateSet (key j : String) (v : f.Val) :
    (s.stateSet f key v).stateGet f j = if key = j then some v else s.stateGet f j := by
  simp [stateGet, Kv.get_put]

theorem stateGet_stateSet_of_ne {f g : Family} (h : g ≠ f) (key j : String) (v : f.Val) :
    (s.stateSet f key v).stateGet g j = s.stateGet g j := by
  simp [stateGet, Function.update_of_ne h]

theorem stateGet_stateDelete (key j : String) :
    (s.stateDelete f key).stateGet f j = if key = j then none else s.stateGet f j := by
  simp [stateGet, Kv.get_del]

theorem state_stateSet_self (key : String) (v : f.Val) :
    (s.stateSet f key v).state f = (s.state f).put key v := by
  simp

theorem state_stateSet_of_ne {f g : Family} (h : g ≠ f) (key : String) (v : f.Val) :
    (s.stateSet f key v).state g = s.state g := by
  simp [Function.update_of_ne h]

theorem state_stateDelete_of_ne {f g : Family} (h : g ≠ f) (key : String) :
    (s.stateDelete f key).state g = s.state g := by
  simp [Function.update_of_ne h]

/-- A balance with an amount added. -/
def credited (account token : String) (n : ℕ) : Chain :=
  s.setBalance account token (s.getBalance account token + n)

/-- A balance with an amount taken. -/
def debited (account token : String) (n : ℕ) : Chain :=
  s.setBalance account token (s.getBalance account token - n)

theorem row_credited (n : ℕ) (k : String) : (s.credited account token n).row k =
      s.row k + if k = balanceKey account token then n else 0 := by
  unfold credited
  rw [row_setBalance, getBalance_eq_row]
  split
  · next h => rw [h]
  · rfl

theorem row_debited (n : ℕ) (k : String) : (s.debited account token n).row k =
      s.row k - if k = balanceKey account token then n else 0 := by
  unfold debited
  rw [row_setBalance, getBalance_eq_row]
  split
  · next h => rw [h]
  · rfl

section Moved

variable (account token a key : String) (n : ℕ) (f : Family)

@[simp] theorem getStake_credited : (s.credited account token n).getStake a = s.getStake a := rfl

@[simp] theorem getAccount_credited :
    (s.credited account token n).getAccount a = s.getAccount a := rfl

@[simp] theorem state_credited : (s.credited account token n).state f = s.state f := rfl

@[simp] theorem stateGet_credited :
    (s.credited account token n).stateGet f key = s.stateGet f key := rfl

@[simp] theorem getStake_debited : (s.debited account token n).getStake a = s.getStake a := rfl

@[simp] theorem getAccount_debited :
    (s.debited account token n).getAccount a = s.getAccount a := rfl

@[simp] theorem state_debited : (s.debited account token n).state f = s.state f := rfl

@[simp] theorem stateGet_debited :
    (s.debited account token n).stateGet f key = s.stateGet f key := rfl

end Moved

section Transparent

variable (account a token key k : String) (epoch : ℕ)

@[simp] theorem row_touched : (s.touched account epoch).row k = s.row k := by
  unfold touched
  split <;> rfl

@[simp] theorem getBalance_touched :
    (s.touched account epoch).getBalance a token = s.getBalance a token := by
  unfold touched
  split <;> rfl

@[simp] theorem getStake_touched : (s.touched account epoch).getStake a = s.getStake a := by
  unfold touched
  split <;> rfl

@[simp] theorem getAccount_touched :
    (s.touched account epoch).getAccount a = s.getAccount a := by
  unfold touched
  split <;> rfl

theorem state_touched {f : Family} (h : f ≠ .alive) :
    (s.touched account epoch).state f = s.state f := by
  unfold touched
  split
  · exact s.state_stateSet_of_ne h _ _
  · rfl

theorem stateGet_touched {f : Family} (h : f ≠ .alive) :
    (s.touched account epoch).stateGet f key = s.stateGet f key := by
  simp only [stateGet, state_touched _ _ _ h]

@[simp] theorem row_withAccount : (s.withAccount account epoch).row k = s.row k := by
  unfold withAccount
  split <;> rfl

@[simp] theorem getBalance_withAccount :
    (s.withAccount account epoch).getBalance a token = s.getBalance a token := by
  unfold withAccount
  split <;> rfl

@[simp] theorem state_withAccount (f : Family) :
    (s.withAccount account epoch).state f = s.state f := by
  unfold withAccount
  split <;> rfl

@[simp] theorem stateGet_withAccount (f : Family) :
    (s.withAccount account epoch).stateGet f key = s.stateGet f key := by
  unfold withAccount
  split <;> rfl

/-- Only a missing record is added. -/
theorem withAccount_of_isSome (h : (s.getAccount account).isSome) :
    s.withAccount account epoch = s := by
  simp [withAccount, h]

/-- A record there was none of is empty. -/
theorem getAccount_withAccount_of_none (h : s.getAccount account = none) :
    (s.withAccount account epoch).getAccount account =
      some { accountId := account, createdEpoch := epoch } := by
  rw [withAccount, if_neg (by simp [h])]
  simp [getAccount]

theorem getAccount_withAccount_ne (h : (s.getAccount account).isSome = false) :
    (s.withAccount account epoch).getAccount account ≠ s.getAccount account := by
  have hnone : s.getAccount account = none := by simpa using h
  simp [hnone, getAccount_withAccount_of_none]

end Transparent

end Chain

export Chain (stateGet_of_state stateGet_stateSet state_stateSet_of_ne getBalance_eq_row
  row_debited stateGet_stateSet_of_ne row_credited state_stateSet_self stateGet_stateDelete)

/-! ## What single writes are allowed -/

namespace Footprint

variable {W : Footprint} {s : Chain}

/-- Only balances, stakes, records and families are watched. -/
theorem allows_of_columns {s' : Chain} (hb : s'.balances = s.balances)
    (hk : s'.stakes = s.stakes) (ha : s'.accounts = s.accounts)
    (hs : ∀ f, f.guarded = true → f ∉ W.grants → s'.state f = s.state f) : W.Allows s s' where
  balance := fun k _ => by rw [hb]
  stake := fun a _ => by simp [Chain.getStake, hk]
  record := fun a r h => ⟨r, by simpa [Chain.getAccount, ha] using h, rfl, fun _ => rfl⟩
  fresh := by
    intro a r' h h'
    simp only [Chain.getAccount, ha] at h h'
    rw [h] at h'
    cases h'
  family := hs

theorem allows_setBalance {account token : String} {n : ℕ}
    (h : balanceKey account token ∈ W.pays ∨ s.getBalance account token ≤ n) :
    W.Allows s (s.setBalance account token n) where
  balance := by
    intro k hk
    by_cases he : balanceKey account token = k
    · subst he
      rcases h with h | h
      · exact absurd h hk
      · simpa [Chain.getBalance] using h
    · simp [Kv.get_put_of_ne _ _ he]
  stake := fun _ _ => le_rfl
  record := fun _ r h => ⟨r, h, rfl, fun _ => rfl⟩
  fresh := by
    intro a r' hnone hsome
    simp only [Chain.getAccount, Chain.setBalance_accounts] at hnone hsome
    rw [hnone] at hsome
    cases hsome
  family := fun _ _ _ => rfl

theorem allows_setStake {account : String} {n : ℕ}
    (h : account ∈ W.unstakes ∨ s.getStake account ≤ n) : W.Allows s (s.setStake account n) where
  balance := fun _ _ => le_rfl
  stake := by
    intro a ha
    by_cases he : account = a
    · subst he
      rcases h with h | h
      · exact absurd h ha
      · simpa [Chain.getStake] using h
    · simp [Chain.getStake, Kv.get_put_of_ne _ _ he]
  record := fun _ r h => ⟨r, h, rfl, fun _ => rfl⟩
  fresh := by
    intro a r' hnone hsome
    simp only [Chain.getAccount, Chain.setStake_accounts] at hnone hsome
    rw [hnone] at hsome
    cases hsome
  family := fun _ _ _ => rfl

/-- A record may be written where it keeps the nonce and the keys, or is new. -/
theorem allows_setAccount {account : String} {r' : Account}
    (hsome : ∀ r, s.getAccount account = some r →
      r'.nonce = r.nonce ∧ (account ∉ W.rekeys → r'.keys = r.keys))
    (hnone : s.getAccount account = none → r'.nonce = 0 ∧ (account ∉ W.rekeys → r'.keys = ∅)) :
    W.Allows s (s.setAccount account r') where
  balance := fun _ _ => le_rfl
  stake := fun _ _ => le_rfl
  record := by
    intro a r hr
    by_cases he : account = a
    · subst he
      exact ⟨r', by simp [Chain.getAccount], (hsome r hr).1, (hsome r hr).2⟩
    · exact ⟨r, by simpa [Chain.getAccount, Kv.get_put_of_ne _ _ he] using hr, rfl, fun _ => rfl⟩
  fresh := by
    intro a r₁ hs hs'
    by_cases he : account = a
    · subst he
      simp only [Chain.getAccount, Chain.setAccount_accounts, Kv.get_put_self,
        Option.some.injEq] at hs'
      subst hs'
      exact hnone hs
    · simp only [Chain.getAccount, Chain.setAccount_accounts, Kv.get_put_of_ne _ _ he] at hs hs'
      rw [hs] at hs'
      cases hs'
  family := fun _ _ _ => rfl

theorem allows_stateSet {f : Family} {key : String} {v : f.Val}
    (h : f.guarded = false ∨ f ∈ W.grants) : W.Allows s (s.stateSet f key v) := by
  refine allows_of_columns rfl rfl rfl ?_
  intro g hg hnot
  refine Function.update_of_ne ?_ _ _
  rintro rfl
  rcases h with h | h
  · rw [h] at hg
    cases hg
  · exact hnot h

theorem allows_stateDelete {f : Family} {key : String}
    (h : f.guarded = false ∨ f ∈ W.grants) : W.Allows s (s.stateDelete f key) := by
  refine allows_of_columns rfl rfl rfl ?_
  intro g hg hnot
  refine Function.update_of_ne ?_ _ _
  rintro rfl
  rcases h with h | h
  · rw [h] at hg
    cases hg
  · exact hnot h

end Footprint

/-! ## Programs -/

/-- A ledger program that stays within its footprint. -/
abbrev Prog (W : Footprint) (α : Type) := Within Fault W.Allows α

namespace Prog

open Within

variable {W : Footprint} {α : Type}

def bail (msg : String) : Prog W α := fail (.err msg)

def ensure (c : Prop) [Decidable c] (msg : String) : Prog W Unit :=
  if c then pure () else bail msg

/-- The value of an option, or the error. -/
def orBail (o : Option α) (msg : String) : Prog W α :=
  match o with
  | some a => pure a
  | none => bail msg

/-- Run the part of the branch that the source runs under an `if`. -/
def when (c : Prop) [Decidable c] (m : Prog W Unit) : Prog W Unit :=
  if c then m else pure ()

/-- Reword the error of a program (`map_err`). -/
def mapErr (g : String → String) (m : Prog W α) : Prog W α where
  run := fun s => match m.run s with
    | (.error (.err msg), s') => (.error (.err (g msg)), s')
    | (r, s') => (r, s')
  within := by
    intro s
    have h := m.within s
    cases hr : m.run s with
    | mk r s' =>
      rw [hr] at h
      cases r with
      | ok a => exact h
      | error e => cases e <;> exact h

/-- A log line that prints the first `n` bytes of a text: with that level switched
on, it panics when the cut falls inside a character. -/
def logSlice (enabled : Bool) (text : String) (n : ℕ) : Prog W Unit :=
  if enabled && !Text.isBoundary text (min text.utf8ByteSize n) then
    fail (.panic "byte index is not a char boundary")
  else pure ()

/-- The same for a line that prints exactly `n` bytes: a shorter text panics too. -/
def logPrefix (enabled : Bool) (text : String) (n : ℕ) : Prog W Unit :=
  if enabled && !Text.isBoundary text n then fail (.panic "byte index is out of bounds")
  else pure ()

/-! ### Balances and stakes -/

/-- Add to a balance; the sum is checked. -/
def credit (account token : String) (amount : ℕ) : Prog W Unit where
  run := fun s =>
    if s.getBalance account token + amount < 2 ^ 64 then
      (.ok (), s.setBalance account token (s.getBalance account token + amount))
    else (.error (.err s!"balance overflow for '{account}' {token}"), s)
  within := by
    intro s
    split
    · exact Footprint.allows_setBalance (.inr (Nat.le_add_right _ _))
    · exact Footprint.Allows.refl W s

/-- Take from a balance; it must cover the amount. -/
def debit (account token : String) (amount : ℕ)
    (h : balanceKey account token ∈ W.pays := by simp) : Prog W Unit where
  run := fun s =>
    if amount ≤ s.getBalance account token then
      (.ok (), s.setBalance account token (s.getBalance account token - amount))
    else
      (.error (.err s!"insufficient balance: {account} has {s.getBalance account token} {token}"),
        s)
  within := by
    intro s
    split
    · exact Footprint.allows_setBalance (.inl h)
    · exact Footprint.Allows.refl W s

/-- Add to a stake; the sum is checked. -/
def addStake (account : String) (amount : ℕ) : Prog W Unit where
  run := fun s =>
    if s.getStake account + amount < 2 ^ 64 then
      (.ok (), s.setStake account (s.getStake account + amount))
    else (.error (.err s!"stake overflow for '{account}'"), s)
  within := by
    intro s
    split
    · exact Footprint.allows_setStake (.inr (Nat.le_add_right _ _))
    · exact Footprint.Allows.refl W s

/-- Overwrite a stake. -/
def setStake (account : String) (amount : ℕ) (h : account ∈ W.unstakes := by simp) :
    Prog W Unit :=
  update (fun s => s.setStake account amount) fun _ => Footprint.allows_setStake (.inl h)

/-! ### Accounts -/

/-- Create an empty record unless there is one. -/
def ensureAccount (account : String) (epoch : ℕ) : Prog W Unit :=
  update (fun s => s.withAccount account epoch) (by
    intro s
    unfold Chain.withAccount
    split
    · exact Footprint.Allows.refl W s
    · rename_i h
      exact Footprint.allows_setAccount (fun r hr => absurd hr (by simp_all))
        (fun _ => ⟨rfl, fun _ => rfl⟩))

/-- Store a record for an account that has none. -/
def createAccount (account : String) (r : Account) (hn : r.nonce = 0)
    (hk : account ∈ W.rekeys := by simp) : Prog W Unit :=
  update (fun s => if (s.getAccount account).isSome then s else s.setAccount account r) (by
    intro s
    split
    · exact Footprint.Allows.refl W s
    · rename_i h
      exact Footprint.allows_setAccount (fun r hr => absurd hr (by simp_all))
        (fun _ => ⟨hn, fun hno => absurd hk hno⟩))

/-- Rewrite a record, if there is one, leaving its nonce and its keys. -/
def modifyAccount (account : String) (g : Account → Account)
    (hn : ∀ r, (g r).nonce = r.nonce := by intro r; rfl)
    (hk : ∀ r, (g r).keys = r.keys := by intro r; rfl) : Prog W Unit :=
  update (fun s => match s.getAccount account with
      | some r => s.setAccount account (g r)
      | none => s) (by
    intro s
    split
    · rename_i r h
      exact Footprint.allows_setAccount (fun r' hr' => by simp_all) (fun hno => by simp_all)
    · exact Footprint.Allows.refl W s)

/-- Rewrite a record, if there is one, its keys included. -/
def rekeyAccount (account : String) (g : Account → Account)
    (hn : ∀ r, (g r).nonce = r.nonce := by intro r; rfl)
    (h : account ∈ W.rekeys := by simp) : Prog W Unit :=
  update (fun s => match s.getAccount account with
      | some r => s.setAccount account (g r)
      | none => s) (by
    intro s
    split
    · rename_i r hr
      exact Footprint.allows_setAccount (fun r' hr' => by simp_all) (fun hno => by simp_all)
    · exact Footprint.Allows.refl W s)

/-! ### Meta -/

def stateSet (f : Family) (key : String) (v : f.Val)
    (h : f.guarded = false ∨ f ∈ W.grants := by first | exact .inl rfl | simp) :
    Prog W Unit :=
  update (fun s => s.stateSet f key v) fun _ => Footprint.allows_stateSet h

def stateDelete (f : Family) (key : String)
    (h : f.guarded = false ∨ f ∈ W.grants := by first | exact .inl rfl | simp) :
    Prog W Unit :=
  update (fun s => s.stateDelete f key) fun _ => Footprint.allows_stateDelete h

def stateGet (f : Family) (key : String) : Prog W (Option f.Val) := inspect (·.stateGet f key)

/-- The bindings whose key starts with `pfx`, in key order. -/
def stateScan (f : Family) (pfx : String) : Prog W (List (String × f.Val)) :=
  inspect fun s => (s.state f).scan (Text.hasPrefix pfx)

/-- Rewrite the record under a key, if there is one. -/
def stateModify (f : Family) (key : String) (g : f.Val → f.Val)
    (h : f.guarded = false ∨ f ∈ W.grants := by first | exact .inl rfl | simp) :
    Prog W Unit := do
  let found ← stateGet f key
  match found with
  | some v => stateSet f key (g v) h
  | none => pure ()

def setEpochMeta (epoch : ℕ) (m : EpochMeta) : Prog W Unit :=
  update (fun s => s.setEpochMeta epoch m) fun _ =>
    Footprint.allows_of_columns rfl rfl rfl fun _ _ _ => rfl

def setCurrentEpoch (epoch : ℕ) : Prog W Unit :=
  update (fun s => { s with currentEpoch := epoch }) fun _ =>
    Footprint.allows_of_columns rfl rfl rfl fun _ _ _ => rfl

/-- Note that the account was active in `epoch`. -/
def touchAlive (account : String) (epoch : ℕ) : Prog W Unit :=
  update (fun s => s.touched account epoch) (by
    intro s
    unfold Chain.touched
    split
    · exact Footprint.allows_stateSet (.inl rfl)
    · exact Footprint.Allows.refl W s)

/-! ### How the primitives compute -/

section Run

variable (s : Chain)

@[simp] theorem run_bail (msg : String) :
    (bail msg : Prog W α).run s = (.error (.err msg), s) := rfl

@[simp] theorem run_ensure (c : Prop) [Decidable c] (msg : String) :
    (ensure c msg : Prog W Unit).run s = if c then (.ok (), s) else (.error (.err msg), s) := by
  unfold ensure
  split <;> rfl

@[simp] theorem run_orBail_some (a : α) (msg : String) :
    (orBail (some a) msg : Prog W α).run s = (.ok a, s) := rfl

@[simp] theorem run_orBail_none (msg : String) :
    (orBail none msg : Prog W α).run s = (.error (.err msg), s) := rfl

@[simp] theorem run_when (c : Prop) [Decidable c] (m : Prog W Unit) :
    (when c m).run s = if c then m.run s else (.ok (), s) := by
  unfold when
  split <;> rfl

theorem run_logSlice (enabled : Bool) (text : String) (n : ℕ) :
    (logSlice enabled text n : Prog W Unit).run s =
      if !enabled || Text.isBoundary text (min text.utf8ByteSize n) then (.ok (), s)
      else (.error (.panic "byte index is not a char boundary"), s) := by
  unfold logSlice
  cases enabled <;> cases Text.isBoundary text (min text.utf8ByteSize n) <;> rfl

theorem run_credit (account token : String) (amount : ℕ) :
    (credit account token amount : Prog W Unit).run s =
      if s.getBalance account token + amount < 2 ^ 64 then
        (.ok (), s.credited account token amount)
      else (.error (.err s!"balance overflow for '{account}' {token}"), s) := rfl

theorem run_debit (account token : String) (amount : ℕ)
    (h : balanceKey account token ∈ W.pays) :
    (debit account token amount h).run s =
      if amount ≤ s.getBalance account token then
        (.ok (), s.debited account token amount)
      else (.error (.err
        s!"insufficient balance: {account} has {s.getBalance account token} {token}"), s) := rfl

variable (account : String)

theorem run_addStake (amount : ℕ) : (addStake account amount : Prog W Unit).run s =
      if s.getStake account + amount < 2 ^ 64 then
        (.ok (), s.setStake account (s.getStake account + amount))
      else (.error (.err s!"stake overflow for '{account}'"), s) := rfl

@[simp] theorem run_setStake (amount : ℕ) (h : account ∈ W.unstakes) :
    (setStake account amount h).run s = (.ok (), s.setStake account amount) := rfl

@[simp] theorem run_stateGet (f : Family) (key : String) :
    (stateGet f key : Prog W (Option f.Val)).run s = (.ok (s.stateGet f key), s) := rfl

@[simp] theorem run_stateScan (f : Family) (pfx : String) :
    (stateScan f pfx : Prog W _).run s = (.ok ((s.state f).scan (Text.hasPrefix pfx)), s) := rfl

@[simp] theorem run_stateSet (f : Family) (key : String) (v : f.Val)
    (h : f.guarded = false ∨ f ∈ W.grants) :
    (stateSet f key v h).run s = (.ok (), s.stateSet f key v) := rfl

@[simp] theorem run_stateDelete (f : Family) (key : String)
    (h : f.guarded = false ∨ f ∈ W.grants) :
    (stateDelete f key h).run s = (.ok (), s.stateDelete f key) := rfl

@[simp] theorem run_ensureAccount (epoch : ℕ) :
    (ensureAccount account epoch : Prog W Unit).run s = (.ok (), s.withAccount account epoch) := rfl

@[simp] theorem run_touchAlive (epoch : ℕ) :
    (touchAlive account epoch : Prog W Unit).run s = (.ok (), s.touched account epoch) := rfl

@[simp] theorem run_setEpochMeta (epoch : ℕ) (m : EpochMeta) :
    (setEpochMeta epoch m : Prog W Unit).run s = (.ok (), s.setEpochMeta epoch m) := rfl

/-! ### Running on after a primitive -/

variable {β : Type} {s}

variable {g : Unit → Prog W β}

theorem run_ensure_bind {c : Prop} {_ : Decidable c} {msg : String}
    (h : c) : (ensure c msg >>= g).run s = (g ()).run s :=
  run_bind_ok (by rw [run_ensure, if_pos h])

theorem run_credit_bind {account token : String} {amount : ℕ}
    (h : s.getBalance account token + amount < 2 ^ 64) :
    (credit account token amount >>= g).run s = (g ()).run (s.credited account token amount) :=
  run_bind_ok (by rw [run_credit, if_pos h])

theorem run_debit_bind {account token : String} {amount : ℕ}
    {hw : balanceKey account token ∈ W.pays}
    (h : amount ≤ s.getBalance account token) :
    (debit account token amount hw >>= g).run s = (g ()).run (s.debited account token amount) :=
  run_bind_ok (by rw [run_debit, if_pos h])

theorem run_stateGet_bind (f : Family) (key : String) (g : Option f.Val → Prog W β) :
    (stateGet f key >>= g).run s = (g (s.stateGet f key)).run s := rfl

theorem run_stateScan_bind (f : Family) (pfx : String) (g : _ → Prog W β) :
    (stateScan f pfx >>= g).run s =
      (g ((s.state f).scan (Text.hasPrefix pfx))).run s := rfl

theorem run_stateSet_bind (f : Family) (key : String) (v : f.Val)
    (h : f.guarded = false ∨ f ∈ W.grants) (g : Unit → Prog W β) :
    (stateSet f key v h >>= g).run s = (g ()).run (s.stateSet f key v) := rfl

theorem run_stateDelete_bind (f : Family) (key : String)
    (h : f.guarded = false ∨ f ∈ W.grants) (g : Unit → Prog W β) :
    (stateDelete f key h >>= g).run s = (g ()).run (s.stateDelete f key) := rfl

theorem run_ensureAccount_bind (account : String) (epoch : ℕ) (g : Unit → Prog W β) :
    (ensureAccount account epoch >>= g).run s = (g ()).run (s.withAccount account epoch) := rfl

theorem run_touchAlive_bind (account : String) (epoch : ℕ) (g : Unit → Prog W β) :
    (touchAlive account epoch >>= g).run s = (g ()).run (s.touched account epoch) := rfl

end Run

/-! ### Where the primitives fail -/

section Fails

variable {β : Type} {P : Chain → Prop} {s : Chain}

variable {account token : String} {f : Unit → Prog W β}

theorem failsIn_ensure_bind {c : Prop} [Decidable c] {msg : String} :
    FailsIn P (ensure c msg >>= f) s ↔ if c then FailsIn P (f ()) s else P s := by
  split
  · exact failsIn_bind_of_ok (by rw [run_ensure, if_pos ‹_›])
  · exact failsIn_bind_of_error (by rw [run_ensure, if_neg ‹_›])

theorem failsIn_credit_bind {amount : ℕ} :
    FailsIn P (credit account token amount >>= f) s ↔
      if s.getBalance account token + amount < 2 ^ 64 then
        FailsIn P (f ()) (s.credited account token amount)
      else P s := by
  split
  · exact failsIn_bind_of_ok (by rw [run_credit, if_pos ‹_›])
  · exact failsIn_bind_of_error (by rw [run_credit, if_neg ‹_›])

theorem failsIn_credit {amount : ℕ} :
    FailsIn P (credit account token amount : Prog W Unit) s ↔
      s.getBalance account token + amount < 2 ^ 64 ∨ P s := by
  by_cases h : s.getBalance account token + amount < 2 ^ 64
  · simp only [h, true_or, iff_true]
    exact failsIn_of_ok (by rw [run_credit, if_pos h])
  · simp only [h, false_or]
    exact failsIn_of_error (by rw [run_credit, if_neg h])

theorem failsIn_debit_bind {amount : ℕ} {h : balanceKey account token ∈ W.pays} :
    FailsIn P (debit account token amount h >>= f) s ↔
      if amount ≤ s.getBalance account token then
        FailsIn P (f ()) (s.debited account token amount)
      else P s := by
  split
  · exact failsIn_bind_of_ok (by rw [run_debit, if_pos ‹_›])
  · exact failsIn_bind_of_error (by rw [run_debit, if_neg ‹_›])

end Fails

/-! ### What a success says -/

section Succeeds

variable {β : Type} {b : β} {s s' : Chain}

variable {account token : String} {f : Unit → Prog W β}

theorem ok_ensure_bind {c : Prop} [Decidable c] {msg : String} :
    (ensure c msg >>= f).run s = (.ok b, s') ↔ c ∧ (f ()).run s = (.ok b, s') := by
  by_cases h : c <;> simp [run_bind, h]

theorem ok_credit_bind {amount : ℕ} : (credit account token amount >>= f).run s = (.ok b, s') ↔
      s.getBalance account token + amount < 2 ^ 64 ∧
        (f ()).run (s.credited account token amount) = (.ok b, s') := by
  by_cases hfit : s.getBalance account token + amount < 2 ^ 64
  · rw [run_credit_bind hfit]
    simp only [hfit, true_and]
  · rw [run_bind_error (by rw [run_credit, if_neg hfit])]
    simp only [hfit, false_and, Prod.mk.injEq, reduceCtorEq]

theorem ok_credit {amount : ℕ} : (credit account token amount : Prog W Unit).run s = (.ok (), s') ↔
      s.getBalance account token + amount < 2 ^ 64 ∧ s.credited account token amount = s' := by
  rw [run_credit]
  split <;> simp only [*, true_and, false_and, Prod.mk.injEq, reduceCtorEq]

theorem ok_debit_bind {amount : ℕ} {h : balanceKey account token ∈ W.pays} :
    (debit account token amount h >>= f).run s = (.ok b, s') ↔
      amount ≤ s.getBalance account token ∧
        (f ()).run (s.debited account token amount) = (.ok b, s') := by
  by_cases hcov : amount ≤ s.getBalance account token
  · rw [run_debit_bind hcov]
    simp only [hcov, true_and]
  · rw [run_bind_error (by rw [run_debit, if_neg hcov])]
    simp [hcov]

theorem ok_orBail_bind {o : Option α} {msg : String} {f : α → Prog W β} :
    (orBail o msg >>= f).run s = (.ok b, s') ↔ ∃ a, o = some a ∧ (f a).run s = (.ok b, s') := by
  cases o <;> simp [run_bind]

end Succeeds

/-! ### Families the primitives leave alone -/

section Keeps

variable {f : Family} {s : Chain} {account token : String} {n : ℕ}

theorem keeps_bail (msg : String) : Keeps (·.state f) (bail msg : Prog W α) := keeps_fail

theorem keeps_ensure {c : Prop} [Decidable c] {msg : String} :
    Keeps (·.state f) (ensure c msg : Prog W Unit) := (keeps_pure ()).ite (keeps_bail msg)

theorem keeps_orBail {o : Option α} {msg : String} :
    Keeps (·.state f) (orBail o msg : Prog W α) := by
  cases o with
  | none => exact keeps_bail msg
  | some a => exact keeps_pure a

theorem keeps_when {c : Prop} [Decidable c] {m : Prog W Unit} (h : Keeps (·.state f) m) :
    Keeps (·.state f) (when c m) := h.ite (keeps_pure ())

theorem keeps_credit : Keeps (·.state f) (credit account token n : Prog W Unit) := by
  intro s
  rw [run_credit]
  split <;> rfl

theorem keeps_debit {h : balanceKey account token ∈ W.pays} :
    Keeps (·.state f) (debit account token n h) := by
  intro s
  rw [run_debit]
  split <;> rfl

theorem keeps_setStake (h : account ∈ W.unstakes) :
    Keeps (·.state f) (setStake account n h) := fun _ => rfl

theorem keeps_stateGet {g : Family} {key : String} :
    Keeps (·.state f) (stateGet g key : Prog W _) := keeps_inspect

theorem keeps_stateSet {g : Family} (hne : f ≠ g) (key : String) (v : g.Val)
    (h : g.guarded = false ∨ g ∈ W.grants) : Keeps (·.state f) (stateSet g key v h) :=
  fun s => s.state_stateSet_of_ne hne key v

theorem keeps_stateDelete {g : Family} (hne : f ≠ g) (key : String)
    (h : g.guarded = false ∨ g ∈ W.grants) : Keeps (·.state f) (stateDelete g key h) :=
  fun s => s.state_stateDelete_of_ne hne key

end Keeps

end Prog

/-! ## Nonces -/

namespace Chain

variable (s : Chain)

/-- The nonce the next entry of the account must carry. -/
def expectedNonce (account : String) : ℕ :=
  match s.getAccount account with
  | some r => (r.nonce + 1) % 2 ^ 64
  | none => 1

/-- Advance the nonce of an account that has a record. -/
def bumpNonce (account : String) : Chain :=
  match s.getAccount account with
  | some r => s.setAccount account { r with nonce := (r.nonce + 1) % 2 ^ 64 }
  | none => s

end Chain

namespace Prog

variable {W : Footprint}

/-- The call returned an error and changed nothing. -/
def Refused (s : Chain) (r : Except Fault Unit × Chain) : Prop :=
  ∃ msg, r = (.error (.err msg), s)

section Refusals

variable {α : Type} {s : Chain}

theorem refused_or_ensure (c : Prop) [Decidable c] (msg : String) (f : Unit → Prog W Unit) :
    Refused s ((ensure c msg >>= f).run s) ∨ c ∧ (ensure c msg >>= f).run s = (f ()).run s := by
  by_cases h : c
  · exact .inr ⟨h, run_ensure_bind h⟩
  · exact .inl ⟨msg, Within.run_bind_error (by rw [run_ensure, if_neg h])⟩

theorem refused_or_orBail (o : Option α) (msg : String) (f : α → Prog W Unit) :
    Refused s ((orBail o msg >>= f).run s) ∨
      ∃ a, o = some a ∧ (orBail o msg >>= f).run s = (f a).run s := by
  cases o with
  | none => exact .inl ⟨msg, rfl⟩
  | some a => exact .inr ⟨a, rfl, rfl⟩

theorem refused_or_debit (account token : String) (n : ℕ)
    (h : balanceKey account token ∈ W.pays) (f : Unit → Prog W Unit) :
    Refused s ((debit account token n h >>= f).run s) ∨ n ≤ s.getBalance account token ∧
      (debit account token n h >>= f).run s = (f ()).run (s.debited account token n) := by
  by_cases hle : n ≤ s.getBalance account token
  · exact .inr ⟨hle, run_debit_bind hle⟩
  · exact .inl ⟨_, Within.run_bind_error (by rw [run_debit, if_neg hle])⟩

end Refusals

section Logging

variable {s : Chain}

theorem run_logPrefix_of {enabled : Bool} {text : String} {n : ℕ}
    (h : enabled = true → Text.isBoundary text n = true) :
    (logPrefix enabled text n : Prog W Unit).run s = (.ok (), s) := by
  unfold logPrefix
  cases enabled with
  | false => rfl
  | true =>
    rw [h rfl]
    rfl

/-- Whatever a log line does, it leaves the chain. -/
theorem run_logPrefix_snd (enabled : Bool) (text : String) (n : ℕ) :
    ((logPrefix enabled text n : Prog W Unit).run s).2 = s := by
  unfold logPrefix
  split <;> rfl

theorem isBoundary_of_run_logPrefix {enabled : Bool} {text : String} {n : ℕ}
    (h : ((logPrefix enabled text n : Prog W Unit).run s).1 = .ok ()) (henabled : enabled = true) :
    Text.isBoundary text n = true := by
  unfold logPrefix at h
  split at h
  · cases h
  · next hcut => simpa [henabled] using hcut

end Logging

/-- The submitted nonce must be the expected one. -/
def checkNonce (account : String) (submitted : ℕ) : Prog W Unit := do
  let expected ← Within.inspect (·.expectedNonce account)
  ensure (submitted = expected) s!"invalid nonce: got {submitted}, expected {expected}"

theorem run_checkNonce (s : Chain) (account : String) (submitted : ℕ) :
    (checkNonce account submitted : Prog W Unit).run s =
      if submitted = s.expectedNonce account then (.ok (), s)
      else (.error (.err
        s!"invalid nonce: got {submitted}, expected {s.expectedNonce account}"), s) := by
  unfold checkNonce
  rw [Within.run_inspect_bind, run_ensure]

theorem ok_checkNonce_bind {β : Type} {b : β} {s s' : Chain} {account : String}
    {submitted : ℕ} {f : Unit → Prog W β} :
    (checkNonce account submitted >>= f).run s = (.ok b, s') ↔
      submitted = s.expectedNonce account ∧ (f ()).run s = (.ok b, s') := by
  rw [Within.run_bind, run_checkNonce]
  by_cases h : submitted = s.expectedNonce account <;> simp [h]

theorem failsIn_checkNonce_bind {β : Type} {P : Chain → Prop} {s : Chain} {account : String}
    {submitted : ℕ} {f : Unit → Prog W β} :
    Within.FailsIn P (checkNonce account submitted >>= f) s ↔
      if submitted = s.expectedNonce account then Within.FailsIn P (f ()) s else P s := by
  split
  · exact Within.failsIn_bind_of_ok (by rw [run_checkNonce, if_pos ‹_›])
  · exact Within.failsIn_bind_of_error (by rw [run_checkNonce, if_neg ‹_›])

end Prog

/-! ## Accounts that are noted -/

/-- An account is noted as active or gets a record, and that is all. -/
structure Noted (s t : Chain) : Prop where
  balances : t.balances = s.balances
  state : ∀ f, f ≠ .alive → t.state f = s.state f

theorem noted_refl (s : Chain) : Noted s s := ⟨rfl, fun _ _ => rfl⟩

theorem Noted.withAccount {s t : Chain} (h : Noted s t) (account : String) (epoch : ℕ) :
    Noted s (t.withAccount account epoch) := by
  unfold Chain.withAccount
  split
  · exact h
  · exact ⟨h.balances, h.state⟩

theorem noted_touched (s : Chain) (account : String) (epoch : ℕ) :
    Noted s (s.touched account epoch) := by
  unfold Chain.touched
  split
  · exact ⟨rfl, fun f hf => s.state_stateSet_of_ne hf _ _⟩
  · exact noted_refl s

theorem noted (s : Chain) (account : String) (epoch : ℕ) :
    Noted s ((s.touched account epoch).withAccount account epoch) :=
  (noted_touched s account epoch).withAccount account epoch

section Noting

variable {s t : Chain}

theorem Noted.stateGet {f : Family} (h : Noted s t) (hf : f ≠ .alive) (key : String) :
    t.stateGet f key = s.stateGet f key := Chain.stateGet_of_state (h.state f hf) key

theorem Noted.getBalance (h : Noted s t) (account token : String) :
    t.getBalance account token = s.getBalance account token := by
  unfold Chain.getBalance
  rw [h.balances]

theorem Noted.debited (h : Noted s t) (account token : String) (n : ℕ) :
    Noted (s.debited account token n) (t.debited account token n) where
  balances := by
    unfold Chain.debited
    rw [h.getBalance, Chain.setBalance_balances, Chain.setBalance_balances, h.balances]
  state := h.state

end Noting

/-- All balance rows of an account. -/
def rowsOf (account : String) : Set String := { k | ∃ token, k = balanceKey account token }

@[simp] theorem balanceKey_mem_rowsOf (account token : String) :
    balanceKey account token ∈ rowsOf account := ⟨token, rfl⟩

end HoneNode
