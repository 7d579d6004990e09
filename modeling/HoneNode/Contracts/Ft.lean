import HoneNode.Contracts.Tables
import HoneNode.Json
import HoneNode.Lib.Totals
import HoneNode.Lib.Trace

/-!
# Contracts.Ft — the token contract

The token of BSP-20: balances and allowances in two maps, the supply and what
describes the token in the state. Amounts come as text and have 128 bits; what is
added wraps round.

1. **The contract**, method by method, and the dispatch of a call.
2. **The ledger** it stands for, and what a call makes and shows of a ledger.
3. **Calls** do to the storage what they do to the ledger (`Holds.simulates`), and
   so do runs (`token_is_ledger`).
4. **Supply**: as long as the token is not made anew, the balances add up to the
   supply (`balances_make_supply`).
5. **Allowances**: what others take from an account that signs nothing is what it
   has allowed them (`taken_is_allowed`).
-/

namespace HoneNode.Contracts.Ft

open Borsh Sdk Totals Trace

/-! ## The contract -/

abbrev Amount := Fin (2 ^ 128)

structure FtMetadata where
  (name symbol : String)
  decimals : UInt8
  icon : Option String := none
  reference : Option String := none
deriving DecidableEq, Repr

structure FungibleToken where
  metadata : FtMetadata
  totalSupply : Amount
  accounts : LookupMap String Amount
  allowances : LookupMap (String × String) Amount
deriving DecidableEq, Repr

instance : Borsh FtMetadata :=
  Borsh.via (fun d => (d.name, d.symbol, d.decimals, d.icon, d.reference))
    (fun p => ⟨p.1, p.2.1, p.2.2.1, p.2.2.2.1, p.2.2.2.2⟩) fun _ => rfl

instance : Borsh FungibleToken :=
  Borsh.via (fun t => (t.metadata, t.totalSupply, t.accounts, t.allowances))
    (fun p => ⟨p.1, p.2.1, p.2.2.1, p.2.2.2⟩) fun _ => rfl

/-- `amount.parse().unwrap_or(0)`. -/
def amountOf (s : String) : Amount := Fin.ofNat _ ((Text.parseNat (2 ^ 128) s).getD 0)

def showAmount (amount : Amount) : String := toString amount.val

def new (signer name symbol : String) (decimals : UInt8) (totalSupply : String) :
    Code FungibleToken := do
  let accounts : LookupMap String Amount := ⟨Text.bytes "a"⟩
  accounts.insert signer (amountOf totalSupply)
  return ⟨⟨name, symbol, decimals, none, none⟩, amountOf totalSupply, accounts, ⟨Text.bytes "l"⟩⟩

section Methods

variable (t : FungibleToken)

/-- `self.accounts.get(&account).unwrap_or(0)`. -/
def balance (account : String) : Code Amount := do return (← t.accounts.get account).getD 0

/-- `self.allowances.get(&(owner, spender)).unwrap_or(0)`. -/
def allowance (owner spender : String) : Code Amount := do
  return (← t.allowances.get (owner, spender)).getD 0

def ftTransfer (signer receiverId amount : String) : Code Unit := do
  let amount := amountOf amount
  Code.require (0 < amount)
  let senderBalance ← balance t signer
  Code.require (amount ≤ senderBalance)
  t.accounts.insert signer (senderBalance - amount)
  let receiverBalance ← balance t receiverId
  t.accounts.insert receiverId (receiverBalance + amount)

/-- The call of the receiver is a stub of the host. -/
def ftTransferCall (signer receiverId amount : String) : Code String := do
  ftTransfer t signer receiverId amount
  return amount

def approve (signer spender amount : String) : Code Unit :=
  t.allowances.insert (signer, spender) (amountOf amount)

def transferFrom (signer owner receiver amount : String) : Code Unit := do
  let amount := amountOf amount
  let allowed ← allowance t owner signer
  Code.require (amount ≤ allowed)
  let ownerBalance ← balance t owner
  Code.require (amount ≤ ownerBalance)
  t.allowances.insert (owner, signer) (allowed - amount)
  t.accounts.insert owner (ownerBalance - amount)
  let receiverBalance ← balance t receiver
  t.accounts.insert receiver (receiverBalance + amount)

end Methods

/-- What a call returns. -/
inductive Shown where
  | nothing
  | text (value : String)
  | metadata (value : FtMetadata)
deriving DecidableEq, Repr

structure Call where
  (signer method : String)
  args : Json

/-- `from_value(__args[name].clone()).unwrap_or_default()` of a text. -/
def Call.arg (c : Call) (name : String) : String := (c.args.index name).asStr.getD ""

/-- The same of a byte. -/
def Call.byte (c : Call) (name : String) : UInt8 :=
  UInt8.ofNat (((c.args.index name).asU64.filter (· < 256)).getD 0)

/-- `__hone_dispatch`. -/
def dispatch (c : Call) : Code Shown :=
  match c.method with
  | "new" => do
    save (← new c.signer (c.arg "name") (c.arg "symbol") (c.byte "decimals")
      (c.arg "total_supply"))
    return .nothing
  | "ft_transfer" => change fun t => do
    ftTransfer t c.signer (c.arg "receiver_id") (c.arg "amount")
    return (t, .nothing)
  | "ft_transfer_call" => change fun t => do
    return (t, .text (← ftTransferCall t c.signer (c.arg "receiver_id") (c.arg "amount")))
  | "approve" => change fun t => do
    approve t c.signer (c.arg "spender") (c.arg "amount")
    return (t, .nothing)
  | "transfer_from" => change fun t => do
    transferFrom t c.signer (c.arg "owner") (c.arg "receiver") (c.arg "amount")
    return (t, .nothing)
  | "ft_total_supply" => view fun t : FungibleToken => return .text (showAmount t.totalSupply)
  | "ft_balance_of" => view fun t => do
    return .text (showAmount (← balance t (c.arg "account_id")))
  | "ft_metadata" => view fun t : FungibleToken => return .metadata t.metadata
  | "allowance" => view fun t => do
    return .text (showAmount (← allowance t (c.arg "owner") (c.arg "spender")))
  | _ => Code.panic

def answer (m : ByteMap) (c : Call) : Option Shown := Sdk.answer (dispatch c) m

def step (m : ByteMap) (c : Call) : ByteMap := after (dispatch c) m

/-- The contract from its deployment on: the storage has its code, and `new` has run. -/
def token (wasm : Bytes) (first : Call) : Component ByteMap Call where
  init m := first.method = "new" ∧ (answer (deployed wasm) first).isSome = true ∧
    m = step (deployed wasm) first
  step := step

/-! ## The ledger -/

structure Ledger where
  metadata : FtMetadata
  supply : Amount
  balance : String → Amount
  allowance : String × String → Amount

namespace Ledger

variable (L : Ledger)

def setBalance (account : String) (amount : Amount) : Ledger :=
  { L with balance := Function.update L.balance account amount }

def setAllowance (owner spender : String) (amount : Amount) : Ledger :=
  { L with allowance := Function.update L.allowance (owner, spender) amount }

def move (src dst : String) (amount : Amount) : Ledger :=
  let taken := L.setBalance src (L.balance src - amount)
  taken.setBalance dst (taken.balance dst + amount)

/-- The state of the contract. -/
def contract : FungibleToken := ⟨L.metadata, L.supply, ⟨Text.bytes "a"⟩, ⟨Text.bytes "l"⟩⟩

end Ledger

/-- Text that can be stored. -/
def Fits (s : String) : Prop := (Text.bytes s).length < 2 ^ 32

instance (s : String) : Decidable (Fits s) := inferInstanceAs (Decidable (_ < _))

namespace Call

variable (c : Call)

def amount : Amount := amountOf (c.arg "amount")

/-- The token that is made. -/
def made (L : Ledger) : Ledger :=
  { L with
    metadata := ⟨c.arg "name", c.arg "symbol", c.byte "decimals", none, none⟩
    supply := amountOf (c.arg "total_supply")
    balance := Function.update L.balance c.signer (amountOf (c.arg "total_supply")) }

/-- What the ledger and the lengths of the names ask of a call. -/
def Accepted (L : Ledger) : Prop :=
  match c.method with
  | "new" => Fits c.signer ∧ Fits (c.arg "name") ∧ Fits (c.arg "symbol")
  | "ft_transfer" | "ft_transfer_call" =>
    (0 < c.amount ∧ c.amount ≤ L.balance c.signer) ∧ Fits c.signer ∧ Fits (c.arg "receiver_id")
  | "approve" => Fits c.signer ∧ Fits (c.arg "spender")
  | "transfer_from" =>
    (c.amount ≤ L.allowance (c.arg "owner", c.signer) ∧ c.amount ≤ L.balance (c.arg "owner")) ∧
      Fits c.signer ∧ Fits (c.arg "owner") ∧ Fits (c.arg "receiver")
  | "ft_balance_of" => Fits (c.arg "account_id")
  | "allowance" => Fits (c.arg "owner") ∧ Fits (c.arg "spender")
  | "ft_total_supply" | "ft_metadata" => True
  | _ => False

instance (L : Ledger) : Decidable (c.Accepted L) := by
  unfold Accepted
  split <;> infer_instance

/-- What an accepted call makes of the ledger. -/
def onLedger (L : Ledger) : Ledger :=
  match c.method with
  | "new" => c.made L
  | "ft_transfer" | "ft_transfer_call" => L.move c.signer (c.arg "receiver_id") c.amount
  | "approve" => L.setAllowance c.signer (c.arg "spender") c.amount
  | "transfer_from" =>
    (L.setAllowance (c.arg "owner") c.signer
      (L.allowance (c.arg "owner", c.signer) - c.amount)).move (c.arg "owner") (c.arg "receiver")
        c.amount
  | _ => L

/-- What an accepted call shows. -/
def shown (L : Ledger) : Shown :=
  match c.method with
  | "ft_transfer_call" => .text (c.arg "amount")
  | "ft_total_supply" => .text (showAmount L.supply)
  | "ft_balance_of" => .text (showAmount (L.balance (c.arg "account_id")))
  | "ft_metadata" => .metadata L.metadata
  | "allowance" => .text (showAmount (L.allowance (c.arg "owner", c.arg "spender")))
  | _ => .nothing

end Call

/-- The ledger after the calls of a run. -/
def ledgerOf (start : Ledger) : List (ByteMap × Call) → Ledger
  | [] => start
  | (_, c) :: hist =>
    if c.Accepted (ledgerOf start hist) then c.onLedger (ledgerOf start hist)
    else ledgerOf start hist

theorem ledgerOf_cons (start : Ledger) (s : ByteMap) (c : Call) (hist : List (ByteMap × Call)) :
    ledgerOf start ((s, c) :: hist) =
      if c.Accepted (ledgerOf start hist) then c.onLedger (ledgerOf start hist)
      else ledgerOf start hist := rfl

/-- The ledger of a contract that `first` has made. -/
def firstLedger (first : Call) : Ledger :=
  first.made ⟨⟨"", "", 0, none, none⟩, 0, fun _ => 0, fun _ => 0⟩

/-! ## The storage and the ledger -/

/-- The maps have what the ledger has. -/
structure Mapped (read : Bytes → Option Bytes) (L : Ledger) : Prop where
  balances : SeesOr 0 read L.contract.accounts L.balance
  allowances : SeesOr 0 read L.contract.allowances L.allowance

/-- What is read is the ledger. -/
structure Holds (read : Bytes → Option Bytes) (L : Ledger) : Prop extends Mapped read L where
  state : ∃ bytes, serialize L.contract = some bytes ∧ read stateKey = some bytes

section Holds

variable {st : StorageKv} {m : ByteMap} {L : Ledger} {F : Prop} {account owner spender : String}
  {amount : Amount}

theorem fits_iff {s : String} : Fits s ↔ ∃ raw, serialize s = some raw := by
  constructor
  · intro h
    exact ⟨_, serialize_string h⟩
  · rintro ⟨raw, hraw⟩
    by_contra h
    rw [serialize_string_eq_none h] at hraw
    cases hraw

theorem not_fits {s : String} (h : serialize s = none) : ¬ Fits s := by
  intro hfits
  obtain ⟨raw, hraw⟩ := fits_iff.1 hfits
  cases h.symm.trans hraw

theorem fits_pair_iff {a b : String} : (Fits a ∧ Fits b) ↔ ∃ raw, serialize (a, b) = some raw := by
  constructor
  · rintro ⟨ha, hb⟩
    obtain ⟨raw, hraw⟩ := fits_iff.1 ha
    obtain ⟨raw', hraw'⟩ := fits_iff.1 hb
    exact ⟨raw ++ raw', serialize_pair hraw hraw'⟩
  · rintro ⟨raw, hraw⟩
    obtain ⟨first, second, hfirst, hsecond, -⟩ := serialize_pair_eq_some hraw
    exact ⟨fits_iff.2 ⟨first, hfirst⟩, fits_iff.2 ⟨second, hsecond⟩⟩

theorem serialize_amount (amount : Amount) : ∃ bytes, serialize amount = some bytes :=
  ⟨_, writeWord_of_lt amount.isLt⟩

theorem keyPrefix_accounts (L : Ledger) : L.contract.accounts.keyPrefix = [97] := by
  show Text.bytes "a" = [97]
  decide

theorem keyPrefix_allowances (L : Ledger) : L.contract.allowances.keyPrefix = [108] := by
  show Text.bytes "l" = [108]
  decide

variable {raw bytes : Bytes}

theorem Mapped.setBalance (h : Mapped st.read L)
    (hkey : serialize account = some raw) (hbytes : serialize amount = some bytes) :
    Mapped (st.write (L.contract.accounts.keyPrefix ++ raw) bytes).read
      (L.setBalance account amount) where
  balances := h.balances.insert hkey hbytes
  allowances := h.allowances.write
    (prefix_ne (keyPrefix_accounts L) (keyPrefix_allowances L) (by decide) raw) bytes

theorem Holds.setBalance (h : Holds st.read L)
    (hkey : serialize account = some raw) (hbytes : serialize amount = some bytes) :
    Holds (st.write (L.contract.accounts.keyPrefix ++ raw) bytes).read
      (L.setBalance account amount) where
  toMapped := h.toMapped.setBalance hkey hbytes
  state := by
    obtain ⟨written, hwritten, hread⟩ := h.state
    refine ⟨written, hwritten, ?_⟩
    rw [read_write (stateKey_ne (keyPrefix_accounts L) (by decide) raw).symm, hread]

theorem Holds.setAllowance (h : Holds st.read L)
    (hkey : serialize (owner, spender) = some raw) (hbytes : serialize amount = some bytes) :
    Holds (st.write (L.contract.allowances.keyPrefix ++ raw) bytes).read
      (L.setAllowance owner spender amount) where
  balances := h.balances.write
    (prefix_ne (keyPrefix_allowances L) (keyPrefix_accounts L) (by decide) raw) bytes
  allowances := h.allowances.insert hkey hbytes
  state := by
    obtain ⟨written, hwritten, hread⟩ := h.state
    refine ⟨written, hwritten, ?_⟩
    rw [read_write (stateKey_ne (keyPrefix_allowances L) (by decide) raw).symm, hread]

/-- Writing a state writes what describes the token and the supply. -/
theorem Mapped.save {bytes : Bytes} (h : Mapped st.read L)
    (hbytes : serialize L.contract = some bytes) : Holds (st.write stateKey bytes).read L where
  balances := h.balances.write (stateKey_ne (keyPrefix_accounts L) (by decide)) bytes
  allowances := h.allowances.write (stateKey_ne (keyPrefix_allowances L) (by decide)) bytes
  state := ⟨bytes, hbytes, read_write_self⟩

/-! ### Methods -/

theorem ends_balance (h : Holds st.read L) {Q : Amount → StorageKv → Prop}
    (hno : ¬ Fits account → F) (hQ : Fits account → Q (L.balance account) st) :
    Ends (balance L.contract account) st F Q :=
  ends_getD h.balances (fun hnone => hno (not_fits hnone))
    fun raw hraw => hQ (fits_iff.2 ⟨raw, hraw⟩)

theorem ends_allowance (h : Holds st.read L) {Q : Amount → StorageKv → Prop}
    (hno : ¬ (Fits owner ∧ Fits spender) → F)
    (hQ : Fits owner ∧ Fits spender → Q (L.allowance (owner, spender)) st) :
    Ends (allowance L.contract owner spender) st F Q := by
  refine ends_getD h.allowances (fun hnone => hno fun hfits => ?_)
    fun raw hraw => hQ (fits_pair_iff.2 ⟨raw, hraw⟩)
  obtain ⟨raw, hraw⟩ := fits_pair_iff.1 hfits
  cases hnone.symm.trans hraw

theorem ends_setBalance (h : Holds st.read L) {Q : Unit → StorageKv → Prop}
    (hno : ¬ Fits account → F)
    (hQ : Fits account → ∀ st' : StorageKv, Holds st'.read (L.setBalance account amount) →
      Q () st') :
    Ends (L.contract.accounts.insert account amount) st F Q := by
  refine ends_insert (fun hnone => hno (not_fits hnone)) (fun hnone => ?_)
    fun raw bytes hraw hbytes => hQ (fits_iff.2 ⟨raw, hraw⟩) _ (h.setBalance hraw hbytes)
  obtain ⟨bytes, hbytes⟩ := serialize_amount amount
  cases hnone.symm.trans hbytes

theorem ends_setAllowance (h : Holds st.read L) {Q : Unit → StorageKv → Prop}
    (hno : ¬ (Fits owner ∧ Fits spender) → F)
    (hQ : Fits owner ∧ Fits spender → ∀ st' : StorageKv,
      Holds st'.read (L.setAllowance owner spender amount) → Q () st') :
    Ends (L.contract.allowances.insert (owner, spender) amount) st F Q := by
  refine ends_insert (fun hnone => hno fun hfits => ?_) (fun hnone => ?_)
    fun raw bytes hraw hbytes => hQ (fits_pair_iff.2 ⟨raw, hraw⟩) _ (h.setAllowance hraw hbytes)
  · obtain ⟨raw, hraw⟩ := fits_pair_iff.1 hfits
    cases hnone.symm.trans hraw
  · obtain ⟨bytes, hbytes⟩ := serialize_amount amount
    cases hnone.symm.trans hbytes

variable {signer receiver text src dst : String} {Q : Unit → StorageKv → Prop}

theorem ends_move (h : Holds st.read L) (hno : ¬ (Fits src ∧ Fits dst) → F)
    (hQ : Fits src ∧ Fits dst → ∀ st' : StorageKv, Holds st'.read (L.move src dst amount) →
      Q () st') :
    Ends (do
      L.contract.accounts.insert src (L.balance src - amount)
      let held ← balance L.contract dst
      L.contract.accounts.insert dst (held + amount)) st F Q := by
  refine Ends.bind (ends_setBalance h (fun hsrc => hno fun hfits => hsrc hfits.1) ?_)
  intro hsrc st₁ h₁
  have hdst : ¬ Fits dst → F := fun hdst => hno fun hfits => hdst hfits.2
  exact Ends.bind (ends_balance h₁ hdst fun _ => ends_setBalance h₁ hdst fun hto => hQ ⟨hsrc, hto⟩)

theorem ends_ftTransfer (h : Holds st.read L)
    (hno : ¬ ((0 < amountOf text ∧ amountOf text ≤ L.balance signer) ∧
      Fits signer ∧ Fits receiver) → F)
    (hQ : ((0 < amountOf text ∧ amountOf text ≤ L.balance signer) ∧
      Fits signer ∧ Fits receiver) → ∀ st' : StorageKv,
      Holds st'.read (L.move signer receiver (amountOf text)) → Q () st') :
    Ends (ftTransfer L.contract signer receiver text) st F Q := by
  refine Ends.bind (ends_require (fun hpos => hno fun hall => hpos hall.1.1) fun hpos => ?_)
  refine Ends.bind (ends_balance h (fun hfits => hno fun hall => hfits hall.2.1) fun _ => ?_)
  refine Ends.bind (ends_require (fun hle => hno fun hall => hle hall.1.2) fun hle => ?_)
  exact ends_move h (fun hfits => hno fun hall => hfits hall.2) fun hfits => hQ ⟨⟨hpos, hle⟩, hfits⟩

theorem ends_transferFrom (h : Holds st.read L)
    (hno : ¬ ((amountOf text ≤ L.allowance (owner, signer) ∧ amountOf text ≤ L.balance owner) ∧
      Fits signer ∧ Fits owner ∧ Fits receiver) → F)
    (hQ : ((amountOf text ≤ L.allowance (owner, signer) ∧ amountOf text ≤ L.balance owner) ∧
      Fits signer ∧ Fits owner ∧ Fits receiver) → ∀ st' : StorageKv,
      Holds st'.read ((L.setAllowance owner signer
        (L.allowance (owner, signer) - amountOf text)).move owner receiver (amountOf text)) →
          Q () st') :
    Ends (transferFrom L.contract signer owner receiver text) st F Q := by
  have hpair : ¬ (Fits owner ∧ Fits signer) → F :=
    fun hfits => hno fun hall => hfits ⟨hall.2.2.1, hall.2.1⟩
  refine Ends.bind (ends_allowance h hpair fun hnames => ?_)
  refine Ends.bind (ends_require (fun hle => hno fun hall => hle hall.1.1) fun hallowed => ?_)
  refine Ends.bind (ends_balance h (fun hfits => hno fun hall => hfits hall.2.2.1) fun _ => ?_)
  refine Ends.bind (ends_require (fun hle => hno fun hall => hle hall.1.2) fun hheld => ?_)
  refine Ends.bind (ends_setAllowance h hpair fun _ st₁ h₁ => ?_)
  have hmoved : Ends _ st₁ F Q :=
    ends_move h₁ (fun hfits => hno fun hall => hfits hall.2.2)
      fun hfits => hQ ⟨⟨hallowed, hheld⟩, hnames.2, hfits⟩
  exact hmoved

end Holds

/-! ### Calls -/

section Calls

variable {st : StorageKv} {m : ByteMap} {L : Ledger} {c : Call}

/-- An accepted call shows what it does of the ledger and leaves what it makes of the ledger, and
any other call fails. -/
def Simulates (m : ByteMap) (L : Ledger) (c : Call) : Prop :=
  (c.Accepted L ∧ answer m c = some (c.shown L) ∧ Holds (step m c).lookup (c.onLedger L)) ∨
    (¬ c.Accepted L ∧ answer m c = none ∧ step m c = m)

theorem serialize_made_iff (c : Call) (L : Ledger) :
    (∃ bytes, serialize (c.made L).contract = some bytes) ↔
      Fits (c.arg "name") ∧ Fits (c.arg "symbol") := by
  constructor
  · rintro ⟨bytes, hbytes⟩
    obtain ⟨metadata, _, hmetadata, -⟩ := serialize_pair_eq_some hbytes
    obtain ⟨name, _, hname, hrest, -⟩ := serialize_pair_eq_some hmetadata
    obtain ⟨symbol, _, hsymbol, -⟩ := serialize_pair_eq_some hrest
    exact ⟨fits_iff.2 ⟨name, hname⟩, fits_iff.2 ⟨symbol, hsymbol⟩⟩
  · rintro ⟨hname, hsymbol⟩
    obtain ⟨name, hname⟩ := fits_iff.1 hname
    obtain ⟨symbol, hsymbol⟩ := fits_iff.1 hsymbol
    obtain ⟨supply, hsupply⟩ := serialize_amount (amountOf (c.arg "total_supply"))
    have hmetadata := serialize_pair hname (serialize_pair hsymbol
      (rfl : serialize (c.byte "decimals", (none : Option String), (none : Option String)) = _))
    exact ⟨_, serialize_pair hmetadata (serialize_pair hsupply
      (rfl : serialize (L.contract.accounts, L.contract.allowances) = _))⟩

/-- What a call is to do if it comes to its end. -/
def Done (c : Call) (L : Ledger) (shown : Shown) (st : StorageKv) : Prop :=
  c.Accepted L ∧ shown = c.shown L ∧ Holds st.read (c.onLedger L)

theorem Mapped.ends_new (h : Mapped st.read L) (signer : String) (args : Json) :
    Ends (dispatch ⟨signer, "new", args⟩) st (¬ Call.Accepted ⟨signer, "new", args⟩ L)
      (Done ⟨signer, "new", args⟩ L) := by
  let c : Call := ⟨signer, "new", args⟩
  have hinsert : Ends (L.contract.accounts.insert signer (amountOf (c.arg "total_supply"))) st
      (¬ c.Accepted L) fun _ st' => Fits signer ∧ Mapped st'.read (c.made L) := by
    refine ends_insert (fun hnone hall => not_fits hnone hall.1) (fun hnone => ?_)
      fun raw bytes hraw hbytes => ⟨fits_iff.2 ⟨raw, hraw⟩, ?_⟩
    · obtain ⟨bytes, hbytes⟩ := serialize_amount (amountOf (c.arg "total_supply"))
      cases hnone.symm.trans hbytes
    · have hset := h.setBalance hraw hbytes
      exact ⟨hset.balances, hset.allowances⟩
  refine Ends.bind (Ends.bind ?_)
  rcases hinsert with hfails | ⟨u, ops, hrun, hops, hsigner, hmapped⟩
  · exact .inl hfails
  · refine ends_of_runs hrun hops (ends_pure (Ends.bind (ends_save (fun hnone hall => ?_)
      fun bytes hbytes => ends_pure ⟨⟨hsigner, ?_⟩, rfl, hmapped.save hbytes⟩)))
    · obtain ⟨bytes, hbytes⟩ := (serialize_made_iff c L).2 hall.2
      cases hnone.symm.trans hbytes
    · exact (serialize_made_iff c L).1 ⟨bytes, hbytes⟩

/-- A method that changes only what the maps hold. -/
theorem Holds.ends_change (h : Holds st.read L) {F : Prop} {Q : Shown → StorageKv → Prop}
    {method : FungibleToken → Code (FungibleToken × Shown)}
    (hmethod : Ends (method L.contract) st F fun r st' => r.1 = L.contract ∧
      ∀ bytes, serialize L.contract = some bytes → Q r.2 (st'.write stateKey bytes)) :
    Ends (change method) st F Q := by
  obtain ⟨bytes, hbytes, hread⟩ := h.state
  refine Sdk.ends_change hread hbytes ?_
  rcases hmethod with hfails | ⟨r, ops, hrun, hops, hsame, hq⟩
  · exact .inl hfails
  · refine ends_of_runs hrun hops ⟨fun hnone => ?_, ?_⟩
    · rw [hsame, hbytes] at hnone
      cases hnone
    · rw [hsame]
      exact hq

theorem Holds.ends_view (h : Holds st.read L) {F : Prop} {Q : Shown → StorageKv → Prop}
    {method : FungibleToken → Code Shown} (hmethod : Ends (method L.contract) st F Q) :
    Ends (view method) st F Q := by
  obtain ⟨bytes, hbytes, hread⟩ := h.state
  exact Sdk.ends_view hread hbytes hmethod

def methods : List String :=
  ["new", "ft_transfer", "ft_transfer_call", "approve", "transfer_from", "ft_total_supply",
    "ft_balance_of", "ft_metadata", "allowance"]

/-- A call of a method that there is not. -/
theorem panics_dispatch (hmethod : c.method ∉ methods) (st : StorageKv) :
    Code.Panics (dispatch c) st ∧ ¬ c.Accepted L := by
  obtain ⟨signer, method, args⟩ := c
  simp only [methods, List.mem_cons, List.not_mem_nil, or_false, not_or] at hmethod
  obtain ⟨h₁, h₂, h₃, h₄, h₅, h₆, h₇, h₈, h₉⟩ := hmethod
  constructor
  · unfold dispatch
    split <;> first | contradiction | rfl
  · unfold Call.Accepted
    split <;> first | contradiction | exact id

theorem Holds.ends_dispatch (h : Holds st.read L) (c : Call) :
    Ends (dispatch c) st (¬ c.Accepted L) (Done c L) := by
  by_cases hmethod : c.method ∈ methods
  swap
  · exact .inl (panics_dispatch hmethod st)
  obtain ⟨signer, method, args⟩ := c
  simp only [methods, List.mem_cons, List.not_mem_nil, or_false] at hmethod
  rcases hmethod with rfl | rfl | rfl | rfl | rfl | rfl | rfl | rfl | rfl
  · exact h.ends_new signer args
  · refine h.ends_change (Ends.bind (ends_ftTransfer h id fun hall st' h' => ends_pure ⟨rfl, ?_⟩))
    intro bytes hbytes
    exact ⟨hall, rfl, h'.save hbytes⟩
  · refine h.ends_change (Ends.bind (Ends.bind (ends_ftTransfer h id fun hall st' h' =>
      ends_pure (ends_pure ⟨rfl, ?_⟩))))
    intro bytes hbytes
    exact ⟨hall, rfl, h'.save hbytes⟩
  · refine h.ends_change (Ends.bind (ends_setAllowance h id fun hall st' h' => ends_pure ⟨rfl, ?_⟩))
    intro bytes hbytes
    exact ⟨hall, rfl, h'.save hbytes⟩
  · refine h.ends_change (Ends.bind (ends_transferFrom h id fun hall st' h' => ends_pure ⟨rfl, ?_⟩))
    intro bytes hbytes
    exact ⟨hall, rfl, h'.save hbytes⟩
  · exact h.ends_view (ends_pure ⟨trivial, rfl, h⟩)
  · exact h.ends_view (Ends.bind (ends_balance h id fun hfits => ends_pure ⟨hfits, rfl, h⟩))
  · exact h.ends_view (ends_pure ⟨trivial, rfl, h⟩)
  · exact h.ends_view (Ends.bind (ends_allowance h id fun hfits => ends_pure ⟨hfits, rfl, h⟩))

theorem simulates_of_ends (h : Ends (dispatch c) (StorageKv.fresh m) (¬ c.Accepted L) (Done c L)) :
    Simulates m L c := by
  rcases h.after with ⟨hno, hnone, hsame⟩ | ⟨a, st', ⟨haccepted, rfl, hholds⟩, hanswer, hread⟩
  · exact .inr ⟨hno, hnone, hsame⟩
  · exact .inl ⟨haccepted, hanswer, hread.symm ▸ hholds⟩

theorem Holds.simulates (h : Holds m.lookup L) (c : Call) : Simulates m L c := by
  have hread : (StorageKv.fresh m).read = m.lookup := funext (read_fresh m)
  exact simulates_of_ends (Holds.ends_dispatch (hread.symm ▸ h) c)

theorem Holds.answers (h : Holds m.lookup L) (c : Call) :
    Ft.answer m c = if c.Accepted L then some (c.shown L) else none := by
  rcases h.simulates c with ⟨haccepted, hanswer, -⟩ | ⟨hrefused, hnone, -⟩
  · rw [if_pos haccepted, hanswer]
  · rw [if_neg hrefused, hnone]

theorem Holds.shows (h : Holds m.lookup L) (haccepted : c.Accepted L) :
    Ft.answer m c = some (c.shown L) := by rw [h.answers, if_pos haccepted]

theorem Holds.step (h : Holds m.lookup L) (c : Call) :
    Holds (Ft.step m c).lookup (if c.Accepted L then c.onLedger L else L) := by
  rcases h.simulates c with ⟨haccepted, -, hholds⟩ | ⟨hrefused, -, hsame⟩
  · rwa [if_pos haccepted]
  · rwa [if_neg hrefused, hsame]

end Calls

/-! ## Runs -/

section Runs

variable {wasm : Bytes} {first : Call} {P : ByteMap → Call → Prop} {hist : List (ByteMap × Call)}
  {m : ByteMap}

/-- A contract that is only deployed has nothing in its maps. -/
theorem mapped_deployed (wasm : Bytes) : Mapped (StorageKv.fresh (deployed wasm)).read
    ⟨⟨"", "", 0, none, none⟩, 0, fun _ => 0, fun _ => 0⟩ where
  balances := seesOr_deployed (keyPrefix_accounts _) (by decide) 0
  allowances := seesOr_deployed (keyPrefix_allowances _) (by decide) 0

theorem holds_init (h : (token wasm first).init m) : Holds m.lookup (firstLedger first) := by
  obtain ⟨hnew, hsome, rfl⟩ := h
  obtain ⟨signer, method, args⟩ := first
  cases hnew
  rcases simulates_of_ends ((mapped_deployed wasm).ends_new signer args) with
    ⟨-, -, hholds⟩ | ⟨-, hnone, -⟩
  · exact hholds
  · rw [hnone] at hsome
    cases hsome

theorem holds_run (h : Run (token wasm first) P hist m) :
    Holds m.lookup (ledgerOf (firstLedger first) hist) := by
  induction h with
  | start h => exact holds_init h
  | step c _ _ ih => exact ih.step c
  | other _ hs ih =>
    cases hs
    exact ih

/-- The token is a ledger: each call of a run has shown what it does of the ledger of the calls
before it, if the ledger accepts it, and has failed if not; and the next call will. -/
theorem token_is_ledger (h : Run (token wasm first) P hist m) :
    (∀ c : Call, answer m c = if c.Accepted (ledgerOf (firstLedger first) hist) then
        some (c.shown (ledgerOf (firstLedger first) hist)) else none) ∧
      ∀ later s c earlier, hist = later ++ (s, c) :: earlier →
        answer s c = if c.Accepted (ledgerOf (firstLedger first) earlier) then
          some (c.shown (ledgerOf (firstLedger first) earlier)) else none := by
  refine ⟨(holds_run h).answers, ?_⟩
  rintro later s c earlier rfl
  exact (holds_run h.cut.1).answers c

/-! ### A token of a hundred -/

def hundred : Call :=
  ⟨"alice", "new", .obj [("name", .str "Hundred"), ("symbol", .str "HUN"), ("decimals", .num 2),
    ("total_supply", .str "100")]⟩

def spending : List Call :=
  [⟨"alice", "ft_transfer", .obj [("receiver_id", .str "bob"), ("amount", .str "30")]⟩,
    ⟨"alice", "approve", .obj [("spender", .str "carol"), ("amount", .str "20")]⟩,
    ⟨"carol", "transfer_from", .obj [("owner", .str "alice"), ("receiver", .str "dave"),
      ("amount", .str "15")]⟩]

theorem run_hundred (P : ByteMap → Call → Prop)
    (h : Legal (token [1] hundred) P (step (deployed [1]) hundred) spending) :
    Run (token [1] hundred) P
      ((token [1] hundred).record (step (deployed [1]) hundred) spending [])
      ((token [1] hundred).exec (step (deployed [1]) hundred) spending) := by
  have hmade : (answer (deployed [1]) hundred).isSome = true := by decide +kernel
  exact Run.exec (.start ⟨rfl, hmade, rfl⟩) h

theorem token_is_ledger_hundred :
    answer ((token [1] hundred).exec (step (deployed [1]) hundred) spending)
      ⟨"erin", "ft_balance_of", .obj [("account_id", .str "alice")]⟩ = some (.text "55") := by
  have hrun := run_hundred (fun _ _ => True) (legal_true _ _)
  exact ((token_is_ledger hrun).1 _).trans (by decide +kernel)

end Runs

/-! ## Supply -/

namespace Ledger

variable {L : Ledger}

def held (L : Ledger) (account : String) : ℕ := (L.balance account).val

theorem held_setBalance (account : String) (amount : Amount) :
    (L.setBalance account amount).held = Function.update L.held account amount.val := by
  funext a
  unfold held setBalance
  by_cases ha : a = account
  · subst ha
    simp
  · simp [ha]

/-- The balances add up to the supply. -/
def Sound (L : Ledger) : Prop := Total L.held L.supply.val

/-- What is moved neither wraps round nor is lost. -/
theorem Sound.held_move (h : L.Sound) {src : String} (dst : String) {amount : Amount}
    (hle : amount ≤ L.balance src) :
    (L.move src dst amount).held = Totals.move L.held src dst amount.val := by
  have hle' : amount.val ≤ L.held src := hle
  have htaken : (L.balance src - amount).val = L.held src - amount.val := Fin.sub_val_of_le hle
  have hroom := (h.move_le hle' dst).trans_lt L.supply.isLt
  have hfrom : (L.setBalance src (L.balance src - amount)).held =
      Function.update L.held src (L.held src - amount.val) := by rw [held_setBalance, htaken]
  have hput : ((L.setBalance src (L.balance src - amount)).balance dst + amount).val =
      Function.update L.held src (L.held src - amount.val) dst + amount.val := by
    rw [← hfrom] at hroom ⊢
    rw [Fin.val_add]
    exact Nat.mod_eq_of_lt hroom
  show (Ledger.setBalance _ dst _).held = _
  rw [held_setBalance, hfrom, hput]
  rfl

theorem Sound.move (h : L.Sound) {src : String} (dst : String) {amount : Amount}
    (hle : amount ≤ L.balance src) : (L.move src dst amount).Sound := by
  unfold Sound
  rw [h.held_move dst hle]
  exact Total.move h hle dst

end Ledger

/-- What an accepted call makes of a ledger, but for the making of a token. -/
theorem Call.onLedger_cases {c : Call} {L : Ledger} (h : c.Accepted L) (hne : c.method ≠ "new") :
    (c.method ≠ "transfer_from" ∧ c.onLedger L = L) ∨
    (c.method ≠ "transfer_from" ∧
      c.onLedger L = L.setAllowance c.signer (c.arg "spender") c.amount) ∨
    (c.method ≠ "transfer_from" ∧ c.amount ≤ L.balance c.signer ∧
      c.onLedger L = L.move c.signer (c.arg "receiver_id") c.amount) ∨
    (c.method = "transfer_from" ∧ c.amount ≤ L.allowance (c.arg "owner", c.signer) ∧
      c.amount ≤ L.balance (c.arg "owner") ∧
      c.onLedger L = (L.setAllowance (c.arg "owner") c.signer
        (L.allowance (c.arg "owner", c.signer) - c.amount)).move (c.arg "owner")
          (c.arg "receiver") c.amount) := by
  by_cases hmethod : c.method ∈ methods
  swap
  · exact absurd h (panics_dispatch hmethod (StorageKv.fresh ∅)).2
  obtain ⟨signer, method, args⟩ := c
  simp only [methods, List.mem_cons, List.not_mem_nil, or_false] at hmethod
  rcases hmethod with rfl | rfl | rfl | rfl | rfl | rfl | rfl | rfl | rfl
  · exact absurd rfl hne
  · exact .inr (.inr (.inl ⟨by simp, h.1.2, rfl⟩))
  · exact .inr (.inr (.inl ⟨by simp, h.1.2, rfl⟩))
  · exact .inr (.inl ⟨by simp, rfl⟩)
  · exact .inr (.inr (.inr ⟨rfl, h.1.1, h.1.2, rfl⟩))
  · exact .inl ⟨by simp, rfl⟩
  · exact .inl ⟨by simp, rfl⟩
  · exact .inl ⟨by simp, rfl⟩
  · exact .inl ⟨by simp, rfl⟩

theorem Ledger.Sound.onLedger {c : Call} {L : Ledger} (hL : L.Sound) (h : c.Accepted L)
    (hne : c.method ≠ "new") : (c.onLedger L).Sound ∧ (c.onLedger L).supply = L.supply := by
  rcases c.onLedger_cases h hne with ⟨-, heq⟩ | ⟨-, heq⟩ | ⟨-, hle, heq⟩ | ⟨-, -, hle, heq⟩
  · rw [heq]
    exact ⟨hL, rfl⟩
  · rw [heq]
    exact ⟨hL, rfl⟩
  · rw [heq]
    exact ⟨hL.move _ hle, rfl⟩
  · rw [heq]
    have hallowed : (L.setAllowance (c.arg "owner") c.signer
        (L.allowance (c.arg "owner", c.signer) - c.amount)).Sound := hL
    exact ⟨hallowed.move _ hle, rfl⟩

theorem sound_first (first : Call) : (firstLedger first).Sound := by
  have htotal := (total_zero (α := String)).update first.signer
    (amountOf (first.arg "total_supply")).val
  have hheld : (firstLedger first).held = Function.update (fun _ => 0) first.signer
      (amountOf (first.arg "total_supply")).val := Ledger.held_setBalance first.signer _
  rw [Nat.zero_sub, Nat.zero_add] at htotal
  unfold Ledger.Sound
  rw [hheld]
  exact htotal

section Supply

variable {wasm : Bytes} {first : Call} {hist : List (ByteMap × Call)} {m : ByteMap}

def NotNew (_ : ByteMap) (c : Call) : Prop := c.method ≠ "new"

instance (s : ByteMap) (c : Call) : Decidable (NotNew s c) := inferInstanceAs (Decidable (_ ≠ _))

theorem sound_run (h : Run (token wasm first) NotNew hist m) :
    (ledgerOf (firstLedger first) hist).Sound ∧
      (ledgerOf (firstLedger first) hist).supply = amountOf (first.arg "total_supply") := by
  induction h with
  | start _ => exact ⟨sound_first first, rfl⟩
  | @step hist m c _ hne ih =>
    unfold ledgerOf
    split
    · next haccepted =>
      obtain ⟨hsound, hsupply⟩ := ih.1.onLedger haccepted hne
      exact ⟨hsound, hsupply.trans ih.2⟩
    · exact ih
  | other _ hs ih => exact ih

/-- What the contract shows as balances adds up to what it shows as the supply, which is what it
was made with. -/
theorem balances_make_supply (h : Run (token wasm first) NotNew hist m) :
    (∀ c : Call, c.method = "ft_total_supply" →
      answer m c = some (.text (showAmount (amountOf (first.arg "total_supply"))))) ∧
    ∃ balance : String → Amount,
      Total (fun a => (balance a).val) (amountOf (first.arg "total_supply")).val ∧
      ∀ c : Call, c.method = "ft_balance_of" → Fits (c.arg "account_id") →
        answer m c = some (.text (showAmount (balance (c.arg "account_id")))) := by
  obtain ⟨hsound, hsupply⟩ := sound_run h
  have hholds := holds_run h
  refine ⟨?_, (ledgerOf (firstLedger first) hist).balance, hsupply ▸ hsound, ?_⟩
  · rintro ⟨signer, method, args⟩ rfl
    rw [← hsupply]
    exact hholds.shows (trivial : Call.Accepted ⟨signer, "ft_total_supply", args⟩ _)
  · rintro ⟨signer, method, args⟩ rfl hfits
    exact hholds.shows (hfits : Call.Accepted ⟨signer, "ft_balance_of", args⟩ _)

theorem balances_make_supply_hundred : ∃ balance : String → Amount,
    Total (fun a => (balance a).val) (amountOf "100").val ∧
      answer ((token [1] hundred).exec (step (deployed [1]) hundred) spending)
        ⟨"erin", "ft_balance_of", .obj [("account_id", .str "dave")]⟩ =
          some (.text (showAmount (balance "dave"))) := by
  have hrun := run_hundred NotNew ⟨by decide, by decide, by decide, trivial⟩
  obtain ⟨-, balance, htotal, hshown⟩ := balances_make_supply hrun
  exact ⟨balance, htotal, hshown _ rfl (by decide)⟩

end Supply

/-! ## Allowances -/

section Allowances

variable {wasm : Bytes} {first : Call} {later earlier : List (ByteMap × Call)} {m : ByteMap}
  {owner : String}

/-- What a call takes from an account, if it is of one of some spenders. -/
def takes (owner : String) (spenders : String → Bool) (s : ByteMap) (c : Call) : ℕ :=
  if c.method = "transfer_from" ∧ c.arg "owner" = owner ∧ spenders c.signer = true ∧
    (answer s c).isSome = true then c.amount.val else 0

/-- What some spenders have taken from an account. -/
def taken (owner : String) (spenders : String → Bool) : List (ByteMap × Call) → ℕ
  | [] => 0
  | (s, c) :: hist => takes owner spenders s c + taken owner spenders hist

theorem takes_eq_zero {spenders : String → Bool} {s : ByteMap} {c : Call}
    (h : c.method ≠ "transfer_from") : takes owner spenders s c = 0 := if_neg fun hc => h hc.1

/-- A call of another takes from an account what it has been allowed. -/
theorem Holds.takes {s : ByteMap} {L : Ledger} {c : Call} (h : Holds s.lookup L) (hL : L.Sound)
    (hne : c.method ≠ "new") (hquiet : c.signer ≠ owner) (haccepted : c.Accepted L) :
    (∀ spender, Ft.takes owner (· = spender) s c +
      ((c.onLedger L).allowance (owner, spender)).val = (L.allowance (owner, spender)).val) ∧
    L.held owner ≤ (c.onLedger L).held owner + Ft.takes owner (fun _ => true) s c := by
  have hsome : (answer s c).isSome = true := Option.isSome_of_eq_some (h.shows haccepted)
  rcases c.onLedger_cases haccepted hne with ⟨hmethod, heq⟩ | ⟨hmethod, heq⟩ |
    ⟨hmethod, hle, heq⟩ | ⟨hmethod, hallowed, hle, heq⟩
  · rw [heq]
    exact ⟨fun _ => by rw [takes_eq_zero hmethod, Nat.zero_add], Nat.le_add_right _ _⟩
  · rw [heq]
    refine ⟨fun spender => ?_, Nat.le_add_right _ _⟩
    have hother : (owner, spender) ≠ (c.signer, c.arg "spender") :=
      fun hsame => hquiet (congrArg Prod.fst hsame).symm
    rw [takes_eq_zero hmethod, Nat.zero_add]
    exact congrArg _ (Function.update_of_ne hother _ _)
  · rw [heq, hL.held_move _ hle]
    exact ⟨fun _ => by rw [takes_eq_zero hmethod, Nat.zero_add]; rfl,
      (le_move hquiet.symm).trans (Nat.le_add_right _ _)⟩
  · have hsound : (L.setAllowance (c.arg "owner") c.signer
        (L.allowance (c.arg "owner", c.signer) - c.amount)).Sound := hL
    rw [heq, hsound.held_move _ hle]
    by_cases howner : c.arg "owner" = owner
    · subst howner
      have htaken : (L.allowance (c.arg "owner", c.signer) - c.amount).val =
          (L.allowance (c.arg "owner", c.signer)).val - c.amount.val := Fin.sub_val_of_le hallowed
      refine ⟨fun spender => ?_, ?_⟩
      · show _ + (Function.update L.allowance (c.arg "owner", c.signer) _ _).val = _
        unfold Ft.takes
        by_cases hspender : c.signer = spender
        · subst hspender
          rw [if_pos ⟨hmethod, rfl, decide_eq_true rfl, hsome⟩, Function.update_self, htaken]
          have hle' : c.amount.val ≤ (L.allowance (c.arg "owner", c.signer)).val := hallowed
          omega
        · rw [if_neg fun hc => hspender (of_decide_eq_true hc.2.2.1), Nat.zero_add,
            Function.update_of_ne fun hsame => hspender (congrArg Prod.snd hsame).symm]
      · unfold Ft.takes
        rw [if_pos ⟨hmethod, rfl, rfl, hsome⟩]
        exact le_move_add _ _
    · have hnone : ∀ spenders, Ft.takes owner spenders s c = 0 :=
        fun spenders => if_neg fun hc => howner hc.2.1
      refine ⟨fun spender => ?_, ?_⟩
      · rw [hnone, Nat.zero_add]
        exact congrArg _ (Function.update_of_ne
          (fun hsame => howner (congrArg Prod.fst hsame).symm) _ _)
      · exact (le_move (Ne.symm howner)).trans (Nat.le_add_right _ _)

/-- What others have taken from an account that has signed nothing for a while is what it had
allowed them, and it has lost nothing else. -/
theorem taken_is_allowed (h : Run (token wasm first) NotNew (later ++ earlier) m)
    (hquiet : ∀ e ∈ later, e.2.signer ≠ owner) :
    (∀ spender, taken owner (· = spender) later +
      ((ledgerOf (firstLedger first) (later ++ earlier)).allowance (owner, spender)).val =
        ((ledgerOf (firstLedger first) earlier).allowance (owner, spender)).val) ∧
    (ledgerOf (firstLedger first) earlier).held owner ≤
      (ledgerOf (firstLedger first) (later ++ earlier)).held owner +
        taken owner (fun _ => true) later := by
  induction later generalizing m with
  | nil => exact ⟨fun _ => Nat.zero_add _, Nat.le_add_right _ _⟩
  | cons e later ih =>
    obtain ⟨s, c⟩ := e
    obtain ⟨hrun, hne⟩ :=
      Run.cut (show Run _ NotNew ([] ++ (s, c) :: (later ++ earlier)) m from h)
    obtain ⟨hallowance, hheld⟩ := ih hrun fun e he => hquiet e (List.mem_cons_of_mem _ he)
    have hholds := holds_run hrun
    have hsound := (sound_run hrun).1
    rw [List.cons_append, ledgerOf_cons]
    unfold taken
    split
    · next haccepted =>
      obtain ⟨hone, htake⟩ := hholds.takes hsound hne (hquiet _ List.mem_cons_self) haccepted
      refine ⟨fun spender => ?_, ?_⟩
      · have hone := hone spender
        have hall := hallowance spender
        omega
      · omega
    · next hrefused =>
      have hnone : ∀ spenders, takes owner spenders s c = 0 := by
        intro spenders
        refine if_neg fun hc => ?_
        have hanswer := hholds.answers c
        rw [if_neg hrefused] at hanswer
        rw [hanswer] at hc
        cases hc.2.2.2
      simp only [hnone, Nat.zero_add]
      exact ⟨hallowance, hheld⟩

theorem taken_is_allowed_hundred : ∃ earlier s c,
    c = ⟨"carol", "transfer_from", .obj [("owner", .str "alice"), ("receiver", .str "dave"),
      ("amount", .str "15")]⟩ ∧
    (ledgerOf (firstLedger hundred) earlier).held "alice" ≤
      (ledgerOf (firstLedger hundred) ([(s, c)] ++ earlier)).held "alice" +
        taken "alice" (fun _ => true) [(s, c)] := by
  have hrun : Run (token [1] hundred) NotNew ([(_, _)] ++ _) _ :=
    run_hundred NotNew ⟨by decide, by decide, by decide, trivial⟩
  exact ⟨_, _, _, rfl, (taken_is_allowed hrun (by decide)).2⟩

end Allowances

end HoneNode.Contracts.Ft
