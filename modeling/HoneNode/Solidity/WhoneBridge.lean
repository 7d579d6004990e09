import Mathlib.Data.Option.Basic
import HoneNode.Exchange.Contract
import HoneNode.Lib.Trace

/-!
# Solidity.WhoneBridge — several bridges under one authority

A bridge locks wHONE of wallets bound to a username, and releases it against a
signature of the bridge authority. The signed message names the chain, the
recipient, the amount and a nonce, but no contract; each deployment keeps its
own nonces.

1. **The contract**: its storage, and one definition for each call.
2. **One call**: what each call leaves.
3. **Bindings** are inverse to each other and permanent (`bound_forever`).
4. **Runs** in which no release is repeated on another deployment are safe
   (`bridges_safe`).
-/

namespace HoneNode.WhoneBridge

open Function (update update_self update_of_ne)
open Option (bind_eq_some_iff map_eq_some_iff guard_eq_some')
open Exchange Trace

/-! ## The contract -/

/-- What the authority signs. -/
structure Message where
  chainId : ℕ
  recipient : Address
  amount : ℕ
  nonce : ℕ
deriving DecidableEq, Repr

/-- Hashing and `ecrecover`: no signer and signature answer for two messages. The address zero is
the answer for a signature that is none. -/
structure Scheme (S : Type) where
  recoverSigner : Message → S → Option Address
  binding : ∀ {m m' : Message} {sig : S} {signer : Address}, signer ≠ 0 →
    recoverSigner m sig = some signer → recoverSigner m' sig = some signer → m = m'

/-- A bridge holds tokens, or a wallet does. -/
inductive Holder (D : Type) where
  | bridge (d : D)
  | wallet (a : Address)
deriving DecidableEq

/-- The event of a release. -/
structure Released where
  recipient : Address
  amount : ℕ
  nonce : ℕ
deriving DecidableEq, Repr

structure Storage where
  (whone owner bridgeAuthority : Address)
  processedNonces : ℕ → Bool := fun _ => false
  lockNonce : ℕ := 0
  usernameToAddress : String → Address := fun _ => 0
  addressToUsername : Address → String := fun _ => ""

/-- All deployments on a chain, what is held of each token, and the releases logged. -/
structure World (D : Type) where
  bridges : D → Storage
  balances : Address → Holder D → ℕ
  releases : D → List Released

variable {D S : Type} [DecidableEq D] (E : Scheme S) (chainId : ℕ)

/-- The constructor. -/
def construct (sender whone bridgeAuthority : Address) : Option Storage := do
  guard (whone ≠ 0)
  guard (bridgeAuthority ≠ 0)
  return { whone, owner := sender, bridgeAuthority }

def World.setBridge (w : World D) (d : D) (s : Storage) : World D :=
  { w with bridges := update w.bridges d s }

/-- A transfer of a standard token between two holders. -/
def transfer (token : Address) (src dst : Holder D) (amount : ℕ) (w : World D) :
    Option (World D) := do
  guard (amount ≤ w.balances token src)
  let taken := update (w.balances token) src (w.balances token src - amount)
  let moved := update taken dst (taken dst + amount)
  return { w with balances := update w.balances token moved }

/-- Both mappings get the new pair. -/
def Storage.bind (s : Storage) (honeUsername : String) (evmAddress : Address) : Storage :=
  let usernameToAddress := update s.usernameToAddress honeUsername evmAddress
  let addressToUsername := update s.addressToUsername evmAddress honeUsername
  { s with usernameToAddress, addressToUsername }

def bindAccount (d : D) (sender : Address) (honeUsername : String) (evmAddress : Address)
    (w : World D) : Option (World D) := do
  let s := w.bridges d
  guard (sender = s.bridgeAuthority)
  guard (3 ≤ honeUsername.utf8ByteSize)
  guard (evmAddress ≠ 0)
  guard (s.usernameToAddress honeUsername = 0)
  guard ((s.addressToUsername evmAddress).utf8ByteSize = 0)
  return w.setBridge d (s.bind honeUsername evmAddress)

/-- `approved` tells whether the sender has given the bridge the allowance. -/
def lockForBridge (d : D) (sender : Address) (amount : ℕ) (honeUsername : String)
    (approved : Bool) (w : World D) : Option (World D) := do
  let s := w.bridges d
  guard (0 < amount)
  guard (0 < honeUsername.utf8ByteSize)
  let boundAddress := s.usernameToAddress honeUsername
  guard (boundAddress ≠ 0)
  guard (sender = boundAddress)
  guard approved
  let w ← transfer s.whone (.wallet sender) (.bridge d) amount w
  let lockNonce ← addChecked s.lockNonce 1
  return w.setBridge d { s with lockNonce }

def releaseFromBridge (d : D) (sender : Address) (amount nonce : ℕ) (signature : S)
    (w : World D) : Option (World D) := do
  let s := w.bridges d
  guard (0 < amount)
  guard (s.processedNonces nonce = false)
  guard (amount ≤ w.balances s.whone (.bridge d))
  guard (0 < (s.addressToUsername sender).utf8ByteSize)
  let recovered ← E.recoverSigner ⟨chainId, sender, amount, nonce⟩ signature
  guard (recovered = s.bridgeAuthority)
  let processedNonces := update s.processedNonces nonce true
  let w ← transfer s.whone (.bridge d) (.wallet sender) amount
    (w.setBridge d { s with processedNonces })
  let logged := update w.releases d (⟨sender, amount, nonce⟩ :: w.releases d)
  return { w with releases := logged }

def updateBridgeAuthority (d : D) (sender newAuthority : Address) (w : World D) :
    Option (World D) := do
  let s := w.bridges d
  guard (sender = s.owner)
  guard (newAuthority ≠ 0)
  return w.setBridge d { s with bridgeAuthority := newAuthority }

/-- A call of a wallet to a deployment. -/
inductive Call (D S : Type) where
  | bindAccount (d : D) (sender : Address) (honeUsername : String) (evmAddress : Address)
  | lockForBridge (d : D) (sender : Address) (amount : ℕ) (honeUsername : String)
      (approved : Bool)
  | releaseFromBridge (d : D) (sender : Address) (amount nonce : ℕ) (signature : S)
  | updateBridgeAuthority (d : D) (sender newAuthority : Address)

/-- What a call leaves; none if it reverts. -/
def Call.run : Call D S → World D → Option (World D)
  | .bindAccount d sender honeUsername evmAddress =>
    WhoneBridge.bindAccount d sender honeUsername evmAddress
  | .lockForBridge d sender amount honeUsername approved =>
    WhoneBridge.lockForBridge d sender amount honeUsername approved
  | .releaseFromBridge d sender amount nonce signature =>
    WhoneBridge.releaseFromBridge E chainId d sender amount nonce signature
  | .updateBridgeAuthority d sender newAuthority =>
    WhoneBridge.updateBridgeAuthority d sender newAuthority

/-- The deployments from the last constructor on, with one authority. -/
def chain : Component (World D) (Call D S) where
  init w := ∃ authority, ∀ d, w.releases d = [] ∧
    ∃ sender whone, construct sender whone authority = some (w.bridges d)
  step w call := (call.run E chainId w).getD w

/-! ## One call -/

variable {w w' : World D} {d : D} {sender : Address} {E chainId}

/-- What a transfer leaves with each holder. -/
def moved (before : Holder D → ℕ) (src dst : Holder D) (amount : ℕ) (h : Holder D) : ℕ :=
  if h = dst then before h + amount else if h = src then before h - amount else before h

theorem run_transfer {token : Address} {src dst : Holder D} {amount : ℕ} (hne : dst ≠ src)
    (h : transfer token src dst amount w = some w') :
    amount ≤ w.balances token src ∧ w'.bridges = w.bridges ∧ w'.releases = w.releases ∧
      w'.balances = update w.balances token (moved (w.balances token) src dst amount) := by
  obtain ⟨_, hcovered, h⟩ := bind_eq_some_iff.1 h
  cases h
  refine ⟨(guard_eq_some' _).1 hcovered, rfl, rfl, ?_⟩
  refine congrArg (update w.balances token) (funext fun holder => ?_)
  unfold moved
  by_cases hdst : holder = dst
  · subst hdst
    rw [if_pos rfl, update_self, update_of_ne hne]
  · rw [if_neg hdst, update_of_ne hdst]
    by_cases hsrc : holder = src
    · subst hsrc
      rw [if_pos rfl, update_self]
    · rw [if_neg hsrc, update_of_ne hsrc]

/-- A username and an address without a partner were bound to each other. -/
structure Binds (w : World D) (d : D) (honeUsername : String) (evmAddress : Address)
    (w' : World D) : Prop where
  username : honeUsername ≠ ""
  address : evmAddress ≠ 0
  freeUsername : (w.bridges d).usernameToAddress honeUsername = 0
  freeAddress : (w.bridges d).addressToUsername evmAddress = ""
  result : w' = w.setBridge d ((w.bridges d).bind honeUsername evmAddress)

theorem eq_empty_of_size {s : String} (h : s.utf8ByteSize = 0) : s = "" :=
  String.utf8ByteSize_eq_zero_iff.1 h

theorem ne_empty_of_size {s : String} (h : 0 < s.utf8ByteSize) : s ≠ "" := by
  rintro rfl
  exact absurd h (by decide)

theorem binds_bindAccount {honeUsername : String} {evmAddress : Address}
    (h : bindAccount d sender honeUsername evmAddress w = some w') :
    Binds w d honeUsername evmAddress w' := by
  obtain ⟨_, -, h⟩ := bind_eq_some_iff.1 h
  obtain ⟨_, hlength, h⟩ := bind_eq_some_iff.1 h
  obtain ⟨_, haddress, h⟩ := bind_eq_some_iff.1 h
  obtain ⟨_, hfreeName, h⟩ := bind_eq_some_iff.1 h
  obtain ⟨_, hfreeAddress, h⟩ := bind_eq_some_iff.1 h
  have hlong : 3 ≤ honeUsername.utf8ByteSize := (guard_eq_some' _).1 hlength
  exact ⟨ne_empty_of_size (Nat.lt_of_lt_of_le (by decide) hlong),
    (guard_eq_some' _).1 haddress, (guard_eq_some' _).1 hfreeName,
    eq_empty_of_size ((guard_eq_some' _).1 hfreeAddress), (Option.some.inj h).symm⟩

/-- Tokens of a wallet went into the pool. -/
structure Locks (w : World D) (d : D) (sender : Address) (amount : ℕ) (w' : World D) : Prop where
  bridges : ∃ lockNonce, w'.bridges =
    update w.bridges d { w.bridges d with lockNonce }
  releases : w'.releases = w.releases
  balances : w'.balances = update w.balances (w.bridges d).whone
    (moved (w.balances (w.bridges d).whone) (.wallet sender) (.bridge d) amount)

theorem locks_lockForBridge {amount : ℕ} {honeUsername : String} {approved : Bool}
    (h : lockForBridge d sender amount honeUsername approved w = some w') :
    Locks w d sender amount w' := by
  obtain ⟨_, -, h⟩ := bind_eq_some_iff.1 h
  obtain ⟨_, -, h⟩ := bind_eq_some_iff.1 h
  obtain ⟨_, -, h⟩ := bind_eq_some_iff.1 h
  obtain ⟨_, -, h⟩ := bind_eq_some_iff.1 h
  obtain ⟨_, -, h⟩ := bind_eq_some_iff.1 h
  obtain ⟨w₁, htransfer, h⟩ := bind_eq_some_iff.1 h
  obtain ⟨lockNonce, -, h⟩ := bind_eq_some_iff.1 h
  obtain ⟨-, hbridges, hreleases, hbalances⟩ := run_transfer (by simp) htransfer
  rw [← Option.some.inj h]
  refine ⟨⟨lockNonce, ?_⟩, hreleases, hbalances⟩
  unfold World.setBridge
  rw [hbridges]

/-- Tokens of the pool went to a wallet. -/
structure Pays (E : Scheme S) (chainId : ℕ) (w : World D) (d : D) (sender : Address)
    (amount nonce : ℕ) (signature : S) (w' : World D) : Prop where
  fresh : (w.bridges d).processedNonces nonce = false
  bound : (w.bridges d).addressToUsername sender ≠ ""
  signed : E.recoverSigner ⟨chainId, sender, amount, nonce⟩ signature =
    some (w.bridges d).bridgeAuthority
  covered : amount ≤ w.balances (w.bridges d).whone (.bridge d)
  bridges : w'.bridges = update w.bridges d { w.bridges d with
    processedNonces := update (w.bridges d).processedNonces nonce true }
  releases : w'.releases =
    update w.releases d (⟨sender, amount, nonce⟩ :: w.releases d)
  balances : w'.balances = update w.balances (w.bridges d).whone
    (moved (w.balances (w.bridges d).whone) (.bridge d) (.wallet sender) amount)

theorem pays_releaseFromBridge {amount nonce : ℕ} {signature : S}
    (h : releaseFromBridge E chainId d sender amount nonce signature w = some w') :
    Pays E chainId w d sender amount nonce signature w' := by
  obtain ⟨_, -, h⟩ := bind_eq_some_iff.1 h
  obtain ⟨_, hfresh, h⟩ := bind_eq_some_iff.1 h
  obtain ⟨_, hcovered, h⟩ := bind_eq_some_iff.1 h
  obtain ⟨_, hbound, h⟩ := bind_eq_some_iff.1 h
  obtain ⟨recovered, hsigned, h⟩ := bind_eq_some_iff.1 h
  obtain ⟨_, hauthority, h⟩ := bind_eq_some_iff.1 h
  obtain ⟨w₁, htransfer, h⟩ := bind_eq_some_iff.1 h
  obtain ⟨-, hbridges, hreleases, hbalances⟩ := run_transfer (by simp) htransfer
  have heq : recovered = (w.bridges d).bridgeAuthority := (guard_eq_some' _).1 hauthority
  have hw' := Option.some.inj h
  rw [heq] at hsigned
  refine ⟨(guard_eq_some' _).1 hfresh,
    ne_empty_of_size ((guard_eq_some' _).1 hbound), hsigned,
    (guard_eq_some' _).1 hcovered, ?_, ?_, ?_⟩
  · rw [← hw']
    exact hbridges
  · rw [← hw']
    exact congrArg₂ (update · d ·) hreleases (by rw [hreleases]; rfl)
  · rw [← hw']
    exact hbalances

theorem run_updateBridgeAuthority {newAuthority : Address}
    (h : updateBridgeAuthority d sender newAuthority w = some w') :
    newAuthority ≠ 0 ∧
      w' = w.setBridge d { w.bridges d with bridgeAuthority := newAuthority } := by
  obtain ⟨_, -, h⟩ := bind_eq_some_iff.1 h
  obtain ⟨_, hnonzero, h⟩ := bind_eq_some_iff.1 h
  exact ⟨(guard_eq_some' _).1 hnonzero, (Option.some.inj h).symm⟩

/-! ## What a run shows -/

variable {hist : List (World D × Call D S)} {call : Call D S}

/-- A release of a signature of `authority` was accepted. -/
def Spends (E : Scheme S) (chainId : ℕ) (authority : Address) (sig : S)
    (c : World D × Call D S) : Prop :=
  match c.2 with
  | .releaseFromBridge d _ _ _ signature =>
    signature = sig ∧ (c.1.bridges d).bridgeAuthority = authority ∧
      (c.2.run E chainId c.1).isSome = true
  | _ => False

instance [DecidableEq S] (authority : Address) (sig : S) (c : World D × Call D S) :
    Decidable (Spends E chainId authority sig c) := by
  unfold Spends
  split <;> infer_instance

/-- What a call took into the pool of `d`. -/
def lockedBy (E : Scheme S) (chainId : ℕ) (d : D) (c : World D × Call D S) : ℕ :=
  match c.2 with
  | .lockForBridge d' _ amount _ _ =>
    if d' = d ∧ (c.2.run E chainId c.1).isSome = true then amount else 0
  | _ => 0

/-- What a call paid out of the pool of `d`. -/
def releasedBy (E : Scheme S) (chainId : ℕ) (d : D) (c : World D × Call D S) : ℕ :=
  match c.2 with
  | .releaseFromBridge d' _ amount _ _ =>
    if d' = d ∧ (c.2.run E chainId c.1).isSome = true then amount else 0
  | _ => 0

def poolBalance (w : World D) (d : D) : ℕ := w.balances (w.bridges d).whone (.bridge d)

/-- The state a history began in. -/
def firstState (hist : List (World D × Call D S)) (w : World D) : World D :=
  (hist.getLast?.map Prod.fst).getD w

/-- The two mappings of a deployment are inverse to each other. -/
def Inverse (s : Storage) : Prop :=
  ∀ u a, u ≠ "" → a ≠ 0 → (s.usernameToAddress u = a ↔ s.addressToUsername a = u)

/-- What is bound stays bound as it is. -/
def Keeps (s s' : Storage) : Prop :=
  (∀ u, s.usernameToAddress u ≠ 0 → s'.usernameToAddress u = s.usernameToAddress u) ∧
    ∀ a, s.addressToUsername a ≠ "" → s'.addressToUsername a = s.addressToUsername a

/-- An accepted release pays the amount that the signature names to the bound wallet it names. -/
def PaysAsNamed (E : Scheme S) (chainId : ℕ) (c : World D × Call D S) : Prop :=
  ∀ d sender amount nonce signature,
    c.2 = .releaseFromBridge d sender amount nonce signature →
    ∀ w', c.2.run E chainId c.1 = some w' →
      ∃ m : Message, E.recoverSigner m signature = some (c.1.bridges d).bridgeAuthority ∧
        m.chainId = chainId ∧ (c.1.bridges d).addressToUsername m.recipient ≠ "" ∧
        w'.balances = update c.1.balances (c.1.bridges d).whone
          (moved (c.1.balances (c.1.bridges d).whone) (.bridge d) (.wallet m.recipient) m.amount)

/-- Bindings are inverse and permanent, no authority signature is spent twice or otherwise than
it says, and the pools balance. -/
structure Safe [DecidableEq S] (E : Scheme S) (chainId : ℕ) (hist : List (World D × Call D S))
    (w : World D) : Prop where
  inverse : ∀ d, Inverse (w.bridges d)
  permanent : ∀ c ∈ hist, ∀ d, Keeps (c.1.bridges d) (w.bridges d)
  once : ∀ authority sig, (hist.filter fun c => Spends E chainId authority sig c).length ≤ 1
  named : ∀ c ∈ hist, PaysAsNamed E chainId c
  pool : ∀ d, poolBalance w d + (hist.map (releasedBy E chainId d)).sum =
    poolBalance (firstState hist w) d + (hist.map (lockedBy E chainId d)).sum

/-- The release was not made on another deployment before. -/
def Unrepeated (w : World D) : Call D S → Prop
  | .releaseFromBridge d sender amount nonce _ =>
    ∀ d', d' ≠ d → ⟨sender, amount, nonce⟩ ∉ w.releases d'
  | _ => True

/-! ## One step -/

theorem step_of_run (h : call.run E chainId w = some w') : (chain E chainId).step w call = w' := by
  change (call.run E chainId w).getD w = w'
  rw [h]
  rfl

theorem step_of_revert (h : call.run E chainId w = none) : (chain E chainId).step w call = w := by
  change (call.run E chainId w).getD w = w
  rw [h]
  rfl

theorem Keeps.refl (s : Storage) : Keeps s s := ⟨fun _ _ => rfl, fun _ _ => rfl⟩

theorem Keeps.trans {s t r : Storage} (h : Keeps s t) (h' : Keeps t r) : Keeps s r := by
  constructor
  · intro u hu
    rw [← h.1 u hu]
    exact h'.1 u (h.1 u hu ▸ hu)
  · intro a ha
    rw [← h.2 a ha]
    exact h'.2 a (h.2 a ha ▸ ha)

/-- What a call keeps of each deployment. -/
structure Careful (s s' : Storage) : Prop where
  whone : s'.whone = s.whone
  keeps : Keeps s s'
  inverse : Inverse s → Inverse s'
  authority : s.bridgeAuthority ≠ 0 → s'.bridgeAuthority ≠ 0
  processed : ∀ nonce, s.processedNonces nonce = true → s'.processedNonces nonce = true

theorem Careful.refl (s : Storage) : Careful s s :=
  ⟨rfl, .refl s, id, id, fun _ h => h⟩

theorem careful_bind {honeUsername : String} {evmAddress : Address}
    (h : Binds w d honeUsername evmAddress w') :
    Careful (w.bridges d) ((w.bridges d).bind honeUsername evmAddress) := by
  refine ⟨rfl, ⟨fun u hu => ?_, fun a ha => ?_⟩, fun hinverse u a hu ha => ?_, id, fun _ h => h⟩
  · have hne : u ≠ honeUsername := by
      rintro rfl
      exact hu h.freeUsername
    exact update_of_ne hne _ _
  · have hne : a ≠ evmAddress := by
      rintro rfl
      exact ha h.freeAddress
    exact update_of_ne hne _ _
  · dsimp only [Storage.bind]
    by_cases hname : u = honeUsername
    · subst hname
      rw [update_self]
      by_cases haddr : a = evmAddress
      · subst haddr
        rw [update_self]
        exact iff_of_true rfl rfl
      · rw [update_of_ne haddr]
        refine iff_of_false (Ne.symm haddr) fun hbound => ?_
        -- an address bound to the name would make the name taken
        have htaken := (hinverse u a hu ha).2 hbound
        rw [h.freeUsername] at htaken
        exact ha htaken.symm
    · rw [update_of_ne hname]
      by_cases haddr : a = evmAddress
      · subst haddr
        rw [update_self]
        refine iff_of_false (fun hbound => ?_) (Ne.symm hname)
        have htaken := (hinverse u a hu ha).1 hbound
        rw [h.freeAddress] at htaken
        exact hu htaken.symm
      · rw [update_of_ne haddr]
        exact hinverse u a hu ha

/-- One call changes one deployment, and that with care. -/
theorem careful_run (h : call.run E chainId w = some w') :
    ∃ d s, w'.bridges = update w.bridges d s ∧ Careful (w.bridges d) s := by
  cases call with
  | bindAccount d sender honeUsername evmAddress =>
    have hbinds := binds_bindAccount h
    exact ⟨d, _, by rw [hbinds.result]; rfl, careful_bind hbinds⟩
  | lockForBridge d sender amount honeUsername approved =>
    obtain ⟨lockNonce, hbridges⟩ := (locks_lockForBridge h).bridges
    exact ⟨d, _, hbridges, rfl, Keeps.refl _, id, id, fun _ h => h⟩
  | releaseFromBridge d sender amount nonce signature =>
    refine ⟨d, _, (pays_releaseFromBridge h).bridges, rfl, Keeps.refl _, id, id, ?_⟩
    intro nonce' hprocessed
    dsimp only
    by_cases heq : nonce' = nonce
    · rw [heq, update_self]
    · rw [update_of_ne heq]
      exact hprocessed
  | updateBridgeAuthority d sender newAuthority =>
    obtain ⟨hnonzero, rfl⟩ := run_updateBridgeAuthority h
    exact ⟨d, _, rfl, rfl, Keeps.refl _, id, fun _ => hnonzero, fun _ h => h⟩

theorem careful_step (E : Scheme S) (chainId : ℕ) (w : World D) (call : Call D S) (d : D) :
    Careful (w.bridges d) (((chain E chainId).step w call).bridges d) := by
  cases hrun : call.run E chainId w with
  | none =>
    rw [step_of_revert hrun]
    exact Careful.refl _
  | some w' =>
    rw [step_of_run hrun]
    obtain ⟨d', s, hbridges, hcareful⟩ := careful_run hrun
    rw [hbridges]
    by_cases heq : d = d'
    · subst heq
      rw [update_self]
      exact hcareful
    · rw [update_of_ne heq]
      exact Careful.refl _

theorem mem_releases_step {r : Released} (h : r ∈ w.releases d) (call : Call D S) :
    r ∈ ((chain E chainId).step w call).releases d := by
  cases hrun : call.run E chainId w with
  | none =>
    rw [step_of_revert hrun]
    exact h
  | some w' =>
    rw [step_of_run hrun]
    cases call with
    | bindAccount d' sender honeUsername evmAddress =>
      rw [(binds_bindAccount hrun).result]
      exact h
    | lockForBridge d' sender amount honeUsername approved =>
      rw [(locks_lockForBridge hrun).releases]
      exact h
    | releaseFromBridge d' sender amount nonce signature =>
      rw [(pays_releaseFromBridge hrun).releases]
      by_cases heq : d = d'
      · subst heq
        rw [update_self]
        exact List.mem_cons_of_mem _ h
      · rw [update_of_ne heq]
        exact h
    | updateBridgeAuthority d' sender newAuthority =>
      rw [(run_updateBridgeAuthority hrun).2]
      exact h

theorem moved_dst {before : Holder D → ℕ} {src dst : Holder D} {amount : ℕ} :
    moved before src dst amount dst = before dst + amount := if_pos rfl

theorem moved_src {before : Holder D → ℕ} {src dst : Holder D} {amount : ℕ} (h : src ≠ dst) :
    moved before src dst amount src = before src - amount := by
  unfold moved
  rw [if_neg h, if_pos rfl]

/-- A transfer between others does not show in a balance. -/
theorem balance_of_other {balances : Address → Holder D → ℕ} {token token' : Address}
    {src dst holder : Holder D} {amount : ℕ} (hdst : dst ≠ holder) (hsrc : src ≠ holder) :
    update balances token (moved (balances token) src dst amount) token' holder =
      balances token' holder := by
  by_cases htoken : token' = token
  · subst htoken
    rw [update_self]
    unfold moved
    rw [if_neg hdst.symm, if_neg hsrc.symm]
  · rw [update_of_ne htoken]

/-- The pool of a deployment after a call. -/
theorem pool_step (E : Scheme S) (chainId : ℕ) (w : World D) (call : Call D S) (d : D) :
    poolBalance ((chain E chainId).step w call) d + releasedBy E chainId d (w, call) =
      poolBalance w d + lockedBy E chainId d (w, call) := by
  have hwhone := (careful_step E chainId w call d).whone
  unfold poolBalance
  rw [hwhone]
  cases hrun : call.run E chainId w with
  | none =>
    rw [step_of_revert hrun]
    cases call with
    | bindAccount => rfl
    | updateBridgeAuthority => rfl
    | lockForBridge d' sender amount honeUsername approved =>
      unfold lockedBy
      dsimp only
      rw [hrun, if_neg (by simp)]
      rfl
    | releaseFromBridge d' sender amount nonce signature =>
      unfold releasedBy
      dsimp only
      rw [hrun, if_neg (by simp)]
      rfl
  | some w' =>
    rw [step_of_run hrun]
    cases call with
    | bindAccount d' sender honeUsername evmAddress =>
      rw [(binds_bindAccount hrun).result]
      rfl
    | updateBridgeAuthority d' sender newAuthority =>
      rw [(run_updateBridgeAuthority hrun).2]
      rfl
    | lockForBridge d' sender amount honeUsername approved =>
      have hlocked : lockedBy E chainId d
          (w, .lockForBridge d' sender amount honeUsername approved) =
            if d' = d then amount else 0 := by
        unfold lockedBy
        dsimp only
        rw [hrun]
        exact if_congr (and_iff_left rfl) rfl rfl
      rw [hlocked, (locks_lockForBridge hrun).balances]
      by_cases heq : d' = d
      · subst heq
        rw [if_pos rfl, update_self, moved_dst]
        rfl
      · rw [if_neg heq, balance_of_other (by simpa using heq) (by simp)]
        rfl
    | releaseFromBridge d' sender amount nonce signature =>
      have hreleased : releasedBy E chainId d
          (w, .releaseFromBridge d' sender amount nonce signature) =
            if d' = d then amount else 0 := by
        unfold releasedBy
        dsimp only
        rw [hrun]
        exact if_congr (and_iff_left rfl) rfl rfl
      have hpays := pays_releaseFromBridge hrun
      rw [hreleased, hpays.balances]
      by_cases heq : d' = d
      · subst heq
        rw [if_pos rfl, update_self, moved_src (by simp), Nat.sub_add_cancel hpays.covered]
        rfl
      · rw [if_neg heq, balance_of_other (by simp) (by simpa using heq)]
        rfl

/-! ## Runs -/

section Runs

variable {P : World D → Call D S → Prop}

theorem authority_ne_zero (h : Run (chain E chainId) P hist w) (d : D) :
    (w.bridges d).bridgeAuthority ≠ 0 := by
  refine h.invariant (I := fun w => (w.bridges d).bridgeAuthority ≠ 0) ?_ ?_ ?_
  · rintro w ⟨authority, hinit⟩
    obtain ⟨-, sender, whone, hconstruct⟩ := hinit d
    obtain ⟨_, -, hconstruct⟩ := bind_eq_some_iff.1 hconstruct
    obtain ⟨_, hnonzero, hconstruct⟩ := bind_eq_some_iff.1 hconstruct
    rw [← Option.some.inj hconstruct]
    exact (guard_eq_some' _).1 hnonzero
  · exact fun w call _ => (careful_step E chainId w call d).authority
  · rintro w w' rfl h
    exact h

theorem inverse_run (h : Run (chain E chainId) P hist w) (d : D) : Inverse (w.bridges d) := by
  refine h.invariant (I := fun w => Inverse (w.bridges d)) ?_ ?_ ?_
  · rintro w ⟨authority, hinit⟩ u a hu ha
    obtain ⟨-, sender, whone, hconstruct⟩ := hinit d
    obtain ⟨_, -, hconstruct⟩ := bind_eq_some_iff.1 hconstruct
    obtain ⟨_, -, hconstruct⟩ := bind_eq_some_iff.1 hconstruct
    rw [← Option.some.inj hconstruct]
    exact iff_of_false (Ne.symm ha) (Ne.symm hu)
  · exact fun w call _ => (careful_step E chainId w call d).inverse
  · rintro w w' rfl h
    exact h

/-- A binding made at any time is there in every later state. -/
theorem bound_forever (h : Run (chain E chainId) P hist w) :
    ∀ c ∈ hist, ∀ d, Keeps (c.1.bridges d) (w.bridges d) := by
  induction h with
  | start => exact nofun
  | @step hist w call hrun hop ih =>
    intro c hc d
    have hkeeps := (careful_step E chainId w call d).keeps
    rcases List.mem_cons.1 hc with rfl | hc
    · exact hkeeps
    · exact (ih c hc d).trans hkeeps
  | other _ hs ih => exact hs ▸ ih

omit [DecidableEq D] in
theorem firstState_cons (c : World D × Call D S) (hist : List (World D × Call D S))
    (w' : World D) : firstState (c :: hist) w' = firstState hist c.1 := by
  unfold firstState
  cases hist with
  | nil => rfl
  | cons b rest => rw [List.getLast?_cons_cons, List.getLast?_eq_some_getLast (by simp)]; rfl

theorem pool_run (h : Run (chain E chainId) P hist w) (d : D) :
    poolBalance w d + (hist.map (releasedBy E chainId d)).sum =
      poolBalance (firstState hist w) d + (hist.map (lockedBy E chainId d)).sum := by
  induction h with
  | start => rfl
  | @step hist w call hrun hop ih =>
    have hstep := pool_step E chainId w call d
    rw [firstState_cons, List.map_cons, List.sum_cons, List.map_cons, List.sum_cons]
    dsimp only
    omega
  | other _ hs ih => exact hs ▸ ih

theorem named_run (c : World D × Call D S) : PaysAsNamed E chainId c := by
  rintro d sender amount nonce signature hcall w' hrun
  rw [hcall] at hrun
  have hpays := pays_releaseFromBridge hrun
  exact ⟨⟨chainId, sender, amount, nonce⟩, hpays.signed, rfl, hpays.bound, hpays.balances⟩

/-- What was released is logged, and its nonce is used up. -/
theorem recorded_run (h : Run (chain E chainId) P hist w) {d : D} {t : World D}
    {amount nonce : ℕ} {signature : S}
    (hmem : (t, .releaseFromBridge d sender amount nonce signature) ∈ hist)
    (hsome : ((Call.releaseFromBridge d sender amount nonce signature).run E chainId t).isSome) :
    (w.bridges d).processedNonces nonce = true ∧ ⟨sender, amount, nonce⟩ ∈ w.releases d := by
  induction h with
  | start => cases hmem
  | @step hist w call hrun hop ih =>
    rcases List.mem_cons.1 hmem with heq | hmem
    · cases heq
      obtain ⟨w', hw'⟩ := Option.isSome_iff_exists.1 hsome
      have hpays := pays_releaseFromBridge hw'
      rw [step_of_run hw', hpays.bridges, hpays.releases, update_self,
        update_self]
      exact ⟨update_self _ _ _, List.mem_cons_self⟩
    · obtain ⟨hprocessed, hlogged⟩ := ih hmem
      exact ⟨(careful_step E chainId w call d).processed nonce hprocessed,
        mem_releases_step hlogged call⟩
  | other _ hs ih => exact hs ▸ ih hmem

end Runs

/-- A signature that was spent is not spent again. -/
theorem once_run [DecidableEq S] (h : Run (chain E chainId) Unrepeated hist w)
    (authority : Address) (sig : S) :
    (hist.filter fun c => Spends E chainId authority sig c).length ≤ 1 := by
  induction h with
  | start => exact Nat.zero_le 1
  | @step hist w call hrun hop ih =>
    by_cases hspends : Spends E chainId authority sig (w, call)
    · rw [List.filter_cons_of_pos (by simpa using hspends), List.length_cons]
      suffices hnone : hist.filter (fun c => Spends E chainId authority sig c) = [] by
        rw [hnone]
        exact Nat.le_refl 1
      refine List.filter_eq_nil_iff.2 ?_
      rintro ⟨t, call'⟩ hmem hspent
      have hspent : Spends E chainId authority sig (t, call') := by simpa using hspent
      cases call with
      | releaseFromBridge d sender amount nonce signature =>
        cases call' with
        | releaseFromBridge d' sender' amount' nonce' signature' =>
          obtain ⟨rfl, hauthority, hsome⟩ := hspends
          obtain ⟨rfl, hauthority', hsome'⟩ := hspent
          obtain ⟨w', hw'⟩ := Option.isSome_iff_exists.1 hsome
          obtain ⟨t', ht'⟩ := Option.isSome_iff_exists.1 hsome'
          have hpays := pays_releaseFromBridge hw'
          have hpays' := pays_releaseFromBridge ht'
          have hsigned := hpays.signed
          have hsigned' := hpays'.signed
          dsimp only at hauthority hauthority'
          rw [hauthority] at hsigned
          rw [hauthority'] at hsigned'
          -- the signature answers for one message
          have hmessage := E.binding (hauthority ▸ authority_ne_zero hrun d) hsigned hsigned'
          cases hmessage
          obtain ⟨hprocessed, hlogged⟩ := recorded_run hrun hmem hsome'
          by_cases heq : d' = d
          · subst heq
            rw [hpays.fresh] at hprocessed
            cases hprocessed
          · exact hop d' heq hlogged
        | _ => exact hspent
      | _ => exact hspends
    · rw [List.filter_cons_of_neg (by simpa using hspends)]
      exact ih
  | other _ hs ih =>
    cases hs
    exact ih

/-- Every run in which no release is made again on another deployment is safe. -/
theorem bridges_safe [DecidableEq S] (h : Run (chain E chainId) Unrepeated hist w) :
    Safe E chainId hist w where
  inverse := inverse_run h
  permanent := bound_forever h
  once := once_run h
  named := fun c _ => named_run c
  pool := pool_run h

/-! ## Two deployments -/

/-- Signatures that show their signer and their message. -/
def openScheme : Scheme (Address × Message) where
  recoverSigner m sig := if sig.2 = m then some sig.1 else none
  binding := by
    intro m m' sig signer _ h h'
    have hm : sig.2 = m := by
      by_contra hne
      rw [if_neg hne] at h
      cases h
    have hm' : sig.2 = m' := by
      by_contra hne
      rw [if_neg hne] at h'
      cases h'
    exact hm.symm.trans hm'

/-- Two deployments with 100 of the token 2 in each pool. -/
def twoBridges : World Bool where
  bridges := fun _ => { whone := 2, owner := 8, bridgeAuthority := 9 }
  balances := fun token holder => match holder with
    | .bridge _ => if token = 2 then 100 else 0
    | .wallet _ => 0
  releases := fun _ => []

theorem starts_twoBridges : (chain openScheme 1).init twoBridges :=
  ⟨9, fun _ => ⟨rfl, 8, 2, rfl⟩⟩

/-- The authority lets the wallet 5 have 100. -/
def aliceRelease : Address × Message := (9, ⟨1, 5, 100, 1⟩)

/-- Alice is bound on both, and is paid on one. -/
def paidOnce : List (Call Bool (Address × Message)) :=
  [.bindAccount true 9 "alice" 5, .bindAccount false 9 "alice" 5,
    .releaseFromBridge true 5 100 1 aliceRelease, .releaseFromBridge true 5 100 1 aliceRelease]

theorem bridges_safe_paidOnce :
    Safe openScheme 1 ((chain openScheme 1).record twoBridges paidOnce [])
        ((chain openScheme 1).exec twoBridges paidOnce) ∧
      ((chain openScheme 1).exec twoBridges paidOnce).balances 2 (.wallet 5) = 100 := by
  refine ⟨bridges_safe (Run.exec (.start starts_twoBridges) ⟨trivial, trivial, ?_, ?_, trivial⟩),
    by decide⟩
  · exact fun d' _ => List.not_mem_nil
  · intro d' hne
    have hfalse : d' = false := by cases d' with
      | true => exact absurd rfl hne
      | false => rfl
    subst hfalse
    exact List.not_mem_nil

/-- She shows the signature to the other one, too. -/
def paidTwice : List (Call Bool (Address × Message)) :=
  [.bindAccount true 9 "alice" 5, .bindAccount false 9 "alice" 5,
    .releaseFromBridge true 5 100 1 aliceRelease, .releaseFromBridge false 5 100 1 aliceRelease]

/-- One signature empties both pools. -/
theorem release_repeated_elsewhere :
    ∃ (hist : List (World Bool × Call Bool (Address × Message))) (w : World Bool),
      Run (chain openScheme 1) (fun _ _ => True) hist w ∧ w.balances 2 (.wallet 5) = 200 ∧
        ¬ Safe openScheme 1 hist w := by
  refine ⟨(chain openScheme 1).record twoBridges paidTwice [],
    (chain openScheme 1).exec twoBridges paidTwice,
    Run.exec (.start starts_twoBridges) (legal_true _ _), by decide, fun hsafe => ?_⟩
  exact absurd (hsafe.once 9 aliceRelease) (by decide)

end HoneNode.WhoneBridge
