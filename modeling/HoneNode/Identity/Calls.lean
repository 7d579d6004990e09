import HoneNode.Lib.Trace
import HoneNode.Apply.Names

/-!
# Identity.Calls — what the entries of names and credentials do

A name has a record, an owner entry, an inventory key, perhaps an offer, and is
the primary name of an account or not; a credential has a record and, while it
is active, an index key. The fourteen entries keep all of these by hand. What
one entry does to them is said once, in `Effect`, and the results on names and
credentials go by its cases.
-/

namespace HoneNode.Identity

open Entry Prog Within Trace

deriving instance DecidableEq for Recovery
deriving instance DecidableEq for NameNft

inductive IdentityOp where
  | mint (p : IdentityNftMint)
  | transfer (p : IdentityNftTransfer)
  | accept (p : IdentityNftAccept)
  | reject (p : IdentityNftReject)
  | setPrimary (p : IdentityNftSetPrimary)
  | setRecovery (p : IdentityNftSetRecovery)
  | lock (p : IdentityNftLock)
  | unlock (p : IdentityNftUnlock)
  | recover (p : IdentityNftRecover)
  | setBackstop (p : IdentityNftSetBackstop)
  | issue (p : SoulboundIssue)
  | acceptToken (p : SoulboundAccept)
  | rejectToken (p : SoulboundReject)
  | revokeToken (p : SoulboundRevoke)

def IdentityOp.run (s : Chain) : IdentityOp → Except Fault Unit × Chain
  | .mint p => (applyIdentityNftMint p).run s
  | .transfer p => (applyIdentityNftTransfer p).run s
  | .accept p => (applyIdentityNftAccept p).run s
  | .reject p => (applyIdentityNftReject p).run s
  | .setPrimary p => (applyIdentityNftSetPrimary p).run s
  | .setRecovery p => (applyIdentityNftSetRecovery p).run s
  | .lock p => (applyIdentityNftLock p).run s
  | .unlock p => (applyIdentityNftUnlock p).run s
  | .recover p => (applyIdentityNftRecover p).run s
  | .setBackstop p => (applyIdentityNftSetBackstop p).run s
  | .issue p => (applySoulboundIssue p).run s
  | .acceptToken p => (applySoulboundAccept p).run s
  | .rejectToken p => (applySoulboundReject p).run s
  | .revokeToken p => (applySoulboundRevoke p).run s

/-! ## The part of the chain they work on -/

/-- Records, owners, inventory, primary names, offers and the counter of names; records and
active index of credentials. -/
structure Registry where
  nfts : Kv String NameNft
  owners : Kv String String
  held : Kv String Unit
  primaries : Kv String String
  offers : Kv String PendingOffer
  count : ℕ
  tokens : Kv String SoulboundToken
  active : Kv String Unit

def registryOf (s : Chain) : Registry where
  nfts := s.state .nameNft
  owners := s.state .nameOwner
  held := s.state .nameHeld
  primaries := s.state .accountName
  offers := s.state .namePending
  count := registeredCount s
  tokens := s.state .sbt
  active := s.state .sbtOn

section Writes

variable (s : Chain) (k : String)

@[simp] theorem registryOf_setNft (v : NameNft) : registryOf (s.stateSet .nameNft k v) =
    { registryOf s with nfts := (registryOf s).nfts.put k v } := rfl

@[simp] theorem registryOf_setOwner (v : String) : registryOf (s.stateSet .nameOwner k v) =
    { registryOf s with owners := (registryOf s).owners.put k v } := rfl

@[simp] theorem registryOf_setHeld (v : Unit) : registryOf (s.stateSet .nameHeld k v) =
    { registryOf s with held := (registryOf s).held.put k v } := rfl

@[simp] theorem registryOf_delHeld : registryOf (s.stateDelete .nameHeld k) =
    { registryOf s with held := (registryOf s).held.del k } := rfl

@[simp] theorem registryOf_setPrimary (v : String) : registryOf (s.stateSet .accountName k v) =
    { registryOf s with primaries := (registryOf s).primaries.put k v } := rfl

@[simp] theorem registryOf_delPrimary : registryOf (s.stateDelete .accountName k) =
    { registryOf s with primaries := (registryOf s).primaries.del k } := rfl

@[simp] theorem registryOf_setOffer (v : PendingOffer) :
    registryOf (s.stateSet .namePending k v) =
      { registryOf s with offers := (registryOf s).offers.put k v } := rfl

@[simp] theorem registryOf_delOffer : registryOf (s.stateDelete .namePending k) =
    { registryOf s with offers := (registryOf s).offers.del k } := rfl

@[simp] theorem registryOf_setCount (n : ℕ) : registryOf (s.stateSet .identityCount "" n) =
    { registryOf s with count := n } := by
  have hcount : registeredCount (s.stateSet .identityCount "" n) = n := by
    rw [registeredCount, stateGet_stateSet, if_pos rfl, Option.getD_some]
  unfold registryOf
  rw [hcount]
  rfl

@[simp] theorem registryOf_setToken (v : SoulboundToken) : registryOf (s.stateSet .sbt k v) =
    { registryOf s with tokens := (registryOf s).tokens.put k v } := rfl

@[simp] theorem registryOf_delToken : registryOf (s.stateDelete .sbt k) =
    { registryOf s with tokens := (registryOf s).tokens.del k } := rfl

@[simp] theorem registryOf_setActive (v : Unit) : registryOf (s.stateSet .sbtOn k v) =
    { registryOf s with active := (registryOf s).active.put k v } := rfl

@[simp] theorem registryOf_delActive : registryOf (s.stateDelete .sbtOn k) =
    { registryOf s with active := (registryOf s).active.del k } := rfl

@[simp] theorem registryOf_setGrant (v : Unit) :
    registryOf (s.stateSet .sbtPending k v) = registryOf s := rfl

@[simp] theorem registryOf_delGrant :
    registryOf (s.stateDelete .sbtPending k) = registryOf s := rfl

end Writes

theorem registryOf_noted {s t : Chain} (h : Noted s t) : registryOf t = registryOf s := by
  have hcount : registeredCount t = registeredCount s := by
    rw [registeredCount, registeredCount, h.stateGet (by decide)]
  unfold registryOf
  rw [hcount, h.state .nameNft (by decide), h.state .nameOwner (by decide),
    h.state .nameHeld (by decide), h.state .accountName (by decide),
    h.state .namePending (by decide), h.state .sbt (by decide), h.state .sbtOn (by decide)]

namespace Registry

/-- Record and owner entry of a name. -/
def put (r : Registry) (nft : NameNft) : Registry :=
  { r with nfts := r.nfts.put nft.name nft, owners := r.owners.put nft.name nft.owner }

/-- A name that is new. -/
def minted (r : Registry) (p : IdentityNftMint) : Registry :=
  { r with
    nfts := r.nfts.put p.name ⟨p.name, p.to_, p.epoch, true, none, 0⟩
    owners := r.owners.put p.name p.to_
    held := r.held.put (heldKey p.to_ p.name) ()
    count := wrapAdd r.count 1 }

/-- The inventory follows the owner, the name is nobody's primary name and the offer is gone. -/
def moved (r : Registry) (name from_ to_ : String) : Registry :=
  { r with
    held := (r.held.del (heldKey from_ name)).put (heldKey to_ name) ()
    primaries := if r.primaries.get from_ = some name then r.primaries.del from_ else r.primaries
    offers := r.offers.del name }

/-- A holder-scoped credential is marked stripped and leaves the index. -/
def stripOne (name : String) (r : Registry) (tokenId : String) : Registry :=
  match r.tokens.get tokenId with
  | some t =>
    if t.class_ = .holderScoped then
      { r with
        tokens := r.tokens.put t.tokenId { t with stripped := true }
        active := r.active.del (sbtNameKey name tokenId) }
    else r
  | none => r

/-- The ids that the index shows on a name. -/
def activeOn (r : Registry) (name : String) : List String :=
  (r.active.scan (hasPrefix s!"{name}:")).map fun kv => Text.lastPiece ':' kv.1

def strip (r : Registry) (name : String) : Registry :=
  (r.activeOn name).foldl (stripOne name) r

end Registry

/-! ## One entry -/

/-- The entries that rewrite the record of a name and leave its owner. -/
inductive Amends : IdentityOp → String → NameNft → NameNft → Prop where
  | setRecovery {p : IdentityNftSetRecovery} {nft : NameNft} (howner : nft.owner = p.signedBy)
      (hfree : nft.transferable = true)
      (hvalid : validateRecovery p.guardians p.threshold p.destination = none) :
      Amends (.setRecovery p) p.name nft { nft with
        recovery := some ⟨p.guardians, p.threshold, p.destination, p.founderBackstop⟩ }
  | lock {p : IdentityNftLock} {nft : NameNft} (howner : nft.owner = p.signedBy)
      (hrecovery : nft.recovery.isSome = true) :
      Amends (.lock p) p.name nft { nft with transferable := false }
  | unlock {p : IdentityNftUnlock} {nft : NameNft} (hlocked : nft.transferable = false)
      (hseq : p.seq = nft.recoverySeq) :
      Amends (.unlock p) p.name nft
        { nft with transferable := true, recoverySeq := wrapAdd nft.recoverySeq 1 }
  | selfRecover {p : IdentityNftRecover} {nft : NameNft} {recovery : Recovery}
      (hrecovery : nft.recovery = some recovery) (hseq : p.seq = nft.recoverySeq)
      (hself : recovery.destination = nft.owner) :
      Amends (.recover p) p.name nft { nft with recoverySeq := wrapAdd nft.recoverySeq 1 }
  | setBackstop {p : IdentityNftSetBackstop} {nft : NameNft} {recovery : Recovery}
      (howner : nft.owner = p.signedBy) (hrecovery : nft.recovery = some recovery)
      (hfree : ¬ p.enabled = true ∨ nft.transferable = true) :
      Amends (.setBackstop p) p.name nft
        { nft with recovery := some { recovery with founderBackstop := p.enabled } }

/-- The record of a credential that was just issued. -/
def issuedToken (p : SoulboundIssue) (class_ : SbtClass) : SoulboundToken where
  tokenId := p.tokenId
  name := p.name
  issuer := p.signedBy
  class_ := class_
  walletBound := p.walletBound
  data := p.data
  issuedEpoch := p.epoch
  accepted := false
  revoked := false
  stripped := false

/-- What an entry can do to the registry, and how it ends. -/
inductive Effect (r : Registry) : IdentityOp → Except Fault Unit → Registry → Prop where
  | refused {op : IdentityOp} (msg : String) : Effect r op (.error (.err msg)) r
  | lapsed {p : IdentityNftAccept} {offer : PendingOffer} (msg : String)
      (hoffer : r.offers.get p.name = some offer) :
      Effect r (.accept p) (.error (.err msg)) { r with offers := r.offers.del p.name }
  | minted {p : IdentityNftMint} (hvalid : isValidIdentityName p.name = true)
      (hnew : r.nfts.get p.name = none) (hunowned : r.owners.get p.name = none) :
      Effect r (.mint p) (.ok ()) (r.minted p)
  | offered {p : IdentityNftTransfer} {nft : NameNft} (hget : r.nfts.get p.name = some nft)
      (howner : nft.owner = p.from_) (hfree : nft.transferable = true) :
      Effect r (.transfer p) (.ok ())
        { r with offers := r.offers.put p.name ⟨p.from_, p.to_, p.epoch⟩ }
  | sold {p : IdentityNftAccept} {offer : PendingOffer} {nft : NameNft}
      (hoffer : r.offers.get p.name = some offer) (hto : offer.to_ = p.to_)
      (hget : r.nfts.get p.name = some nft) (hfree : nft.transferable = true)
      (howner : nft.owner = offer.from_)
      (hlive : p.epoch ≤ satAdd offer.offeredEpoch offerExpiryEpochs) :
      Effect r (.accept p) (.ok ())
        (((r.put { nft with owner := p.to_, recovery := none, transferable := true }).moved
          p.name offer.from_ p.to_).strip p.name)
  | withdrawn {p : IdentityNftReject} {offer : PendingOffer}
      (hoffer : r.offers.get p.name = some offer) :
      Effect r (.reject p) (.ok ()) { r with offers := r.offers.del p.name }
  | primary {p : IdentityNftSetPrimary} {nft : NameNft}
      (hget : r.nfts.get p.name = some nft) (howner : nft.owner = p.account) :
      Effect r (.setPrimary p) (.ok ()) { r with primaries := r.primaries.put p.account p.name }
  | amended {op : IdentityOp} {name : String} {nft nft' : NameNft}
      (hget : r.nfts.get name = some nft) (h : Amends op name nft nft') :
      Effect r op (.ok ()) (r.put nft')
  | recovered {p : IdentityNftRecover} {nft : NameNft} {recovery : Recovery}
      (hget : r.nfts.get p.name = some nft) (hrecovery : nft.recovery = some recovery)
      (hseq : p.seq = nft.recoverySeq) (hother : recovery.destination ≠ nft.owner) :
      Effect r (.recover p) (.ok ())
        ((r.put { nft with owner := recovery.destination,
                           recoverySeq := wrapAdd nft.recoverySeq 1 }).moved
          p.name nft.owner recovery.destination)
  | issued {p : SoulboundIssue} {nft : NameNft} {class_ : SbtClass}
      (hnew : r.tokens.get p.tokenId = none) (hget : r.nfts.get p.name = some nft)
      (hclass : SbtClass.parse p.class_ = .ok class_) :
      Effect r (.issue p) (.ok ()) { r with tokens := r.tokens.put p.tokenId (issuedToken p class_) }
  | taken {p : SoulboundAccept} {t : SoulboundToken} {nft : NameNft}
      (htoken : r.tokens.get p.tokenId = some t) (hpending : t.accepted = false)
      (hget : r.nfts.get t.name = some nft) (howner : nft.owner = p.signedBy) :
      Effect r (.acceptToken p) (.ok ()) { r with
        tokens := r.tokens.put t.tokenId { t with accepted := true }
        active := r.active.put (sbtNameKey t.name p.tokenId) () }
  | dropped {p : SoulboundReject} {t : SoulboundToken}
      (htoken : r.tokens.get p.tokenId = some t)
      (hparty : (r.nfts.get t.name).map (·.owner) = some p.signedBy ∨ p.signedBy = t.issuer) :
      Effect r (.rejectToken p) (.ok ()) { r with
        tokens := r.tokens.del p.tokenId
        active := r.active.del (sbtNameKey t.name p.tokenId) }
  | revoked {p : SoulboundRevoke} {t : SoulboundToken}
      (htoken : r.tokens.get p.tokenId = some t) (hissuer : p.signedBy = t.issuer) :
      Effect r (.revokeToken p) (.ok ()) { r with
        tokens := r.tokens.put t.tokenId { t with revoked := true }
        active := r.active.del (sbtNameKey t.name p.tokenId) }

section Effects

variable {t : Chain} {R : Registry} {op : IdentityOp}

/-- What a call made of the registry is one of the effects. -/
def Effects (R : Registry) (op : IdentityOp) (r : Except Fault Unit × Chain) : Prop :=
  Effect R op r.1 (registryOf r.2)

theorem effects_of {u : Chain} {r' : Registry} (h : Effect R op (.ok ()) r')
    (hu : registryOf u = r') : Effects R op (.ok (), u) := by
  subst hu
  exact h

theorem effects_ensure {c : Prop} [Decidable c] {msg : String} {f : Unit → Prog {} Unit}
    (h : c → Effects (registryOf t) op ((f ()).run t)) :
    Effects (registryOf t) op ((ensure c msg >>= f).run t) := by
  by_cases hc : c
  · rw [run_ensure_bind hc]
    exact h hc
  · rw [run_bind_error (by rw [run_ensure, if_neg hc])]
    exact .refused msg

theorem effects_orBail {α : Type} {o : Option α} {msg : String} {f : α → Prog {} Unit}
    (h : ∀ a, o = some a → Effects (registryOf t) op ((f a).run t)) :
    Effects (registryOf t) op ((orBail o msg >>= f).run t) := by
  cases o with
  | none => exact .refused msg
  | some a => exact h a rfl

/-- The record of a name is read, if there is one. -/
theorem effects_getNft {name : String} {f : NameNft → Prog {} Unit}
    (h : ∀ nft, (registryOf t).nfts.get name = some nft →
      Effects (registryOf t) op ((f nft).run t)) :
    Effects (registryOf t) op ((getNft name >>= f).run t) := by
  unfold getNft
  rw [run_assoc, run_stateGet_bind]
  exact effects_orBail h

theorem effects_ownedNft {name caller : String} {f : NameNft → Prog {} Unit}
    (h : ∀ nft, (registryOf t).nfts.get name = some nft → nft.owner = caller →
      Effects (registryOf t) op ((f nft).run t)) :
    Effects (registryOf t) op ((ownedNft name caller >>= f).run t) := by
  unfold ownedNft
  rw [run_assoc]
  refine effects_getNft fun nft hget => ?_
  rw [run_assoc]
  refine effects_ensure fun howner => ?_
  exact h nft hget howner

theorem effects_getToken {tokenId : String} {f : SoulboundToken → Prog {} Unit}
    (h : ∀ token, (registryOf t).tokens.get tokenId = some token →
      Effects (registryOf t) op ((f token).run t)) :
    Effects (registryOf t) op ((getToken tokenId >>= f).run t) := by
  unfold getToken
  rw [run_assoc, run_stateGet_bind]
  exact effects_orBail h

theorem effects_putNft {name : String} {nft nft' : NameNft}
    (hget : (registryOf t).nfts.get name = some nft) (h : Amends op name nft nft') :
    Effects (registryOf t) op ((putNft nft').run t) :=
  effects_of (.amended hget h) (by simp only [registryOf_setOwner, registryOf_setNft]; rfl)

theorem run_putNft (t : Chain) (nft : NameNft) :
    (putNft nft : Prog {} Unit).run t =
      (.ok (), (t.stateSet .nameNft nft.name nft).stateSet .nameOwner nft.name nft.owner) := rfl

/-- The chain with a name taken away as primary name. -/
def withoutPrimary (t : Chain) (account name : String) : Chain :=
  if (registryOf t).primaries.get account = some name then t.stateDelete .accountName account
  else t

theorem run_dropPrimary (t : Chain) (account name : String) :
    (dropPrimary account name : Prog {} Unit).run t = (.ok (), withoutPrimary t account name) := by
  unfold dropPrimary withoutPrimary
  rw [run_stateGet_bind, run_when, run_stateDelete]
  change (if (registryOf t).primaries.get account = some name then _ else _) = _
  split <;> rfl

theorem registryOf_withoutPrimary (t : Chain) (account name : String) :
    registryOf (withoutPrimary t account name) = { registryOf t with
      primaries := if (registryOf t).primaries.get account = some name then
        (registryOf t).primaries.del account else (registryOf t).primaries } := by
  unfold withoutPrimary
  split
  · rw [registryOf_delPrimary]
  · rfl

/-- The writes that take a name from one account to another. -/
theorem registryOf_handedOver (t : Chain) (nft : NameNft) (name from_ to_ : String) :
    registryOf ((withoutPrimary ((((t.stateDelete .nameHeld (heldKey from_ name)).stateSet .nameNft
      nft.name nft).stateSet .nameOwner nft.name nft.owner).stateSet .nameHeld (heldKey to_ name)
        ()) from_ name).stateDelete .namePending name) =
      ((registryOf t).put nft).moved name from_ to_ := by
  rw [registryOf_delOffer, registryOf_withoutPrimary]
  simp only [registryOf_setHeld, registryOf_setOwner, registryOf_setNft, registryOf_delHeld]
  rfl

/-! ### Names -/

theorem effects_mint (p : IdentityNftMint) (s : Chain) :
    Effects (registryOf s) (.mint p) ((applyIdentityNftMint p).run s) := by
  have hnote := (noted s p.signedBy p.epoch).withAccount p.to_ p.epoch
  unfold applyIdentityNftMint
  rw [run_touchAlive_bind, run_ensureAccount_bind,
    run_ensureAccount_bind, ← registryOf_noted hnote]
  generalize ((s.touched p.signedBy p.epoch).withAccount p.signedBy p.epoch).withAccount p.to_
    p.epoch = t
  refine effects_ensure fun hvalid => ?_
  rw [run_stateGet_bind, run_stateGet_bind]
  refine effects_ensure fun hfree => ?_
  rw [run_stateGet_bind]
  refine effects_ensure fun _ => effects_ensure fun _ => effects_ensure fun _ => ?_
  rw [run_inspect_bind]
  refine effects_ensure fun _ => ?_
  rw [run_bind_ok (run_putNft _ _), run_stateSet_bind, run_stateSet]
  refine effects_of (.minted hvalid (Option.isNone_iff_eq_none.1 hfree.1)
    (Option.isNone_iff_eq_none.1 hfree.2)) ?_
  simp only [registryOf_setCount, registryOf_setHeld, registryOf_setOwner, registryOf_setNft]
  rfl

theorem effects_transfer (p : IdentityNftTransfer) (s : Chain) :
    Effects (registryOf s) (.transfer p) ((applyIdentityNftTransfer p).run s) := by
  have hnote := (noted s p.from_ p.epoch).withAccount p.to_ p.epoch
  unfold applyIdentityNftTransfer
  rw [run_touchAlive_bind, run_ensureAccount_bind,
    run_ensureAccount_bind, ← registryOf_noted hnote]
  generalize ((s.touched p.from_ p.epoch).withAccount p.from_ p.epoch).withAccount p.to_
    p.epoch = t
  refine effects_ownedNft fun nft hget howner => effects_ensure fun hfree => ?_
  refine effects_ensure fun _ => ?_
  rw [run_stateSet]
  exact effects_of (.offered hget howner hfree) (registryOf_setOffer _ _ _)

/-- The strip of the source works through the ids that the index showed. -/
theorem run_stripTokens (name : String) (ids : List String) (t : Chain) :
    ∃ u, (stripTokens name ids).run t = (.ok (), u) ∧
      registryOf u = ids.foldl (Registry.stripOne name) (registryOf t) := by
  induction ids generalizing t with
  | nil => exact ⟨t, rfl, rfl⟩
  | cons tokenId rest ih =>
    unfold stripTokens
    rw [run_stateGet_bind, List.foldl_cons]
    unfold Registry.stripOne
    cases hget : t.stateGet .sbt tokenId with
    | none =>
      have hkept : (registryOf t).tokens.get tokenId = none := hget
      rw [hkept]
      exact ih t
    | some token =>
      have hheld : (registryOf t).tokens.get tokenId = some token := hget
      rw [hheld]
      dsimp only
      by_cases hclass : token.class_ = .holderScoped
      · rw [if_pos hclass, run_bind_ok (by rw [run_when, if_pos hclass]; rfl)]
        exact ih _
      · rw [if_neg hclass, run_bind_ok (by rw [run_when, if_neg hclass])]
        exact ih _

theorem run_stripHolderScoped (name : String) (t : Chain) :
    ∃ u, (stripHolderScoped name).run t = (.ok (), u) ∧
      registryOf u = (registryOf t).strip name := by
  unfold stripHolderScoped
  rw [run_stateScan_bind]
  exact run_stripTokens name _ t

/-- An offer that cannot be taken any more goes with the error. -/
theorem effects_lapse {p : IdentityNftAccept} {offer : PendingOffer} {c : Prop} [Decidable c]
    {msg : String} {f : Unit → Prog {} Unit}
    (hoffer : (registryOf t).offers.get p.name = some offer)
    (h : ¬ c → Effects (registryOf t) (.accept p) ((f ()).run t)) :
    Effects (registryOf t) (.accept p)
      ((when c (do stateDelete .namePending p.name; bail msg) >>= f).run t) := by
  by_cases hc : c
  · rw [run_bind_error (by rw [run_when, if_pos hc]; rfl)]
    exact .lapsed msg hoffer
  · rw [run_bind_ok (by rw [run_when, if_neg hc])]
    exact h hc

theorem effects_accept (p : IdentityNftAccept) (s : Chain) :
    Effects (registryOf s) (.accept p) ((applyIdentityNftAccept p).run s) := by
  have hnote := noted s p.to_ p.epoch
  unfold applyIdentityNftAccept
  rw [run_touchAlive_bind, run_ensureAccount_bind,
    run_stateGet_bind, ← registryOf_noted hnote]
  generalize (s.touched p.to_ p.epoch).withAccount p.to_ p.epoch = t
  refine effects_orBail fun offer hoffer => effects_ensure fun hto => ?_
  refine effects_lapse hoffer fun hlive => effects_getNft fun nft hget => ?_
  refine effects_lapse hoffer fun hlocked => effects_lapse hoffer fun hstale => ?_
  have hfree : nft.transferable = true := by simpa using hlocked
  have howner : nft.owner = offer.from_ := by simpa using hstale
  rw [run_stateDelete_bind, run_bind_ok (run_putNft _ _),
    run_stateSet_bind, run_bind_ok (run_dropPrimary _ _ _),
    run_stateDelete_bind]
  obtain ⟨u, hrun, hu⟩ := run_stripHolderScoped p.name _
  rw [registryOf_handedOver] at hu
  rw [hrun]
  exact effects_of (.sold hoffer hto hget hfree howner (Nat.le_of_not_lt hlive)) hu

theorem effects_reject (p : IdentityNftReject) (s : Chain) :
    Effects (registryOf s) (.reject p) ((applyIdentityNftReject p).run s) := by
  unfold applyIdentityNftReject
  rw [run_touchAlive_bind, run_stateGet_bind,
    ← registryOf_noted (noted_touched s p.signedBy p.epoch)]
  generalize s.touched p.signedBy p.epoch = t
  refine effects_orBail fun offer hoffer => effects_ensure fun _ => ?_
  rw [run_stateDelete]
  exact effects_of (.withdrawn hoffer) (registryOf_delOffer _ _)

theorem effects_setPrimary (p : IdentityNftSetPrimary) (s : Chain) :
    Effects (registryOf s) (.setPrimary p) ((applyIdentityNftSetPrimary p).run s) := by
  unfold applyIdentityNftSetPrimary
  rw [run_touchAlive_bind, run_ensureAccount_bind,
    ← registryOf_noted (noted s p.account p.epoch)]
  generalize (s.touched p.account p.epoch).withAccount p.account p.epoch = t
  refine effects_ownedNft fun nft hget howner => ?_
  rw [run_stateSet]
  exact effects_of (.primary hget howner) (registryOf_setPrimary _ _ _)

theorem effects_setRecovery (p : IdentityNftSetRecovery) (s : Chain) :
    Effects (registryOf s) (.setRecovery p) ((applyIdentityNftSetRecovery p).run s) := by
  unfold applyIdentityNftSetRecovery
  rw [run_touchAlive_bind, run_ensureAccount_bind,
    ← registryOf_noted ((noted_touched s p.signedBy p.epoch).withAccount p.destination p.epoch)]
  generalize (s.touched p.signedBy p.epoch).withAccount p.destination p.epoch = t
  refine effects_ownedNft fun nft hget howner => effects_ensure fun hfree => ?_
  cases hvalid : validateRecovery p.guardians p.threshold p.destination with
  | some e => exact .refused e
  | none => exact effects_putNft hget (.setRecovery howner hfree hvalid)

theorem effects_lock (p : IdentityNftLock) (s : Chain) :
    Effects (registryOf s) (.lock p) ((applyIdentityNftLock p).run s) := by
  unfold applyIdentityNftLock
  rw [run_touchAlive_bind, ← registryOf_noted (noted_touched s p.signedBy p.epoch)]
  generalize s.touched p.signedBy p.epoch = t
  refine effects_ownedNft fun nft hget howner => effects_ensure fun hrecovery => ?_
  exact effects_putNft hget (.lock howner hrecovery)

theorem effects_unlock (p : IdentityNftUnlock) (s : Chain) :
    Effects (registryOf s) (.unlock p) ((applyIdentityNftUnlock p).run s) := by
  unfold applyIdentityNftUnlock
  rw [run_touchAlive_bind, ← registryOf_noted (noted_touched s p.signedBy p.epoch)]
  generalize s.touched p.signedBy p.epoch = t
  refine effects_getNft fun nft hget => effects_ensure fun hlocked => ?_
  refine effects_ensure fun hseq => ?_
  exact effects_putNft hget (.unlock (by simpa using hlocked) hseq)

theorem effects_recover (p : IdentityNftRecover) (s : Chain) :
    Effects (registryOf s) (.recover p) ((applyIdentityNftRecover p).run s) := by
  unfold applyIdentityNftRecover
  rw [run_touchAlive_bind, ← registryOf_noted (noted_touched s p.signedBy p.epoch)]
  generalize s.touched p.signedBy p.epoch = t
  refine effects_getNft fun nft hget => effects_orBail fun recovery hrecovery => ?_
  refine effects_ensure fun hseq => ?_
  dsimp only
  by_cases hself : recovery.destination = nft.owner
  · rw [if_pos hself]
    exact effects_putNft hget (.selfRecover hrecovery hseq hself)
  · rw [if_neg hself]
    rw [run_stateDelete_bind, run_bind_ok (run_putNft _ _),
      run_stateSet_bind, run_bind_ok (run_dropPrimary _ _ _), run_stateDelete]
    exact effects_of (.recovered hget hrecovery hseq hself) (registryOf_handedOver _ _ _ _ _)

theorem effects_setBackstop (p : IdentityNftSetBackstop) (s : Chain) :
    Effects (registryOf s) (.setBackstop p) ((applyIdentityNftSetBackstop p).run s) := by
  unfold applyIdentityNftSetBackstop
  rw [run_touchAlive_bind, ← registryOf_noted (noted_touched s p.signedBy p.epoch)]
  generalize s.touched p.signedBy p.epoch = t
  refine effects_ownedNft fun nft hget howner => effects_orBail fun recovery hrecovery => ?_
  refine effects_ensure fun hfree => ?_
  exact effects_putNft hget (.setBackstop howner hrecovery hfree)

/-! ### Credentials -/

theorem effects_issue (p : SoulboundIssue) (s : Chain) :
    Effects (registryOf s) (.issue p) ((applySoulboundIssue p).run s) := by
  unfold applySoulboundIssue
  rw [run_touchAlive_bind, run_ensureAccount_bind,
    ← registryOf_noted (noted s p.signedBy p.epoch)]
  generalize (s.touched p.signedBy p.epoch).withAccount p.signedBy p.epoch = t
  apply effects_ensure
  intro _
  rw [run_stateGet_bind]
  refine effects_ensure fun hnew => effects_getNft fun nft hget => ?_
  cases hclass : SbtClass.parse p.class_ with
  | error e => exact .refused e
  | ok class_ =>
    dsimp only
    rw [run_bind_ok (run_pure _ _), run_stateSet_bind, run_stateSet]
    exact effects_of (.issued (Option.isNone_iff_eq_none.1 hnew) hget hclass)
      (by rw [registryOf_setGrant, registryOf_setToken]; rfl)

theorem effects_acceptToken (p : SoulboundAccept) (s : Chain) :
    Effects (registryOf s) (.acceptToken p) ((applySoulboundAccept p).run s) := by
  unfold applySoulboundAccept
  rw [run_touchAlive_bind, ← registryOf_noted (noted_touched s p.signedBy p.epoch)]
  generalize s.touched p.signedBy p.epoch = t
  refine effects_getToken fun token htoken => effects_ensure fun hpending => ?_
  refine effects_getNft fun nft hget => effects_ensure fun howner => ?_
  rw [run_stateSet_bind, run_stateDelete_bind, run_stateSet]
  exact effects_of (.taken htoken (by simpa using hpending) hget howner)
    (by rw [registryOf_setActive, registryOf_delGrant, registryOf_setToken])

theorem effects_rejectToken (p : SoulboundReject) (s : Chain) :
    Effects (registryOf s) (.rejectToken p) ((applySoulboundReject p).run s) := by
  unfold applySoulboundReject
  rw [run_touchAlive_bind, ← registryOf_noted (noted_touched s p.signedBy p.epoch)]
  generalize s.touched p.signedBy p.epoch = t
  refine effects_getToken fun token htoken => ?_
  rw [run_stateGet_bind]
  refine effects_ensure fun hparty => ?_
  rw [run_stateDelete_bind, run_stateDelete_bind,
    run_stateDelete]
  exact effects_of (.dropped htoken hparty)
    (by rw [registryOf_delToken, registryOf_delActive, registryOf_delGrant])

theorem effects_revokeToken (p : SoulboundRevoke) (s : Chain) :
    Effects (registryOf s) (.revokeToken p) ((applySoulboundRevoke p).run s) := by
  unfold applySoulboundRevoke
  rw [run_touchAlive_bind, ← registryOf_noted (noted_touched s p.signedBy p.epoch)]
  generalize s.touched p.signedBy p.epoch = t
  refine effects_getToken fun token htoken => effects_ensure fun hissuer => ?_
  rw [run_stateSet_bind, run_stateDelete_bind,
    run_stateDelete]
  exact effects_of (.revoked htoken hissuer)
    (by rw [registryOf_delGrant, registryOf_delActive, registryOf_setToken])

/-- Every call is one of these. -/
theorem effect (s : Chain) (op : IdentityOp) : Effects (registryOf s) op (op.run s) := by
  cases op <;> dsimp only [IdentityOp.run]
  case mint p => exact effects_mint p s
  case transfer p => exact effects_transfer p s
  case accept p => exact effects_accept p s
  case reject p => exact effects_reject p s
  case setPrimary p => exact effects_setPrimary p s
  case setRecovery p => exact effects_setRecovery p s
  case lock p => exact effects_lock p s
  case unlock p => exact effects_unlock p s
  case recover p => exact effects_recover p s
  case setBackstop p => exact effects_setBackstop p s
  case issue p => exact effects_issue p s
  case acceptToken p => exact effects_acceptToken p s
  case rejectToken p => exact effects_rejectToken p s
  case revokeToken p => exact effects_revokeToken p s

end Effects

/-! ## Runs -/

/-- The other entries of the identity contracts leave names and credentials alone; the settlement
of an auction, which writes the owner of a name, is not one of them. -/
def registry (start : Chain → Prop) : Component Chain IdentityOp where
  init := start
  step := fun s op => (op.run s).2
  other := fun s s' => registryOf s' = registryOf s

/-- No names and no credentials. -/
def Unused (s : Chain) : Prop := registryOf s = ⟨∅, ∅, ∅, ∅, ∅, 0, ∅, ∅⟩

section Runs

variable {start : Chain → Prop} {P : Chain → IdentityOp → Prop} {I : Registry → Prop} {s : Chain}
  {hist : List (Chain × IdentityOp)}

/-- What no effect breaks holds of the registry in every state reached. -/
theorem registry_invariant (hinit : ∀ s, start s → I (registryOf s))
    (hstep : ∀ s op r', P s op → Effect (registryOf s) op (op.run s).1 r' → I (registryOf s) → I r')
    (h : Run (registry start) P hist s) : I (registryOf s) := by
  refine Run.invariant (I := fun s => I (registryOf s)) hinit ?_ ?_ h
  · intro s op hop hs
    exact hstep s op _ hop (effect s op) hs
  · intro s s' hother hs
    rw [hother]
    exact hs

end Runs

end HoneNode.Identity
