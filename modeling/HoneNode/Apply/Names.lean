import HoneNode.Env

/-!
# Apply.Names — identity names and soulbound credentials

Names as transferable assets: minting, two-step transfer, guardian recovery and
locking; and the credentials bound to a name, of which the holder-scoped ones
lapse when the name changes hands.
-/

namespace HoneNode

open Entry Prog Within

/-! ## Reserved names -/

/-- Given names that only the issuer may hand out. -/
def popularNames : List String :=
  ["ace", "ada", "adam", "alan", "alex", "ali", "alma", "amy", "ana", "andy", "angel", "anna",
    "anne", "arlo", "arthur", "ash", "asher", "atlas", "august", "aurora", "austin", "autumn",
    "ava", "avery", "axel", "beau", "beck", "bella", "ben", "blake", "bob", "brad", "brandon",
    "brett", "brian", "brooke", "bruce", "bryce", "caleb", "carl", "carla", "carol", "casey",
    "chad", "charlie", "charlotte", "chloe", "chris", "claire", "clark", "cody", "cole", "corey",
    "craig", "dale", "dan", "daniel", "dana", "darren", "david", "dean", "derek", "diana",
    "dominic", "don", "donna", "drew", "dylan", "earl", "eli", "elijah", "ella", "emily", "emma",
    "eric", "ethan", "evan", "eve", "faith", "felix", "finn", "fiona", "frank", "fred", "gabriel",
    "gavin", "george", "glen", "grace", "graham", "greg", "hannah", "harper", "harry", "hazel",
    "heidi", "henry", "holly", "hugo", "ian", "iris", "isaac", "isabella", "isla", "ivy", "jack",
    "jackson", "jade", "jake", "james", "jane", "jasmine", "jason", "jay", "jeff", "jen", "jesse",
    "jessica", "jill", "joel", "joanna", "john", "jonah", "jonathan", "jordan", "josh", "joy",
    "julia", "june", "karen", "kate", "kelly", "kevin", "kim", "kyle", "layla", "lea", "leah",
    "leo", "leon", "lewis", "liam", "lily", "linda", "lisa", "logan", "lola", "louis", "lucas",
    "luke", "luna", "lydia", "mae", "marcus", "maria", "marie", "martin", "mary", "mason", "matt",
    "max", "maya", "megan", "mia", "michael", "mila", "miles", "molly", "morgan", "naomi", "nate",
    "neil", "nick", "noah", "noel", "nora", "nova", "oliver", "olivia", "oscar", "owen", "paige",
    "parker", "paul", "pearl", "peter", "piper", "rachel", "ray", "reed", "rex", "richard",
    "riley", "rob", "robin", "rosa", "rose", "ross", "ryan", "sam", "sandy", "sara", "sarah",
    "scarlett", "scott", "sean", "selena", "serena", "seth", "sierra", "simon", "skye", "sofia",
    "sophia", "stella", "stephen", "sue", "summer", "susan", "tara", "taylor", "ted", "theo",
    "thomas", "tim", "tina", "tori", "travis", "troy", "tyler", "vera", "victor", "vincent",
    "violet", "vivian", "wade", "walter", "wendy", "will", "willow", "wyatt", "yvonne", "zach",
    "zane", "zara", "zoe", "zoey", "alejandro", "camila", "carmen", "carlos", "consuelo",
    "cristina", "diego", "elena", "emilio", "fernanda", "florencia", "gabriela", "gonzalo",
    "ignacio", "isabella", "javier", "jose", "juan", "juanita", "lucia", "luciana", "luisa",
    "maia", "marcelo", "mariana", "mateo", "marina", "miguel", "natalia", "nicolas", "pablo",
    "pilar", "rafael", "ramon", "roberto", "rosario", "santiago", "sebastian", "valentina",
    "valeria", "martina", "ximena", "aisha", "amir", "amira", "farid", "farida", "fatima", "hafsa",
    "hamid", "hassan", "ibrahim", "jasmin", "karim", "karima", "laila", "leila", "lina", "malik",
    "malika", "mariam", "nadia", "omar", "rania", "rima", "sana", "soraya", "tariq", "yasmin",
    "yusuf", "zainab", "aarav", "aditya", "ananya", "anjali", "ankit", "arjun", "aryan", "ayaan",
    "deepa", "dev", "diya", "ishaan", "kavya", "krish", "kunal", "meera", "neha", "nikhil",
    "pooja", "priya", "rahul", "raj", "riya", "rohan", "sakshi", "shiv", "sunita", "varun", "veer",
    "yash", "zara", "akira", "chen", "fang", "hana", "haruto", "hiro", "kai", "kenji", "lei",
    "mei", "min", "ming", "ren", "ryo", "sakura", "sato", "wei", "xin", "yuki", "yuna", "zhang",
    "abena", "amara", "amina", "ayo", "chi", "chioma", "esi", "fatou", "imani", "kofi", "kwame",
    "nia", "obi", "ola", "sade", "seun", "yemi", "zola", "alexei", "anastasia", "bogdan", "dmitry",
    "ekaterina", "inna", "ivan", "katya", "ludmila", "mikhail", "natasha", "nina", "olga", "oleg",
    "sasha", "sonya", "tania", "tatiana", "yara", "yuri", "astrid", "bjorn", "erik", "freya",
    "gunnar", "hilde", "ingrid", "lars", "leif", "sigrid", "sven", "thor", "adonis", "agatha",
    "alexia", "callie", "daphne", "demetrios", "elektra", "evander", "giorgos", "irene",
    "katerina", "konstantinos", "nikos", "panos", "phoebe", "stavros", "thalia", "elia", "elias",
    "emre", "esra", "ezra", "gio", "lena", "levi", "mara", "noa", "nolan", "oren", "petra", "rene",
    "reza", "rio", "roma", "romi", "romy", "rona", "shira", "sol", "sula", "tamar", "tara", "teo",
    "yael"]

/-- All names of one or two letters and the popular ones are reserved. -/
def isReserved (name : String) : Bool :=
  (name.toList.all (·.isLower) && (name.length = 1 || name.length = 2))
    || popularNames.contains name

def isValidIdentityName (name : String) : Bool :=
  0 < name.utf8ByteSize && name.utf8ByteSize ≤ 63 && name.toList.head? ≠ some '-'
    && name.toList.getLast? ≠ some '-'
    && name.toList.all fun c => c.isLower || c.isDigit || c = '-'

/-! ## Identity names -/

def issuerAccount : String := "shindevlin"
def offerExpiryEpochs : ℕ := 2880
def identityOpenPhaseLimit : ℕ := 1000

def heldKey (account name : String) : String := s!"{account}:{name}"

def registeredCount (s : Chain) : ℕ := (s.stateGet .identityCount "").getD 0

def getNft (name : String) : Prog {} NameNft := do
  let found ← stateGet .nameNft name
  orBail found s!"name '{name}' is not minted"

theorem nameOwner_open :
    Family.nameOwner.guarded = false ∨ Family.nameOwner ∈ ({} : Footprint).grants :=
  .inl rfl

/-- The record and the owner index are written together. -/
def putNft (nft : NameNft) : Prog {} Unit := do
  stateSet .nameNft nft.name nft
  stateSet .nameOwner nft.name nft.owner nameOwner_open

/-- The record of a name, for its owner only. -/
def ownedNft (name caller : String) : Prog {} NameNft := do
  let nft ← getNft name
  ensure (nft.owner = caller) s!"'{caller}' does not own '{name}'"
  pure nft

def applyIdentityNftMint (p : IdentityNftMint) : Prog {} Unit := do
  touchAlive p.signedBy p.epoch
  ensureAccount p.signedBy p.epoch
  ensureAccount p.to_ p.epoch
  ensure (isValidIdentityName p.name) s!"'{p.name}' is not a valid identity name"
  let nft ← stateGet .nameNft p.name
  let owner ← stateGet .nameOwner p.name
  ensure (nft.isNone ∧ owner.isNone) s!"name '{p.name}' is already registered"
  let auction ← stateGet .nameAuctionActive p.name
  ensure auction.isNone s!"name '{p.name}' is in an active auction"
  ensure (p.to_ = p.signedBy ∨ p.signedBy = issuerAccount)
    "can only mint a name to your own account"
  ensure (¬ isReserved p.name ∨ p.signedBy = issuerAccount)
    s!"'{p.name}' is a reserved name â€” only {issuerAccount} can issue it"
  let count ← inspect registeredCount
  ensure (count < identityOpenPhaseLimit ∨ p.signedBy = issuerAccount)
    s!"name issuance is auction-only now â€” open a NameAuction for '{p.name}'"
  putNft ⟨p.name, p.to_, p.epoch, true, none, 0⟩
  stateSet .nameHeld (heldKey p.to_ p.name) ()
  stateSet .identityCount "" (wrapAdd count 1)

def applyIdentityNftTransfer (p : IdentityNftTransfer) : Prog {} Unit := do
  touchAlive p.from_ p.epoch
  ensureAccount p.from_ p.epoch
  ensureAccount p.to_ p.epoch
  let nft ← ownedNft p.name p.from_
  ensure nft.transferable s!"'{p.name}' is locked and can only move via recovery"
  ensure (p.from_ ≠ p.to_) "cannot transfer a name to its current owner"
  stateSet .namePending p.name ⟨p.from_, p.to_, p.epoch⟩

theorem accountName_open :
    Family.accountName.guarded = false ∨ Family.accountName ∈ ({} : Footprint).grants :=
  .inl rfl

/-- Drop the primary name of an account if it is this one. -/
def dropPrimary (account name : String) : Prog {} Unit := do
  let primary ← stateGet .accountName account
  when (primary = some name) (stateDelete .accountName account accountName_open)

/-! ### Credentials of a name -/

def sbtNameKey (name tokenId : String) : String := s!"{name}:{tokenId}"

/-- Void the holder-scoped ones among the tokens whose ids were found. -/
def stripTokens (name : String) : List String → Prog {} Unit
  | [] => pure ()
  | tokenId :: rest => do
    let found ← stateGet .sbt tokenId
    match found with
    | some t =>
      when (t.class_ = .holderScoped) do
        stateSet .sbt t.tokenId { t with stripped := true }
        stateDelete .sbtOn (sbtNameKey name tokenId)
    | none => pure ()
    stripTokens name rest

/-- The ids are read off the index keys: what stands after the last colon. -/
def stripHolderScoped (name : String) : Prog {} Unit := do
  let active ← stateScan .sbtOn s!"{name}:"
  stripTokens name (active.map fun kv => Text.lastPiece ':' kv.1)

/-- An accepted offer moves the name, clears its recovery and strips credentials. -/
def applyIdentityNftAccept (p : IdentityNftAccept) : Prog {} Unit := do
  touchAlive p.to_ p.epoch
  ensureAccount p.to_ p.epoch
  let found ← stateGet .namePending p.name
  let offer ← orBail found s!"no pending offer for '{p.name}'"
  ensure (offer.to_ = p.to_) s!"'{p.to_}' is not the offered recipient of '{p.name}'"
  when (satAdd offer.offeredEpoch offerExpiryEpochs < p.epoch) do
    stateDelete .namePending p.name
    bail s!"the transfer offer for '{p.name}' has expired"
  let nft ← getNft p.name
  when (¬ nft.transferable) do
    stateDelete .namePending p.name
    bail s!"'{p.name}' became locked after the offer â€” transfer is blocked"
  when (nft.owner ≠ offer.from_) do
    stateDelete .namePending p.name
    bail s!"offer for '{p.name}' is stale â€” owner changed"
  stateDelete .nameHeld (heldKey offer.from_ p.name)
  putNft { nft with owner := p.to_, recovery := none, transferable := true }
  stateSet .nameHeld (heldKey p.to_ p.name) ()
  dropPrimary offer.from_ p.name
  stateDelete .namePending p.name
  stripHolderScoped p.name

def applyIdentityNftReject (p : IdentityNftReject) : Prog {} Unit := do
  touchAlive p.signedBy p.epoch
  let found ← stateGet .namePending p.name
  let offer ← orBail found s!"no pending offer for '{p.name}'"
  ensure (p.signedBy = offer.to_ ∨ p.signedBy = offer.from_)
    s!"'{p.signedBy}' is not a party to the offer for '{p.name}'"
  stateDelete .namePending p.name

def applyIdentityNftSetPrimary (p : IdentityNftSetPrimary) : Prog {} Unit := do
  touchAlive p.account p.epoch
  ensureAccount p.account p.epoch
  let _ ← ownedNft p.name p.account
  stateSet .accountName p.account p.name accountName_open

/-- Walk the guardians in order; the first blank or repeated one is the error. -/
def checkGuardians : List String → List String → Option String
  | _, [] => none
  | seen, g :: rest =>
    if trim g = "" then some "empty guardian name"
    else if g ∈ seen then some s!"duplicate guardian '{g}'"
    else checkGuardians (g :: seen) rest

def validateRecovery (guardians : List String) (threshold : ℕ) (destination : String) :
    Option String :=
  if guardians = [] then some "recovery needs at least one guardian"
  else if 16 < guardians.length then some "too many guardians (max 16)"
  else (checkGuardians [] guardians).or
    (if threshold = 0 then some "threshold must be at least 1"
     else if guardians.length < threshold then some "threshold exceeds guardian count"
     else if trim destination = "" then some "recovery destination must be set"
     else none)

def applyIdentityNftSetRecovery (p : IdentityNftSetRecovery) : Prog {} Unit := do
  touchAlive p.signedBy p.epoch
  ensureAccount p.destination p.epoch
  let nft ← ownedNft p.name p.signedBy
  ensure nft.transferable s!"unlock '{p.name}' before changing its recovery configuration"
  match validateRecovery p.guardians p.threshold p.destination with
  | some e => bail e
  | none => pure ()
  putNft
    { nft with recovery := some ⟨p.guardians, p.threshold, p.destination, p.founderBackstop⟩ }

def applyIdentityNftLock (p : IdentityNftLock) : Prog {} Unit := do
  touchAlive p.signedBy p.epoch
  let nft ← ownedNft p.name p.signedBy
  ensure nft.recovery.isSome
    s!"set a recovery path before locking '{p.name}' (else it cannot be recovered)"
  putNft { nft with transferable := false }

def applyIdentityNftUnlock (p : IdentityNftUnlock) : Prog {} Unit := do
  touchAlive p.signedBy p.epoch
  let nft ← getNft p.name
  ensure (¬ nft.transferable) s!"'{p.name}' is not locked"
  ensure (p.seq = nft.recoverySeq) s!"stale recovery_seq for '{p.name}'"
  putNft { nft with transferable := true, recoverySeq := wrapAdd nft.recoverySeq 1 }

/-- Recovery moves the name to the fixed destination; the lock stays as it is. -/
def applyIdentityNftRecover (p : IdentityNftRecover) : Prog {} Unit := do
  touchAlive p.signedBy p.epoch
  let nft ← getNft p.name
  let recovery ← orBail nft.recovery s!"'{p.name}' has no recovery configured"
  ensure (p.seq = nft.recoverySeq) s!"stale recovery_seq for '{p.name}'"
  let bumped := { nft with recoverySeq := wrapAdd nft.recoverySeq 1 }
  if recovery.destination = nft.owner then putNft bumped
  else
    stateDelete .nameHeld (heldKey nft.owner p.name)
    putNft { bumped with owner := recovery.destination }
    stateSet .nameHeld (heldKey recovery.destination p.name) ()
    dropPrimary nft.owner p.name
    stateDelete .namePending p.name

def applyIdentityNftSetBackstop (p : IdentityNftSetBackstop) : Prog {} Unit := do
  touchAlive p.signedBy p.epoch
  let nft ← ownedNft p.name p.signedBy
  let recovery ← orBail nft.recovery s!"'{p.name}' has no recovery configured"
  ensure (¬ p.enabled ∨ nft.transferable)
    s!"unlock '{p.name}' before re-enabling the founder backstop"
  putNft { nft with recovery := some { recovery with founderBackstop := p.enabled } }

/-! ## Soulbound credentials -/

def SbtClass.parse : String → Except String SbtClass
  | "holder_scoped" | "holder" | "" => .ok .holderScoped
  | "provenance" => .ok .provenance
  | other => .error s!"unknown soulbound class '{other}'"

def getToken (tokenId : String) : Prog {} SoulboundToken := do
  let found ← stateGet .sbt tokenId
  orBail found s!"no soulbound token '{tokenId}'"

def applySoulboundIssue (p : SoulboundIssue) : Prog {} Unit := do
  touchAlive p.signedBy p.epoch
  ensureAccount p.signedBy p.epoch
  ensure (trim p.tokenId ≠ "") "empty token_id"
  let existing ← stateGet .sbt p.tokenId
  ensure existing.isNone s!"soulbound token '{p.tokenId}' already exists"
  let _ ← getNft p.name
  let class_ ← match SbtClass.parse p.class_ with
    | .ok c => pure c
    | .error e => bail e
  stateSet .sbt p.tokenId
    { tokenId := p.tokenId, name := p.name, issuer := p.signedBy, class_ := class_,
      walletBound := p.walletBound, data := p.data, issuedEpoch := p.epoch, accepted := false,
      revoked := false, stripped := false }
  stateSet .sbtPending (sbtNameKey p.name p.tokenId) ()

def applySoulboundAccept (p : SoulboundAccept) : Prog {} Unit := do
  touchAlive p.signedBy p.epoch
  let t ← getToken p.tokenId
  ensure (¬ t.accepted) s!"token '{p.tokenId}' already accepted"
  let nft ← getNft t.name
  ensure (nft.owner = p.signedBy)
    s!"only the current holder of '{t.name}' may accept this credential"
  stateSet .sbt t.tokenId { t with accepted := true }
  stateDelete .sbtPending (sbtNameKey t.name p.tokenId)
  stateSet .sbtOn (sbtNameKey t.name p.tokenId) ()

def applySoulboundReject (p : SoulboundReject) : Prog {} Unit := do
  touchAlive p.signedBy p.epoch
  let t ← getToken p.tokenId
  let nft ← stateGet .nameNft t.name
  ensure (nft.map (·.owner) = some p.signedBy ∨ p.signedBy = t.issuer)
    s!"only the holder of '{t.name}' or the issuer may reject this credential"
  stateDelete .sbtPending (sbtNameKey t.name p.tokenId)
  stateDelete .sbtOn (sbtNameKey t.name p.tokenId)
  stateDelete .sbt p.tokenId

def applySoulboundRevoke (p : SoulboundRevoke) : Prog {} Unit := do
  touchAlive p.signedBy p.epoch
  let t ← getToken p.tokenId
  ensure (p.signedBy = t.issuer) s!"only the issuer may revoke '{p.tokenId}'"
  stateSet .sbt t.tokenId { t with revoked := true }
  stateDelete .sbtOn (sbtNameKey t.name p.tokenId)
  stateDelete .sbtPending (sbtNameKey t.name p.tokenId)

end HoneNode
