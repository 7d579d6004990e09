import HoneNode.Lib.Text
import HoneNode.Lib.Kv
import Mathlib.Data.String.Basic

/-!
# Wallet — what a start keeps of `wallet.key`

A start loads the file, or overwrites it with a fresh derivation: from
`HONE_POSTING_KEY`, from an incomplete file or from a legacy one. A derivation
draws new nonces, so what an account has committed to with the old ones cannot
be opened any more, and an override draws them anew at every start. The keys are
kept where the mnemonic they came from is the one that is derived from.
-/

namespace HoneNode.Wallet

/-! ## The keys -/

/-- What `derive_all` derives from a mnemonic; `coins` has the fields of the other chains. -/
structure DerivedKeys where
  (honeOwnerPrivateKey honeOwnerPublicKey honeActivePrivateKey honeActivePublicKey : String)
  (honePrivateKey honePublicKey honeMemoPrivateKey honeMemoPublicKey : String)
  (honeHidePrivateKey honeHidePublicKey honeSeekPrivateKey honeSeekPublicKey : String)
  (xrpAddress suiAddress : String)
  (coins : Kv String String)

structure WalletKeys extends DerivedKeys where
  mnemonic : String
  chainNonces : Kv String String

/-- A mnemonic is its phrase. -/
structure Derivations where
  parseMnemonic : String → Except String String
  fromEntropy : List UInt8 → Except String String
  keys : String → Except String DerivedKeys

/-- What a start draws: a nonce for every chain, and the entropy of a new wallet. -/
structure Fresh where
  nonces : String → String
  entropy : List UInt8

/-- The text of `wallet.key`, as the two formats read it. `others` are HONE private keys in fields
that are not read. -/
inductive KeyFile where
  | absent
  | wallet (keys : WalletKeys) (others : List String)
  | legacy (mnemonic privateKey honePrivateKey : String) (others : List String)
      (nonces : Kv String String)
  | unreadable

/-! ## Derivation -/

/-- The count of `split_whitespace`. -/
def countWords : Bool → List Char → ℕ
  | _, [] => 0
  | inWord, c :: cs =>
    if Text.isSpace c then countWords false cs
    else (if inWord then 0 else 1) + countWords true cs

def chainNames : List String :=
  ["bitcoin", "ethereum", "xrp", "cosmos", "tron", "solana", "ton", "stellar", "near", "sui",
    "aptos"]

def drawNonces (fresh : Fresh) : Kv String String :=
  chainNames.foldl (fun nonces chain => nonces.put chain (fresh.nonces chain)) Kv.empty

variable (d : Derivations)

/-- `derive_all` without the nonces. -/
def deriveKeys (phrase : String) : Except String (String × DerivedKeys) :=
  (d.keys phrase).map (phrase, ·)

/-- The mnemonic that an input stands for. -/
def mnemonicOf (raw : String) : Except String String :=
  if 12 ≤ countWords false raw.toList then
    (d.parseMnemonic raw).mapError fun e => s!"invalid mnemonic: {e}"
  else if raw.utf8ByteSize = 64 then
    match Text.hexDecode raw with
    | some b => (d.fromEntropy b).mapError fun e => s!"entropy→mnemonic: {e}"
    | none => .error "hex decode"
  else .error "expected 12-word mnemonic or 64-char hex private key"

/-- What an input restores, the nonces apart. -/
def restored (raw : String) : Except String (String × DerivedKeys) :=
  (mnemonicOf d raw).bind (deriveKeys d)

def withNonces (fresh : Fresh) (k : String × DerivedKeys) : WalletKeys :=
  { k.2 with mnemonic := k.1, chainNonces := drawNonces fresh }

def restoreFromInput (fresh : Fresh) (raw : String) : Except String WalletKeys :=
  (restored d raw).map (withNonces fresh)

def generateFresh (fresh : Fresh) : Except String WalletKeys :=
  (((d.fromEntropy fresh.entropy).mapError fun e => s!"mnemonic gen: {e}").bind (deriveKeys d)).map
    (withNonces fresh)

/-! ## The start -/

/-- A derivation that is saved over the file. -/
def overwrite (file : KeyFile) : Except String WalletKeys → Except String WalletKeys × KeyFile
  | .ok keys => (.ok keys, .wallet keys [])
  | .error e => (.error e, file)

def incomplete (keys : DerivedKeys) : Bool :=
  decide (keys.xrpAddress = "") || decide (keys.suiAddress = "") ||
    decide (keys.honeOwnerPublicKey = "")

def load (fresh : Fresh) (file : KeyFile) : Except String WalletKeys × KeyFile :=
  match file with
  | .wallet keys _ =>
    if incomplete keys.toDerivedKeys then overwrite file (restoreFromInput d fresh keys.mnemonic)
    else (.ok keys, file)
  | .legacy mnemonic privateKey honePrivateKey _ _ =>
    match [mnemonic, privateKey, honePrivateKey].find? (· ≠ "") with
    | some input => overwrite file
        ((restoreFromInput d fresh input).mapError fun _ => "upgrade legacy wallet.key")
    | none => (.error "legacy wallet.key has no usable key field", file)
  | .unreadable =>
    (.error "wallet.key is unreadable — move it aside and restart to generate a fresh wallet", file)
  | .absent => overwrite file (generateFresh d fresh)

/-- `postingKey` is `HONE_POSTING_KEY`. -/
def init (postingKey : Option String) (fresh : Fresh) (file : KeyFile) :
    Except String WalletKeys × KeyFile :=
  match postingKey.map fun raw => restoreFromInput d fresh (Text.trim raw) with
  | some (.ok keys) => (.ok keys, .wallet keys [])
  | _ => load d fresh file

/-! ## What should be kept -/

def honePrivateKeys (keys : DerivedKeys) : List String :=
  [keys.honeOwnerPrivateKey, keys.honeActivePrivateKey, keys.honePrivateKey,
    keys.honeMemoPrivateKey, keys.honeHidePrivateKey, keys.honeSeekPrivateKey]

/-- The mnemonics and HONE private keys in the file. -/
def secretsOf : KeyFile → List String
  | .wallet keys others =>
    (keys.mnemonic :: honePrivateKeys keys.toDerivedKeys ++ others).filter (· ≠ "")
  | .legacy mnemonic privateKey honePrivateKey others _ =>
    (mnemonic :: privateKey :: honePrivateKey :: others).filter (· ≠ "")
  | _ => []

def noncesOf : KeyFile → Kv String String
  | .wallet keys _ => keys.chainNonces
  | .legacy _ _ _ _ nonces => nonces
  | _ => Kv.empty

/-- The secret is the mnemonic, maybe in another spelling, or one of the keys it derives. -/
def Derivable (phrase secret : String) : Prop :=
  secret = phrase ∨ d.parseMnemonic secret = .ok phrase ∨
    ∃ keys, d.keys phrase = .ok keys ∧ secret ∈ honePrivateKeys keys

/-- The secret is in the file, or derivable from the mnemonic in it. -/
def Held (file : KeyFile) (secret : String) : Prop :=
  secret ∈ secretsOf file ∨ ∃ keys others, file = .wallet keys others ∧
    Derivable d keys.mnemonic secret

structure Kept (postingKey : Option String) (file : KeyFile) (keys : WalletKeys) (file' : KeyFile) :
    Prop where
  secrets : ∀ secret ∈ secretsOf file, Held d file' secret
  nonces : ∀ chain nonce, (noncesOf file).get chain = some nonce →
    (noncesOf file').get chain = some nonce
  again : ∀ fresh, (init d postingKey fresh file').1 = .ok keys

/-- Whatever is drawn, a start that succeeds loses nothing. -/
def Safe (postingKey : Option String) (file : KeyFile) : Prop :=
  ∀ fresh keys file', init d postingKey fresh file = (.ok keys, file') →
    Kept d postingKey file keys file'

/-! ## When it is kept -/

/-- The input from which a file that is not loaded as it is would be derived anew. -/
def rewriteInput : KeyFile → Option String
  | .wallet keys _ => if incomplete keys.toDerivedKeys then some keys.mnemonic else none
  | .legacy mnemonic privateKey honePrivateKey _ _ =>
    [mnemonic, privateKey, honePrivateKey].find? (· ≠ "")
  | _ => none

/-- The environment overrides nothing, and a file that would be rewritten has no nonces and no
secrets but what derives from the mnemonic that its input stands for. -/
structure KeptWhen (postingKey : Option String) (file : KeyFile) : Prop where
  noOverride : ∀ raw, postingKey = some raw → ∀ k, restored d (Text.trim raw) ≠ .ok k
  rewritable : ∀ input, rewriteInput file = some input → ∀ k, restored d input = .ok k →
    (∀ chain, (noncesOf file).get chain = none) ∧
      ∀ secret ∈ secretsOf file, Derivable d k.1 secret

section Start

variable {d} {postingKey : Option String} {fresh : Fresh} {file file' : KeyFile}
  {keys : WalletKeys}

theorem init_of_noOverride
    (h : ∀ raw, postingKey = some raw → ∀ k, restored d (Text.trim raw) ≠ .ok k)
    (fresh : Fresh) (file : KeyFile) : init d postingKey fresh file = load d fresh file := by
  unfold init
  cases postingKey with
  | none => rfl
  | some raw =>
    unfold restoreFromInput
    cases hrestored : restored d (Text.trim raw) with
    | ok k => exact absurd hrestored (h raw rfl k)
    | error e => simp only [Option.map_some, hrestored]; rfl

variable {others : List String} {k : String × DerivedKeys}

theorem init_of_override {raw : String}
    (h : restored d (Text.trim raw) = .ok k) (fresh : Fresh) (file : KeyFile) :
    init d (some raw) fresh file =
      (.ok (withNonces fresh k), .wallet (withNonces fresh k) []) := by
  unfold init restoreFromInput
  simp only [Option.map_some, h]
  rfl

theorem get_drawNonces (chain : String) : (drawNonces fresh).get chain =
    if chain ∈ chainNames then some (fresh.nonces chain) else none := by
  have hfold : ∀ (names : List String) (nonces : Kv String String),
      (names.foldl (fun nonces chain => nonces.put chain (fresh.nonces chain)) nonces).get chain =
        if chain ∈ names then some (fresh.nonces chain) else nonces.get chain := by
    intro names
    induction names with
    | nil => exact fun _ => rfl
    | cons name rest ih =>
      intro nonces
      rw [List.foldl_cons, ih]
      by_cases hrest : chain ∈ rest
      · rw [if_pos hrest, if_pos (List.mem_cons_of_mem _ hrest)]
      · rw [if_neg hrest]
        by_cases hname : name = chain
        · rw [if_pos (List.mem_cons.2 (.inl hname.symm)), hname, Kv.get_put_self]
        · rw [Kv.get_put_of_ne _ _ hname, if_neg]
          intro hmem
          rcases List.mem_cons.1 hmem with heq | hmem
          · exact hname heq.symm
          · exact hrest hmem
  exact hfold chainNames Kv.empty

/-- A draw that differs from a nonce at every chain. -/
theorem exists_drawn_ne (nonce : String) :
    ∃ fresh : Fresh, ∀ chain, (drawNonces fresh).get chain ≠ some nonce := by
  refine ⟨⟨fun _ => nonce ++ "0", []⟩, fun chain heq => ?_⟩
  rw [get_drawNonces] at heq
  split at heq
  · have hlength := congrArg String.length (Option.some.inj heq)
    rw [String.length_append] at hlength
    have hone : "0".length = 1 := by decide
    omega
  · cases heq

theorem mem_secretsOf_wallet {secret : String} :
    secret ∈ secretsOf (.wallet keys others) ↔ secret ≠ "" ∧
      (secret = keys.mnemonic ∨ secret ∈ honePrivateKeys keys.toDerivedKeys ∨ secret ∈ others) := by
  unfold secretsOf
  rw [List.mem_filter, List.mem_append, List.mem_cons, decide_eq_true_eq, or_assoc, and_comm]

theorem ne_of_mem_secretsOf {secret : String} (h : secret ∈ secretsOf file) : secret ≠ "" := by
  cases file with
  | absent => cases h
  | unreadable => cases h
  | wallet keys others => exact (mem_secretsOf_wallet.1 h).1
  | legacy mnemonic privateKey honePrivateKey others nonces =>
    exact of_decide_eq_true (List.mem_filter.1 h).2

theorem keys_of_restored {raw : String} (h : restored d raw = .ok k) :
    d.keys k.1 = .ok k.2 := by
  unfold restored at h
  cases hmnemonic : mnemonicOf d raw with
  | error e =>
    rw [hmnemonic] at h
    cases h
  | ok phrase =>
    rw [hmnemonic] at h
    change (d.keys phrase).map (phrase, ·) = .ok k at h
    cases hkeys : d.keys phrase with
    | error e =>
      rw [hkeys] at h
      cases h
    | ok derived =>
      rw [hkeys] at h
      cases h
      exact hkeys

/-- After a rewrite exactly the derivable secrets are held. -/
theorem held_withNonces (hkeys : d.keys k.1 = .ok k.2) {secret : String} :
    Held d (.wallet (withNonces fresh k) []) secret ↔ Derivable d k.1 secret := by
  constructor
  · rintro (hmem | ⟨keys, others, heq, hderivable⟩)
    · rcases (mem_secretsOf_wallet.1 hmem).2 with heq | hmem | hmem
      · exact .inl heq
      · exact .inr (.inr ⟨k.2, hkeys, hmem⟩)
      · cases hmem
    · cases heq
      exact hderivable
  · exact fun hderivable => .inr ⟨_, _, rfl, hderivable⟩

theorem overwrite_eq_ok {r : Except String WalletKeys} :
    overwrite file r = (.ok keys, file') ↔ r = .ok keys ∧ file' = .wallet keys [] := by
  cases r with
  | error e => exact iff_of_false (fun h => by cases h) fun h => by cases h.1
  | ok keys' =>
    constructor
    · intro h
      cases h
      exact ⟨rfl, rfl⟩
    · rintro ⟨heq, rfl⟩
      cases heq
      rfl

theorem restoreFromInput_eq_ok {raw : String} : restoreFromInput d fresh raw = .ok keys ↔
    ∃ k, restored d raw = .ok k ∧ keys = withNonces fresh k := by
  unfold restoreFromInput
  cases restored d raw with
  | error e => exact iff_of_false (fun h => by cases h) fun ⟨_, h, _⟩ => by cases h
  | ok k =>
    constructor
    · intro h
      cases h
      exact ⟨k, rfl, rfl⟩
    · rintro ⟨k', heq, rfl⟩
      cases heq
      rfl

theorem mapError_eq_ok {α ε ε' : Type} {f : ε → ε'} {r : Except ε α} {a : α} :
    r.mapError f = .ok a ↔ r = .ok a := by
  cases r with
  | error e => exact iff_of_false (fun h => by cases h) fun h => by cases h
  | ok b => exact ⟨fun h => by cases h; rfl, fun h => by cases h; rfl⟩

theorem load_of_complete (h : incomplete keys.toDerivedKeys = false)
    (fresh : Fresh) : load d fresh (.wallet keys others) = (.ok keys, .wallet keys others) := by
  unfold load
  dsimp only
  rw [h, if_neg Bool.false_ne_true]

/-- A file that is derived anew, from whatever input. -/
theorem load_of_rewrite {input : String} (h : rewriteInput file = some input) (fresh : Fresh) :
    load d fresh file = (.ok keys, file') ↔
      restoreFromInput d fresh input = .ok keys ∧ file' = .wallet keys [] := by
  cases file with
  | absent => cases h
  | unreadable => cases h
  | wallet old others =>
    change (if incomplete old.toDerivedKeys = true then some old.mnemonic else none) = some input
      at h
    by_cases hincomplete : incomplete old.toDerivedKeys = true
    · rw [if_pos hincomplete] at h
      cases h
      unfold load
      dsimp only
      rw [if_pos hincomplete]
      exact overwrite_eq_ok
    · rw [if_neg hincomplete] at h
      cases h
  | legacy mnemonic privateKey honePrivateKey others nonces =>
    unfold rewriteInput at h
    unfold load
    dsimp only at h ⊢
    rw [h]
    exact overwrite_eq_ok.trans (and_congr_left' mapError_eq_ok)

/-- What a successful load gives back: the old file, complete, or one that is derived anew. -/
theorem load_eq_ok (h : load d fresh file = (.ok keys, file')) :
    (∃ others, file = .wallet keys others ∧ file' = file ∧
      incomplete keys.toDerivedKeys = false) ∨
    ∃ k, d.keys k.1 = .ok k.2 ∧ keys = withNonces fresh k ∧ file' = .wallet keys [] ∧
      (file = .absent ∨ ∃ input, rewriteInput file = some input ∧ restored d input = .ok k) := by
  cases hrewrite : rewriteInput file with
  | some input =>
    obtain ⟨hrestore, hfile⟩ := (load_of_rewrite hrewrite fresh).1 h
    obtain ⟨k, hrestored, hkeys⟩ := restoreFromInput_eq_ok.1 hrestore
    exact .inr ⟨k, keys_of_restored hrestored, hkeys, hfile, .inr ⟨input, rfl, hrestored⟩⟩
  | none =>
    cases file with
    | unreadable => cases h
    | legacy mnemonic privateKey honePrivateKey others nonces =>
      unfold rewriteInput at hrewrite
      unfold load at h
      dsimp only at h hrewrite
      rw [hrewrite] at h
      cases h
    | wallet old others =>
      change (if incomplete old.toDerivedKeys = true then some old.mnemonic else none) = none
        at hrewrite
      by_cases hcomplete : incomplete old.toDerivedKeys = true
      · rw [if_pos hcomplete] at hrewrite
        cases hrewrite
      · rw [Bool.not_eq_true] at hcomplete
        rw [load_of_complete hcomplete] at h
        cases h
        exact .inl ⟨others, rfl, rfl, hcomplete⟩
    | absent =>
      obtain ⟨hfresh, hfile⟩ := overwrite_eq_ok.1 h
      unfold generateFresh at hfresh
      cases hentropy : d.fromEntropy fresh.entropy with
      | error e =>
        rw [hentropy] at hfresh
        cases hfresh
      | ok phrase =>
        rw [hentropy] at hfresh
        change ((d.keys phrase).map (phrase, ·)).map (withNonces fresh) = .ok keys at hfresh
        cases hkeys : d.keys phrase with
        | error e =>
          rw [hkeys] at hfresh
          cases hfresh
        | ok derived =>
          rw [hkeys] at hfresh
          cases hfresh
          exact .inr ⟨(phrase, derived), hkeys, rfl, hfile, .inl rfl⟩

/-- A start loses nothing, whatever it draws, exactly if the environment overrides nothing and a
file that is derived anew has no nonces and only secrets that derive from its own mnemonic. -/
theorem start_keeps_iff (hfull : ∀ phrase derived, d.keys phrase = .ok derived →
    incomplete derived = false) :
    Safe d postingKey file ↔ KeptWhen d postingKey file := by
  constructor
  · intro hsafe
    have hnone : ∀ raw, postingKey = some raw → ∀ k, restored d (Text.trim raw) ≠ .ok k := by
      rintro raw rfl k hrestored
      obtain ⟨fresh', hdrawn⟩ := exists_drawn_ne ""
      have hagain := (hsafe ⟨fun _ => "", []⟩ _ _ (init_of_override hrestored _ _)).again fresh'
      rw [init_of_override hrestored] at hagain
      have hnonces := congrArg WalletKeys.chainNonces (Except.ok.inj hagain)
      refine hdrawn "bitcoin" ?_
      change (withNonces fresh' k).chainNonces.get "bitcoin" = some ""
      rw [hnonces]
      exact (get_drawNonces "bitcoin").trans (if_pos List.mem_cons_self)
    refine ⟨hnone, fun input hinput k hrestored => ?_⟩
    have hkept : ∀ fresh, Kept d postingKey file (withNonces fresh k)
        (.wallet (withNonces fresh k) []) := by
      intro fresh
      refine hsafe fresh _ _ ?_
      rw [init_of_noOverride hnone]
      exact (load_of_rewrite hinput fresh).2
        ⟨restoreFromInput_eq_ok.2 ⟨k, hrestored, rfl⟩, rfl⟩
    constructor
    · intro chain
      by_contra hsome
      obtain ⟨nonce, hnonce⟩ := Option.ne_none_iff_exists'.1 hsome
      obtain ⟨fresh, hdrawn⟩ := exists_drawn_ne nonce
      exact hdrawn chain ((hkept fresh).nonces chain nonce hnonce)
    · intro secret hsecret
      exact (held_withNonces (keys_of_restored hrestored)).1
        ((hkept ⟨fun _ => "", []⟩).secrets secret hsecret)
  · intro hwhen fresh keys file' hinit
    have hload : load d fresh file = (.ok keys, file') := by
      rw [← init_of_noOverride hwhen.noOverride]
      exact hinit
    have hagain : ∀ others, incomplete keys.toDerivedKeys = false → ∀ fresh,
        (init d postingKey fresh (.wallet keys others)).1 = .ok keys := by
      intro others hcomplete fresh
      rw [init_of_noOverride hwhen.noOverride, load_of_complete hcomplete]
    rcases load_eq_ok hload with ⟨others, rfl, rfl, hcomplete⟩ | ⟨k, hkeys, rfl, rfl, hfrom⟩
    · exact ⟨fun secret hsecret => .inl hsecret, fun _ _ h => h, hagain others hcomplete⟩
    · refine ⟨fun secret hsecret => ?_, fun chain nonce hnonce => ?_, hagain [] (hfull _ _ hkeys)⟩
      · rcases hfrom with rfl | ⟨input, hinput, hrestored⟩
        · cases hsecret
        · exact (held_withNonces hkeys).2
            ((hwhen.rewritable input hinput k hrestored).2 secret hsecret)
      · rcases hfrom with rfl | ⟨input, hinput, hrestored⟩
        · cases hnonce
        · rw [(hwhen.rewritable input hinput k hrestored).1 chain] at hnonce
          cases hnonce

/-- The phrase of the example that every wallet knows. -/
@[irreducible] def samplePhrase : String :=
  "abandon abandon abandon abandon abandon abandon abandon abandon abandon abandon abandon about"

@[irreducible] def sampleKeys : DerivedKeys where
  honeOwnerPrivateKey := "6efe033bf02d91d759945b888164902eee16af8ab687df27621a3412ca104f09"
  honeOwnerPublicKey := "0bb8225702ae2da8f1f1f62e4fef99d1c443d973493a9d0b3c4c7de1b9e0cfd8"
  honeActivePrivateKey := "200e8294d145fd9d2072b6a5cf54652d1542f1ff2c16312c722c8d0d7003e0a8"
  honeActivePublicKey := "fceda1c9a97bd836688d965950e9b3859c28bc0d29a80d2fd1e8a00975f338ff"
  honePrivateKey := "1e71aa48f0bbe0f4996fbac4615c7e9a35161cb3658d81ad9e1ce34610f55890"
  honePublicKey := "384a1366807f176c55a729d1a7fea6085386b48019b3fa536c1dfa006177116e"
  honeMemoPrivateKey := "27e1e999a33e0fc292585f29da18bcf5714db405008b51c73c6fef273a64d52e"
  honeMemoPublicKey := "35319350336e17047c9985e63f10d3deba09fd5e045cd077f0a07d7f176f4f0c"
  honeHidePrivateKey := "d858a56fbc51ab4141d9d4083867f19f5f8c9780c5fc7e20e73878a1b889a2c1"
  honeHidePublicKey := "cf3903005beabe5c07f23ac0bf928021d573d063e3137d1047d728713199dc42"
  honeSeekPrivateKey := "38edfbeddeeddf09b2cb8362e1f88011969550d65b810f3be276b2e2ca6271e5"
  honeSeekPublicKey := "0cf53ab08dba98241cb4498a1249e2941c758a0ec58035e25b96eafd7e12f8cc"
  xrpAddress := "1H3MGQFkVEJm2GW3nXCBoTBrwwbAxZEiv8"
  suiAddress := "0xdfd6914c9e8f2d2485eb34ce3a4997d15352cd9e2fca6425717815259aeb2459"
  coins := Kv.empty.put "sui_private_key"
    "4f7468b4e5fc28808160d47a05123fdbaa218c4dc17fb7785ab939d7578997fb"

/-- Derivations that know one mnemonic. -/
def sampleDerivations : Derivations where
  parseMnemonic raw :=
    if raw = samplePhrase then .ok samplePhrase else .error "mnemonic contains an unknown word"
  fromEntropy _ := .error "unknown entropy"
  keys phrase := if phrase = samplePhrase then .ok sampleKeys else .error "unknown mnemonic"

theorem sampleDerivations_keys : sampleDerivations.keys samplePhrase = .ok sampleKeys := by
  unfold sampleDerivations
  exact if_pos rfl

theorem sampleDerivations_full {phrase : String} {derived : DerivedKeys}
    (h : sampleDerivations.keys phrase = .ok derived) : incomplete derived = false := by
  unfold sampleDerivations at h
  dsimp only at h
  split at h
  · cases h
    unfold incomplete sampleKeys
    simp
  · cases h

theorem restored_sample :
    restored sampleDerivations samplePhrase = .ok (samplePhrase, sampleKeys) := by
  have hwords : 12 ≤ countWords false samplePhrase.toList := by
    unfold samplePhrase
    decide +kernel
  have hparse : sampleDerivations.parseMnemonic samplePhrase = .ok samplePhrase := by
    unfold sampleDerivations
    exact if_pos rfl
  unfold restored mnemonicOf
  rw [if_pos hwords, hparse]
  change (sampleDerivations.keys samplePhrase).map (samplePhrase, ·) = _
  rw [sampleDerivations_keys]
  rfl

/-- An older file with a mnemonic is derived from it. -/
theorem rewriteInput_sample {privateKey honePrivateKey : String} {nonces : Kv String String} :
    rewriteInput (.legacy samplePhrase privateKey honePrivateKey others nonces) =
      some samplePhrase := by
  have hne : samplePhrase ≠ "" := by
    unfold samplePhrase
    simp
  unfold rewriteInput
  exact List.find?_cons_of_pos (p := fun s => decide (s ≠ "")) (decide_eq_true hne)

/-- A wallet from before the nonces: its posting key comes from its mnemonic. -/
theorem start_keeps_iff_migrated : Safe sampleDerivations none
    (.legacy samplePhrase "" sampleKeys.honePrivateKey [] Kv.empty) := by
  refine (start_keeps_iff fun _ _ => sampleDerivations_full).2 ⟨nofun, fun input hinput k hk => ?_⟩
  rw [rewriteInput_sample] at hinput
  cases hinput
  rw [restored_sample] at hk
  cases hk
  refine ⟨fun _ => rfl, fun secret hsecret => ?_⟩
  have hmem := (List.mem_filter.1 hsecret).1
  rcases List.mem_cons.1 hmem with rfl | hmem
  · exact .inl rfl
  rcases List.mem_cons.1 hmem with rfl | hmem
  · exact absurd rfl (ne_of_mem_secretsOf hsecret)
  · rw [List.mem_singleton.1 hmem]
    exact .inr (.inr ⟨sampleKeys, sampleDerivations_keys, by simp [honePrivateKeys]⟩)

/-- A wallet from before the newest chains, with a nonce that its account is committed to. -/
def committedFile : KeyFile :=
  .legacy samplePhrase "" sampleKeys.honePrivateKey []
    (Kv.empty.put "bitcoin" "00112233445566778899aabbccddeeff")

def drawn : Fresh := ⟨fun _ => "ffeeddccbbaa99887766554433221100", []⟩

/-- The migration of the wallet draws another nonce. -/
theorem migration_redraws_nonce :
    init sampleDerivations none drawn committedFile =
      (.ok (withNonces drawn (samplePhrase, sampleKeys)),
        .wallet (withNonces drawn (samplePhrase, sampleKeys)) []) ∧
    (noncesOf committedFile).get "bitcoin" = some "00112233445566778899aabbccddeeff" ∧
    (drawNonces drawn).get "bitcoin" = some "ffeeddccbbaa99887766554433221100" ∧
    ¬ Safe sampleDerivations none committedFile := by
  have hrestore : restoreFromInput sampleDerivations drawn samplePhrase =
      .ok (withNonces drawn (samplePhrase, sampleKeys)) :=
    restoreFromInput_eq_ok.2 ⟨_, restored_sample, rfl⟩
  have hinput : rewriteInput committedFile = some samplePhrase := rewriteInput_sample
  have hinit : init sampleDerivations none drawn committedFile =
      (.ok (withNonces drawn (samplePhrase, sampleKeys)),
        .wallet (withNonces drawn (samplePhrase, sampleKeys)) []) :=
    (load_of_rewrite hinput drawn).2 ⟨hrestore, rfl⟩
  have hnew : (drawNonces drawn).get "bitcoin" = some "ffeeddccbbaa99887766554433221100" :=
    (get_drawNonces "bitcoin").trans (if_pos List.mem_cons_self)
  have hold : (noncesOf committedFile).get "bitcoin" = some "00112233445566778899aabbccddeeff" :=
    Kv.get_put_self _ _ _
  refine ⟨hinit, hold, hnew, fun hsafe => ?_⟩
  have hkept := (hsafe drawn _ _ hinit).nonces "bitcoin" _ hold
  have hsame := hnew.symm.trans hkept
  simp at hsame

end Start

end HoneNode.Wallet
