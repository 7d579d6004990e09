import HoneNode.Apply.Accounts
import HoneNode.Apply.Names
import HoneNode.Tx.Message

/-!
# Tx.Checks — the checks an entry goes through before it is applied

Each arm of `validate_and_apply` is a list of checks in the order of the source;
they read the chain and write nothing. A key that is not registered is skipped,
so a passed `signature` check says something only when the account has the key.
-/

namespace HoneNode.Tx

/-! ## Keys and signatures -/

/-- A key slot that is set. -/
def keyOf (s : Chain) (account role : String) : Option String :=
  ((s.getAccount account).bind (·.keys.get role)).filter (· ≠ "")

/-- The key that a signature in a role is checked against; the owner role falls back to
the posting key. -/
def signingKey (s : Chain) (account role : String) : Option String :=
  if role = "owner" then (keyOf s account "owner").or (keyOf s account "posting")
  else keyOf s account role

/-- The error texts in which the signature checks differ. -/
structure SigTexts where
  (missing keyHex keyLength keyInvalid failed : String)

/-- A signature is given and verifies strictly under the hex key. -/
def verifyHex (env : Env) (t : SigTexts) (pubkeyHex : String) (sig : Option String)
    (message : String) : Except String Unit :=
  match sig.filter (· ≠ "") with
  | none => .error t.missing
  | some sigStr => match hexDecode pubkeyHex with
    | none => .error t.keyHex
    | some pk =>
      if pk.length ≠ 32 then .error t.keyLength
      else match env.keyError pk with
        | some e => .error (t.keyInvalid ++ e)
        | none => match hexDecode sigStr with
          | none => .error "signature is not valid hex"
          | some sigBytes =>
            if sigBytes.length ≠ 64 then .error "signature must be 64 bytes"
            else match env.verifyError pk (Text.bytes message) sigBytes with
              | some e => .error (t.failed ++ e)
              | none => .ok ()

/-- The role's key is not set, or the signature verifies under it. -/
def checkSignature (env : Env) (s : Chain) (account : String) (e : LedgerEntry)
    (sig : Option String) (role : String) : Except String Unit :=
  match signingKey s account role with
  | none => .ok ()
  | some pk => verifyHex env
      ⟨s!"signature required for account '{account}'",
        s!"stored key '{role}' for '{account}' is not valid hex",
        s!"stored key '{role}' must be 32 bytes", "invalid ed25519 public key: ",
        "signature verification failed: "⟩ pk sig (canonicalSigningMessage env e)

def checkAccountCreateSignature (env : Env) (e : LedgerEntry) (sig : Option String)
    (ownerKey : String) : Except String Unit :=
  verifyHex env
    ⟨"signature required for account creation", "owner key is not valid hex",
      "owner key must be 32 bytes", "invalid owner ed25519 public key: ",
      "account creation signature verification failed: "⟩ ownerKey sig
    (canonicalSigningMessage env e)

def verifyAgainstPubkey (env : Env) (pubkeyHex : String) (e : LedgerEntry)
    (sig : Option String) : Except String Unit :=
  verifyHex env
    ⟨"signature required (device-signed sensor entry)", "device pubkey is not valid hex",
      "device pubkey must be 32 bytes", "invalid device ed25519 public key: ",
      "device signature verification failed: "⟩ pubkeyHex sig (canonicalSigningMessage env e)

/-- A value move needs the active key, or the owner key where there is none. -/
def checkValueSignature (env : Env) (s : Chain) (account : String) (e : LedgerEntry)
    (sig : Option String) : Except String Unit :=
  if (s.getAccount account).isNone then .error s!"unknown account '{account}' cannot sign"
  else match (keyOf s account "active").or (keyOf s account "owner") with
    | none => .error (s!"'{account}' has no active or owner key â€” a posting key cannot "
        ++ "authorise a value move; register an active key first")
    | some pk => verifyAgainstPubkey env pk e sig

/-- The laxer check of a clock node against the key its registration carries. -/
def verifyEmbedded (env : Env) (pubkeyHex : String) (e : LedgerEntry) (sig : Option String) :
    Except String Unit :=
  match sig.filter (· ≠ "") with
  | none => .error "signature required for ClockNodeRegister"
  | some sigStr => match hexDecode pubkeyHex with
    | none => .error "invalid pubkey hex"
    | some pk =>
      if pk.length ≠ 32 then .error "pubkey must be 32 bytes"
      else match env.keyError pk with
        | some err => .error ("invalid ed25519 pubkey: " ++ err)
        | none => match hexDecode sigStr with
          | none => .error "invalid signature hex"
          | some sigBytes =>
            if sigBytes.length ≠ 64 then .error "signature must be 64 bytes"
            else if env.verifyLax pk (Text.bytes (canonicalSigningMessage env e)) sigBytes then
              .ok ()
            else .error "signature invalid against embedded pubkey"

/-- Accounts with a record need a posting key; the protocol's own do not. -/
def requireKey (s : Chain) (account : String) : Except String Unit :=
  if account ∈ stakeExemptAccounts ∨ (s.getAccount account).isNone
      ∨ (keyOf s account "posting").isSome then .ok ()
  else .error s!"account '{account}' has no posting key registered — submit AccountUpdateKey first"

def checkNonce (s : Chain) (account : String) (submitted : ℕ) : Except String Unit :=
  if submitted = s.expectedNonce account then .ok ()
  else .error s!"invalid nonce: got {submitted}, expected {s.expectedNonce account}"

/-- The second factor a key slot asks for. The recovered address is not compared. -/
def checkSlot2fa (env : Env) (s : Chain) (account role : String) (e : LedgerEntry) (epoch : ℕ)
    (twofactor : Option TwoFactor) : Except String Unit :=
  match s.getAccount account with
  | none => .ok ()
  | some r => match r.keyPolicies.get role with
    | none => .ok ()
    | some chain => match twofactor with
      | none => .error s!"key slot '{role}' on '{account}' requires 2FA from chain '{chain}'"
      | some tf =>
        if tf.chain ≠ chain then
          .error s!"2FA chain mismatch: slot '{role}' requires '{chain}' but got '{tf.chain}'"
        else
          let hash := env.entryHash e
          match env.recoverChainAddress chain s!"hone:2fa:{hash}:{epoch}" tf.signature with
          | .error err => .error s!"2FA signature verification failed: {err}"
          | .ok _ =>
            if (r.chainProofs.get chain).isSome then .ok ()
            else .error
              s!"no '{chain}' chain proof on account '{account}' — link the chain first"

/-! ## Delegation and recovery -/

/-- Whether `delegate` holds the capability from `grantor` in `epoch`. -/
def hasDelegation (s : Chain) (grantor delegate capability : String) (epoch : ℕ) : Bool :=
  match s.stateGet .delegation (delegationKey grantor delegate) with
  | some d => epoch ≤ d.expiresEpoch && d.capabilities.any fun c => c = capability || c = "all"
  | none => false

def identityFounderAccounts : List String := ["shindevlin", "josh", "natoshisakamoto"]
def identityFounderThreshold : ℕ := 2

/-- The accounts whose value signature on the entry verifies, without repeats. -/
def recoverySigners (env : Env) (s : Chain) (e : LedgerEntry) (primary : String)
    (primarySig : Option String) (cosignatures : List (String × String)) : List String :=
  let first := if primarySig.isSome
      ∧ (checkValueSignature env s primary e primarySig).isOk then [primary] else []
  let rest := cosignatures.filter fun c =>
    c.1 ≠ primary && (checkValueSignature env s c.1 e (some c.2)).isOk
  (first ++ rest.map (·.1)).dedup

/-- Enough guardians signed, or enough founders where the backstop is on. -/
def verifyRecoveryAuthority (env : Env) (s : Chain) (e : LedgerEntry) (r : Recovery)
    (primary : String) (primarySig : Option String) (cosignatures : List (String × String)) :
    Except String Unit :=
  let valid := recoverySigners env s e primary primarySig cosignatures
  if r.threshold ≤ (r.guardians.filter (· ∈ valid)).length then .ok ()
  else if r.founderBackstop
      ∧ identityFounderThreshold ≤ (valid.filter (· ∈ identityFounderAccounts)).length then .ok ()
  else
    let guardians := r.guardians.length
    let founders := if r.founderBackstop then s!" or {identityFounderThreshold} founders" else ""
    .error s!"recovery not authorized: need {r.threshold} of {guardians} guardians{founders}"

/-! ## Lists of checks -/

inductive Check where
  | holds (c : Bool) (msg : String)
  | requireKey (account : String)
  | nonce (account : String) (n : ℕ)
  | signature (account role : String) (sig : Option String)
  | valueSignature (account : String) (sig : Option String)
  | createSignature (ownerKey : String) (sig : Option String)
  | activeOrPosting (account : String) (sig : Option String)
  | embeddedKey (pubkey : String) (sig : Option String)
  | slot2fa (account role : String) (epoch : ℕ) (twofactor : Option TwoFactor)
  | recovery (r : Recovery) (primary : String) (sig : Option String)
      (cosignatures : List (String × String))

def Check.run (env : Env) (s : Chain) (e : LedgerEntry) : Check → Except String Unit
  | .holds c msg => if c then .ok () else .error msg
  | .requireKey account => Tx.requireKey s account
  | .nonce account n => checkNonce s account n
  | .signature account role sig => checkSignature env s account e sig role
  | .valueSignature account sig => checkValueSignature env s account e sig
  | .createSignature ownerKey sig => checkAccountCreateSignature env e sig ownerKey
  | .activeOrPosting account sig =>
    if (checkSignature env s account e sig "active").isOk then .ok ()
    else checkSignature env s account e sig "posting"
  | .embeddedKey pubkey sig => verifyEmbedded env pubkey e sig
  | .slot2fa account role epoch tf => checkSlot2fa env s account role e epoch tf
  | .recovery r primary sig cosignatures =>
    verifyRecoveryAuthority env s e r primary sig cosignatures

/-- Run the checks in order up to the first that fails. -/
def runChecks (env : Env) (s : Chain) (e : LedgerEntry) : List Check → Except String Unit
  | [] => .ok ()
  | c :: rest => match c.run env s e with
    | .ok () => runChecks env s e rest
    | .error msg => .error msg

/-- All checks pass exactly when each does. -/
theorem runChecks_ok_iff {env : Env} {s : Chain} {e : LedgerEntry} {l : List Check} :
    runChecks env s e l = .ok () ↔ ∀ c ∈ l, c.run env s e = .ok () := by
  induction l with
  | nil => simp [runChecks]
  | cons c rest ih =>
    rw [List.forall_mem_cons, ← ih, runChecks]
    cases c.run env s e <;> simp

/-! ## What a passed check says -/

/-- A signature is given that verifies under the hex key. -/
def Verifies (env : Env) (pubkeyHex : String) (sig : Option String) (message : String) : Prop :=
  ∃ sigStr ∈ sig, sigStr ≠ "" ∧ ∃ pk ∈ hexDecode pubkeyHex, pk.length = 32 ∧
    ∃ sigBytes ∈ hexDecode sigStr, sigBytes.length = 64 ∧
      env.ed25519 pk (Text.bytes message) sigBytes = true

theorem verifyHex_ok_iff {env : Env} {t : SigTexts} {pubkeyHex message : String}
    {sig : Option String} :
    verifyHex env t pubkeyHex sig message = .ok () ↔ Verifies env pubkeyHex sig message := by
  unfold verifyHex Verifies Env.ed25519
  rcases sig with _ | sigStr
  · simp
  · by_cases hs : sigStr = ""
    · simp [hs, Option.filter_some]
    · simp only [Option.filter_some, hs, ne_eq, not_false_eq_true, decide_true, if_true,
        Option.mem_def, Option.some.injEq, exists_eq_left', true_and]
      rcases hexDecode pubkeyHex with _ | pk
      · simp
      · rcases hexDecode sigStr with _ | sigBytes
        · by_cases hk : pk.length = 32 <;> cases hke : env.keyError pk <;> simp [hk, hke]
        · by_cases hk : pk.length = 32
          · by_cases hl : sigBytes.length = 64
            · cases hke : env.keyError pk <;>
                cases hv : env.verifyError pk (Text.bytes message) sigBytes <;>
                simp [hk, hl, hke, hv]
            · cases hke : env.keyError pk <;> simp [hk, hl, hke]
          · simp [hk]

/-- The signatures of the list verify. -/
theorem verifies_accepting {signed : List Env.Signed} {x : Env.Signed} (h : x ∈ signed)
    (hkey : x.key.length = 32) (hsig : x.sig.length = 64) :
    Verifies (Env.accepting signed) (hexEncode x.key) (some (hexEncode x.sig))
      x.message := by
  refine ⟨_, rfl, ?_, x.key, hexDecode_hexEncode _, hkey, x.sig,
    hexDecode_hexEncode _, hsig, Env.ed25519_accepting h⟩
  intro hempty
  have hdec := hexDecode_hexEncode x.sig
  rw [hempty] at hdec
  rw [← Option.some.inj hdec] at hsig
  cases hsig

/-- A role key that is set makes the signature mandatory. -/
theorem checkSignature_ok_iff {env : Env} {s : Chain} {account role : String} {e : LedgerEntry}
    {sig : Option String} :
    checkSignature env s account e sig role = .ok () ↔
      ∀ pk ∈ signingKey s account role, Verifies env pk sig (canonicalSigningMessage env e) := by
  unfold checkSignature
  cases signingKey s account role with
  | none => simp
  | some pk => simp [verifyHex_ok_iff]

end HoneNode.Tx
