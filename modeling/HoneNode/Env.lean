import Mathlib.Data.List.Sort
import HoneNode.Prog

/-!
# Env — what the ledger takes from outside

Constants of `hone-types`, the arithmetic of `u64` in a release build, and the
functions of other crates the arms call: hashing, signatures, serde codecs,
floating point and the contract runtime. They are the same on every node, so
they form one record `Env` that is fixed over a run; the wall clock is not and
is passed on its own.
-/

namespace HoneNode

/-! ## Constants -/

def nativeToken : String := "HONE"
def recycleFund : String := "__recycle_fund__"
def testnetFund : String := "__testnet_fund__"
def hunitsPerHone : ℕ := 10000000000
def nameRegistrationStake : ℕ := 10 * hunitsPerHone
def stakeExemptAccounts : List String := ["shindevlin", "__testnet_fund__", "__recycle__", "treasury"]
def clockBootstrapGraceEndEpoch : ℕ := 100000
def unbondingEpochs : ℕ := 10
def doublingInterval : ℕ := 4200000
def initialEpochMs : ℕ := 30000
def recycleEra : ℕ := 5
def btcProjectedEndMs : ℕ := 1231006505000 + 6930000 * 600000

/-! ## Unsigned 64-bit arithmetic -/

def u64Max : ℕ := 2 ^ 64 - 1

/-- An unchecked `+`: it wraps. -/
def wrapAdd (a b : ℕ) : ℕ := (a + b) % 2 ^ 64

/-- An unchecked `*`. -/
def wrapMul (a b : ℕ) : ℕ := a * b % 2 ^ 64

/-- An unchecked `-`. -/
def wrapSub (a b : ℕ) : ℕ := (a + 2 ^ 64 - b % 2 ^ 64) % 2 ^ 64

def satAdd (a b : ℕ) : ℕ := min (a + b) u64Max

def satMul (a b : ℕ) : ℕ := min (a * b) u64Max

/-- Which era an epoch falls in. -/
def era (epoch : ℕ) : ℕ := epoch / doublingInterval

/-- Base epoch duration of `newEra` such that the remaining eras end at the target. -/
def calibrateEraEpochMs (newEra nowMs targetEndMs : ℕ) : ℕ :=
  if recycleEra ≤ newEra then initialEpochMs * 2 ^ recycleEra
  else
    let seriesSum := max (2 ^ (recycleEra - newEra) - 1) 1
    max ((targetEndMs - nowMs) / max (satMul doublingInterval seriesSum) 1) 1000

/-! ## The environment -/

/-- What a contract execution asks for. -/
structure ContractResult where
  success : Bool
  error : Option String := none
  storageWrites : List (String × Bytes) := []
  storageDeletes : List String := []
  pendingTransfers : List (String × ℕ) := []

structure Env where
  chainId : String
  sha256 : Bytes → Bytes
  /-- Why a 32-byte key is no ed25519 key, if it is none. -/
  keyError : Bytes → Option String
  /-- Why `verify_strict` rejects a signature over a message, if it does. -/
  verifyError : (key msg sig : Bytes) → Option String
  /-- The laxer `verify` that seal signatures are checked with. -/
  verifyLax : (key msg sig : Bytes) → Bool
  base64Decode : String → Option Bytes
  /-- Why a text is no base64, or no hex. -/
  base64Error : String → String
  hexError : String → String
  /-- `recover_chain_address`: the address behind an external-chain signature. -/
  recoverChainAddress : (sigType message signature : String) → Except String String
  printJson : Json → String
  /-- `serde_json::to_string` of an entry. -/
  entryJson : LedgerEntry → String
  /-- An amount of hunits in HONE, the way an `f64` prints. -/
  honeText : ℕ → String
  decodeStrings : String → Option (List String)
  encodeStrings : List String → String
  decodeU64 : String → Option ℕ
  /-- The `fee` of the base-fee record. -/
  decodeFee : String → Option ℕ
  encodeU64 : ℕ → String
  /-- Why a text is no JSON, if it is none. -/
  jsonError : String → Option String
  /-- Unicode letters and digits. -/
  isAlphanumeric : Char → Bool
  /-- Whether the speed between two fixes in one epoch is above the limit, and its text. -/
  gnssTooFast : (lat₀ lon₀ lat lon : F64) → Option String
  /-- A coordinate on the coverage grid. -/
  gridCell : F64 → ℤ
  jsonF64 : Json → Option F64
  contractAddress : (deployer : String) → (epoch nonce : ℕ) → String
  executeDeploy : Entry.ContractDeploy → ContractResult
  executeCall : Entry.ContractCall → List (Bytes × Bytes) → (balance : ℕ) → ContractResult
  /-- Log levels that are switched on. -/
  info : Bool
  warn : Bool

namespace Env

variable (env : Env)

/-- The signature verifies under a well-formed key. -/
def ed25519 (key msg sig : Bytes) : Bool :=
  (env.keyError key).isNone && (env.verifyError key msg sig).isNone

def sha256Hex (text : String) : String := hexEncode (env.sha256 (Text.bytes text))

/-- `LedgerEntry::hash`. -/
def entryHash (e : LedgerEntry) : String := env.sha256Hex (env.entryJson e)

/-- A mainnet node with its logs off, for which no key, signature or text from
outside is well formed. -/
def bare : Env where
  chainId := "hone"
  sha256 := fun _ => List.replicate 32 0
  keyError := fun _ => some "Cannot decompress Edwards point"
  verifyError := fun _ _ _ => some "signature error: Verification equation was not satisfied"
  verifyLax := fun _ _ _ => false
  base64Decode := fun _ => none
  base64Error := fun _ => "Encoded text cannot have a 6-bit remainder."
  hexError := fun _ => "Odd number of digits"
  recoverChainAddress := fun _ _ _ => .error "unsupported sig_type"
  printJson := fun _ => "null"
  entryJson := fun _ => ""
  honeText := fun n => toString (n / hunitsPerHone)
  decodeStrings := fun _ => none
  encodeStrings := fun _ => "[]"
  decodeU64 := fun _ => none
  decodeFee := fun _ => none
  encodeU64 := fun n => toString n
  jsonError := fun _ => some "expected value at line 1 column 1"
  isAlphanumeric := Char.isAlphanum
  gnssTooFast := fun _ _ _ _ => none
  gridCell := fun _ => 0
  jsonF64 := fun _ => none
  contractAddress := fun _ _ _ => ""
  executeDeploy := fun _ => { success := false }
  executeCall := fun _ _ _ => { success := false }
  info := false
  warn := false

/-- How a number or a text without escapes is printed. -/
def scalarText : Json → String
  | .str t => "\"" ++ t ++ "\""
  | .num n => toString n
  | .bool b => toString b
  | _ => "null"

/-- An object of scalars, its fields in the order they were put in (`preserve_order`). -/
def flatText : Json → String
  | .obj fields =>
    "\x7b" ++ ",".intercalate (fields.map fun f => "\"" ++ f.1 ++ "\":" ++ scalarText f.2) ++ "\x7d"
  | j => scalarText j

/-- A signature that was made. -/
structure Signed where
  (key : Bytes) (message : String) (sig : Bytes)

/-- A node for which exactly the listed signatures verify. -/
def accepting (signed : List Signed) : Env :=
  { bare with
    printJson := flatText
    keyError := fun k => if signed.any (·.key = k) then none else bare.keyError k
    verifyError := fun k msg sig =>
      if signed.any fun x => x.key = k && Text.bytes x.message = msg && x.sig = sig then none
      else bare.verifyError k msg sig }

theorem ed25519_accepting {signed : List Signed} {x : Signed} (h : x ∈ signed) :
    (accepting signed).ed25519 x.key (Text.bytes x.message) x.sig = true := by
  have hkey : (signed.any fun y => y.key = x.key) = true :=
    List.any_eq_true.2 ⟨x, h, by simp⟩
  have hsig : (signed.any fun y => y.key = x.key && Text.bytes y.message = Text.bytes x.message
      && y.sig = x.sig) = true := List.any_eq_true.2 ⟨x, h, by simp⟩
  simp only [ed25519, accepting, hkey, hsig, if_true]
  rfl

/-- A node that knows the listed SHA-256 digests, text by text. -/
def digesting (digests : List (String × String)) : Env :=
  { bare with
    sha256 := fun b =>
      ((digests.find? fun d => Text.bytes d.1 = b).bind fun d =>
        (hexDecode d.2).filter (·.length = 32)).getD (List.replicate 32 0) }

theorem length_sha256_digesting (digests : List (String × String)) (b : Bytes) :
    ((digesting digests).sha256 b).length = 32 := by
  unfold digesting
  dsimp only
  cases hd : (digests.find? fun d => Text.bytes d.1 = b).bind fun d =>
      (hexDecode d.2).filter (·.length = 32) with
  | none => simp
  | some bs =>
    obtain ⟨d, -, hbs⟩ := Option.bind_eq_some_iff.1 hd
    simpa using (Option.filter_eq_some_iff.1 hbs).2

end Env

/-! ## Reading parameters -/

namespace Chain

/-- A parameter that switches something on. -/
def flag (s : Chain) (key : String) : Bool :=
  match s.param key with
  | some v => trim v = "true"
  | none => false

/-- A numeric parameter with its default. -/
def numParam (s : Chain) (key : String) (default : ℕ) : ℕ :=
  ((s.param key).bind fun v => parseU64 (trim v)).getD default

/-- A list parameter, empty when unset or malformed. -/
def listParam (env : Env) (s : Chain) (key : String) : List String :=
  ((s.param key).bind env.decodeStrings).getD []

end Chain

/-! ## TON Connect signatures -/

namespace TonSignData

/-- The parts of `"workchain:account_id_hex|domain|timestamp|payload_kind|payload_hex"`. -/
structure ParsedMessage where
  workchain : ℤ
  accountId : Bytes
  domain : String
  timestamp : ℕ
  payloadKind : String
  payload : Bytes

def parse (message : String) : Option ParsedMessage :=
  match Text.split '|' message with
  | [address, domain, timestamp, kind, payload] => do
    let (wc, acc) ← splitOnce ':' address
    let workchain ← Text.parseI8 wc
    let accountId ← (hexDecode acc).filter (·.length = 32)
    let timestamp ← parseU64 timestamp
    let payload ← (hexDecode payload).filter fun _ => kind = "text" ∨ kind = "binary"
    pure ⟨workchain, accountId, domain, timestamp, kind, payload⟩
  | _ => none

/-- The bytes whose digest the wallet signs. -/
def buildPreimage (m : ParsedMessage) : Bytes :=
  [0xff, 0xff] ++ Text.bytes "ton-connect/sign-data/"
    ++ beBytes 4 (m.workchain % 2 ^ 32).toNat ++ m.accountId
    ++ beBytes 4 (Text.bytes m.domain).length ++ Text.bytes m.domain
    ++ beBytes 8 m.timestamp
    ++ Text.bytes (if m.payloadKind = "text" then "txt" else "bin")
    ++ beBytes 4 m.payload.length ++ m.payload

/-- Whether the signature over the message verifies under the granted key. -/
def verifyWithPubkey (env : Env) (message signature : String) (pubkey : Bytes) : Bool :=
  match parse message, (env.base64Decode signature).filter (·.length = 64) with
  | some m, some sig => env.ed25519 pubkey (env.sha256 (buildPreimage m)) sig
  | _, _ => false

end TonSignData

end HoneNode
