import HoneNode.Blocks.Header
import HoneNode.Contracts.Storage
import HoneNode.Lib.Hex
import HoneNode.Replay

/-!
# Contracts.Deployment — code that stays as it was deployed

The address of a contract is the start of a digest of its deployer, an epoch and the
nonce of the deployment. Of these only the nonce is tied to the ledger, so an address
is new when the nonce is: where the deployer has a record whose nonce moves on. An
account without a record deploys with nonce `1` as often as it likes, and nobody signs.

1. **Addresses** and what tells them apart (`addressInput_inj`, `shortDigest_eq_of_address`).
2. **One deployment**: what it asks for and what it writes (`accepted_deploy`).
3. **Runs** in which every deployer has a key (`deployments_immutable`).
-/

namespace HoneNode.Contracts

open Entry Prog Within Tx Replay

/-! ## Addresses -/

/-- What `derive_contract_address` hashes. -/
def addressInput (deployer : String) (epoch nonce : ℕ) : Bytes :=
  Text.bytes deployer ++ (leBytes 8 epoch ++ leBytes 8 nonce)

/-- The 144 bits of a digest that an address shows. -/
def shortDigest (env : Env) (b : Bytes) : Bytes := (env.sha256 b).take 18

def deriveContractAddress (env : Env) (deployer : String) (epoch nonce : ℕ) : String :=
  let hash := hexEncode (env.sha256 (addressInput deployer epoch nonce))
  "honesc" ++ String.ofList (hash.toList.take 36)

/-- A node whose contract runtime derives its addresses. -/
structure ContractNode extends Blocks.Node where
  contractAddress_eq : ∀ deployer epoch nonce, contractAddress deployer epoch nonce =
    deriveContractAddress toEnv deployer epoch nonce

/-- The address of what is deployed. -/
def contractIdOf (env : Env) (p : ContractDeploy) : String :=
  env.contractAddress p.deployer p.epoch p.nonce

/-- The bytes behind the address. -/
def inputOf (p : ContractDeploy) : Bytes := addressInput p.deployer p.epoch p.nonce

section Addresses

variable {node : ContractNode} {p q : ContractDeploy}

/-- The hashed bytes tell the deployer and the nonce. -/
theorem addressInput_inj (hp : p.nonce < 2 ^ 64) (hq : q.nonce < 2 ^ 64)
    (h : inputOf p = inputOf q) : p.deployer = q.deployer ∧ p.nonce = q.nonce := by
  have hlength : (leBytes 8 p.epoch ++ leBytes 8 p.nonce).length =
      (leBytes 8 q.epoch ++ leBytes 8 q.nonce).length := by
    simp only [List.length_append, Text.length_leBytes]
  obtain ⟨hdeployer, hrest⟩ := List.append_inj' h hlength
  have hepoch : (leBytes 8 p.epoch).length = (leBytes 8 q.epoch).length := by
    rw [Text.length_leBytes, Text.length_leBytes]
  have hnonce := (List.append_inj hrest hepoch).2
  exact ⟨bytes_injective hdeployer, @Text.leBytes_inj 8 _ _ hp hq hnonce⟩

theorem contractId_eq : contractIdOf node.toEnv p =
    "honesc" ++ hexEncode (shortDigest node.toEnv (inputOf p)) := by
  unfold contractIdOf
  rw [node.contractAddress_eq]
  unfold deriveContractAddress
  dsimp only
  rw [Text.take_hexEncode 18, String.ofList_toList]
  rfl

/-- Contracts with one address have one short digest. -/
theorem shortDigest_eq_of_address (h : contractIdOf node.toEnv p = contractIdOf node.toEnv q) :
    shortDigest node.toEnv (inputOf p) = shortDigest node.toEnv (inputOf q) := by
  rw [contractId_eq, contractId_eq] at h
  have hlist := congrArg String.toList h
  rw [String.toList_append, String.toList_append] at hlist
  exact Text.hexEncode_inj.1 (String.toList_inj.1 (List.append_cancel_left hlist))

theorem colon_notMem_contractId : ':' ∉ (contractIdOf node.toEnv p).toList := by
  rw [contractId_eq, String.toList_append]
  intro hmem
  rcases List.mem_append.1 hmem with hpfx | hhex
  · revert hpfx
    decide
  · exact Text.notMem_hexEncode (by decide) _ hhex

/-- A storage key belongs to one contract. -/
theorem storageKey_contract {x y : String} (hx : ':' ∉ x.toList) (hy : ':' ∉ y.toList)
    {j k : String} (h : storageKey x j = storageKey y k) : x = y := by
  have hlist : ∀ z i, (storageKey z i).toList = z.toList ++ ':' :: i.toList := by
    intro z i
    change (z ++ ":" ++ i).toList = _
    rw [String.toList_append, String.toList_append, List.append_assoc]
    rfl
  have heq := congrArg String.toList h
  rw [hlist, hlist] at heq
  rcases Text.append_sep_first hx heq with ⟨hxy, -⟩ | ⟨z, hz, -⟩
  · exact String.toList_inj.1 hxy
  · rw [hz] at hy
    exact absurd (List.mem_append_right _ List.mem_cons_self) hy

end Addresses

/-! ## One deployment -/

/-- The code and the storage of a contract are as they were. -/
def Untouched (contractId : String) (s t : Chain) : Prop :=
  t.stateGet .wasm contractId = s.stateGet .wasm contractId ∧
    ∀ hexKey, t.stateGet .contract (storageKey contractId hexKey) =
      s.stateGet .contract (storageKey contractId hexKey)

section Deploy

variable {env : Env} {m : Moment} {p : ContractDeploy} {sig : Option String}
  {s s' : Chain} {hash x y : String}

theorem Untouched.trans {t u : Chain} (h : Untouched x s t) (h' : Untouched x t u) :
    Untouched x s u := ⟨h'.1.trans h.1, fun hexKey => (h'.2 hexKey).trans (h.2 hexKey)⟩

theorem Untouched.of_state {t : Chain} (h : t.state = s.state) : Untouched x s t :=
  ⟨stateGet_of_state (congrFun h _) _, fun _ => stateGet_of_state (congrFun h _) _⟩

/-- The storage of another contract is not committed to. -/
theorem untouched_commitStorage (hx : ':' ∉ x.toList) (hy : ':' ∉ y.toList) (hne : x ≠ y)
    (result : ContractResult) :
    Untouched x s ((commitStorage y result : Prog {} Unit).run s).2 := by
  have hkey : ∀ j k, storageKey y j ≠ storageKey x k :=
    fun j k heq => hne (storageKey_contract hy hx heq).symm
  have hwrites : ∀ (writes : List (String × Bytes)) (s : Chain),
      Untouched x s (withWrites y writes s) := by
    intro writes
    induction writes with
    | nil => exact fun s => .of_state rfl
    | cons w rest ih =>
      intro s
      refine Untouched.trans ⟨?_, fun k => ?_⟩ (ih _)
      · exact s.stateGet_stateSet_of_ne (by decide) _ _ _
      · rw [s.stateGet_stateSet, if_neg (hkey w.1 k)]
  have hdeletes : ∀ (deletes : List String) (s : Chain),
      Untouched x s (withDeletes y deletes s) := by
    intro deletes
    induction deletes with
    | nil => exact fun s => .of_state rfl
    | cons d rest ih =>
      intro s
      refine Untouched.trans ⟨?_, fun k => ?_⟩ (ih _)
      · exact stateGet_of_state (s.state_stateDelete_of_ne (by decide) _) _
      · rw [s.stateGet_stateDelete, if_neg (hkey d k)]
  rw [run_commitStorage]
  exact (hwrites _ _).trans (hdeletes _ _)

/-- What an accepted deployment asks for and what it writes. -/
theorem accepted_deploy (h : validateAndApply env m (.contractDeploy p) sig s = (.ok hash, s')) :
    p.nonce = s.expectedNonce p.deployer ∧
      (∀ pk ∈ signingKey s p.deployer "active",
        Verifies env pk sig (canonicalSigningMessage env (.contractDeploy p))) ∧
      s'.stateGet .wasm (contractIdOf env p) = env.base64Decode p.wasmB64 ∧
      ∀ x, ':' ∉ x.toList → ':' ∉ (contractIdOf env p).toList → x ≠ contractIdOf env p →
        Untouched x s s' := by
  have hsig : Check.signature p.deployer "active" sig ∈ checks env s sig (.contractDeploy p) :=
    List.mem_of_getElem? (i := 1) rfl
  have hverified := checkSignature_ok_iff.1 (check_of_accepted h hsig)
  obtain ⟨-, -, t, hcommit, rfl⟩ := validateAndApply_eq_ok_iff.1 h
  change applyContractDeploy env p s = _ at hcommit
  unfold applyContractDeploy at hcommit
  rcases hrun : (contractDeploy env p).run s with ⟨_ | ⟨⟩, u⟩
  · rw [hrun] at hcommit
    cases hcommit
  rw [hrun] at hcommit
  obtain rfl : u.bumpNonce p.deployer = t := (Prod.mk.inj hcommit).2
  unfold contractDeploy at hrun
  obtain ⟨hnonce, hrun⟩ := ok_checkNonce_bind.1 hrun
  obtain ⟨wasm, hwasm, hrun⟩ := ok_orBail_bind.1 hrun
  obtain ⟨-, hrun⟩ := ok_ensure_bind.1 hrun
  rw [run_bind_ok (run_commitStorage _)] at hrun
  have hu := (Prod.mk.inj hrun).2
  -- neither the bump nor the fee reaches the stored families
  have hstate : (deductFee env (.contractDeploy p) (u.bumpNonce p.deployer)).state = u.state := by
    rw [state_deductFee]
    unfold Chain.bumpNonce
    split <;> rfl
  refine ⟨hnonce, hverified, ?_, ?_⟩
  · rw [hwasm, stateGet_of_state (congrFun hstate _), ← hu]
    exact ((stateGet_stateSet _ _ _ _ _).trans (if_pos rfl))
  · intro x hx hid hne
    have hcommitted := @untouched_commitStorage s x _ hx hid hne (env.executeDeploy p)
    rw [run_commitStorage] at hcommitted
    refine (hcommitted.trans ?_).trans (.of_state hstate)
    rw [← hu]
    refine ⟨?_, fun hexKey => stateGet_stateSet_of_ne _ (by decide) _ _ _⟩
    exact (stateGet_stateSet _ _ _ _ _).trans (if_neg fun heq => hne heq.symm)

end Deploy

/-! ## Runs -/

/-- The deployment that a step of the ledger carries out. -/
def deployed (env : Env) : Chain × Act → Option ContractDeploy
  | (s, .submit m ⟨.contractDeploy p, sig⟩) =>
    if (validateAndApply env m (.contractDeploy p) sig s).1.isOk then some p else none
  | _ => none

/-- The deployments of a run, latest first. -/
def deploys (env : Env) (hist : List (Chain × Act)) : List ContractDeploy :=
  hist.filterMap (deployed env)

/-- No two of the deployments hash different bytes to one short digest. -/
def CollisionFree (env : Env) (hist : List (Chain × Act)) : Prop :=
  Set.InjOn (shortDigest env) {b | ∃ p ∈ deploys env hist, inputOf p = b}

/-- Each address is deployed to once, what is deployed stays through every later deployment,
and it was signed with a key of the deployer. -/
structure Immutable (env : Env) (s₀ : Chain) (hist : List (Chain × Act)) : Prop where
  unique : ((deploys env hist).map (contractIdOf env)).Nodup
  kept : ∀ later s act earlier q, hist = later ++ (s, act) :: earlier →
    deployed env (s, act) = some q → ∀ p ∈ deploys env earlier,
      Untouched (contractIdOf env p) s ((ledger env s₀).step s act)
  signed : ∀ s m p sig, (s, .submit m ⟨.contractDeploy p, sig⟩) ∈ hist →
    deployed env (s, .submit m ⟨.contractDeploy p, sig⟩) = some p →
      ∃ pk ∈ signingKey s p.deployer "active",
        Verifies env pk sig (canonicalSigningMessage env (.contractDeploy p))

/-- No nonce is the last of `u64`, and who deploys has an active key. -/
def Keyed (s : Chain) (act : Act) : Prop :=
  (∀ a, Unexhausted a s) ∧ ∀ m p sig, act = .submit m ⟨.contractDeploy p, sig⟩ →
    (signingKey s p.deployer "active").isSome = true

section Runs

variable {env : Env} {node : ContractNode} {s₀ s t : Chain} {act : Act}
  {hist : List (Chain × Act)} {p q : ContractDeploy}

theorem deployed_of_isOk {m : Moment} {sig : Option String}
    (h : (validateAndApply env m (.contractDeploy p) sig s).1.isOk = true) :
    deployed env (s, .submit m ⟨.contractDeploy p, sig⟩) = some p := if_pos h

/-- A step that deploys is an accepted submission. -/
theorem deployed_eq_some (h : deployed env (s, act) = some p) : ∃ m sig hash,
    act = .submit m ⟨.contractDeploy p, sig⟩ ∧
      validateAndApply env m (.contractDeploy p) sig s =
        (.ok hash, (ledger env s₀).step s act) := by
  unfold deployed at h
  split at h
  · next s' m q sig heq =>
    cases heq
    split at h
    · next hok =>
      cases h
      refine ⟨m, sig, ?_⟩
      rcases hr : validateAndApply env m (.contractDeploy p) sig s with ⟨_ | hash, s'⟩
      · rw [hr] at hok
        cases hok
      · exact ⟨hash, rfl, congrArg (Prod.mk _) (congrArg Prod.snd hr).symm⟩
    · cases h
  · cases h

/-- A deployer with a key has a record, and the deployment carries its next nonce. -/
theorem nonce_of_deployed (hkeyed : Keyed s act) (h : deployed env (s, act) = some p) :
    ∃ k, NonceIs s p.deployer k ∧ k + 1 < 2 ^ 64 ∧ p.nonce = k + 1 := by
  obtain ⟨m, sig, hash, rfl, hacc⟩ := @deployed_eq_some env s s _ p h
  obtain ⟨pk, hpk⟩ := Option.isSome_iff_exists.1 (hkeyed.2 m p sig rfl)
  have hslot : keyOf s p.deployer "active" = some pk := by
    rwa [signingKey, if_neg (by decide)] at hpk
  obtain ⟨r, hr, -⟩ := Option.bind_eq_some_iff.1 (Option.filter_eq_some_iff.1 hslot).1
  have hnonce : NonceIs s p.deployer r.nonce := ⟨r, hr, rfl⟩
  have hfit := (hkeyed.1 p.deployer).lt hnonce
  refine ⟨r.nonce, hnonce, hfit, ?_⟩
  rw [(accepted_deploy hacc).1, hnonce.expected, Nat.mod_eq_of_lt hfit]

/-- The nonce of a deployer is at least that of each of its deployments. -/
theorem nonce_le_of_deploys (hrun : Trace.Run (ledger env s₀) Keyed hist t) :
    ∀ p ∈ deploys env hist, ∃ k, NonceIs t p.deployer k ∧ p.nonce ≤ k ∧ k < 2 ^ 64 := by
  induction hrun with
  | start => exact fun p hp => absurd hp List.not_mem_nil
  | @step hist s act hrun hop ih =>
    have hold : ∀ p ∈ deploys env hist, ∃ k, NonceIs ((ledger env s₀).step s act) p.deployer k ∧
        p.nonce ≤ k ∧ k < 2 ^ 64 := by
      intro p hp
      obtain ⟨k, hk, hle, -⟩ := ih p hp
      have hfit := (hop.1 p.deployer).lt hk
      rcases hk.step hfit act with hk' | hk'
      · exact ⟨k, hk', hle, by omega⟩
      · exact ⟨k + 1, hk', by omega, hfit⟩
    intro p hp
    unfold deploys at hp
    cases hdep : deployed env (s, act) with
    | none =>
      rw [List.filterMap_cons_none hdep] at hp
      exact hold p hp
    | some q =>
      rw [List.filterMap_cons_some hdep] at hp
      rcases List.mem_cons.1 hp with rfl | hp
      · obtain ⟨k, hk, hfit, hnonce⟩ := nonce_of_deployed hop hdep
        obtain ⟨m, sig, hash, rfl, hacc⟩ := @deployed_eq_some env s₀ s _ p hdep
        exact ⟨k + 1, nonce_of_accepted hk hfit rfl hacc, hnonce.le, hfit⟩
      · exact hold p hp
  | other _ hs ih =>
    cases hs
    exact ih

/-- A deployment hashes bytes that none before it has hashed. -/
theorem inputOf_ne (hrun : Trace.Run (ledger env s₀) Keyed hist s) (hop : Keyed s act)
    (hq : deployed env (s, act) = some q) (hp : p ∈ deploys env hist) : inputOf p ≠ inputOf q := by
  intro heq
  obtain ⟨k, hk, hle, hlt⟩ := nonce_le_of_deploys hrun p hp
  obtain ⟨j, hj, hfit, hnonce⟩ := nonce_of_deployed hop hq
  obtain ⟨hdeployer, hsame⟩ := addressInput_inj (by omega) (by omega) heq
  -- both speak of the nonce of one account
  obtain ⟨r, hr, rfl⟩ := hk
  obtain ⟨r', hr', rfl⟩ := hj
  rw [hdeployer, hr'] at hr
  cases hr
  omega

/-- So its address is new. -/
theorem contractId_ne (hrun : Trace.Run (ledger node.toEnv s₀) Keyed hist s) (hop : Keyed s act)
    (hfree : CollisionFree node.toEnv ((s, act) :: hist))
    (hq : deployed node.toEnv (s, act) = some q) (hp : p ∈ deploys node.toEnv hist) :
    contractIdOf node.toEnv p ≠ contractIdOf node.toEnv q := by
  intro heq
  have hmem : ∀ {x}, x = q ∨ x ∈ deploys node.toEnv hist →
      x ∈ deploys node.toEnv ((s, act) :: hist) := by
    intro x hx
    unfold deploys
    rw [List.filterMap_cons_some hq]
    exact List.mem_cons.2 hx
  exact inputOf_ne hrun hop hq hp (hfree ⟨p, hmem (.inr hp), rfl⟩ ⟨q, hmem (.inl rfl), rfl⟩
    (shortDigest_eq_of_address heq))

theorem CollisionFree.mono {older : List (Chain × Act)} (h : CollisionFree env hist)
    (hsub : ∀ p ∈ deploys env older, p ∈ deploys env hist) : CollisionFree env older := by
  refine Set.InjOn.mono ?_ h
  rintro b ⟨p, hp, hb⟩
  exact ⟨p, hsub p hp, hb⟩

theorem deploys_append (later earlier : List (Chain × Act)) :
    deploys env (later ++ earlier) = deploys env later ++ deploys env earlier :=
  List.filterMap_append

theorem nodup_contractIds (hrun : Trace.Run (ledger node.toEnv s₀) Keyed hist t)
    (hfree : CollisionFree node.toEnv hist) :
    ((deploys node.toEnv hist).map (contractIdOf node.toEnv)).Nodup := by
  induction hrun with
  | start => exact List.nodup_nil
  | @step hist s act hrun hop ih =>
    have hold := ih (hfree.mono fun p hp => by
      rw [← List.singleton_append, deploys_append]
      exact List.mem_append_right _ hp)
    unfold deploys
    cases hdep : deployed node.toEnv (s, act) with
    | none =>
      rw [List.filterMap_cons_none hdep]
      exact hold
    | some q =>
      rw [List.filterMap_cons_some hdep, List.map_cons, List.nodup_cons]
      refine ⟨fun hmem => ?_, hold⟩
      obtain ⟨p, hp, heq⟩ := List.mem_map.1 hmem
      exact contractId_ne hrun hop hfree hdep hp heq
  | other _ _ ih => exact ih hfree

end Runs

/-! ### Deployments of an empty contract -/

section Samples

/-- A module that exports `__hone_dispatch` and nothing else, as text and as bytes. -/
def idleModule : String × Bytes :=
  ("AGFzbQEAAAABBAFgAAADAgEABxMBD19faG9uZV9kaXNwYXRjaAAACgQBAgAL",
    [0, 97, 115, 109, 1, 0, 0, 0, 1, 4, 1, 96, 0, 0, 3, 2, 1, 0, 7, 19, 1, 15, 95, 95, 104, 111,
      110, 101, 95, 100, 105, 115, 112, 97, 116, 99, 104, 0, 0, 10, 4, 1, 2, 0, 11])

/-- The same with an instruction that does nothing. -/
def otherModule : String × Bytes :=
  ("AGFzbQEAAAABBAFgAAADAgEABxMBD19faG9uZV9kaXNwYXRjaAAACgUBAwABCw==",
    [0, 97, 115, 109, 1, 0, 0, 0, 1, 4, 1, 96, 0, 0, 3, 2, 1, 0, 7, 19, 1, 15, 95, 95, 104, 111,
      110, 101, 95, 100, 105, 115, 112, 97, 116, 99, 104, 0, 0, 10, 5, 1, 3, 0, 1, 11])

/-- What `alice` signs for a deployment. -/
def deployMessage (wasm nonce : String) : String :=
  "\x7b\"chain_id\":\"hone\",\"type\":\"CONTRACT_DEPLOY\",\"deployer\":\"alice\",\"wasm_b64\":\""
    ++ wasm ++ "\",\"init_method\":null,\"init_args\":null,\"gas\":1000,\"nonce\":" ++ nonce ++ "\x7d"

/-- Two deployments of `alice`, signed. -/
def deploySigned : Env.Signed where
  key := aliceKey
  message := deployMessage idleModule.1 "1"
  sig := [
    116, 143, 51, 247, 33, 151, 94, 221, 162, 22, 38, 9, 12, 57, 26, 133, 82, 82, 41, 40, 7,
    171, 215, 42, 66, 1, 8, 81, 91, 99, 163, 29, 15, 145, 103, 156, 175, 70, 56, 152, 178, 145,
    118, 25, 129, 240, 142, 161, 152, 198, 15, 164, 117, 55, 28, 139, 249, 24, 202, 90, 71, 24,
    221, 9]

def otherSigned : Env.Signed where
  key := aliceKey
  message := deployMessage otherModule.1 "2"
  sig := [
    63, 51, 206, 167, 204, 247, 243, 242, 183, 146, 3, 175, 220, 240, 111, 254, 50, 57, 237, 244,
    155, 215, 151, 181, 79, 27, 81, 145, 35, 161, 119, 136, 158, 85, 8, 49, 68, 174, 218, 120,
    248, 163, 26, 178, 25, 73, 83, 0, 239, 207, 40, 51, 33, 17, 154, 37, 82, 154, 141, 126, 55,
    75, 243, 12]

def wasmOf (text : String) : Option Bytes :=
  ([idleModule, otherModule].find? (·.1 = text)).map Prod.snd

/-- The constructor of an idle module stores the code and nothing else. -/
def deployEnv : Env :=
  { Env.accepting [deploySigned, otherSigned] with
    sha256 := (Env.digesting [
      ("alice\x07\x00\x00\x00\x00\x00\x00\x00\x01\x00\x00\x00\x00\x00\x00\x00",
        "fedcd0aac79242a71da5eb1992a98daabeac88837cde70dd7de16c85377b6eb0"),
      ("alice\x07\x00\x00\x00\x00\x00\x00\x00\x02\x00\x00\x00\x00\x00\x00\x00",
        "7c31fd3086046e64b2f1c303b7345120f2dfe243dcc4a69879ca64188f52a249"),
      ("ghost\x07\x00\x00\x00\x00\x00\x00\x00\x01\x00\x00\x00\x00\x00\x00\x00",
        "f9e038f55d3194271b974062ffd3dbae682d574a406174bb96dee3b2858812c6")]).sha256
    base64Decode := wasmOf
    executeDeploy := fun p =>
      { success := true
        storageWrites := (wasmOf p.wasmB64).toList.map fun wasm =>
          (hexEncode (Text.bytes "__wasm"), wasm) } }

def deployNode : ContractNode where
  toEnv := { deployEnv with contractAddress := deriveContractAddress deployEnv }
  length_sha256 := Env.length_sha256_digesting _
  contractAddress_eq := fun _ _ _ => rfl

/-- A deployment in epoch 7. -/
def deployOf (deployer contractId : String) (wasm : String × Bytes) (nonce : ℕ) :
    ContractDeploy := ⟨deployer, contractId, wasm.1, none, none, 1000, 7, nonce⟩

def aliceDeploy : ContractDeploy :=
  deployOf "alice" "honescfedcd0aac79242a71da5eb1992a98daabeac" idleModule 1

def nextDeploy : ContractDeploy :=
  deployOf "alice" "honesc7c31fd3086046e64b2f1c303b7345120f2df" otherModule 2

def ghostDeploy (wasm : String × Bytes) : ContractDeploy :=
  deployOf "ghost" "honescf9e038f55d3194271b974062ffd3dbae682d" wasm 1

def signedDeploy : Act :=
  .submit default ⟨.contractDeploy aliceDeploy, some (hexEncode deploySigned.sig)⟩

def nextAct : Act :=
  .submit default ⟨.contractDeploy nextDeploy, some (hexEncode otherSigned.sig)⟩

/-- The chain with the first of them. -/
def deployedChain : Chain := (ledger deployNode.toEnv replayChain).step replayChain signedDeploy

/-- Both deployments, latest first. -/
def bothDeploys : List (Chain × Act) :=
  [(deployedChain, nextAct), (replayChain, signedDeploy)]

/-- `ghost` has no account, and sends no signature. -/
def ghostAct (wasm : String × Bytes) : Act :=
  .submit default ⟨.contractDeploy (ghostDeploy wasm), none⟩

/-- Both deployments are accepted, and the second finds a nonce and a key. -/
theorem accepted_signed :
    (validateAndApply deployNode.toEnv default (.contractDeploy aliceDeploy)
      (some (hexEncode deploySigned.sig)) replayChain).1.isOk = true ∧
    (validateAndApply deployNode.toEnv default (.contractDeploy nextDeploy)
      (some (hexEncode otherSigned.sig)) deployedChain).1.isOk = true ∧
    (∀ b ∈ deployedChain.accounts.bindings, b.2.nonce + 1 < 2 ^ 64) ∧
    (signingKey deployedChain "alice" "active").isSome = true := by decide +kernel

theorem deploys_signed : deploys deployNode.toEnv bothDeploys = [nextDeploy, aliceDeploy] := by
  obtain ⟨hfirst, hnext, -⟩ := accepted_signed
  have hdep : deployed deployNode.toEnv (replayChain, signedDeploy) = some aliceDeploy :=
    deployed_of_isOk hfirst
  have hdep' : deployed deployNode.toEnv (deployedChain, nextAct) = some nextDeploy :=
    deployed_of_isOk hnext
  unfold deploys bothDeploys
  rw [List.filterMap_cons_some hdep', List.filterMap_cons_some hdep, List.filterMap_nil]

/-- A history whose deployments all hash the same bytes has no collision. -/
theorem collisionFree_of_inputOf {env : Env} {hist : List (Chain × Act)} {b : Bytes}
    (h : ∀ p ∈ deploys env hist, inputOf p = b) : CollisionFree env hist := by
  rintro x ⟨p, hp, rfl⟩ y ⟨q, hq, rfl⟩ -
  rw [h p hp, h q hq]

theorem unexhausted_of_bindings {s : Chain}
    (h : ∀ b ∈ s.accounts.bindings, b.2.nonce + 1 < 2 ^ 64) (a : String) : Unexhausted a s :=
  fun r hr => h (a, r) ((Kv.lookup_eq_some_iff s.accounts.sorted).1 hr)

theorem keyed_signed : Keyed replayChain signedDeploy := by
  refine ⟨unexhausted_of_bindings (by decide +kernel), fun m p sig hact => ?_⟩
  cases hact
  decide +kernel

theorem keyed_next : Keyed deployedChain nextAct := by
  obtain ⟨-, -, hnonces, hkey⟩ := accepted_signed
  refine ⟨unexhausted_of_bindings hnonces, fun m p sig hact => ?_⟩
  cases hact
  exact hkey

end Samples

/-- Where every deployer has an active key, deployed code is immutable, its address is unique and
each deployment is signed. -/
theorem deployments_immutable (node : ContractNode) (s₀ t : Chain) (hist : List (Chain × Act))
    (hfree : CollisionFree node.toEnv hist)
    (hrun : Trace.Run (ledger node.toEnv s₀) Keyed hist t) : Immutable node.toEnv s₀ hist := by
  constructor
  · exact nodup_contractIds hrun hfree
  · rintro later s act earlier q rfl hq p hp
    obtain ⟨hbefore, hop⟩ := hrun.cut
    have hne := contractId_ne hbefore hop (hfree.mono fun x hx => by
      rw [deploys_append]
      exact List.mem_append_right _ hx) hq hp
    obtain ⟨m, sig, hash, -, hacc⟩ := @deployed_eq_some _ s₀ _ _ _ hq
    exact (accepted_deploy hacc).2.2.2 _ colon_notMem_contractId colon_notMem_contractId hne
  · intro s m p sig hmem hdep
    obtain ⟨hop, -⟩ := hrun.of_mem hmem
    obtain ⟨pk, hpk⟩ := Option.isSome_iff_exists.1 (hop.2 m p sig rfl)
    obtain ⟨m', sig', hash, heq, hacc⟩ := @deployed_eq_some _ s₀ _ _ _ hdep
    cases heq
    exact ⟨pk, hpk, (accepted_deploy hacc).2.1 pk hpk⟩

/-- A run with two deployments of one account, of which the second leaves the first alone. -/
theorem deployments_immutable_signed :
    deploys deployNode.toEnv bothDeploys = [nextDeploy, aliceDeploy] ∧
      Immutable deployNode.toEnv replayChain bothDeploys := by
  refine ⟨deploys_signed, deployments_immutable deployNode replayChain _ _ ?_
    (.step _ (.step _ (.start rfl) keyed_signed) keyed_next)⟩
  have hdiffer : shortDigest deployNode.toEnv (inputOf nextDeploy) ≠
      shortDigest deployNode.toEnv (inputOf aliceDeploy) := by decide
  rintro x ⟨p, hp, rfl⟩ y ⟨q, hq, rfl⟩ heq
  rw [deploys_signed, List.mem_cons, List.mem_singleton] at hp hq
  rcases hp with rfl | rfl <;> rcases hq with rfl | rfl
  · rfl
  · exact absurd heq hdiffer
  · exact absurd heq.symm hdiffer
  · rfl

/-- An account that does not exist deploys twice with one nonce: without a signature, to one
address, and the second code replaces the first. -/
theorem deployment_overwritten : ∃ s₁ s₂ : Chain,
    Trace.Run (ledger deployNode.toEnv {}) (fun _ _ => True)
      [(s₁, ghostAct otherModule), ({}, ghostAct idleModule)] s₂ ∧
    deploys deployNode.toEnv [(s₁, ghostAct otherModule), ({}, ghostAct idleModule)] =
      [ghostDeploy otherModule, ghostDeploy idleModule] ∧
    CollisionFree deployNode.toEnv [(s₁, ghostAct otherModule), ({}, ghostAct idleModule)] ∧
    contractIdOf deployNode.toEnv (ghostDeploy otherModule) =
      contractIdOf deployNode.toEnv (ghostDeploy idleModule) ∧
    s₁.stateGet .wasm (contractIdOf deployNode.toEnv (ghostDeploy idleModule)) =
      some idleModule.2 ∧
    s₂.stateGet .wasm (contractIdOf deployNode.toEnv (ghostDeploy idleModule)) =
      some otherModule.2 := by
  let s₁ := (ledger deployNode.toEnv {}).step {} (ghostAct idleModule)
  have hfirst : deployed deployNode.toEnv ({}, ghostAct idleModule) =
      some (ghostDeploy idleModule) := deployed_of_isOk (by decide)
  have hsecond : deployed deployNode.toEnv (s₁, ghostAct otherModule) =
      some (ghostDeploy otherModule) := deployed_of_isOk (by decide)
  have hall : deploys deployNode.toEnv [(s₁, ghostAct otherModule), ({}, ghostAct idleModule)] =
      [ghostDeploy otherModule, ghostDeploy idleModule] := by
    unfold deploys
    rw [List.filterMap_cons_some hsecond, List.filterMap_cons_some hfirst, List.filterMap_nil]
  refine ⟨s₁, (ledger deployNode.toEnv {}).step s₁ (ghostAct otherModule),
    .step _ (.step _ (.start rfl) trivial) trivial, hall, ?_, rfl, by decide,
    by decide⟩
  refine collisionFree_of_inputOf (b := inputOf (ghostDeploy idleModule)) fun p hp => ?_
  rw [hall] at hp
  rcases List.mem_cons.1 hp with rfl | hp
  · rfl
  · rw [List.mem_singleton.1 hp]

end HoneNode.Contracts
