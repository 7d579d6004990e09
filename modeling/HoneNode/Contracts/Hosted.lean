import HoneNode.Contracts.Calls
import HoneNode.Contracts.Deployment
import HoneNode.Contracts.Host

/-!
# Contracts.Hosted — the ledger with the runtime behind it

`contracts.rs` hands the runtime what the store has of a contract, and takes over what it
reports. Whatever contracts are called, in whatever order: a call is given transfers that
the balance covers, and what the store has of a contract is the map that the calls
accepted so far have made.

1. **The interface**: requests, and what the ledger takes over.
2. **Loading** what the store has (`run_load`).
3. **One call**, and **runs** (`store_is_contents`).
-/

namespace HoneNode.Contracts

open Entry Prog Within Trace

/-! ## The interface -/

/-- The `HashMap` that the stored entries are inserted into, one after the other. -/
def committedOf (storage : List (Bytes × Bytes)) : ByteMap :=
  storage.foldl (fun m b => m.insert b.1 b.2) ∅

def callRequest (p : ContractCall) : CallRequest where
  contractId := p.contractId
  method := p.method
  args := p.args
  signer := p.signer
  predecessor := p.signer
  attachedDeposit := p.deposit
  gas := p.gas
  epoch := p.epoch

def contractState (p : ContractCall) (storage : List (Bytes × Bytes)) (balance : ℕ) :
    ContractState := ⟨p.contractId, .fresh (committedOf storage), balance⟩

/-- What the ledger takes over of a report; the writes come in any order. -/
structure Delivers (r : CallResult) (result : ContractResult) : Prop where
  success : result.success = r.success
  error : result.error = r.error
  writes : result.storageWrites.Perm r.storageWrites
  deletes : result.storageDeletes = r.storageDeletes
  transfers : result.pendingTransfers = r.pendingTransfers

/-- A node that runs its contracts in the runtime. -/
structure HostedNode extends Env where
  runtime : Runtime
  delivers_call : ∀ p storage balance,
    Delivers (runtime.executeCall (callRequest p) (contractState p storage balance))
      (executeCall p storage balance)
  delivers_deploy : ∀ p, Delivers
    (runtime.executeDeploy base64Decode base64Error contractAddress p (.fresh ∅)) (executeDeploy p)

/-! ## Loading -/

/-- Every stored key of a contract is the encoding of a key. -/
def Canonical (s : Chain) (contractId : String) : Prop :=
  ∀ hexKey value, s.stateGet .contract (storageKey contractId hexKey) = some value →
    ∃ key, hexKey = hexEncode key

/-- The stored entries with their keys decoded. -/
def decoded (s : Chain) (contractId : String) : List (Bytes × Bytes) :=
  ((s.state .contract).scan (hasPrefix s!"{contractId}:")).map fun e =>
    ((hexDecode (dropPrefix s!"{contractId}:" e.1)).getD [], e.2)

section Load

variable {s : Chain} {contractId : String} {env : Env}

theorem lookup_committedOf {l : List (Bytes × Bytes)} (hnodup : (l.map Prod.fst).Nodup)
    (key value : Bytes) : (committedOf l).lookup key = some value ↔ (key, value) ∈ l := by
  induction l using List.reverseRecOn with
  | nil => exact iff_of_false nofun nofun
  | append_singleton l b ih =>
    rw [List.map_append, List.nodup_append] at hnodup
    obtain ⟨hl, -, hapart⟩ := hnodup
    have hinsert : committedOf (l ++ [b]) = (committedOf l).insert b.1 b.2 := by
      unfold committedOf
      rw [List.foldl_append]
      rfl
    rw [hinsert, List.mem_append, List.mem_singleton]
    by_cases hkey : key = b.1
    · subst hkey
      rw [AList.lookup_insert, Option.some.injEq]
      constructor
      · rintro rfl
        exact .inr rfl
      · rintro (hmem | heq)
        · exact absurd rfl (hapart _ (List.mem_map_of_mem hmem) _ List.mem_cons_self)
        · rw [← heq]
    · rw [AList.lookup_insert_ne hkey, ih hl]
      exact ⟨.inl, fun h => h.elim id fun heq => absurd (congrArg Prod.fst heq) hkey⟩

/-- A stored entry is under a key that belongs to the contract. -/
theorem eq_storageKey {k : String} (h : hasPrefix s!"{contractId}:" k = true) :
    k = storageKey contractId (dropPrefix s!"{contractId}:" k) := Text.eq_append_dropPrefix h

theorem decode_of_canonical (hcanonical : Canonical s contractId) {k : String} {value : Bytes}
    (h : (k, value) ∈ (s.state .contract).scan (hasPrefix s!"{contractId}:")) :
    ∃ key, hexDecode (dropPrefix s!"{contractId}:" k) = some key ∧
      k = storageKey contractId (hexEncode key) := by
  obtain ⟨hget, hprefix⟩ := Kv.mem_scan.1 h
  have hk := eq_storageKey hprefix
  obtain ⟨key, hkey⟩ := hcanonical _ _ ((congrArg (s.stateGet .contract) hk).symm.trans hget)
  refine ⟨key, ?_, ?_⟩
  · rw [hkey, hexDecode_hexEncode]
  · rw [← hkey]
    exact hk

theorem mem_decoded (hcanonical : Canonical s contractId) (key value : Bytes) :
    (key, value) ∈ decoded s contractId ↔
      s.stateGet .contract (storageKey contractId (hexEncode key)) = some value := by
  unfold decoded
  rw [List.mem_map]
  constructor
  · rintro ⟨⟨k, v⟩, hmem, heq⟩
    obtain ⟨key', hdecode, hk⟩ := decode_of_canonical hcanonical hmem
    rw [hdecode] at heq
    cases heq
    rw [Option.getD_some, ← hk]
    exact (Kv.mem_scan.1 hmem).1
  · intro hget
    refine ⟨(storageKey contractId (hexEncode key), value), ?_, ?_⟩
    · exact Kv.mem_scan.2 ⟨hget, Text.hasPrefix_append _ _⟩
    · have hdrop : dropPrefix s!"{contractId}:" (storageKey contractId (hexEncode key)) =
          hexEncode key := Text.dropPrefix_append _ _
      dsimp only
      rw [hdrop, hexDecode_hexEncode]
      rfl

theorem nodup_decoded (hcanonical : Canonical s contractId) :
    ((decoded s contractId).map Prod.fst).Nodup := by
  have hkeys : (((s.state .contract).scan (hasPrefix s!"{contractId}:")).map Prod.fst).Nodup :=
    List.pairwise_map.2 (((s.state .contract).sorted.filter _).imp fun h => ne_of_lt h)
  refine List.Nodup.of_map (fun key => storageKey contractId (hexEncode key)) ?_
  unfold decoded
  rw [List.map_map, List.map_map]
  refine (congrArg List.Nodup (List.map_congr_left ?_)).mp hkeys
  rintro ⟨k, value⟩ hmem
  obtain ⟨key, hdecode, hk⟩ := decode_of_canonical hcanonical hmem
  dsimp only [Function.comp_apply]
  rw [hdecode]
  exact hk

/-- No stored key is corrupted, so loading fails only where the code is missing. -/
theorem run_load {W : Footprint} (hcanonical : Canonical s contractId) :
    ∃ msg, (loadContractState env contractId : Prog W _).run s = (do
      let wasm ← orBail (s.stateGet .wasm contractId) msg
      pure (decoded s contractId ++ [(Runtime.wasmKey, wasm)]) : Prog W _).run s := by
  have hfold : ∀ (entries : List (String × Bytes)) (acc : List (Bytes × Bytes)),
      (∀ e ∈ entries, ∃ key, hexDecode (dropPrefix s!"{contractId}:" e.1) = some key) →
      (entries.foldlM (fun acc (e : String × Bytes) => do
        let hexKey := dropPrefix s!"{contractId}:" e.1
        let rawKey ← orBail (hexDecode hexKey)
          s!"corrupted storage key '{hexKey}': {env.hexError hexKey}"
        pure (acc ++ [(rawKey, e.2)])) acc : Prog W _).run s =
      (.ok (acc ++ entries.map fun e =>
        ((hexDecode (dropPrefix s!"{contractId}:" e.1)).getD [], e.2)), s) := by
    intro entries
    induction entries with
    | nil =>
      intro acc _
      rw [List.map_nil, List.append_nil]
      rfl
    | cons e rest ih =>
      intro acc hall
      obtain ⟨key, hkey⟩ := hall e List.mem_cons_self
      have hbody : ∀ msg, ((do
          let rawKey ← orBail (hexDecode (dropPrefix s!"{contractId}:" e.1)) msg
          pure (acc ++ [(rawKey, e.2)])) : Prog W _).run s = (.ok (acc ++ [(key, e.2)]), s) := by
        intro msg
        rw [hkey]
        rfl
      rw [List.foldlM_cons, run_bind_ok (hbody _),
        ih _ fun e' he' => hall e' (List.mem_cons_of_mem _ he'), List.map_cons, hkey]
      simp
  unfold loadContractState
  rw [run_stateScan_bind, run_bind_ok (hfold _ _ ?_),
    run_stateGet_bind]
  · exact ⟨_, rfl⟩
  · rintro ⟨k, value⟩ hmem
    obtain ⟨key, hdecode, -⟩ := decode_of_canonical hcanonical hmem
    exact ⟨key, hdecode⟩

/-- What is loaded are the stored entries, with the code over them. -/
theorem loaded_eq {W : Footprint} {storage : List (Bytes × Bytes)}
    (hcanonical : Canonical s contractId)
    (h : ((loadContractState env contractId : Prog W _).run s).1 = .ok storage) :
    ∃ wasm, storage = decoded s contractId ++ [(Runtime.wasmKey, wasm)] := by
  obtain ⟨msg, hload⟩ := @run_load s contractId env W hcanonical
  rw [hload] at h
  cases hwasm : s.stateGet .wasm contractId with
  | none =>
    rw [hwasm] at h
    cases h
  | some wasm =>
    rw [hwasm] at h
    cases h
    exact ⟨wasm, rfl⟩

theorem lookup_loaded (hcanonical : Canonical s contractId) (wasm : Bytes) {key : Bytes}
    (hkey : key ≠ Runtime.wasmKey) :
    (committedOf (decoded s contractId ++ [(Runtime.wasmKey, wasm)])).lookup key =
      s.stateGet .contract (storageKey contractId (hexEncode key)) := by
  have hinsert : committedOf (decoded s contractId ++ [(Runtime.wasmKey, wasm)]) =
      (committedOf (decoded s contractId)).insert Runtime.wasmKey wasm := by
    unfold committedOf
    rw [List.foldl_append]
    rfl
  rw [hinsert, AList.lookup_insert_ne hkey]
  ext value
  exact (lookup_committedOf (nodup_decoded hcanonical) key value).trans
    (mem_decoded hcanonical key value)

end Load

/-! ## One call -/

section Call

variable {env : Env} {now : ℕ} {p : ContractCall} {s t u : Chain}

theorem keeps_mapErr {W : Footprint} {α : Type} {f : Family} {g : String → String} {m : Prog W α}
    (h : Keeps (·.state f) m) : Keeps (·.state f) (mapErr g m) := by
  intro s
  have hs := h s
  rcases hrun : m.run s with ⟨(_ | _) | a, t⟩ <;> rw [hrun] at hs <;>
    simpa only [mapErr, hrun] using hs

theorem keeps_onError {W : Footprint} {α : Type} {f : Family} {m : Prog W α}
    {cleanup : Prog W Unit} (h : Keeps (·.state f) m) (hcleanup : Keeps (·.state f) cleanup) :
    Keeps (·.state f) (onError m cleanup) := by
  intro s
  have hs := h s
  rcases hrun : m.run s with ⟨e | a, t⟩
  · rw [run_onError_error hrun]
    rw [hrun] at hs
    exact (hcleanup t).trans hs
  · rw [run_onError_ok hrun]
    rw [hrun] at hs
    exact hs

theorem keeps_takeDeposit : Keeps (·.state .contract) (takeDeposit p) :=
  keeps_when ((keeps_mapErr keeps_debit).bind fun _ =>
    keeps_mapErr (keeps_onError keeps_credit keeps_credit.ignoreErr))

theorem keeps_refundDeposit : Keeps (·.state .contract) (refundDeposit p) :=
  keeps_when (keeps_debit.ignoreErr.bind fun _ => keeps_credit.ignoreErr)

theorem keeps_loadContractState {W : Footprint} (contractId : String) :
    Keeps (·.state .contract) (loadContractState env contractId : Prog W _) :=
  fun s => congrArg (·.state .contract) (run_loadContractState contractId (s := s))

/-- A call does not touch the storage before its transfers. -/
theorem keeps_executeCall : Keeps (·.state .contract) (executeCall env p) := by
  unfold executeCall checkNonce
  refine Keeps.bind (keeps_inspect.bind fun _ => keeps_ensure) fun _ => ?_
  refine keeps_inspect.bind fun _ => keeps_ensure.bind fun _ => ?_
  refine (keeps_loadContractState _).bind fun _ => keeps_inspect.bind fun _ => ?_
  refine keeps_takeDeposit.bind fun _ => Keeps.ite ?_ (Keeps.ite ?_ (keeps_pure _))
  · exact keeps_refundDeposit.bind fun _ => keeps_bail _
  · exact keeps_refundDeposit.bind fun _ => keeps_bail _

/-- A call that gets to its transfers was answered with a success. -/
theorem ok_executeCall {result : ContractResult} (h : (executeCall env p).run s = (.ok result, t)) :
    result ∈ resultOf env p s ∧ result.success = true := by
  unfold executeCall at h
  obtain ⟨-, h⟩ := ok_checkNonce_bind.1 h
  rw [run_inspect_bind] at h
  obtain ⟨-, h⟩ := ok_ensure_bind.1 h
  obtain ⟨storage, s₁, hload, h⟩ := run_bind_eq_ok.1 h
  rw [run_inspect_bind] at h
  obtain ⟨-, s₂, -, h⟩ := run_bind_eq_ok.1 h
  have hsame := @run_loadContractState env s (callFootprint p) p.contractId
  rw [hload] at hsame
  obtain rfl : s₁ = s := hsame
  have hanswer : resultOf env p s₁ =
      some (env.executeCall p storage (s₁.getBalance p.contractId nativeToken)) := by
    unfold resultOf
    rw [hload]
  generalize env.executeCall p storage (s₁.getBalance p.contractId nativeToken) = answer
    at h hanswer
  dsimp only at h
  split at h
  · obtain ⟨_, _, -, h⟩ := run_bind_eq_ok.1 h
    cases h
  · next hsuccess =>
    split at h
    · obtain ⟨_, _, -, h⟩ := run_bind_eq_ok.1 h
      cases h
    · cases h
      exact ⟨hanswer, not_not.1 hsuccess⟩

theorem state_payTransfers (transfers : List (String × ℕ)) (s : Chain) :
    (payTransfers env now p transfers s).2.state .contract = s.state .contract := by
  induction transfers generalizing s with
  | nil => rfl
  | cons transfer rest ih =>
    have hfirst := @state_transfer .contract env now s
      (contractTransfer p transfer.1 transfer.2) (by decide) (by decide)
    rw [payTransfers]
    rcases hrun : applyEntry env now (.transfer (contractTransfer p transfer.1 transfer.2)) s with
      ⟨(msg | msg) | ⟨⟩, t⟩
    · rw [hrun] at hfirst
      exact (keeps_refundDeposit t).trans hfirst
    · rw [hrun] at hfirst
      exact hfirst
    · rw [hrun] at hfirst
      exact (ih t).trans hfirst

/-- A call that succeeds commits what it was answered; one that fails commits nothing. -/
theorem call_cases (env : Env) (now : ℕ) (p : ContractCall) (s : Chain) :
    (∃ result ∈ resultOf env p s, result.success = true ∧
      ∃ u, u.state .contract = s.state .contract ∧ applyContractCall env now p s =
        (.ok (),
          (((commitStorage p.contractId result : Prog {} Unit).run u).2).bumpNonce p.signer)) ∨
    ∃ f t, applyContractCall env now p s = (.error f, t) ∧
      t.state .contract = s.state .contract := by
  have hkeeps := @keeps_executeCall env p s
  unfold applyContractCall
  rcases hrun : (executeCall env p).run s with ⟨f | result, s₁⟩
  · rw [hrun] at hkeeps
    exact .inr ⟨f, s₁, rfl, hkeeps⟩
  · rw [hrun] at hkeeps
    obtain ⟨hanswer, hsuccess⟩ := ok_executeCall hrun
    have hpaid := @state_payTransfers env now p result.pendingTransfers s₁
    dsimp only
    rcases hpay : payTransfers env now p result.pendingTransfers s₁ with ⟨f | ⟨⟩, s₂⟩
    · rw [hpay] at hpaid
      exact .inr ⟨f, s₂, rfl, hpaid.trans hkeeps⟩
    · rw [hpay] at hpaid
      exact .inl ⟨result, hanswer, hsuccess, s₂, hpaid.trans hkeeps, rfl⟩

end Call

/-! ## Runs -/

/-- What a call does to the storage of its contract. -/
def callOps (node : HostedNode) (p : ContractCall) (s : Chain) : List StorageOp :=
  match ((loadContractState node.toEnv p.contractId : Prog (callFootprint p) _).run s).1 with
  | .ok storage => (node.runtime.requestCalls (callRequest p)
      (contractState p storage (s.getBalance p.contractId nativeToken))).filterMap storageOp
  | .error _ => []

/-- The store has the map under the keys of the contract; what is under the key of its code is not
read. -/
structure Stored (s : Chain) (contractId : String) (m : ByteMap) : Prop where
  canonical : Canonical s contractId
  entry : ∀ key, key ≠ Runtime.wasmKey →
    s.stateGet .contract (storageKey contractId (hexEncode key)) = m.lookup key

/-- The calls to all contracts; nothing else touches the storage of the one. -/
def callLedger (node : HostedNode) (contractId : String) (m₀ : ByteMap) :
    Component Chain (ℕ × ContractCall) where
  init s := Stored s contractId m₀
  step s op := (applyContractCall node.toEnv op.1 op.2 s).2
  other s s' := Untouched contractId s s'

/-- What the calls to a contract have made of its storage; a call that fails made nothing. -/
def contents (node : HostedNode) (contractId : String) (m₀ : ByteMap) :
    List (Chain × (ℕ × ContractCall)) → ByteMap
  | [] => m₀
  | (s, now, p) :: hist =>
    if p.contractId = contractId ∧ (applyContractCall node.toEnv now p s).1.isOk = true then
      plain (contents node contractId m₀ hist) (callOps node p s)
    else contents node contractId m₀ hist

section Runs

variable {node : HostedNode} {now : ℕ} {p : ContractCall} {s t : Chain} {m : ByteMap}
  {x : String}

theorem lookup_plain_congr {m' : ByteMap} {key : Bytes} (h : m.lookup key = m'.lookup key)
    (ops : List StorageOp) : (plain m ops).lookup key = (plain m' ops).lookup key := by
  induction ops generalizing m m' with
  | nil => exact h
  | cons op rest ih =>
    refine ih ?_
    cases op with
    | write k value =>
      by_cases hk : key = k
      · subst hk
        exact (AList.lookup_insert m).trans (AList.lookup_insert m').symm
      · exact (AList.lookup_insert_ne hk).trans (h.trans (AList.lookup_insert_ne hk).symm)
    | delete k =>
      by_cases hk : key = k
      · subst hk
        exact (AList.lookup_erase key m).trans (AList.lookup_erase key m').symm
      · exact (AList.lookup_erase_ne hk).trans (h.trans (AList.lookup_erase_ne hk).symm)
    | read k => exact h
    | hasKey k => exact h

theorem Stored.of_untouched (h : Stored s x m) (hsame : Untouched x s t) : Stored t x m :=
  ⟨fun hexKey value hget => h.canonical hexKey value ((hsame.2 hexKey).symm.trans hget),
    fun key hkey => (hsame.2 _).trans (h.entry key hkey)⟩

theorem Stored.of_state (h : Stored s x m) (hstate : t.state .contract = s.state .contract) :
    Stored t x m :=
  ⟨fun hexKey value hget =>
      h.canonical hexKey value ((stateGet_of_state hstate _).symm.trans hget),
    fun key hkey => (stateGet_of_state hstate _).trans (h.entry key hkey)⟩

variable {result : ContractResult}

/-- The keys that a contract commits are encodings. -/
theorem canonical_commit {st : StorageKv} (h : Canonical s x)
    (hwrites : result.storageWrites.Perm st.drainWrites) :
    Canonical ((commitStorage x result : Prog {} Unit).run s).2 x := by
  intro hexKey value hget
  rw [run_commitStorage, stateGet_withDeletes] at hget
  split at hget
  · cases hget
  · by_cases hmem : hexKey ∈ result.storageWrites.map Prod.fst
    · obtain ⟨w, hw, rfl⟩ := List.mem_map.1 ((hwrites.map Prod.fst).mem_iff.1 hmem)
      obtain ⟨b, -, rfl⟩ := List.mem_map.1 hw
      exact ⟨b.1, rfl⟩
    · rw [stateGet_withWrites_of_notMem hmem] at hget
      exact h hexKey value hget

/-- What the ledger is answered comes from a run of the contract on what is stored. -/
theorem result_delivers (h : result ∈ resultOf node.toEnv p s) :
    ∃ storage, ((loadContractState node.toEnv p.contractId : Prog (callFootprint p) _).run s).1 =
        .ok storage ∧
      Delivers (node.runtime.executeCall (callRequest p)
        (contractState p storage (s.getBalance p.contractId nativeToken))) result := by
  unfold resultOf at h
  split at h
  · next storage hload =>
    cases h
    exact ⟨storage, hload, node.delivers_call _ _ _⟩
  · cases h

/-- The transfers of a call are covered. -/
theorem sent_le (h : result ∈ resultOf node.toEnv p s) :
    sent result ≤ s.getBalance p.contractId nativeToken := by
  obtain ⟨storage, -, hdelivers⟩ := result_delivers h
  unfold sent
  rw [hdelivers.transfers]
  exact Runtime.amounts_executeCall_le

/-- A call makes of the stored map what it asks for, or leaves it. -/
theorem Stored.call (h : Stored s p.contractId m) :
    Stored (applyContractCall node.toEnv now p s).2 p.contractId
      (if (applyContractCall node.toEnv now p s).1.isOk = true then plain m (callOps node p s)
        else m) := by
  rcases call_cases node.toEnv now p s with
    ⟨result, hresult, hsuccess, u, hu, hcall⟩ | ⟨f, t, hcall, ht⟩
  swap
  · rw [hcall]
    exact h.of_state ht
  obtain ⟨storage, hload, hdelivers⟩ := result_delivers hresult
  have hreports := (@Runtime.reports_executeCall node.runtime (callRequest p)
      (contractState p storage (s.getBalance p.contractId nativeToken))).success
    (hdelivers.success.symm.trans hsuccess)
  have hops : callOps node p s = (node.runtime.requestCalls (callRequest p)
      (contractState p storage (s.getBalance p.contractId nativeToken))).filterMap storageOp := by
    unfold callOps
    rw [hload]
  have hwrites := hdelivers.writes
  rw [hreports.1, ← hops] at hwrites
  have hdeletes := hdelivers.deletes
  rw [hreports.2.1, ← hops] at hdeletes
  obtain ⟨wasm, hstorage⟩ := loaded_eq h.canonical hload
  have hstored : Stored u p.contractId m := h.of_state hu
  rw [hcall]
  refine Stored.of_state ?_ (state_bumpNonce _ _)
  refine ⟨canonical_commit hstored.canonical hwrites, fun key hkey => ?_⟩
  have hbase : (committedOf storage).lookup key = m.lookup key := by
    rw [hstorage, lookup_loaded h.canonical wasm hkey, h.entry key hkey]
  rw [commits_key ((hstored.entry key hkey).trans hbase.symm) hwrites hdeletes]
  exact lookup_plain_congr hbase _

/-- A call of another contract leaves the map. -/
theorem Stored.other (h : Stored s x m) (hx : ':' ∉ x.toList) (hp : ':' ∉ p.contractId.toList)
    (hne : p.contractId ≠ x) : Stored (applyContractCall node.toEnv now p s).2 x m := by
  rcases call_cases node.toEnv now p s with
    ⟨result, -, -, u, hu, hcall⟩ | ⟨f, t, hcall, ht⟩
  · rw [hcall]
    refine Stored.of_state ?_ (state_bumpNonce _ _)
    exact (h.of_state hu).of_untouched (untouched_commitStorage hx hp hne.symm result)
  · rw [hcall]
    exact h.of_state ht

end Runs

/-- In every run of calls, to whatever contracts, the store has for each contract what the calls to
it that were accepted have made, and each call was answered with transfers that the balance of its
contract covers. -/
theorem contract_store_is_contents {node : HostedNode} {contractId : String} {m₀ : ByteMap}
    {hist : List (Chain × (ℕ × ContractCall))} {t : Chain}
    (hid : ':' ∉ contractId.toList)
    (hrun : Run (callLedger node contractId m₀) (fun _ op => ':' ∉ op.2.contractId.toList) hist t) :
    Stored t contractId (contents node contractId m₀ hist) ∧
      ∀ c ∈ hist, ∀ result ∈ resultOf node.toEnv c.2.2 c.1,
        sent result ≤ c.1.getBalance c.2.2.contractId nativeToken := by
  refine ⟨?_, fun c _ result hresult => sent_le hresult⟩
  induction hrun with
  | start h => exact h
  | @step hist s op hrun hop ih =>
    obtain ⟨now, p⟩ := op
    unfold contents
    by_cases hp : p.contractId = contractId
    · subst hp
      have hcall := @Stored.call node now p s _ ih
      split
      · next hok =>
        rw [if_pos hok.2] at hcall
        exact hcall
      · next hnot =>
        rw [if_neg fun hok => hnot ⟨rfl, hok⟩] at hcall
        exact hcall
    · rw [if_neg fun hok => hp hok.1]
      exact ih.other hid hop hp
  | other _ hs ih => exact ih.of_untouched hs

/-! ### A contract that keeps a note -/

def CallResult.delivered (r : CallResult) : ContractResult :=
  ⟨r.success, r.error, r.storageWrites, r.storageDeletes, r.pendingTransfers⟩

/-- A node with the runtime behind it. -/
def hosted (env : Env) (rt : Runtime) : HostedNode where
  toEnv := { env with
    executeCall := fun p storage balance =>
      (rt.executeCall (callRequest p) (contractState p storage balance)).delivered
    executeDeploy := fun p => (rt.executeDeploy env.base64Decode env.base64Error
      env.contractAddress p (.fresh ∅)).delivered }
  runtime := rt
  delivers_call _ _ _ := ⟨rfl, rfl, .refl _, rfl, rfl⟩
  delivers_deploy _ := ⟨rfl, rfl, .refl _, rfl, rfl⟩

/-- Whatever the code, it writes the first byte of its memory under the second. -/
def noting : Runtime where
  parseJson _ := none
  printJson _ := []
  trapText _ := "trap"
  guest _ _ fuel :=
    { dispatch := some [(some [7, 9], .storageWrite 1 1 0 1)], remaining := fuel }

def noted : Chain := Chain.stateSet {} .wasm "notes" []

def note : ContractCall :=
  { signer := "ann", contractId := "notes", method := "keep", args := .null, deposit := 0
    gas := 1, epoch := 0, nonce := 1 }

theorem contract_store_is_contents_noted :
    let node := hosted .bare noting
    let hist := [(noted, (0, note))]
    Stored (applyContractCall node.toEnv 0 note noted).2 "notes" (contents node "notes" ∅ hist) ∧
      (contents node "notes" ∅ hist).lookup [9] = some [7] := by
  intro node hist
  have hstart : Stored noted "notes" ∅ := by
    have hnone : ∀ key, noted.stateGet .contract key = none := fun _ => rfl
    refine ⟨fun hexKey value h => ?_, fun key _ => hnone _⟩
    rw [hnone] at h
    cases h
  have hrun : Run (callLedger node "notes" ∅) (fun _ op => ':' ∉ op.2.contractId.toList) hist
      ((callLedger node "notes" ∅).step noted (0, note)) :=
    .step (0, note) (.start hstart) (by decide)
  exact ⟨(contract_store_is_contents (by decide) hrun).1, by decide +kernel⟩

end HoneNode.Contracts
