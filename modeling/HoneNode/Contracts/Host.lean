import HoneNode.Contracts.Storage
import HoneNode.Lib.Utf8
import HoneNode.Lib.Word

/-!
# Contracts.Host — what a contract can do to the node that runs it

The functions the runtime gives to a contract (`host.rs`), and the executor around
them (`executor.rs`). The code of a contract is any sequence of calls, with whatever
arguments and whatever in its memory. Pointers that lead out of the memory are no
error of the node, transfers add up to what the contract has, and only a run to the
end reports anything.
-/

namespace HoneNode.Contracts

/-! ## The memory of the guest -/

/-- `&data[a..b]`. -/
def sliceAt (data : Bytes) (a b : ℕ) : Except Fault Bytes :=
  if a ≤ b ∧ b ≤ data.length then .ok (Text.slice a b data)
  else .error (.panic "slice index out of range")

/-- `ptr.checked_add(len).filter(|&e| e <= data.len())`. -/
def guestEnd (data : Bytes) (ptr len : ℕ) : Option ℕ :=
  (if ptr + len < 2 ^ 64 then some (ptr + len) else none).filter (· ≤ data.length)

/-- What a pointer and a length stand for; none without a memory, or outside of it. -/
def guestBytes (mem : Option Bytes) (ptr len : ℕ) : Except Fault (Option Bytes) :=
  match mem with
  | none => .ok none
  | some data => match guestEnd data ptr len with
    | none => .ok none
    | some e => (sliceAt data ptr e).map some

/-- `mem_data[start..end].copy_from_slice(&data)`, if it fits. -/
def guestCopy (mem : Option Bytes) (ptr : ℕ) (data : Bytes) : Option Bytes :=
  mem.map fun bytes =>
    if ptr + data.length < 2 ^ 64 ∧ ptr + data.length ≤ bytes.length then
      bytes.take ptr ++ data ++ bytes.drop (ptr + data.length)
    else bytes

/-! ## The context of a call -/

structure ExecutionContext where
  (signer predecessor contractId : String)
  (epoch attachedDeposit gasLimit gasUsed : ℕ)
  storage : StorageKv
  balances : Kv String ℕ
  reservedBalance : ℕ
  pendingTransfers : List (String × ℕ)
  events : List Json
  logs : List String
  returnValue : Option Bytes
  panicMessage : Option String
  registers : Kv ℕ Bytes
  input : Bytes

namespace ExecutionContext

variable (ctx : ExecutionContext)

def setRegister (id : ℕ) (data : Bytes) : ExecutionContext :=
  { ctx with registers := ctx.registers.put id data }

def getRegisterLen (id : ℕ) : ℕ :=
  if id = u64Max then ctx.input.length else ((ctx.registers.get id).map List.length).getD u64Max

def balanceOf (account : String) : ℕ := (ctx.balances.get account).getD 0

end ExecutionContext

/-! ## Host functions -/

inductive HostCall where
  | envSigner (registerId : ℕ)
  | envPredecessor (registerId : ℕ)
  | envContractId (registerId : ℕ)
  | envEpoch
  | envAttachedDeposit
  | storageWrite (keyPtr keyLen valPtr valLen : ℕ)
  | storageRead (keyPtr keyLen registerId : ℕ)
  | storageRemove (keyPtr keyLen registerId : ℕ)
  | storageHasKey (keyPtr keyLen : ℕ)
  | registerLen (registerId : ℕ)
  | readRegister (registerId ptr : ℕ)
  | valueReturn (valuePtr valueLen : ℕ)
  | emitEvent (eventPtr eventLen : ℕ)
  | logUtf8 (msgPtr msgLen : ℕ)
  | panicUtf8 (msgPtr msgLen : ℕ)
  | balanceOf (accountPtr accountLen : ℕ)
  | transfer (toPtr toLen amount : ℕ)
  | promiseCreate
deriving DecidableEq

/-- The memory after a call, and what it returns; `0` where it returns nothing. -/
structure HostReply where
  mem : Option Bytes
  value : ℕ := 0

/-- What a host function ends with, and the context it leaves; an error traps the guest. -/
abbrev HostResult := Except Fault HostReply × ExecutionContext

/-- Go on with the bytes of the guest. -/
def withBytes (mem : Option Bytes) (ptr len : ℕ) (ctx : ExecutionContext)
    (next : Option Bytes → HostResult) : HostResult :=
  match guestBytes mem ptr len with
  | .error fault => (.error fault, ctx)
  | .ok found => next found

def panicText (mem found : Option Bytes) : String :=
  match mem, found with
  | none, _ => "contract panicked"
  | some _, none => "contract panicked (out-of-bounds message pointer)"
  | some _, some msg => Text.fromUtf8Lossy msg

/-- The transfer is noted if the contract has the amount besides what it has promised. -/
def reserveTransfer (to_ : String) (amount : ℕ) (ctx : ExecutionContext) :
    ℕ × ExecutionContext :=
  if amount ≤ ctx.balanceOf ctx.contractId - ctx.reservedBalance then
    (1, { ctx with
      reservedBalance := ctx.reservedBalance + amount
      pendingTransfers := ctx.pendingTransfers ++ [(to_, amount)] })
  else (0, ctx)

section Calls

variable (parseJson : Bytes → Option Json) (mem : Option Bytes) (ctx : ExecutionContext)

def hostCall : HostCall → HostResult
  | .envSigner id => (.ok ⟨mem, 0⟩, ctx.setRegister id (Text.bytes ctx.signer))
  | .envPredecessor id => (.ok ⟨mem, 0⟩, ctx.setRegister id (Text.bytes ctx.predecessor))
  | .envContractId id => (.ok ⟨mem, 0⟩, ctx.setRegister id (Text.bytes ctx.contractId))
  | .envEpoch => (.ok ⟨mem, ctx.epoch⟩, ctx)
  | .envAttachedDeposit => (.ok ⟨mem, min ctx.attachedDeposit u64Max⟩, ctx)
  | .storageWrite keyPtr keyLen valPtr valLen =>
    withBytes mem keyPtr keyLen ctx fun key =>
      withBytes mem valPtr valLen ctx fun value => match key, value with
        | some key, some value =>
          (.ok ⟨mem, 1⟩, { ctx with storage := ctx.storage.write key value })
        | _, _ => (.ok ⟨mem, 0⟩, ctx)
  | .storageRead keyPtr keyLen id =>
    withBytes mem keyPtr keyLen ctx fun key => match key.bind ctx.storage.read with
      | some value => (.ok ⟨mem, 1⟩, ctx.setRegister id value)
      | none => (.ok ⟨mem, 0⟩, ctx)
  | .storageRemove keyPtr keyLen _ =>
    withBytes mem keyPtr keyLen ctx fun key => match key with
      | some key => (.ok ⟨mem, 1⟩, { ctx with storage := ctx.storage.delete key })
      | none => (.ok ⟨mem, 0⟩, ctx)
  | .storageHasKey keyPtr keyLen =>
    withBytes mem keyPtr keyLen ctx fun key =>
      (.ok ⟨mem, if key.any ctx.storage.hasKey then 1 else 0⟩, ctx)
  | .registerLen id => (.ok ⟨mem, ctx.getRegisterLen id⟩, ctx)
  | .readRegister id ptr =>
    let data := if id = u64Max then ctx.input else (ctx.registers.get id).getD []
    (.ok ⟨guestCopy mem ptr data, 0⟩, ctx)
  | .valueReturn valuePtr valueLen =>
    withBytes mem valuePtr valueLen ctx fun value => match value with
      | some value => (.ok ⟨mem, 0⟩, { ctx with returnValue := some value })
      | none => (.ok ⟨mem, 0⟩, ctx)
  | .emitEvent eventPtr eventLen =>
    withBytes mem eventPtr eventLen ctx fun event =>
      (.ok ⟨mem, 0⟩, { ctx with events := ctx.events ++ (event.bind parseJson).toList })
  | .logUtf8 msgPtr msgLen =>
    withBytes mem msgPtr msgLen ctx fun msg =>
      (.ok ⟨mem, 0⟩, { ctx with logs := ctx.logs ++ (msg.map Text.fromUtf8Lossy).toList })
  | .panicUtf8 msgPtr msgLen =>
    withBytes mem msgPtr msgLen ctx fun msg =>
      (.error (.err (panicText mem msg)),
        { ctx with panicMessage := some (panicText mem msg) })
  | .balanceOf accountPtr accountLen =>
    withBytes mem accountPtr accountLen ctx fun account =>
      (.ok ⟨mem, account.elim 0 fun name =>
        min (ctx.balanceOf (Text.fromUtf8Lossy name)) u64Max⟩, ctx)
  | .transfer toPtr toLen amount =>
    withBytes mem toPtr toLen ctx fun to_ => match to_ with
      | some to_ =>
        let r := reserveTransfer (Text.fromUtf8Lossy to_) amount ctx
        (.ok ⟨mem, r.1⟩, r.2)
      | none => (.ok ⟨mem, 0⟩, ctx)
  | .promiseCreate => (.ok ⟨mem, 0⟩, ctx)

end Calls

/-- A call of the guest, with its memory at that moment. -/
abbrev GuestCall := Option Bytes × HostCall

/-- The calls one after the other, up to one that traps. -/
def runCalls (parseJson : Bytes → Option Json) :
    List GuestCall → ExecutionContext → Except Fault Unit × ExecutionContext
  | [], ctx => (.ok (), ctx)
  | c :: calls, ctx => match hostCall parseJson c.1 ctx c.2 with
    | (.error fault, ctx') => (.error fault, ctx')
    | (.ok _, ctx') => runCalls parseJson calls ctx'

/-! ## The executor -/

def maxCallFuel : ℕ := 300 * 1000000

/-- What the engine makes of some code: why it does not load, the calls it makes while it is
instantiated and then from its entry point, if it has one, how each ends if the guest traps of
itself, and the fuel left. -/
structure Guest where
  rejected : Option String := none
  start : List GuestCall := []
  startTrap : Option String := none
  dispatch : Option (List GuestCall)
  trap : Option String := none
  remaining : ℕ

/-- The engine and the JSON library. -/
structure Runtime where
  parseJson : Bytes → Option Json
  printJson : Json → Bytes
  /-- How the engine prints the error of a host function. -/
  trapText : Fault → String
  guest : (code : Bytes) → ExecutionContext → (fuel : ℕ) → Guest

structure CallResult where
  success : Bool
  result : Option Json := none
  gasUsed : ℕ := 0
  storageWrites : List (String × Bytes) := []
  storageDeletes : List String := []
  pendingTransfers : List (String × ℕ) := []
  events : List Json := []
  logs : List String := []
  error : Option String := none

def errorResult (msg : String) : CallResult := { success := false, error := some msg }

namespace Runtime

variable (rt : Runtime)

/-- Host calls, and then a trap of the guest itself, if there is one. -/
def runGuest (calls : List GuestCall) (trap : Option String) (ctx : ExecutionContext) :
    Except String Unit × ExecutionContext :=
  match runCalls rt.parseJson calls ctx with
  | (.error fault, ctx') => (.error (rt.trapText fault), ctx')
  | (.ok (), ctx') => (trap.elim (.ok ()) .error, ctx')

/-- The end of `run_wasm`. -/
def callResult (gasUsed : ℕ) : Except String Unit × ExecutionContext → CallResult
  | (.ok (), ctx) =>
    { success := true, result := ctx.returnValue.bind rt.parseJson, gasUsed
      storageWrites := ctx.storage.drainWrites, storageDeletes := ctx.storage.drainDeletes
      pendingTransfers := ctx.pendingTransfers, events := ctx.events, logs := ctx.logs }
  | (.error e, ctx) =>
    { success := false, gasUsed, logs := ctx.logs, error := some (ctx.panicMessage.getD e) }

def runWasm (wasmBytes : Bytes) (method : String) (ctx : ExecutionContext) (gas : ℕ) :
    CallResult :=
  let fuelLimit := min gas maxCallFuel
  let ctx := ctx.setRegister 0 (Text.bytes method)
  let guest := rt.guest wasmBytes ctx fuelLimit
  match guest.rejected with
  | some e => errorResult e
  | none => match rt.runGuest guest.start guest.startTrap ctx with
    | (.error e, _) => errorResult ("Instantiation failed: " ++ e)
    | (.ok (), ctx) => match guest.dispatch with
      | none => errorResult "Contract missing __hone_dispatch export"
      | some calls =>
        rt.callResult (fuelLimit - guest.remaining) (rt.runGuest calls guest.trap ctx)

end Runtime

structure CallRequest where
  (contractId method : String)
  args : Json
  (signer predecessor : String)
  (attachedDeposit gas epoch : ℕ)

structure ContractState where
  contractId : String
  storage : StorageKv
  balance : ℕ

namespace Runtime

variable (rt : Runtime)

/-- The context a call starts in. -/
def callContext (request : CallRequest) (state : ContractState) : ExecutionContext where
  signer := request.signer
  predecessor := request.predecessor
  contractId := state.contractId
  epoch := request.epoch
  attachedDeposit := request.attachedDeposit
  gasLimit := request.gas
  gasUsed := 0
  storage := state.storage
  balances := Kv.put ∅ state.contractId state.balance
  reservedBalance := 0
  pendingTransfers := []
  events := []
  logs := []
  returnValue := none
  panicMessage := none
  registers := ∅
  input := rt.printJson request.args

def wasmKey : Bytes := Text.bytes "__wasm"

def executeCall (request : CallRequest) (state : ContractState) : CallResult :=
  rt.runWasm ((state.storage.committed.lookup wasmKey).getD []) request.method
    (rt.callContext request state) request.gas

/-- The writes of a view are dropped; its deletions and transfers are not. -/
def executeView (request : CallRequest) (state : ContractState) : CallResult :=
  { rt.executeCall request state with storageWrites := [] }

/-- The context of a constructor; a contract in deployment has no balance. -/
def deployContext (p : Entry.ContractDeploy) (contractId : String) (storage : StorageKv) :
    ExecutionContext where
  signer := p.deployer
  predecessor := p.deployer
  contractId := contractId
  epoch := p.epoch
  attachedDeposit := 0
  gasLimit := p.gas
  gasUsed := 0
  storage := storage
  balances := ∅
  reservedBalance := 0
  pendingTransfers := []
  events := []
  logs := []
  returnValue := none
  panicMessage := none
  registers := ∅
  input := rt.printJson (p.initArgs.getD .null)

def executeDeploy (base64Decode : String → Option Bytes) (base64Error : String → String)
    (address : String → ℕ → ℕ → String) (p : Entry.ContractDeploy)
    (initialStorage : StorageKv) : CallResult :=
  match base64Decode p.wasmB64 with
  | none => errorResult ("Invalid base64 WASM: " ++ base64Error p.wasmB64)
  | some wasmBytes =>
    let contractId := address p.deployer p.epoch p.nonce
    rt.runWasm wasmBytes (p.initMethod.getD "new")
      (rt.deployContext p contractId (initialStorage.write wasmKey wasmBytes)) p.gas

end Runtime

/-! ## What a run asks for -/

/-- The bytes behind a pointer and a length, if they lie in the memory. -/
def readable (mem : Option Bytes) (ptr len : ℕ) : Option Bytes :=
  mem.bind fun data =>
    if ptr + len < 2 ^ 64 ∧ ptr + len ≤ data.length then
      some (Text.slice ptr (ptr + len) data)
    else none

/-- What a call does to the storage. -/
def storageOp : GuestCall → Option StorageOp
  | (mem, .storageWrite keyPtr keyLen valPtr valLen) =>
    (readable mem keyPtr keyLen).bind fun key => (readable mem valPtr valLen).map (.write key)
  | (mem, .storageRemove keyPtr keyLen _) => (readable mem keyPtr keyLen).map .delete
  | (mem, .storageRead keyPtr keyLen _) => (readable mem keyPtr keyLen).map .read
  | (mem, .storageHasKey keyPtr keyLen) => (readable mem keyPtr keyLen).map .hasKey
  | _ => none

/-- The transfer a call asks for. -/
def transferAsked : GuestCall → Option (String × ℕ)
  | (mem, .transfer toPtr toLen amount) =>
    (readable mem toPtr toLen).map fun to_ => (Text.fromUtf8Lossy to_, amount)
  | _ => none

/-- The event a call emits, if it is JSON. -/
def eventAsked (parseJson : Bytes → Option Json) : GuestCall → Option Json
  | (mem, .emitEvent eventPtr eventLen) => (readable mem eventPtr eventLen).bind parseJson
  | _ => none

def logAsked : GuestCall → Option String
  | (mem, .logUtf8 msgPtr msgLen) => (readable mem msgPtr msgLen).map Text.fromUtf8Lossy
  | _ => none

def returnAsked : GuestCall → Option Bytes
  | (mem, .valueReturn valuePtr valueLen) => readable mem valuePtr valueLen
  | _ => none

/-- The calls that are made: the one that traps is the last. -/
def madeCalls (parseJson : Bytes → Option Json) :
    List GuestCall → ExecutionContext → List GuestCall
  | [], _ => []
  | c :: calls, ctx => match hostCall parseJson c.1 ctx c.2 with
    | (.error _, _) => [c]
    | (.ok _, ctx') => c :: madeCalls parseJson calls ctx'

/-- The transfers that a budget covers, each if what is left is enough for it. -/
def affordable : ℕ → List (String × ℕ) → List (String × ℕ)
  | _, [] => []
  | budget, t :: rest =>
    if t.2 ≤ budget then t :: affordable (budget - t.2) rest else affordable budget rest

def amounts (transfers : List (String × ℕ)) : ℕ := (transfers.map Prod.snd).sum

/-- What the contract has besides its promises. -/
def ExecutionContext.available (ctx : ExecutionContext) : ℕ :=
  ctx.balanceOf ctx.contractId - ctx.reservedBalance

/-- A run of calls did to the storage what they ask for, and noted the transfers that the contract
can pay. -/
structure Follows (calls : List GuestCall) (ctx ctx' : ExecutionContext) : Prop where
  storage : ctx'.storage = ctx.storage.runAll (calls.filterMap storageOp)
  transfers : ctx'.pendingTransfers =
    ctx.pendingTransfers ++ affordable ctx.available (calls.filterMap transferAsked)
  available : ctx'.available =
    ctx.available - amounts (affordable ctx.available (calls.filterMap transferAsked))

/-- A run of calls noted the events and logs in the order asked for; the last value returned
counts. -/
structure Notes (parseJson : Bytes → Option Json) (calls : List GuestCall)
    (ctx ctx' : ExecutionContext) : Prop where
  events : ctx'.events = ctx.events ++ calls.filterMap (eventAsked parseJson)
  logs : ctx'.logs = ctx.logs ++ calls.filterMap logAsked
  returned : ctx'.returnValue = (calls.filterMap returnAsked).getLast?.or ctx.returnValue

section Host

variable {parseJson : Bytes → Option Json} {mem : Option Bytes} {ctx ctx' : ExecutionContext}
  {call : HostCall} {calls : List GuestCall}

theorem guestEnd_eq (data : Bytes) (ptr len : ℕ) : guestEnd data ptr len =
    if ptr + len < 2 ^ 64 ∧ ptr + len ≤ data.length then some (ptr + len) else none := by
  unfold guestEnd
  by_cases hword : ptr + len < 2 ^ 64
  · rw [if_pos hword]
    by_cases hin : ptr + len ≤ data.length
    · rw [if_pos ⟨hword, hin⟩]
      exact if_pos (decide_eq_true hin)
    · rw [if_neg fun h => hin h.2]
      exact if_neg (by simpa using hin)
  · rw [if_neg hword, if_neg fun h => hword h.1]
    rfl

/-- No slice is out of range. -/
theorem guestBytes_eq (ptr len : ℕ) : guestBytes mem ptr len = .ok (readable mem ptr len) := by
  cases mem with
  | none => rfl
  | some data =>
    change (match guestEnd data ptr len with
      | none => .ok none
      | some e => (sliceAt data ptr e).map some) = Except.ok (if _ then _ else none)
    rw [guestEnd_eq]
    by_cases hin : ptr + len < 2 ^ 64 ∧ ptr + len ≤ data.length
    · have hslice : sliceAt data ptr (ptr + len) = .ok (Text.slice ptr (ptr + len) data) :=
        if_pos ⟨Nat.le_add_right ptr len, hin.2⟩
      rw [if_pos hin, if_pos hin]
      dsimp only
      rw [hslice]
      rfl
    · rw [if_neg hin, if_neg hin]

theorem withBytes_eq (ptr len : ℕ) (next : Option Bytes → HostResult) :
    withBytes mem ptr len ctx next = next (readable mem ptr len) := by
  unfold withBytes
  rw [guestBytes_eq]

theorem amounts_cons (t : String × ℕ) (rest : List (String × ℕ)) :
    amounts (t :: rest) = t.2 + amounts rest := List.sum_cons

theorem amounts_append (l l' : List (String × ℕ)) :
    amounts (l ++ l') = amounts l + amounts l' := by
  unfold amounts
  rw [List.map_append, List.sum_append]

theorem amounts_affordable_le (budget : ℕ) (asked : List (String × ℕ)) :
    amounts (affordable budget asked) ≤ budget := by
  induction asked generalizing budget with
  | nil => exact Nat.zero_le budget
  | cons t rest ih =>
    unfold affordable
    split
    · next hle =>
      have hrest := ih (budget - t.2)
      rw [amounts_cons]
      omega
    · exact ih budget

/-- What is asked for later is admitted against what is left. -/
theorem affordable_append (budget : ℕ) (l l' : List (String × ℕ)) :
    affordable budget (l ++ l') = affordable budget l ++
      affordable (budget - amounts (affordable budget l)) l' := by
  induction l generalizing budget with
  | nil => rfl
  | cons t rest ih =>
    rw [List.cons_append, affordable, affordable]
    split
    · rw [ih, amounts_cons, List.cons_append, Nat.sub_sub]
    · exact ih budget

theorem Follows.refl (ctx : ExecutionContext) : Follows [] ctx ctx :=
  ⟨rfl, (List.append_nil _).symm, rfl⟩

theorem Follows.trans {later : List GuestCall} {ctx'' : ExecutionContext}
    (h : Follows calls ctx ctx') (h' : Follows later ctx' ctx'') :
    Follows (calls ++ later) ctx ctx'' := by
  have hsplit : affordable ctx.available ((calls ++ later).filterMap transferAsked) =
      affordable ctx.available (calls.filterMap transferAsked) ++
        affordable ctx'.available (later.filterMap transferAsked) := by
    rw [List.filterMap_append, affordable_append, ← h.available]
  constructor
  · rw [h'.storage, h.storage, List.filterMap_append]
    exact List.foldl_append.symm
  · rw [h'.transfers, h.transfers, hsplit, List.append_assoc]
  · rw [h'.available, hsplit, amounts_append, h.available, Nat.sub_sub]

/-- A call that leaves storage, balance and promises alone. -/
theorem Follows.of_same (hop : storageOp (mem, call) = none)
    (hasked : transferAsked (mem, call) = none) (hstorage : ctx'.storage = ctx.storage)
    (htransfers : ctx'.pendingTransfers = ctx.pendingTransfers)
    (havailable : ctx'.available = ctx.available) : Follows [(mem, call)] ctx ctx' := by
  constructor
  · rw [List.filterMap_cons_none hop]
    exact hstorage
  · rw [List.filterMap_cons_none hasked]
    exact htransfers.trans (List.append_nil _).symm
  · rw [List.filterMap_cons_none hasked]
    exact havailable

/-- A transfer is noted as a budget admits it. -/
theorem follows_reserveTransfer {c : GuestCall} (to_ : String) (amount : ℕ)
    (hop : storageOp c = none) (hasked : transferAsked c = some (to_, amount)) :
    Follows [c] ctx (reserveTransfer to_ amount ctx).2 := by
  have hadmit : affordable ctx.available [(to_, amount)] =
      if amount ≤ ctx.available then [(to_, amount)] else [] := rfl
  have hops : [c].filterMap storageOp = [] := List.filterMap_cons_none hop
  have htransfers : [c].filterMap transferAsked = [(to_, amount)] :=
    List.filterMap_cons_some hasked
  unfold reserveTransfer
  by_cases hle : amount ≤ ctx.available
  · rw [if_pos (by exact hle)]
    rw [if_pos hle] at hadmit
    constructor
    · rw [hops]
      rfl
    · rw [htransfers, hadmit]
    · rw [htransfers, hadmit]
      exact (Nat.sub_sub _ _ _).symm
  · rw [if_neg (by exact hle)]
    rw [if_neg hle] at hadmit
    constructor
    · rw [hops]
      rfl
    · rw [htransfers, hadmit, List.append_nil]
    · rw [htransfers, hadmit]
      rfl

/-- Whatever a host function ends with, it did what the call asks for. -/
theorem follows_hostCall (call : HostCall) :
    Follows [(mem, call)] ctx (hostCall parseJson mem ctx call).2 := by
  cases call with
  | envSigner | envPredecessor | envContractId | envEpoch | envAttachedDeposit | registerLen
  | readRegister | promiseCreate => exact .of_same rfl rfl rfl rfl rfl
  | emitEvent ptr len | logUtf8 ptr len | panicUtf8 ptr len | balanceOf ptr len =>
    rw [hostCall, withBytes_eq]
    exact .of_same rfl rfl rfl rfl rfl
  | valueReturn ptr len =>
    rw [hostCall, withBytes_eq]
    cases readable mem ptr len <;> exact .of_same rfl rfl rfl rfl rfl
  | storageWrite keyPtr keyLen valPtr valLen =>
    rw [hostCall, withBytes_eq, withBytes_eq]
    cases hkey : readable mem keyPtr keyLen with
    | none => exact .of_same (by rw [storageOp, hkey]; rfl) rfl rfl rfl rfl
    | some key =>
      cases hvalue : readable mem valPtr valLen with
      | none => exact .of_same (by rw [storageOp, hkey, hvalue]; rfl) rfl rfl rfl rfl
      | some value =>
        have hop : [(mem, HostCall.storageWrite keyPtr keyLen valPtr valLen)].filterMap storageOp =
            [.write key value] :=
          List.filterMap_cons_some (by rw [storageOp, hkey, hvalue]; rfl)
        exact ⟨by rw [hop]; rfl, (List.append_nil _).symm, rfl⟩
  | storageRead keyPtr keyLen id =>
    rw [hostCall, withBytes_eq]
    have hsame : ∀ ctx', ctx'.storage = ctx.storage → ctx'.pendingTransfers = ctx.pendingTransfers →
        ctx'.available = ctx.available →
        Follows [(mem, .storageRead keyPtr keyLen id)] ctx ctx' := by
      intro ctx' hstorage htransfers havailable
      refine ⟨hstorage.trans ?_, htransfers.trans (List.append_nil _).symm, havailable⟩
      cases hkey : readable mem keyPtr keyLen with
      | none => rw [List.filterMap_cons_none (by rw [storageOp, hkey]; rfl)]; rfl
      | some key => rw [List.filterMap_cons_some (by rw [storageOp, hkey]; rfl)]; rfl
    cases (readable mem keyPtr keyLen).bind ctx.storage.read <;> exact hsame _ rfl rfl rfl
  | storageRemove keyPtr keyLen id =>
    rw [hostCall, withBytes_eq]
    cases hkey : readable mem keyPtr keyLen with
    | none => exact .of_same (by rw [storageOp, hkey]; rfl) rfl rfl rfl rfl
    | some key =>
      have hop : [(mem, HostCall.storageRemove keyPtr keyLen id)].filterMap storageOp =
          [.delete key] := List.filterMap_cons_some (by rw [storageOp, hkey]; rfl)
      exact ⟨by rw [hop]; rfl, (List.append_nil _).symm, rfl⟩
  | storageHasKey keyPtr keyLen =>
    rw [hostCall, withBytes_eq]
    refine ⟨?_, (List.append_nil _).symm, rfl⟩
    cases hkey : readable mem keyPtr keyLen with
    | none => rw [List.filterMap_cons_none (by rw [storageOp, hkey]; rfl)]; rfl
    | some key => rw [List.filterMap_cons_some (by rw [storageOp, hkey]; rfl)]; rfl
  | transfer toPtr toLen amount =>
    rw [hostCall, withBytes_eq]
    cases hto : readable mem toPtr toLen with
    | none =>
      have hnone : transferAsked (mem, .transfer toPtr toLen amount) = none := by
        rw [transferAsked, hto]
        rfl
      exact .of_same rfl hnone rfl rfl rfl
    | some to_ =>
      have hasked : transferAsked (mem, .transfer toPtr toLen amount) =
          some (Text.fromUtf8Lossy to_, amount) := by
        rw [transferAsked, hto]
        rfl
      exact follows_reserveTransfer _ _ rfl hasked

theorem Notes.refl (ctx : ExecutionContext) : Notes parseJson [] ctx ctx :=
  ⟨(List.append_nil _).symm, (List.append_nil _).symm, rfl⟩

theorem Notes.trans {later : List GuestCall} {ctx'' : ExecutionContext}
    (h : Notes parseJson calls ctx ctx') (h' : Notes parseJson later ctx' ctx'') :
    Notes parseJson (calls ++ later) ctx ctx'' := by
  constructor
  · rw [h'.events, h.events, List.filterMap_append, List.append_assoc]
  · rw [h'.logs, h.logs, List.filterMap_append, List.append_assoc]
  · rw [h'.returned, h.returned, List.filterMap_append, List.getLast?_append, Option.or_assoc]

/-- A call that leaves no note. -/
theorem Notes.of_same {c : GuestCall} (hevent : eventAsked parseJson c = none)
    (hlog : logAsked c = none) (hreturn : returnAsked c = none) (hevents : ctx'.events = ctx.events)
    (hlogs : ctx'.logs = ctx.logs) (hvalue : ctx'.returnValue = ctx.returnValue) :
    Notes parseJson [c] ctx ctx' := by
  constructor
  · rw [List.filterMap_cons_none hevent, hevents]
    exact (List.append_nil _).symm
  · rw [List.filterMap_cons_none hlog, hlogs]
    exact (List.append_nil _).symm
  · rw [List.filterMap_cons_none hreturn, hvalue]
    rfl

theorem filterMap_singleton {β : Type} (f : GuestCall → Option β) (c : GuestCall) :
    [c].filterMap f = (f c).toList := by
  cases h : f c with
  | none => exact List.filterMap_cons_none h
  | some b => exact List.filterMap_cons_some h

/-- Whatever a host function ends with, it noted what the call asks for. -/
theorem notes_hostCall (call : HostCall) :
    Notes parseJson [(mem, call)] ctx (hostCall parseJson mem ctx call).2 := by
  cases call with
  | envSigner | envPredecessor | envContractId | envEpoch | envAttachedDeposit | registerLen
  | readRegister | promiseCreate => exact .of_same rfl rfl rfl rfl rfl rfl
  | panicUtf8 ptr len | balanceOf ptr len | storageHasKey ptr len =>
    rw [hostCall, withBytes_eq]
    exact .of_same rfl rfl rfl rfl rfl rfl
  | emitEvent ptr len =>
    rw [hostCall, withBytes_eq]
    refine ⟨?_, (List.append_nil _).symm, rfl⟩
    rw [filterMap_singleton]
    rfl
  | logUtf8 ptr len =>
    rw [hostCall, withBytes_eq]
    refine ⟨(List.append_nil _).symm, ?_, rfl⟩
    rw [filterMap_singleton]
    rfl
  | valueReturn ptr len =>
    rw [hostCall, withBytes_eq]
    have hnote : [(mem, HostCall.valueReturn ptr len)].filterMap returnAsked =
        (readable mem ptr len).toList := filterMap_singleton _ _
    cases hvalue : readable mem ptr len with
    | none =>
      rw [hvalue] at hnote
      exact ⟨(List.append_nil _).symm, (List.append_nil _).symm, by rw [hnote]; rfl⟩
    | some value =>
      rw [hvalue] at hnote
      exact ⟨(List.append_nil _).symm, (List.append_nil _).symm, by rw [hnote]; rfl⟩
  | storageWrite keyPtr keyLen valPtr valLen =>
    rw [hostCall, withBytes_eq, withBytes_eq]
    cases readable mem keyPtr keyLen <;> cases readable mem valPtr valLen <;>
      exact .of_same rfl rfl rfl rfl rfl rfl
  | storageRead ptr len =>
    rw [hostCall, withBytes_eq]
    cases (readable mem ptr len).bind ctx.storage.read <;> exact .of_same rfl rfl rfl rfl rfl rfl
  | storageRemove ptr len =>
    rw [hostCall, withBytes_eq]
    cases readable mem ptr len <;> exact .of_same rfl rfl rfl rfl rfl rfl
  | transfer ptr len amount =>
    rw [hostCall, withBytes_eq]
    cases readable mem ptr len with
    | none => exact .of_same rfl rfl rfl rfl rfl rfl
    | some to_ =>
      dsimp only
      unfold reserveTransfer
      split <;> exact .of_same rfl rfl rfl rfl rfl rfl

/-- Every call that is made leaves its notes; a run to the end makes all of them. -/
theorem notes_runCalls (calls : List GuestCall) (ctx : ExecutionContext) :
    Notes parseJson (madeCalls parseJson calls ctx) ctx (runCalls parseJson calls ctx).2 ∧
      madeCalls parseJson calls ctx <+: calls ∧
      ((runCalls parseJson calls ctx).1 = .ok () → madeCalls parseJson calls ctx = calls) := by
  induction calls generalizing ctx with
  | nil => exact ⟨.refl ctx, List.prefix_rfl, fun _ => rfl⟩
  | cons c rest ih =>
    have hstep := @notes_hostCall parseJson c.1 ctx c.2
    rw [runCalls, madeCalls]
    rcases hcall : hostCall parseJson c.1 ctx c.2 with ⟨fault | reply, ctx'⟩
    · rw [hcall] at hstep
      exact ⟨hstep, ⟨rest, rfl⟩, nofun⟩
    · rw [hcall] at hstep
      obtain ⟨hnotes, hprefix, hall⟩ := ih ctx'
      refine ⟨hstep.trans hnotes, (List.prefix_cons_inj c).2 hprefix, fun hok => ?_⟩
      dsimp only at hok ⊢
      rw [hall hok]

/-- No host function panics. -/
theorem hostCall_ne_panic (call : HostCall) (msg : String) :
    (hostCall parseJson mem ctx call).1 ≠ .error (.panic msg) := by
  cases call with
  | envSigner | envPredecessor | envContractId | envEpoch | envAttachedDeposit | registerLen
  | readRegister | promiseCreate => exact nofun
  | emitEvent ptr len | logUtf8 ptr len | panicUtf8 ptr len | balanceOf ptr len
  | storageHasKey ptr len =>
    rw [hostCall, withBytes_eq]
    exact nofun
  | valueReturn ptr len | storageRemove ptr len | transfer ptr len =>
    rw [hostCall, withBytes_eq]
    cases readable mem ptr len <;> exact nofun
  | storageRead ptr len =>
    rw [hostCall, withBytes_eq]
    cases (readable mem ptr len).bind ctx.storage.read <;> exact nofun
  | storageWrite keyPtr keyLen valPtr valLen =>
    rw [hostCall, withBytes_eq, withBytes_eq]
    cases readable mem keyPtr keyLen <;> cases readable mem valPtr valLen <;> exact nofun

/-- A run of calls ends in no panic, and one that gets to its end did all that was asked. -/
theorem follows_runCalls (calls : List GuestCall) (ctx : ExecutionContext) :
    (∀ msg, (runCalls parseJson calls ctx).1 ≠ .error (.panic msg)) ∧
      ((runCalls parseJson calls ctx).1 = .ok () →
        Follows calls ctx (runCalls parseJson calls ctx).2) := by
  induction calls generalizing ctx with
  | nil => exact ⟨nofun, fun _ => .refl ctx⟩
  | cons c rest ih =>
    have hstep := @follows_hostCall parseJson c.1 ctx c.2
    have hpanic := @hostCall_ne_panic parseJson c.1 ctx c.2
    rw [runCalls]
    rcases hcall : hostCall parseJson c.1 ctx c.2 with ⟨fault | reply, ctx'⟩
    · rw [hcall] at hpanic
      refine ⟨fun msg heq => hpanic msg ?_, nofun⟩
      cases heq
      rfl
    · rw [hcall] at hstep
      obtain ⟨hrest, hfollows⟩ := ih ctx'
      exact ⟨hrest, fun hok => hstep.trans (hfollows hok)⟩

end Host

/-! ## What the executor reports -/

namespace Runtime

variable {rt : Runtime} {request : CallRequest} {state : ContractState}

/-- The calls of a run from start to end. -/
def callsOf (wasmBytes : Bytes) (method : String) (ctx : ExecutionContext) (gas : ℕ) :
    List GuestCall :=
  let guest := rt.guest wasmBytes (ctx.setRegister 0 (Text.bytes method)) (min gas maxCallFuel)
  guest.start ++ guest.dispatch.getD []

/-- The calls of a run that are made once its entry point is reached, those of the start
included. -/
def madeOf (wasmBytes : Bytes) (method : String) (ctx : ExecutionContext) (gas : ℕ) :
    List GuestCall :=
  let ctx := ctx.setRegister 0 (Text.bytes method)
  let guest := rt.guest wasmBytes ctx (min gas maxCallFuel)
  match guest.rejected, rt.runGuest guest.start guest.startTrap ctx, guest.dispatch with
  | none, (.ok (), ctx), some calls => guest.start ++ madeCalls rt.parseJson calls ctx
  | _, _, _ => []

/-- A run to the end reports what its calls ask for, the transfers as far as the balance goes; any
other run reports an error, the logs of the calls it made, and nothing else. -/
structure Reports (parseJson : Bytes → Option Json) (calls made : List GuestCall)
    (ctx : ExecutionContext) (gas : ℕ) (result : CallResult) : Prop where
  gas_le : result.gasUsed ≤ min gas maxCallFuel
  made_prefix : made <+: calls
  logs : ctx.logs = [] → result.logs = made.filterMap logAsked
  success : result.success = true →
    result.storageWrites = (ctx.storage.runAll (calls.filterMap storageOp)).drainWrites ∧
    result.storageDeletes = (ctx.storage.runAll (calls.filterMap storageOp)).drainDeletes ∧
    result.pendingTransfers =
      ctx.pendingTransfers ++ affordable ctx.available (calls.filterMap transferAsked) ∧
    result.events = ctx.events ++ calls.filterMap (eventAsked parseJson) ∧
    result.result =
      ((calls.filterMap returnAsked).getLast?.or ctx.returnValue).bind parseJson ∧
    result.error = none ∧ made = calls
  failure : result.success = false → result.storageWrites = [] ∧ result.storageDeletes = [] ∧
    result.pendingTransfers = [] ∧ result.events = [] ∧ result.result = none ∧
    result.error.isSome = true

theorem reports_errorResult (calls : List GuestCall) (ctx : ExecutionContext) (gas : ℕ)
    (msg : String) : Reports rt.parseJson calls [] ctx gas (errorResult msg) :=
  ⟨Nat.zero_le _, List.nil_prefix, fun _ => rfl, nofun, fun _ => ⟨rfl, rfl, rfl, rfl, rfl, rfl⟩⟩

/-- A guest that gets to its end did what its calls ask for. -/
theorem follows_runGuest {calls : List GuestCall} {trap : Option String}
    {ctx ctx' : ExecutionContext} (h : rt.runGuest calls trap ctx = (.ok (), ctx')) :
    Follows calls ctx ctx' := by
  have hfollows := (@follows_runCalls rt.parseJson calls ctx).2
  unfold runGuest at h
  rcases hrun : runCalls rt.parseJson calls ctx with ⟨fault | ⟨⟩, t⟩
  · rw [hrun] at h
    cases h
  · rw [hrun] at h hfollows
    obtain rfl : t = ctx' := (Prod.mk.inj h).2
    exact hfollows rfl

/-- What a guest did is noted, up to a trap. -/
theorem notes_runGuest {calls : List GuestCall} {trap : Option String}
    {ctx ctx' : ExecutionContext} {r : Except String Unit}
    (h : rt.runGuest calls trap ctx = (r, ctx')) :
    Notes rt.parseJson (madeCalls rt.parseJson calls ctx) ctx ctx' ∧
      madeCalls rt.parseJson calls ctx <+: calls ∧
      (r = .ok () → madeCalls rt.parseJson calls ctx = calls) := by
  obtain ⟨hnotes, hprefix, hall⟩ := @notes_runCalls rt.parseJson calls ctx
  unfold runGuest at h
  rcases hrun : runCalls rt.parseJson calls ctx with ⟨fault | ⟨⟩, t⟩
  · rw [hrun] at h hnotes
    cases h
    exact ⟨hnotes, hprefix, nofun⟩
  · rw [hrun] at h hnotes hall
    cases h
    exact ⟨hnotes, hprefix, fun _ => hall rfl⟩

theorem reports_runWasm (wasmBytes : Bytes) (method : String) (ctx : ExecutionContext) (gas : ℕ) :
    Reports rt.parseJson (rt.callsOf wasmBytes method ctx gas)
      (rt.madeOf wasmBytes method ctx gas) ctx gas (rt.runWasm wasmBytes method ctx gas) := by
  unfold runWasm callsOf madeOf
  dsimp only
  generalize rt.guest wasmBytes (ctx.setRegister 0 (Text.bytes method))
    (min gas maxCallFuel) = guest
  cases guest.rejected with
  | some e => exact reports_errorResult _ _ _ _
  | none =>
    dsimp only
    rcases hstart : rt.runGuest guest.start guest.startTrap
      (ctx.setRegister 0 (Text.bytes method)) with ⟨e | ⟨⟩, ctx₁⟩
    · exact reports_errorResult _ _ _ _
    · dsimp only
      obtain ⟨hbefore, -, hstarted⟩ := notes_runGuest hstart
      rw [hstarted rfl] at hbefore
      cases hdispatch : guest.dispatch with
      | none => exact reports_errorResult _ _ _ _
      | some calls =>
        dsimp only
        rcases hend : rt.runGuest calls guest.trap ctx₁ with ⟨e | ⟨⟩, ctx₂⟩
        · -- the logs are those of the calls made, the rest is dropped
          obtain ⟨hafter, hprefix, -⟩ := notes_runGuest hend
          have hlogs := (hbefore.trans hafter).logs
          refine ⟨Nat.sub_le _ _, (List.prefix_append_right_inj _).2 hprefix, fun hnone => ?_, nofun,
            fun _ => ⟨rfl, rfl, rfl, rfl, rfl, rfl⟩⟩
          exact hlogs.trans (congrArg (· ++ _) hnone)
        · obtain ⟨hafter, -, hended⟩ := notes_runGuest hend
          rw [hended rfl] at hafter ⊢
          have hfollows := (follows_runGuest hstart).trans (follows_runGuest hend)
          have hnotes := hbefore.trans hafter
          refine ⟨Nat.sub_le _ _, List.prefix_rfl, fun hnone => ?_, fun _ => ⟨?_, ?_,
            hfollows.transfers, hnotes.events, ?_, rfl, rfl⟩, nofun⟩
          · exact hnotes.logs.trans (congrArg (· ++ _) hnone)
          · exact congrArg StorageKv.drainWrites hfollows.storage
          · exact congrArg StorageKv.drainDeletes hfollows.storage
          · exact congrArg (Option.bind · rt.parseJson) hnotes.returned

theorem available_callContext (request : CallRequest) (state : ContractState) :
    (rt.callContext request state).available = state.balance := by
  change ((Kv.put ∅ state.contractId state.balance : Kv String ℕ).get state.contractId).getD 0 - 0 =
    state.balance
  rw [Kv.get_put, if_pos rfl]
  rfl

/-- The calls that a request leads to. -/
def requestCalls (rt : Runtime) (request : CallRequest) (state : ContractState) : List GuestCall :=
  rt.callsOf ((state.storage.committed.lookup wasmKey).getD []) request.method
    (rt.callContext request state) request.gas

/-- Those of them that are made. -/
def requestMade (rt : Runtime) (request : CallRequest) (state : ContractState) : List GuestCall :=
  rt.madeOf ((state.storage.committed.lookup wasmKey).getD []) request.method
    (rt.callContext request state) request.gas

theorem reports_executeCall : Reports rt.parseJson (rt.requestCalls request state)
    (rt.requestMade request state) (rt.callContext request state) request.gas
    (rt.executeCall request state) :=
  reports_runWasm _ _ _ _

theorem amounts_executeCall_le :
    amounts (rt.executeCall request state).pendingTransfers ≤ state.balance := by
  have hreports := @reports_executeCall rt request state
  cases hsuccess : (rt.executeCall request state).success with
  | false =>
    rw [(hreports.failure hsuccess).2.2.1]
    exact Nat.zero_le _
  | true =>
    rw [(hreports.success hsuccess).2.2.1, available_callContext]
    exact amounts_affordable_le _ _

/-- Whatever the code does: no host function panics, and what a call reports is what its
calls ask for, with transfers up to the balance it started with, or an error and the logs of the
calls it made. -/
theorem executeCall_sound (rt : Runtime) (request : CallRequest) (state : ContractState) :
    (∀ calls ctx msg, (runCalls rt.parseJson calls ctx).1 ≠ .error (.panic msg)) ∧
      Reports rt.parseJson (rt.requestCalls request state) (rt.requestMade request state)
        (rt.callContext request state) request.gas (rt.executeCall request state) ∧
      amounts (rt.executeCall request state).pendingTransfers ≤ state.balance :=
  ⟨fun calls ctx => (follows_runCalls calls ctx).1, reports_executeCall, amounts_executeCall_le⟩

end Runtime

end HoneNode.Contracts
