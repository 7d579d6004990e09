import HoneNode.Lib.Trace
import HoneNode.Rewards.Expiry

/-!
# Bridge.Queue — the unlock queue

`apply_unwrap` appends a request whose id is a digest of account, epoch and
recipient; `apply_unlock` looks a request up by id and marks it. Neither looks
at the rest of the queue. So requests are told apart as long as no two unwraps
agree in account, epoch and recipient, and they are served in order as long as
one is served before the next is queued.
-/

namespace HoneNode.Bridge

open Entry Prog Within Trace

/-! ## The component -/

inductive QueueOp where
  | unwrap (p : BridgeUnwrap)
  | unlock (p : BridgeUnlock)

def QueueOp.run (env : Env) (s : Chain) : QueueOp → Except Fault Unit × Chain
  | .unwrap p => (applyBridgeUnwrap env p).run s
  | .unlock p => (applyBridgeUnlock env p).run s

def queue (s : Chain) : List UnlockRequest := (s.stateGet .bridgeUnlockQueue "").getD []

/-- An empty queue that nothing but unwraps and unlocks writes. -/
def unlocks (env : Env) : Component Chain QueueOp where
  init := fun s => queue s = []
  step := fun s op => (op.run env s).2
  other := fun s s' => queue s' = queue s

/-- What the id of a request is the digest of. -/
def unwrapText (p : BridgeUnwrap) : String :=
  s!"unwrap:{p.account}:{p.epoch}:{p.recipientExternal}"

def idOf (env : Env) (p : BridgeUnwrap) : String := env.sha256Hex (unwrapText p)

/-- The request an unwrap queues. -/
def request (env : Env) (p : BridgeUnwrap) : UnlockRequest :=
  ⟨idOf env p, p.recipientExternal, p.amountHunits, p.epoch, p.chain, false⟩

/-- The unwrap of a step that the account covered. -/
def covered : Chain × QueueOp → Option BridgeUnwrap
  | (s, .unwrap p) => if p.amountHunits ≤ s.getBalance p.account whoneToken then some p else none
  | (_, .unlock _) => none

/-- The covered unwraps of a run, the latest first. -/
def queued (hist : List (Chain × QueueOp)) : List BridgeUnwrap := hist.filterMap covered

/-- No two covered unwraps agree in account, epoch and recipient as they are printed, and their
texts do not collide. -/
structure Apart (env : Env) (hist : List (Chain × QueueOp)) : Prop where
  texts : ((queued hist).map unwrapText).Nodup
  digests : ∀ p ∈ queued hist, ∀ q ∈ queued hist, idOf env p = idOf env q →
    unwrapText p = unwrapText q

/-- Whenever an unwrap was covered, every earlier request had been served. -/
def Alone (hist : List (Chain × QueueOp)) : Prop :=
  ∀ c ∈ hist, (covered c).isSome = true → ∀ r ∈ queue c.1, r.fulfilled = true

/-! ## Marking a request -/

section Fulfil

variable {id : String} {q : List UnlockRequest} {r : UnlockRequest}

theorem ids_fulfil (id : String) (q : List UnlockRequest) :
    (fulfil id q).map (·.requestId) = q.map (·.requestId) := by
  induction q with
  | nil => rfl
  | cons r rest ih =>
    unfold fulfil
    split
    · rfl
    · rw [List.map_cons, List.map_cons, ih]

/-- Some request of that id is marked. -/
def isFulfilled (q : List UnlockRequest) (id : String) : Bool :=
  q.any fun r => r.requestId = id && r.fulfilled

theorem isFulfilled_cons :
    isFulfilled (r :: q) id = (decide (r.requestId = id) && r.fulfilled || isFulfilled q id) := by
  unfold isFulfilled
  rw [List.any_cons]

theorem isFulfilled_append (q' : List UnlockRequest) :
    isFulfilled (q ++ q') id = (isFulfilled q id || isFulfilled q' id) := by
  unfold isFulfilled
  rw [List.any_append]

/-- Marking a request that is there marks its id and no other. -/
theorem isFulfilled_fulfil (hid : id ∈ q.map (·.requestId)) (j : String) :
    isFulfilled (fulfil id q) j = (decide (j = id) || isFulfilled q j) := by
  induction q with
  | nil => cases hid
  | cons r rest ih =>
    unfold fulfil
    by_cases h : r.requestId = id
    · rw [if_pos h, isFulfilled_cons, isFulfilled_cons]
      by_cases hj : j = id
      · simp [h, hj]
      · simp [h, Ne.symm hj, hj]
    · rw [if_neg h, isFulfilled_cons, isFulfilled_cons]
      rcases List.mem_cons.1 hid with hid | hid
      · exact absurd hid.symm h
      · rw [ih hid]
        cases decide (j = id) <;> cases isFulfilled rest j <;> simp

/-- With distinct ids, a request is marked exactly when its id is. -/
theorem fulfilled_eq (hq : (q.map (·.requestId)).Nodup) (hr : r ∈ q) :
    r.fulfilled = isFulfilled q r.requestId := by
  cases hf : r.fulfilled with
  | true =>
    symm
    exact List.any_eq_true.2 ⟨r, hr, by simp [hf]⟩
  | false =>
    symm
    refine List.any_eq_false.2 ?_
    intro r' hr'
    by_cases hid : r'.requestId = r.requestId
    · rw [List.inj_on_of_nodup_map hq hr' hr hid, hf]
      simp
    · simp [hid]

/-- All but the last request stay marked. -/
theorem dropLast_fulfil (h : ∀ r ∈ q.dropLast, r.fulfilled = true) :
    ∀ r ∈ (fulfil id q).dropLast, r.fulfilled = true := by
  induction q with
  | nil => exact h
  | cons r rest ih =>
    cases rest with
    | nil =>
      unfold fulfil
      split <;> exact fun _ hmem => absurd hmem List.not_mem_nil
    | cons r' rest =>
      rw [List.dropLast_cons_cons] at h
      obtain ⟨hhead, htail⟩ := List.forall_mem_cons.1 h
      unfold fulfil
      split
      · rw [List.dropLast_cons_cons]
        exact List.forall_mem_cons.2 ⟨rfl, htail⟩
      · have hne : fulfil id (r' :: rest) ≠ [] := by
          unfold fulfil
          split <;> exact List.cons_ne_nil _ _
        rw [List.dropLast_cons_of_ne_nil hne]
        exact List.forall_mem_cons.2 ⟨hhead, ih htail⟩

end Fulfil

/-! ## Steps -/

section Steps

variable {env : Env} {s : Chain}

theorem queue_stateSet (q : List UnlockRequest) :
    queue (s.stateSet .bridgeUnlockQueue "" q) = q := by
  unfold queue
  rw [stateGet_stateSet, if_pos rfl, Option.getD_some]

theorem queue_stateSet_of_ne {f : Family} (h : .bridgeUnlockQueue ≠ f) (key : String) (v : f.Val) :
    queue (s.stateSet f key v) = queue s := by
  unfold queue
  rw [stateGet_stateSet_of_ne _ h]

variable (env) in
/-- An unwrap queues its request when the account covers it. -/
theorem queue_unwrap (p : BridgeUnwrap) :
    queue ((applyBridgeUnwrap env p).run s).2 =
      if p.amountHunits ≤ s.getBalance p.account whoneToken then queue s ++ [request env p]
      else queue s := by
  unfold applyBridgeUnwrap
  split
  · next hle =>
    rw [run_debit_bind hle, run_inspect_bind,
      run_stateSet_bind]
    dsimp only
    rw [run_stateGet_bind, run_stateSet_bind,
      run_logPrefix_snd, queue_stateSet]
    have hold : queue ((s.debited p.account whoneToken p.amountHunits).stateSet .bridgeSupply ""
        (bridgeSupply (s.debited p.account whoneToken p.amountHunits) - p.amountHunits)) =
        queue s := queue_stateSet_of_ne (by decide) _ _
    exact congrArg (· ++ [request env p]) hold
  · next hle => rw [run_bind_error (by rw [run_debit, if_neg hle])]

variable (env) in
/-- An unlock goes by the first request of its id. -/
theorem run_unlock (p : BridgeUnlock) :
    match (queue s).find? (·.requestId = p.requestId) with
    | none => (applyBridgeUnlock env p).run s =
        (.error (.err s!"unlock request '{p.requestId}' not found"), s)
    | some r =>
      if r.fulfilled then (applyBridgeUnlock env p).run s =
        (.error (.err s!"request '{p.requestId}' already fulfilled"), s)
      else queue ((applyBridgeUnlock env p).run s).2 = fulfil p.requestId (queue s) ∧
        ((env.info = true → isBoundary p.requestId 12 = true) →
          ((applyBridgeUnlock env p).run s).1 = .ok ()) := by
  unfold applyBridgeUnlock
  rw [run_stateGet_bind]
  dsimp only
  have hq : (s.stateGet .bridgeUnlockQueue "").getD [] = queue s := rfl
  rw [hq]
  cases hfind : (queue s).find? (·.requestId = p.requestId) with
  | none => exact run_bind_error rfl
  | some r =>
    dsimp only
    rw [run_bind_ok (run_orBail_some _ _ _)]
    cases hf : r.fulfilled with
    | true =>
      rw [if_pos rfl, run_bind_error (by rw [run_ensure, if_neg (by simp)])]
    | false =>
      rw [if_neg Bool.false_ne_true, run_ensure_bind (by simp),
        run_stateSet_bind, run_stateSet_bind]
      refine ⟨?_, fun hlog => by rw [run_logPrefix_of hlog]⟩
      rw [run_logPrefix_snd, queue_stateSet_of_ne (by decide), queue_stateSet]

end Steps

/-! ## Runs -/

/-- A call of `apply_unlock` that returns `Ok`. -/
def Fulfils (env : Env) (id : String) : Chain × QueueOp → Bool
  | (_, .unwrap _) => false
  | (s, .unlock p) => p.requestId = id && ((applyBridgeUnlock env p).run s).1.isOk

/-- How often the requests of an id were fulfilled. -/
def fulfilments (env : Env) (id : String) (hist : List (Chain × QueueOp)) : ℕ :=
  hist.countP (Fulfils env id)

/-- The requests are those of the covered unwraps, and each id was fulfilled as often as it is
marked. -/
structure Kept (env : Env) (hist : List (Chain × QueueOp)) (s : Chain) : Prop where
  ids : (queue s).map (·.requestId) = (queued hist).reverse.map (idOf env)
  count : ∀ id, fulfilments env id hist = if isFulfilled (queue s) id then 1 else 0

section Runs

variable {env : Env} {hist : List (Chain × QueueOp)} {s s' : Chain} {op : QueueOp}

/-- A run that goes on has been one of unwraps kept apart. -/
theorem Apart.of_cons (h : Apart env ((s, op) :: hist)) : Apart env hist where
  texts := h.texts.sublist (((List.sublist_cons_self _ _).filterMap _).map _)
  digests := fun p hp q hq => h.digests p (((List.sublist_cons_self _ _).filterMap _).subset hp) q
    (((List.sublist_cons_self _ _).filterMap _).subset hq)

theorem Kept.distinct (h : Kept env hist s) (hapart : Apart env hist) :
    ((queue s).map (·.requestId)).Nodup := by
  have htexts : (queued hist).Nodup := hapart.texts.of_map _
  rw [h.ids, List.map_reverse, List.nodup_reverse]
  refine htexts.map_on fun p hp q hq hid => ?_
  exact List.inj_on_of_nodup_map hapart.texts hp hq (hapart.digests p hp q hq hid)

theorem Kept.digest (h : Kept env hist s) {r : UnlockRequest} (hr : r ∈ queue s) :
    ∃ text, r.requestId = env.sha256Hex text := by
  have hmem : r.requestId ∈ (queue s).map (·.requestId) := List.mem_map_of_mem hr
  rw [h.ids] at hmem
  obtain ⟨p, -, hid⟩ := List.mem_map.1 hmem
  exact ⟨unwrapText p, hid.symm⟩

theorem isBoundary_digest (hsha : ∀ b, (env.sha256 b).length = 32) (text : String) :
    isBoundary (env.sha256Hex text) 12 = true :=
  Text.isBoundary_hexEncode (by rw [hsha]; decide)

/-- A call that fulfils nothing leaves the counts. -/
theorem fulfilments_cons_of_not {op : QueueOp} (h : ∀ id, Fulfils env id (s, op) = false)
    (id : String) : fulfilments env id ((s, op) :: hist) = fulfilments env id hist := by
  unfold fulfilments
  rw [List.countP_cons_of_neg (by simp [h id])]

theorem Kept.unwrap {p : BridgeUnwrap} (h : Kept env hist s) :
    Kept env ((s, .unwrap p) :: hist) ((applyBridgeUnwrap env p).run s).2 := by
  have hcount : ∀ id, fulfilments env id ((s, .unwrap p) :: hist) = fulfilments env id hist :=
    fulfilments_cons_of_not fun _ => rfl
  have hq := queue_unwrap env (s := s) p
  split at hq
  · next hle =>
    have hcovered : covered (s, .unwrap p) = some p := if_pos hle
    refine ⟨?_, ?_⟩
    · rw [hq, queued, List.filterMap_cons_some hcovered, List.reverse_cons, List.map_append,
        List.map_append, h.ids]
      rfl
    · intro id
      rw [hcount, hq, isFulfilled_append, h.count]
      have hopen : isFulfilled [request env p] id = false := by simp [isFulfilled, request]
      rw [hopen, Bool.or_false]
  · next hle =>
    have hcovered : covered (s, .unwrap p) = none := if_neg hle
    refine ⟨?_, fun id => by rw [hcount, hq, h.count]⟩
    rw [hq, queued, List.filterMap_cons_none hcovered]
    exact h.ids

theorem Kept.unlock {p : BridgeUnlock} (hsha : ∀ b, (env.sha256 b).length = 32)
    (h : Kept env hist s) (hapart : Apart env hist) :
    Kept env ((s, .unlock p) :: hist) ((applyBridgeUnlock env p).run s).2 := by
  have hrun := run_unlock env (s := s) p
  have hrefused : ∀ msg, (applyBridgeUnlock env p).run s = (.error (.err msg), s) →
      Kept env ((s, .unlock p) :: hist) ((applyBridgeUnlock env p).run s).2 := by
    intro msg hmsg
    rw [hmsg]
    refine ⟨h.ids, fun id => ?_⟩
    rw [fulfilments_cons_of_not (fun id => by simp [Fulfils, hmsg, Except.isOk, Except.toBool]),
      h.count]
  cases hfind : (queue s).find? (·.requestId = p.requestId) with
  | none =>
    rw [hfind] at hrun
    exact hrefused _ hrun
  | some r =>
    rw [hfind] at hrun
    cases hf : r.fulfilled with
    | true =>
      simp only [hf, if_true] at hrun
      exact hrefused _ hrun
    | false =>
      simp only [hf, Bool.false_eq_true, if_false] at hrun
      obtain ⟨hq, hok⟩ := hrun
      have hr : r ∈ queue s := List.mem_of_find?_eq_some hfind
      have hid : r.requestId = p.requestId := by simpa using List.find?_some hfind
      have hmem : p.requestId ∈ (queue s).map (·.requestId) := hid ▸ List.mem_map_of_mem hr
      -- the id is a digest, so the log line can cut it and the call returns
      obtain ⟨text, htext⟩ := h.digest hr
      have hret := hok fun _ => by
        rw [← hid, htext]
        exact isBoundary_digest hsha text
      refine ⟨?_, ?_⟩
      · rw [hq, ids_fulfil]
        exact h.ids
      · intro id
        rw [hq, isFulfilled_fulfil hmem]
        have hbefore := h.count id
        by_cases heq : id = p.requestId
        · -- its own request was open until now
          have hopen : isFulfilled (queue s) id = false := by
            rw [heq, ← hid, ← fulfilled_eq (h.distinct hapart) hr, hf]
          rw [hopen] at hbefore
          unfold fulfilments at hbefore ⊢
          rw [List.countP_cons_of_pos (by simp [Fulfils, heq, hret, Except.isOk, Except.toBool]),
            hbefore]
          simp [heq]
        · unfold fulfilments at hbefore ⊢
          rw [List.countP_cons_of_neg (by simp [Fulfils, Ne.symm heq]), hbefore]
          simp [heq]

theorem kept_run {P : Chain → QueueOp → Prop} (hsha : ∀ b, (env.sha256 b).length = 32)
    (h : Run (unlocks env) P hist s) (hapart : Apart env hist) : Kept env hist s := by
  induction h with
  | @start s hinit =>
    have hq : queue s = [] := hinit
    refine ⟨?_, ?_⟩
    · rw [hq]
      rfl
    · simp [hq, fulfilments, isFulfilled]
  | step op _ hop ih =>
    cases op with
    | unwrap p => exact (ih hapart.of_cons).unwrap
    | unlock p => exact (ih hapart.of_cons).unlock hsha hapart.of_cons
  | @other hist s s' _ hs ih =>
    have hq : queue s' = queue s := hs
    have hkept := ih hapart
    refine ⟨?_, ?_⟩
    · rw [hq]
      exact hkept.ids
    · rw [hq]
      exact hkept.count

/-- Where each request is served before the next one is queued, only the last is open. -/
theorem served_run {P : Chain → QueueOp → Prop} (h : Run (unlocks env) P hist s)
    (halone : Alone hist) : ∀ r ∈ (queue s).dropLast, r.fulfilled = true := by
  induction h with
  | @start s hinit =>
    have hq : queue s = [] := hinit
    rw [hq]
    exact fun _ hmem => absurd hmem List.not_mem_nil
  | @step hist s op _ hop ih =>
    have hserved := ih fun c hc => halone c (List.mem_cons_of_mem _ hc)
    cases op with
    | unwrap p =>
      change ∀ r ∈ (queue ((applyBridgeUnwrap env p).run s).2).dropLast, _
      rw [queue_unwrap]
      split
      · next hle =>
        rw [List.dropLast_concat]
        refine halone _ List.mem_cons_self ?_
        rw [covered, if_pos hle]
        rfl
      · exact hserved
    | unlock p =>
      have hrun := run_unlock env (s := s) p
      change ∀ r ∈ (queue ((applyBridgeUnlock env p).run s).2).dropLast, _
      split at hrun
      · rw [hrun]
        exact hserved
      · split at hrun
        · rw [hrun]
          exact hserved
        · rw [hrun.1]
          exact dropLast_fulfil hserved
  | @other hist s s' _ hs ih =>
    have hq : queue s' = queue s := hs
    rw [hq]
    exact ih halone

end Runs

/-- The queue after the calls of `hist`. -/
structure InOrder (env : Env) (hist : List (Chain × QueueOp)) (s : Chain) : Prop where
  /-- No two requests share an id. -/
  distinct : ((queue s).map (·.requestId)).Nodup
  /-- A marked request was fulfilled once, an open one never. -/
  once : ∀ r ∈ queue s, fulfilments env r.requestId hist = if r.fulfilled then 1 else 0
  /-- An open request can be fulfilled. -/
  pending : ∀ r ∈ queue s, r.fulfilled = false → ∀ p : BridgeUnlock,
    p.requestId = r.requestId → Fulfils env r.requestId (s, .unlock p) = true
  /-- With one open request at a time, none was fulfilled before an earlier one. -/
  fifo : Alone hist → ∀ t p, (t, .unlock p) ∈ hist → Fulfils env p.requestId (t, .unlock p) = true →
    ∀ before r after, queue t = before ++ r :: after → r.requestId = p.requestId →
      ∀ q ∈ before, q.fulfilled = true

section Order

variable {env : Env} {hist : List (Chain × QueueOp)} {s : Chain}

theorem Kept.fulfils_of_open (hsha : ∀ b, (env.sha256 b).length = 32) (h : Kept env hist s)
    (hapart : Apart env hist) {r : UnlockRequest} (hr : r ∈ queue s) (hopen : r.fulfilled = false)
    {p : BridgeUnlock} (hp : p.requestId = r.requestId) :
    Fulfils env r.requestId (s, .unlock p) = true := by
  have hrun := run_unlock env (s := s) p
  cases hfind : (queue s).find? (·.requestId = p.requestId) with
  | none =>
    have := List.find?_eq_none.1 hfind r hr
    simp [hp] at this
  | some r' =>
    have hr' : r' ∈ queue s := List.mem_of_find?_eq_some hfind
    have hid : r'.requestId = p.requestId := by simpa using List.find?_some hfind
    have heq : r' = r := List.inj_on_of_nodup_map (h.distinct hapart) hr' hr (hid.trans hp)
    rw [hfind] at hrun
    simp only [heq, hopen, Bool.false_eq_true, if_false] at hrun
    obtain ⟨text, htext⟩ := h.digest hr
    have hret := hrun.2 fun _ => by
      rw [hp, htext]
      exact isBoundary_digest hsha text
    simp [Fulfils, hp, hret, Except.isOk, Except.toBool]

/-- In every run whose unwraps are kept apart the requests are told apart and served once, and in
order if one is served before the next is queued. -/
theorem unlock_queue_in_order (hsha : ∀ b, (env.sha256 b).length = 32)
    (h : Run (unlocks env) (fun _ _ => True) hist s) (hapart : Apart env hist) :
    InOrder env hist s where
  distinct := (kept_run hsha h hapart).distinct hapart
  once := by
    intro r hr
    have hkept := kept_run hsha h hapart
    rw [fulfilled_eq (hkept.distinct hapart) hr, hkept.count]
  pending := fun r hr hopen p hp => (kept_run hsha h hapart).fulfils_of_open hsha hapart hr hopen hp
  fifo := by
    intro halone t p hmem _ before r after hq _ q hqmem
    obtain ⟨later, earlier, heq⟩ := List.append_of_mem hmem
    subst heq
    obtain ⟨hrun, -⟩ := h.cut
    have halone' : Alone earlier := fun c hc =>
      halone c (List.mem_append_right _ (List.mem_cons_of_mem _ hc))
    refine served_run hrun halone' q ?_
    rw [hq, List.dropLast_append_cons]
    exact List.mem_append_left _ hqmem

end Order

/-! ### Alice and bob -/

/-- The digests of the two unwraps below. -/
def bridgeNode : Env := .digesting
  [("unwrap:alice:7:0xA", "32d380788736e0700e616d653a8f0c74531c918c835ae2414d0a4746664ce079"),
    ("unwrap:bob:7:0xB", "9b5f9560f6a28469b7093eead5156792ea10e1350efc9e1b52b5a2e48915261c")]

def aliceUnwraps : QueueOp := .unwrap ⟨"alice", 1, "0xA", "eth", 7, 1, "alice", none⟩
def bobUnwraps : QueueOp := .unwrap ⟨"bob", 1, "0xB", "eth", 7, 1, "bob", none⟩

def unlockOf (text : String) : QueueOp :=
  .unlock ⟨bridgeNode.sha256Hex text, "custodian", "0xtx", 8, 1, "custodian", none⟩

/-- Alice and bob each hold two wrapped tokens. -/
def wrapped : Chain := (({} : Chain).setBalance "alice" whoneToken 2).setBalance "bob" whoneToken 2

/-- Alice unwraps one token and is served, then bob. -/
theorem unlock_queue_in_order_two :
    let ops := [aliceUnwraps, unlockOf "unwrap:alice:7:0xA", bobUnwraps,
      unlockOf "unwrap:bob:7:0xB"]
    let s := (unlocks bridgeNode).exec wrapped ops
    let hist := (unlocks bridgeNode).record wrapped ops []
    (queue s).map (·.fulfilled) = [true, true] ∧ Alone hist ∧ InOrder bridgeNode hist s := by
  intro ops s hist
  have hapart : Apart bridgeNode hist := ⟨by decide, by decide⟩
  have halone : Alone hist := by
    unfold Alone
    decide
  exact ⟨by decide, halone, unlock_queue_in_order (Env.length_sha256_digesting _)
    ((Run.start (by rfl)).exec (legal_true _ _)) hapart⟩

/-- Alice unwraps twice to one recipient in one epoch: the requests share an id, and once the
first is fulfilled the second never can be. And bob is served before alice. -/
theorem unlock_queue_jammed :
    let M := unlocks bridgeNode
    let s := M.exec wrapped [aliceUnwraps, aliceUnwraps, unlockOf "unwrap:alice:7:0xA"]
    let again := (unlockOf "unwrap:alice:7:0xA").run bridgeNode s
    let t := M.exec wrapped [aliceUnwraps, bobUnwraps]
    let bobFirst := (unlockOf "unwrap:bob:7:0xB").run bridgeNode t
    ¬ ((queue s).map (·.requestId)).Nodup ∧ (queue s).map (·.fulfilled) = [true, false] ∧
      again.1.isOk = false ∧ (queue again.2).map (·.fulfilled) = [true, false] ∧
      bobFirst.1.isOk = true ∧ (queue bobFirst.2).map (·.fulfilled) = [false, true] := by
  decide

end HoneNode.Bridge
