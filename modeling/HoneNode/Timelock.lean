import Mathlib.Data.List.Find
import HoneNode.Lib.Decimal
import HoneNode.Lib.Trace
import HoneNode.Tx.Frame

/-!
# Timelock — parameter changes wait two epochs

An accepted `ChainParameterSet` is only noted, under a release epoch taken from the
entry; the seal of exactly that epoch applies it. Meant is the first seal at least
two epochs after the epoch of the chain, and a bound on how far a stake minimum
rises at once.

1. **The drain** of `pending_param` records (`run_drainParams`).
2. **The component**: submissions and seals, with the changes that wait.
3. **Runs** whose release epochs are met, and whose limits do not fall meanwhile,
   apply every change when it is due (`changes_timelocked`).
-/

namespace HoneNode.Timelock

open Entry Trace

/-! ## The drain -/

/-- How a record is read back: the text of its `entry` field, and an entry out of that. -/
structure Reader where
  entryField : String → Option String
  entry : String → Option LedgerEntry

/-- The entry a record holds. -/
def Reader.read (r : Reader) (record : String) : Option LedgerEntry :=
  (r.entryField record).bind r.entry

/-- A record that does not read, or whose entry fails, is left where it is. -/
def drainParams (env : Env) (r : Reader) (now : ℕ) :
    List (String × String) → Chain → Except Fault Unit × Chain
  | [], s => (.ok (), s)
  | (key, val) :: rows, s => match r.read val with
    | none => drainParams env r now rows s
    | some e => match applyEntry env now e s with
      | (.ok (), s') => drainParams env r now rows (s'.stateDelete .pendingParam key)
      | (.error (.err _), s') => drainParams env r now rows s'
      | (.error (.panic msg), s') => (.error (.panic msg), s')

/-- Apply the changes filed under an epoch. -/
def drainPendingParams (env : Env) (r : Reader) (now epoch : ℕ) (s : Chain) :
    Except Fault Unit × Chain :=
  drainParams env r now ((s.state .pendingParam).scan (hasPrefix s!"{epoch}:")) s

section Drain

variable {env : Env} {r : Reader} {now : ℕ} {rows : List (String × String)} {s : Chain}

theorem param_stateSet (key j v : String) :
    (s.stateSet .chainParam key v).param j = if key = j then some v else s.param j :=
  s.stateGet_stateSet .chainParam key j v

theorem param_stateDelete (key j : String) : (s.stateDelete .pendingParam key).param j = s.param j := by
  unfold Chain.param Chain.stateGet
  rw [s.state_stateDelete_of_ne (by decide)]

/-- Records of parameter changes leave the queue, and each parameter has the value of one of
its records. -/
theorem run_drainParams (h : ∀ row ∈ rows, ∃ p, r.read row.2 = some (.chainParameterSet p)) :
    ∃ t, drainParams env r now rows s = (.ok (), t) ∧
      (∀ k, t.stateGet .pendingParam k =
        if k ∈ rows.map Prod.fst then none else s.stateGet .pendingParam k) ∧
      ∀ key, (t.param key = s.param key ∧
          ∀ row ∈ rows, ∀ p, r.read row.2 = some (.chainParameterSet p) → p.key ≠ key) ∨
        ∃ row ∈ rows, ∃ p, r.read row.2 = some (.chainParameterSet p) ∧ p.key = key ∧
          t.param key = some p.value := by
  induction rows generalizing s with
  | nil => exact ⟨s, rfl, fun _ => (if_neg List.not_mem_nil).symm, fun _ => .inl ⟨rfl, nofun⟩⟩
  | cons row rows ih =>
    obtain ⟨k₀, val⟩ := row
    obtain ⟨p, hp⟩ := h _ List.mem_cons_self
    obtain ⟨t, ht, hqueue, hparams⟩ := @ih ((s.stateSet .chainParam p.key p.value).stateDelete
      .pendingParam k₀) fun row hrow => h row (List.mem_cons_of_mem _ hrow)
    refine ⟨t, ?_, ?_, ?_⟩
    · rw [drainParams, hp]
      exact ht
    · intro k
      rw [hqueue, stateGet_stateDelete, s.stateGet_stateSet_of_ne (by decide), List.map_cons]
      by_cases hrest : k ∈ rows.map Prod.fst
      · rw [if_pos hrest, if_pos (List.mem_cons_of_mem _ hrest)]
      · rw [if_neg hrest]
        by_cases hk : k₀ = k
        · rw [if_pos hk, if_pos (List.mem_cons.2 (.inl hk.symm))]
        · rw [if_neg hk, if_neg fun hmem => ?_]
          rcases List.mem_cons.1 hmem with heq | hmem
          · exact hk heq.symm
          · exact hrest hmem
    · intro key
      rcases hparams key with ⟨hsame, hnone⟩ | ⟨row, hrow, q, hq, hkey, hvalue⟩
      · rw [param_stateDelete, param_stateSet] at hsame
        by_cases hkey : p.key = key
        · rw [if_pos hkey] at hsame
          exact .inr ⟨_, List.mem_cons_self, p, hp, hkey, hsame⟩
        · rw [if_neg hkey] at hsame
          refine .inl ⟨hsame, ?_⟩
          intro row hrow q hq
          rcases List.mem_cons.1 hrow with rfl | hrow
          · obtain rfl : p = q := LedgerEntry.chainParameterSet.inj (Option.some.inj (hp.symm.trans hq))
            exact hkey
          · exact hnone row hrow q hq
      · exact .inr ⟨row, List.mem_cons_of_mem _ hrow, q, hq, hkey, hvalue⟩

end Drain

/-! ## The limit on stake minimums -/

/-- A value with the share `capBps` of it on top. -/
def raised (value capBps : ℕ) : ℕ := satAdd value (satMul value capBps / 10000)

/-- `stake_increase_cap_bps`. -/
def stakeIncreaseCapBps (env : Env) (s : Chain) : ℕ :=
  ((s.param "stake_increase_cap_bps").bind env.decodeU64).getD 2500

/-- The limit a submission is held against. -/
def maxAllowed (env : Env) (s : Chain) (key : String) : ℕ :=
  raised (((s.param key).bind env.decodeU64).getD (100 * hunitsPerHone)) (stakeIncreaseCapBps env s)

/-- What the node takes a stake minimum to be that was never set. -/
def minStakeDefault : String → ℕ
  | "clock_min_stake" => 5 * hunitsPerHone
  | "miner_min_stake" => 10 * hunitsPerHone
  | "storage_min_stake" => 2 * hunitsPerHone
  | "sensor_min_stake" => 2 * hunitsPerHone
  | "service_min_stake" => 3 * hunitsPerHone
  | "verifier_min_stake" => 5 * hunitsPerHone
  | "mempool_min_stake" => 2 * hunitsPerHone
  | _ => 100 * hunitsPerHone

/-- The stake minimum in force. -/
def minStake (env : Env) (s : Chain) (key : String) : ℕ :=
  ((s.param key).bind env.decodeU64).getD (minStakeDefault key)

/-- How far it may be raised at once. -/
def ceiling (env : Env) (s : Chain) (key : String) : ℕ :=
  raised (minStake env s key) (stakeIncreaseCapBps env s)

/-! ## The component -/

/-- The record of a change that waits. -/
def recordText (env : Env) (p : ChainParameterSet) : String :=
  env.printJson (.obj [("entry", .str (env.entryJson (.chainParameterSet p))),
    ("release_epoch", .num (wrapAdd p.epoch 2)), ("submitted_by", .str p.signedBy)])

/-- A change that was accepted and is not due yet. -/
structure Awaited where
  change : ChainParameterSet
  /-- The epoch of the chain when the entry was accepted. -/
  accepted : ℕ
  /-- The limit it was held against. -/
  limit : ℕ

namespace Awaited

/-- The epoch its record is filed under. -/
def release (a : Awaited) : ℕ := wrapAdd a.change.epoch 2

def recordKey (a : Awaited) : String := s!"{a.release}:{a.change.key}"

/-- At a seal of `epoch` the wait is over. -/
def Due (epoch : ℕ) (a : Awaited) : Prop := a.accepted + 2 ≤ epoch

instance (epoch : ℕ) (a : Awaited) : Decidable (a.Due epoch) := inferInstanceAs (Decidable (_ ≤ _))

end Awaited

/-- The chain, with the changes that wait, the latest first, and the last seal. -/
structure Ledger where
  chain : Chain
  awaited : List Awaited := []
  lastSeal : Option ℕ := none

inductive Op where
  | submit (m : Tx.Moment) (p : ChainParameterSet) (sig : Option String)
  | seal (now epoch : ℕ)

/-- Each seal closes what is due by it: a change waits up to the first such seal. -/
def step (env : Env) (r : Reader) (l : Ledger) : Op → Ledger
  | .submit m p sig => match Tx.validateAndApply env m (.chainParameterSet p) sig l.chain with
    | (.ok _, s) =>
      { l with chain := s, awaited := ⟨p, l.chain.currentEpoch, maxAllowed env l.chain p.key⟩ :: l.awaited }
    | (.error _, s) => { l with chain := s }
  | .seal now epoch =>
    { chain := (drainPendingParams env r now epoch l.chain).2,
      awaited := l.awaited.filter fun a => ¬ a.Due epoch,
      lastSeal := some epoch }

/-- The rest of the node does what it likes, but for the parameters and their records. -/
def component (env : Env) (r : Reader) : Component Ledger Op where
  init := fun l => l.chain.state .pendingParam = ∅ ∧ l.awaited = [] ∧ l.lastSeal = none
  step := step env r
  other := fun l l' => l'.chain.state .pendingParam = l.chain.state .pendingParam ∧
    l'.chain.state .chainParam = l.chain.state .chainParam ∧ l'.awaited = l.awaited ∧
    l'.lastSeal = l.lastSeal

/-- The record of a change reads back as it was written. -/
def ReadsBack (env : Env) (r : Reader) (p : ChainParameterSet) : Prop :=
  r.entryField (recordText env p) = some (env.entryJson (.chainParameterSet p)) ∧
    r.entry (env.entryJson (.chainParameterSet p)) = some (.chainParameterSet p)

/-- What is submitted is serialised as documented, and seals come in increasing order. -/
def Orderly (env : Env) (r : Reader) (l : Ledger) : Op → Prop
  | .submit _ p _ => ReadsBack env r p
  | .seal _ epoch => ∀ last ∈ l.lastSeal, last < epoch

/-- The change of a parameter that is due, the last one accepted when there are several. -/
def due (l : Ledger) (epoch : ℕ) (key : String) : Option Awaited :=
  l.awaited.find? fun a => a.Due epoch ∧ a.change.key = key

/-- A seal gives every parameter the value that is due and leaves the others, and it raises no
stake minimum above the ceiling; a submission changes no parameter. -/
def Timelocked (env : Env) (r : Reader) (l : Ledger) : Op → Prop
  | .submit m p sig => ∀ key, (step env r l (.submit m p sig)).chain.param key = l.chain.param key
  | .seal now epoch => ∀ key,
    ((step env r l (.seal now epoch)).chain.param key =
        ((due l epoch key).map (·.change.value)).or (l.chain.param key)) ∧
      (Text.hasSuffix "_min_stake" key = true →
        minStake env (step env r l (.seal now epoch)).chain key ≤
          max (minStake env l.chain key) (ceiling env l.chain key))

/-- Every step of a run did. -/
def AllTimelocked (env : Env) (r : Reader) (hist : List (Ledger × Op)) : Prop :=
  ∀ c ∈ hist, Timelocked env r c.1 c.2

/-- A stake minimum is written the way the node reads it. A seal meets the release epochs: what
is filed under its epoch is what is due by then; and the ceiling of a stake minimum is not below
the limit the change was held against. -/
def Honoured (env : Env) (l : Ledger) : Op → Prop
  | .submit _ p sig => Tx.preflight env l.chain (.chainParameterSet p) sig = .ok () →
      Text.hasSuffix "_min_stake" p.key = true →
      env.decodeU64 p.value = parseU64 (trim p.value)
  | .seal _ epoch => ∀ a ∈ l.awaited, (a.Due epoch ↔ a.release = epoch) ∧
      (a.Due epoch → Text.hasSuffix "_min_stake" a.change.key = true →
        a.limit ≤ ceiling env l.chain a.change.key)

/-! ## The run -/

/-- The queue holds the last change of each key and release epoch, and they all read back. -/
structure Booked (env : Env) (r : Reader) (l : Ledger) : Prop where
  rows : ∀ k, l.chain.stateGet .pendingParam k =
    (l.awaited.find? (·.recordKey = k)).map fun a => recordText env a.change
  reads : ∀ a ∈ l.awaited, ReadsBack env r a.change
  held : ∀ a ∈ l.awaited, Text.hasSuffix "_min_stake" a.change.key = true →
    ∃ amount, env.decodeU64 a.change.value = some amount ∧ amount ≤ a.limit

section Run

variable {env : Env} {r : Reader} {l : Ledger} {hist : List (Ledger × Op)} {m : Tx.Moment}
  {p : ChainParameterSet} {sig : Option String} {now epoch : ℕ} {key : String} {a : Awaited}

theorem recordKey_eq_iff : a.recordKey = s!"{epoch}:{key}" ↔ a.release = epoch ∧ a.change.key = key :=
  Text.numbered_inj

theorem hasPrefix_recordKey : hasPrefix s!"{epoch}:" a.recordKey = true ↔ a.release = epoch :=
  Text.hasPrefix_numbered

/-- An entry is accepted and noted, or it is refused and nothing happens. -/
theorem submitted (m : Tx.Moment) (p : ChainParameterSet) (sig : Option String) (s : Chain) :
    (∃ msg, Tx.validateAndApply env m (.chainParameterSet p) sig s = (.error (.err msg), s)) ∨
      Tx.preflight env s (.chainParameterSet p) sig = .ok () ∧
        ∃ hash, Tx.validateAndApply env m (.chainParameterSet p) sig s =
          (.ok hash, Tx.deductFee env (.chainParameterSet p) (Tx.notePendingParam env p s)) := by
  cases hpre : Tx.preflight env s (.chainParameterSet p) sig with
  | error msg =>
    left
    apply Tx.validateAndApply_of_preflight_ne
    rw [hpre]
    exact nofun
  | ok u => exact .inr ⟨rfl, _, Tx.validateAndApply_eq_ok_iff.2 ⟨hpre, rfl, _, rfl, rfl⟩⟩

theorem of_holds {s : Chain} {e : LedgerEntry} {c : Bool} {msg : String}
    (h : (Tx.Check.holds c msg).run env s e = .ok ()) : c = true := by
  cases c with
  | true => rfl
  | false => cases h

/-- An accepted stake minimum is a number within the limit. -/
theorem parsed_of_preflight {s : Chain} (h : Tx.preflight env s (.chainParameterSet p) sig = .ok ())
    (hkey : Text.hasSuffix "_min_stake" p.key = true) :
    ∃ amount, parseU64 (trim p.value) = some amount ∧ amount ≤ maxAllowed env s p.key := by
  have hlimit : ∀ c ∈ Tx.rateLimit env s p, c.run env s (.chainParameterSet p) = .ok () :=
    fun c hc => (Tx.preflight_ok_iff.1 h).2.2 c (List.mem_append_right _ hc)
  unfold Tx.rateLimit at hlimit
  dsimp only at hlimit
  rw [if_pos hkey] at hlimit
  have hsome := of_holds (hlimit _ List.mem_cons_self)
  have hle := of_holds (hlimit _ (List.mem_cons_of_mem _ List.mem_cons_self))
  obtain ⟨amount, hamount⟩ := Option.isSome_iff_exists.1 hsome
  rw [hamount, Option.getD_some] at hle
  exact ⟨amount, hamount, of_decide_eq_true hle⟩

theorem booked_of_chain {l' : Ledger} (hstate : l'.chain.state .pendingParam = l.chain.state .pendingParam)
    (hawaited : l'.awaited = l.awaited) (h : Booked env r l) : Booked env r l' := by
  constructor
  · intro k
    rw [stateGet_of_state hstate, hawaited]
    exact h.rows k
  · rw [hawaited]
    exact h.reads
  · rw [hawaited]
    exact h.held

theorem booked_submit (h : Booked env r l) (hreads : ReadsBack env r p)
    (hwritten : Honoured env l (.submit m p sig)) : Booked env r (step env r l (.submit m p sig)) := by
  rcases @submitted env m p sig l.chain with ⟨msg, hrun⟩ | ⟨hpre, hash, hrun⟩
  · simp only [step, hrun]
    exact h
  · simp only [step, hrun]
    constructor
    · intro k
      have hget : (Tx.deductFee env (.chainParameterSet p) (Tx.notePendingParam env p l.chain)).stateGet
          .pendingParam k = if s!"{wrapAdd p.epoch 2}:{p.key}" = k then some (recordText env p)
            else l.chain.stateGet .pendingParam k := by
        rw [Chain.stateGet, Tx.state_deductFee]
        exact l.chain.stateGet_stateSet .pendingParam _ k _
      rw [hget, List.find?_cons]
      by_cases hk : s!"{wrapAdd p.epoch 2}:{p.key}" = k
      · rw [if_pos hk, decide_eq_true (show Awaited.recordKey ⟨p, _, _⟩ = k from hk)]
        rfl
      · rw [if_neg hk, decide_eq_false (show ¬ Awaited.recordKey ⟨p, _, _⟩ = k from hk)]
        exact h.rows k
    · intro a ha
      rcases List.mem_cons.1 ha with rfl | ha
      · exact hreads
      · exact h.reads a ha
    · intro a ha
      rcases List.mem_cons.1 ha with rfl | ha
      · intro hkey
        obtain ⟨amount, hparsed, hle⟩ := parsed_of_preflight hpre hkey
        exact ⟨amount, (hwritten hpre hkey).trans hparsed, hle⟩
      · exact h.held a ha

/-- The last change of a key that is filed under an epoch. -/
def filed (l : Ledger) (epoch : ℕ) (key : String) : Option Awaited :=
  l.awaited.find? fun a => a.release = epoch ∧ a.change.key = key

theorem find_recordKey : (l.awaited.find? (·.recordKey = s!"{epoch}:{key}")) = filed l epoch key := by
  apply List.find?_congr
  intro a _
  rw [decide_eq_decide]
  exact recordKey_eq_iff

/-- A record that the scan of an epoch finds. -/
theorem scanned (h : Booked env r l) {row : String × String}
    (hrow : row ∈ (l.chain.state .pendingParam).scan (hasPrefix s!"{epoch}:")) :
    ∃ a, filed l epoch a.change.key = some a ∧ r.read row.2 = some (.chainParameterSet a.change) := by
  obtain ⟨hget, hpfx⟩ := Kv.mem_scan.1 hrow
  have hrow := (h.rows row.1).symm.trans hget
  cases hfind : l.awaited.find? (·.recordKey = row.1) with
  | none =>
    rw [hfind] at hrow
    cases hrow
  | some a =>
    rw [hfind] at hrow
    have hkey := List.find?_some hfind
    rw [decide_eq_true_iff] at hkey
    rw [← hkey] at hfind hpfx
    have hrelease := hasPrefix_recordKey.1 hpfx
    have hreads := h.reads a (List.mem_of_find?_eq_some hfind)
    refine ⟨a, ?_, ?_⟩
    · rw [← find_recordKey, ← hrelease]
      exact hfind
    · rw [← Option.some.inj hrow, Reader.read, hreads.1]
      exact hreads.2

/-- The drain of an epoch gives each parameter what is filed for it last, and empties the queue
of the epoch. -/
theorem run_drainPendingParams (h : Booked env r l) :
    ∃ t, drainPendingParams env r now epoch l.chain = (.ok (), t) ∧
      (∀ k, t.stateGet .pendingParam k = if hasPrefix s!"{epoch}:" k = true then none
        else l.chain.stateGet .pendingParam k) ∧
      ∀ key, t.param key = ((filed l epoch key).map (·.change.value)).or (l.chain.param key) := by
  obtain ⟨t, ht, hqueue, hparams⟩ := @run_drainParams env r now
    ((l.chain.state .pendingParam).scan (hasPrefix s!"{epoch}:")) l.chain fun row hrow => by
      obtain ⟨a, -, ha⟩ := scanned h hrow
      exact ⟨a.change, ha⟩
  refine ⟨t, ht, ?_, ?_⟩
  · intro k
    rw [hqueue]
    by_cases hpfx : hasPrefix s!"{epoch}:" k = true
    · rw [if_pos hpfx]
      split
      · rfl
      · next hout =>
        -- a key that is not scanned has no record
        cases hget : l.chain.stateGet .pendingParam k with
        | none => rfl
        | some v => exact absurd (List.mem_map.2 ⟨(k, v), Kv.mem_scan.2 ⟨hget, hpfx⟩, rfl⟩) hout
    · rw [if_neg hpfx, if_neg]
      intro hmem
      obtain ⟨row, hrow, rfl⟩ := List.mem_map.1 hmem
      exact hpfx (Kv.mem_scan.1 hrow).2
  · intro key
    rcases hparams key with ⟨hsame, hnone⟩ | ⟨row, hrow, p, hp, hkey, hvalue⟩
    · cases hfiled : filed l epoch key with
      | none => exact hsame
      | some a =>
        -- the record of `a` would have been scanned
        have hmatch := List.find?_some hfiled
        rw [decide_eq_true_iff] at hmatch
        have hget := h.rows s!"{epoch}:{key}"
        rw [find_recordKey, hfiled] at hget
        have hrow : (s!"{epoch}:{key}", recordText env a.change) ∈
            (l.chain.state .pendingParam).scan (hasPrefix s!"{epoch}:") :=
          Kv.mem_scan.2 ⟨hget, Text.hasPrefix_numbered.2 rfl⟩
        have hreads := h.reads a (List.mem_of_find?_eq_some hfiled)
        refine absurd hmatch.2 (hnone _ hrow a.change ?_)
        rw [Reader.read, hreads.1]
        exact hreads.2
    · obtain ⟨a, hfiled, ha⟩ := scanned h hrow
      obtain rfl : p = a.change := LedgerEntry.chainParameterSet.inj (Option.some.inj (hp.symm.trans ha))
      rw [← hkey, hfiled, hkey]
      exact hvalue

/-- What is filed under the epoch of a seal is what is due. -/
theorem filed_eq_due (hmet : Honoured env l (.seal now epoch)) (key : String) :
    filed l epoch key = due l epoch key := by
  apply List.find?_congr
  intro a ha
  rw [decide_eq_decide, (hmet a ha).1]

theorem booked_seal (h : Booked env r l) (hmet : Honoured env l (.seal now epoch)) :
    Booked env r (step env r l (.seal now epoch)) := by
  obtain ⟨t, ht, hqueue, -⟩ := @run_drainPendingParams env r l now epoch h
  simp only [step, ht]
  constructor
  · intro k
    rw [hqueue, List.find?_filter]
    by_cases hpfx : hasPrefix s!"{epoch}:" k = true
    · -- what is left is not due, so it is filed elsewhere
      rw [if_pos hpfx, List.find?_eq_none.2]
      · rfl
      · intro a ha hleft
        rw [decide_eq_true_iff, decide_eq_true_iff, decide_eq_true_iff] at hleft
        obtain ⟨hnot, rfl⟩ := hleft
        exact hnot ((hmet a ha).1.2 (hasPrefix_recordKey.1 hpfx))
    · rw [if_neg hpfx, h.rows]
      congr 1
      apply List.find?_congr
      intro a ha
      rw [decide_eq_decide, decide_eq_true_iff, decide_eq_true_iff, iff_and_self]
      rintro rfl hdue
      rw [hasPrefix_recordKey] at hpfx
      exact hpfx ((hmet a ha).1.1 hdue)
  · exact fun a ha => h.reads a (List.mem_of_mem_filter ha)
  · exact fun a ha => h.held a (List.mem_of_mem_filter ha)

theorem booked_step (h : Booked env r l) {op : Op} (horderly : Orderly env r l op)
    (hmet : Honoured env l op) : Booked env r (step env r l op) := by
  cases op with
  | submit m p sig => exact booked_submit h horderly hmet
  | «seal» now epoch => exact booked_seal h hmet

/-- A stake minimum that is set by a change is within its limit. -/
theorem minStake_of_param {s t : Chain} (h : Booked env r l) (ha : a ∈ l.awaited)
    (hkey : Text.hasSuffix "_min_stake" a.change.key = true)
    (hparam : t.param a.change.key = some a.change.value)
    (hlimit : a.limit ≤ ceiling env s a.change.key) :
    minStake env t a.change.key ≤ ceiling env s a.change.key := by
  obtain ⟨amount, hamount, hle⟩ := h.held a ha hkey
  unfold minStake
  rw [hparam, Option.bind_some, hamount]
  exact hle.trans hlimit

theorem timelocked_of_booked (h : Booked env r l) {op : Op} (hmet : Honoured env l op) :
    Timelocked env r l op := by
  cases op with
  | submit m p sig =>
    intro key
    rcases @submitted env m p sig l.chain with ⟨msg, hrun⟩ | ⟨-, hash, hrun⟩
    · simp only [step, hrun]
    · simp only [step, hrun]
      unfold Chain.param Chain.stateGet
      rw [Tx.state_deductFee]
      exact l.chain.stateGet_stateSet_of_ne (by decide) _ key _
  | «seal» now epoch =>
    obtain ⟨t, ht, -, hparams⟩ := @run_drainPendingParams env r l now epoch h
    intro key
    have hparam := hparams key
    rw [filed_eq_due hmet] at hparam
    simp only [step, ht]
    refine ⟨hparam, ?_⟩
    intro hsuffix
    cases hdue : due l epoch key with
    | none =>
      rw [hdue] at hparam
      have hsame : minStake env t key = minStake env l.chain key := by
        unfold minStake
        rw [hparam]
        rfl
      exact hsame.le.trans (le_max_left _ _)
    | some a =>
      rw [hdue] at hparam
      have ha := List.mem_of_find?_eq_some hdue
      have hmatch := List.find?_some hdue
      rw [decide_eq_true_iff] at hmatch
      obtain ⟨hwaited, rfl⟩ := hmatch
      exact (minStake_of_param h ha hsuffix hparam ((hmet a ha).2 hwaited hsuffix)).trans
        (le_max_right _ _)

theorem booked_of_run (h : Run (component env r) (fun l op => Orderly env r l op ∧ Honoured env l op)
    hist l) : Booked env r l := by
  refine h.invariant ?_ ?_ ?_
  · rintro l ⟨hempty, hawaited, -⟩
    refine ⟨fun k => ?_, fun a ha => ?_, fun a ha => ?_⟩
    · unfold Chain.stateGet
      rw [hempty, hawaited]
      rfl
    · rw [hawaited] at ha
      cases ha
    · rw [hawaited] at ha
      cases ha
  · intro l op hop hl
    exact booked_step hl hop.1 hop.2
  · rintro l l' ⟨hpending, -, hawaited, -⟩ hl
    exact booked_of_chain hpending hawaited hl

/-- In every run whose seals meet the release epochs, parameters change when a change is due, to
the last value accepted, and stake minimums rise within the ceiling. -/
theorem changes_timelocked
    (h : Run (component env r) (fun l op => Orderly env r l op ∧ Honoured env l op) hist l) :
    AllTimelocked env r hist := by
  rintro ⟨l', op⟩ hmem
  obtain ⟨hop, before, hrun⟩ := h.of_mem hmem
  exact timelocked_of_booked (booked_of_run hrun) hop.2

end Run

/-! ### A council member sets parameters -/

/-- A text in quotes, with the quotes in it escaped. -/
def quoted (t : String) : String :=
  "\"" ++ String.ofList (t.toList.flatMap fun c => if c = '"' then ['\\', '"'] else [c]) ++ "\""

/-- An unsigned change, serialised. -/
def changeText (p : ChainParameterSet) : String :=
  "\x7b\"type\":\"CHAIN_PARAMETER_SET\",\"key\":" ++ quoted p.key ++ ",\"value\":" ++ quoted p.value ++
    ",\"signed_by\":" ++ quoted p.signedBy ++ ",\"epoch\":" ++ toString p.epoch ++
    ",\"signature\":null\x7d"

/-- A node that prints its records and reads numbers. -/
def printing : Env := { Env.bare with
  entryJson := fun
    | .chainParameterSet p => changeText p
    | _ => ""
  printJson := fun
    | .obj [(entry, .str text), (release, .num n), (by_, .str who)] =>
      "\x7b" ++ quoted entry ++ ":" ++ quoted text ++ "," ++ quoted release ++ ":" ++ toString n ++ "," ++
        quoted by_ ++ ":" ++ quoted who ++ "\x7d"
    | _ => "null"
  decodeU64 := parseU64 }

/-- A reader that knows the texts of the listed changes. -/
def knowing (changes : List ChainParameterSet) : Reader where
  entryField := fun text => (changes.find? (recordText printing · = text)).map changeText
  entry := fun text => (changes.find? (changeText · = text)).map .chainParameterSet

theorem readsBack_knowing {changes : List ChainParameterSet} {p : ChainParameterSet}
    (h : p ∈ changes) (hrecord : ∀ q ∈ changes, recordText printing q = recordText printing p → q = p)
    (hentry : ∀ q ∈ changes, changeText q = changeText p → q = p) :
    ReadsBack printing (knowing changes) p := by
  have hfind : ∀ f : ChainParameterSet → String, (∀ q ∈ changes, f q = f p → q = p) →
      changes.find? (f · = f p) = some p := by
    intro f hf
    have hsome : (changes.find? (f · = f p)).isSome :=
      List.find?_isSome.2 ⟨p, h, decide_eq_true rfl⟩
    obtain ⟨q, hq⟩ := Option.isSome_iff_exists.1 hsome
    have heq := List.find?_some hq
    rw [decide_eq_true_iff] at heq
    rw [hq, hf q (List.mem_of_find?_eq_some hq) heq]
  constructor
  · exact congrArg (Option.map changeText) (hfind _ hrecord)
  · exact congrArg (Option.map LedgerEntry.chainParameterSet) (hfind _ hentry)

theorem readsBack_only (p : ChainParameterSet) : ReadsBack printing (knowing [p]) p := by
  apply readsBack_knowing List.mem_cons_self
  all_goals
    intro q hq _
    exact List.mem_singleton.1 hq

/-- Josh is on the council, has no key on record and the money for the fee. -/
def council (epoch : ℕ) (minimum : Option String) : Ledger where
  chain :=
    let chain := { ({} : Chain).setBalance "josh" nativeToken 100000000 with currentEpoch := epoch }
    match minimum with
    | some value => chain.stateSet .chainParam "clock_min_stake" value
    | none => chain

def submitting (p : ChainParameterSet) : Op := .submit default p none

/-- A change with the given epoch in it. -/
def dated (epoch : ℕ) : ChainParameterSet := ⟨"name_stake_amount", "5", "josh", epoch, none⟩

instance (env : Env) (l : Ledger) (op : Op) : Decidable (Honoured env l op) := by
  cases op <;> unfold Honoured <;> infer_instance

/-- Nothing changes before the third epoch. -/
theorem changes_timelocked_josh : AllTimelocked printing (knowing [dated 1])
    ((component printing (knowing [dated 1])).record (council 1 none)
      [submitting (dated 1), .seal 0 2, .seal 0 3] []) := by
  refine changes_timelocked (l := (component printing (knowing [dated 1])).exec (council 1 none)
    [submitting (dated 1), .seal 0 2, .seal 0 3]) (Run.exec (.start ⟨rfl, rfl, rfl⟩) ?_)
  refine ⟨⟨readsBack_only _, by decide⟩, ⟨nofun, by decide⟩, ⟨?_, by decide⟩,
    trivial⟩
  rintro last ⟨⟩
  decide

/-- The minimum is lowered to a tenth, and a raise by a quarter was accepted before that. -/
def lower : ChainParameterSet := ⟨"clock_min_stake", "100000000000", "josh", 0, none⟩

def raise : ChainParameterSet := ⟨"clock_min_stake", "1250000000000", "josh", 1, none⟩

/-- An entry dated back two epochs takes effect in the epoch it is accepted in, one dated back
further is missed, and a raise that waits is not measured against the value it meets. -/
theorem changes_early_or_lost_or_steep :
    ¬ Timelocked printing (knowing [dated 3]) ((component printing (knowing [dated 3])).exec
      (council 5 none) [submitting (dated 3)]) (.seal 0 5) ∧
    ¬ Timelocked printing (knowing [dated 1]) ((component printing (knowing [dated 1])).exec
      (council 5 none) [submitting (dated 1), .seal 0 5, .seal 0 6]) (.seal 0 7) ∧
    ¬ Timelocked printing (knowing [lower, raise]) ((component printing (knowing [lower, raise])).exec
      (council 0 (some "1000000000000")) [submitting lower, submitting raise, .seal 0 2]) (.seal 0 3) ∧
    ¬ ∀ hist l, Run (component printing (knowing [dated 3])) (Orderly printing (knowing [dated 3]))
      hist l → AllTimelocked printing (knowing [dated 3]) hist := by
  have hearly : ¬ Timelocked printing (knowing [dated 3]) ((component printing (knowing [dated 3])).exec
      (council 5 none) [submitting (dated 3)]) (.seal 0 5) := by
    intro h
    have hparam := (h "name_stake_amount").1
    revert hparam
    decide +kernel
  refine ⟨hearly, ?_, ?_, ?_⟩
  · intro h
    have hparam := (h "name_stake_amount").1
    revert hparam
    decide
  · intro h
    have hraised := (h "clock_min_stake").2 (by decide)
    revert hraised
    decide +kernel
  · intro hall
    have hrun : Run (component printing (knowing [dated 3])) (Orderly printing (knowing [dated 3])) _ _ :=
      Run.exec (.start ⟨rfl, rfl, rfl⟩)
        (show Legal _ _ (council 5 none) [submitting (dated 3), .seal 0 5] from
          ⟨readsBack_only _, nofun, trivial⟩)
    exact hearly (hall _ _ hrun _ List.mem_cons_self)

end HoneNode.Timelock
