import HoneNode.Lib.FirstByKey
import HoneNode.Env

/-!
# Pool — pending entries of an epoch

`push_pending` and `drain_pending_sorted`. A gossip message is an entry with the
signature it came with. Admission is by the digest of the entry alone, and the
pool keeps the whole message, so the first copy of an entry decides which
signature is checked at the seal.
-/

namespace HoneNode.Pool

open FirstByKey

/-- An entry and its signature, hex. -/
abbrev Message := LedgerEntry × Option String

section

-- digest and JSON encoding, both the same on every node
variable (sha256 : Bytes → Bytes) (toJson : LedgerEntry → Bytes)

/-- SHA-256 of the entry's bytes, ordered byte by byte. -/
def fingerprint (m : Message) : List ℕ := (sha256 (toJson m.1)).map UInt8.toNat

/-- The pool and the fingerprints admitted this epoch, which are those in the pool. -/
structure Pending where
  pending : List Message
  seenEntries : List (List ℕ)
  agree : ∀ k, k ∈ seenEntries ↔ k ∈ pending.map (fingerprint sha256 toJson)

variable {sha256 toJson}

/-- A fresh pool. -/
def Pending.empty : Pending sha256 toJson := ⟨[], [], by simp⟩

/-- Queue a user entry for the next epoch seal, unless the same entry was admitted
this epoch. -/
def pushPending (pool : Pending sha256 toJson) (m : Message) : Bool × Pending sha256 toJson :=
  if h : fingerprint sha256 toJson m ∈ pool.seenEntries then (false, pool)
  else (true,
    { pending := pool.pending ++ [m]
      seenEntries := fingerprint sha256 toJson m :: pool.seenEntries
      agree := by
        intro k
        simp only [List.mem_cons, pool.agree, List.map_append, List.mem_append, List.map_cons,
          List.map_nil, List.not_mem_nil, or_false]
        exact or_comm })

/-- The pool in fingerprint order, and the pool emptied. -/
def drainPendingSorted (pool : Pending sha256 toJson) :
    List Message × Pending sha256 toJson :=
  (pool.pending.mergeSort fun a b => fingerprint sha256 toJson a ≤ fingerprint sha256 toJson b,
    .empty)

/-- Receive messages in order of arrival. -/
def receive (ms : List Message) (pool : Pending sha256 toJson) : Pending sha256 toJson :=
  ms.foldl (fun pool m => (pushPending pool m).2) pool

/-! ## The pool keeps first copies -/

theorem pending_push (pool : Pending sha256 toJson) (m : Message) :
    (pushPending pool m).2.pending = offer (fingerprint sha256 toJson) pool.pending m := by
  unfold pushPending offer
  by_cases h : fingerprint sha256 toJson m ∈ pool.seenEntries
  · simp [h, (pool.agree _).1 h]
  · have h' := mt (pool.agree _).2 h
    simp [h, h']

theorem pending_receive (ms : List Message) (pool : Pending sha256 toJson) :
    (receive ms pool).pending = offerAll (fingerprint sha256 toJson) pool.pending ms := by
  induction ms generalizing pool with
  | nil => rfl
  | cons m ms ih =>
    have h := ih (pushPending pool m).2
    rw [pending_push] at h
    exact h

variable (sha256 toJson) in
/-- What a node that received `ms` this epoch applies at the seal. -/
def drained (ms : List Message) : List Message :=
  (drainPendingSorted (receive ms (.empty : Pending sha256 toJson))).1

theorem drained_eq_sorted (ms : List Message) :
    drained sha256 toJson ms = sorted (fingerprint sha256 toJson) ms := by
  unfold drained drainPendingSorted
  rw [pending_receive]
  rfl

end

/-! ## Determinism -/

/-- Two nodes that received the same messages, in any order and with any duplication,
drain the same list, and no validly signed message is displaced, exactly when messages
with one fingerprint are one message. -/
theorem drain_agree_iff (sha256 : Bytes → Bytes) (toJson : LedgerEntry → Bytes)
    (Signed : Message → Prop) (ms : List Message) :
    ((∀ ms₁ ms₂ : List Message, (∀ m, m ∈ ms₁ ↔ m ∈ ms) → (∀ m, m ∈ ms₂ ↔ m ∈ ms) →
        drained sha256 toJson ms₁ = drained sha256 toJson ms₂) ∧
      ∀ ms₁ : List Message, (∀ m, m ∈ ms₁ ↔ m ∈ ms) → ∀ m ∈ ms, Signed m →
        m ∈ drained sha256 toJson ms₁) ↔
    ∀ m ∈ ms, ∀ m' ∈ ms,
      fingerprint sha256 toJson m = fingerprint sha256 toJson m' → m = m' := by
  simp only [drained_eq_sorted]
  constructor
  · rintro ⟨hagree, -⟩
    exact (sorted_agree_iff ms).1 hagree
  · intro happart
    refine ⟨(sorted_agree_iff ms).2 happart, ?_⟩
    intro ms₁ hsame m hm _
    rw [sorted_congr happart hsame, mem_sorted, mem_offerAll_iff happart]
    exact hm

/-- A transfer gossiped first without and then with a signature: only the unsigned
copy is drained, and in the other order only the signed one. -/
theorem drain_first_copy :
    let t : LedgerEntry := .transfer ⟨"alice", "bob", 1, "HONE", none, 1, "alice", 1, none⟩
    let signatures := fun ms => (drained Env.bare.sha256 (fun _ => []) ms).map Prod.snd
    signatures [(t, none), (t, some "ab")] = [none] ∧
    signatures [(t, some "ab"), (t, none)] = [some "ab"] := by
  decide +kernel

end HoneNode.Pool
