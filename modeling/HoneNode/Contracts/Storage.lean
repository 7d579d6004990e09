import Mathlib.Data.List.AList
import HoneNode.Contracts

/-!
# Contracts.Storage — the storage a contract sees during a call

`state.rs` of the contract runtime: a call works on the committed map with its
writes and deletions on top, and the ledger commits the two afterwards. What is
committed is the map that the writes and deletions make of the committed one. A
read looks at the writes and the committed map alone, so it still finds what the
call has deleted.
-/

namespace HoneNode.Contracts

open Prog Within

/-- `HashMap<Vec<u8>, Vec<u8>>`, in some order. -/
abbrev ByteMap := AList fun _ : Bytes => Bytes

structure StorageKv where
  committed : ByteMap
  pending : ByteMap
  pendingDeletes : List Bytes

namespace StorageKv

/-- What a call starts with. -/
def fresh (committed : ByteMap) : StorageKv := ⟨committed, ∅, []⟩

variable (st : StorageKv)

def read (key : Bytes) : Option Bytes := (st.pending.lookup key).or (st.committed.lookup key)

def write (key value : Bytes) : StorageKv :=
  { st with
    pendingDeletes := st.pendingDeletes.filter (· ≠ key)
    pending := st.pending.insert key value }

def delete (key : Bytes) : StorageKv :=
  { st with
    pending := st.pending.erase key
    pendingDeletes := if key ∈ st.committed then st.pendingDeletes ++ [key]
      else st.pendingDeletes }

def hasKey (key : Bytes) : Bool := (st.read key).isSome

/-- The writes, in the order in which the map happens to give them. -/
def drainWrites : List (String × Bytes) :=
  st.pending.entries.map fun b => (hexEncode b.1, b.2)

def drainDeletes : List String := st.pendingDeletes.map hexEncode

end StorageKv

/-! ## Calls on the storage and on a plain map -/

inductive StorageOp where
  | write (key value : Bytes)
  | delete (key : Bytes)
  | read (key : Bytes)
  | hasKey (key : Bytes)
deriving DecidableEq

/-- What a call returns. -/
inductive Reply where
  | done
  | value (found : Option Bytes)
  | has (found : Bool)
deriving DecidableEq

namespace StorageOp

def run (st : StorageKv) : StorageOp → StorageKv
  | .write key value => st.write key value
  | .delete key => st.delete key
  | .read _ | .hasKey _ => st

def reply (st : StorageKv) : StorageOp → Reply
  | .write _ _ | .delete _ => .done
  | .read key => .value (st.read key)
  | .hasKey key => .has (st.hasKey key)

/-- The same call on a map without an overlay. -/
def runMap (m : ByteMap) : StorageOp → ByteMap
  | .write key value => m.insert key value
  | .delete key => m.erase key
  | .read _ | .hasKey _ => m

def replyMap (m : ByteMap) : StorageOp → Reply
  | .write _ _ | .delete _ => .done
  | .read key => .value (m.lookup key)
  | .hasKey key => .has (m.lookup key).isSome

/-- The key that a call looks up. -/
def asks : StorageOp → Option Bytes
  | .write _ _ | .delete _ => none
  | .read key | .hasKey key => some key

end StorageOp

def StorageKv.runAll (st : StorageKv) (ops : List StorageOp) : StorageKv :=
  ops.foldl StorageOp.run st

def plain (committed : ByteMap) (ops : List StorageOp) : ByteMap :=
  ops.foldl StorageOp.runMap committed

/-- The last write or deletion of the key was a deletion. -/
def deletedLast (key : Bytes) (ops : List StorageOp) : Bool :=
  ops.foldl (fun deleted op => match op with
    | .write k _ => if k = key then false else deleted
    | .delete k => if k = key then true else deleted
    | .read _ | .hasKey _ => deleted) false

/-- Every call of the list answers as on the plain map. -/
def Refines (committed : ByteMap) (ops : List StorageOp) : Prop :=
  ∀ before op after, ops = before ++ op :: after →
    op.reply ((StorageKv.fresh committed).runAll before) = op.replyMap (plain committed before)

/-- The stored entries of a contract are those of the map. -/
def Stores (s : Chain) (contractId : String) (m : ByteMap) : Prop :=
  ∀ key, s.stateGet .contract (storageKey contractId (hexEncode key)) = m.lookup key

/-- The writes, in whatever order, and then the deletions make the plain map of the committed
one. -/
def Commits (committed : ByteMap) (ops : List StorageOp) : Prop :=
  ∀ s contractId result, Stores s contractId committed →
    result.storageWrites.Perm ((StorageKv.fresh committed).runAll ops).drainWrites →
    result.storageDeletes = ((StorageKv.fresh committed).runAll ops).drainDeletes →
    Stores ((commitStorage contractId result : Prog {} Unit).run s).2 contractId
      (plain committed ops)

/-! ## The overlay and the map it stands for -/

/-- What the overlay holds after some calls, and what it stands for. -/
structure Overlays (committed : ByteMap) (ops : List StorageOp) (st : StorageKv) (m : ByteMap) :
    Prop where
  base : st.committed = committed
  deleted : ∀ key, key ∈ st.pendingDeletes ↔ key ∈ committed ∧ deletedLast key ops = true
  apart : ∀ key ∈ st.pendingDeletes, st.pending.lookup key = none
  view : ∀ key, m.lookup key = (st.pending.lookup key).or
    (if key ∈ st.pendingDeletes then none else committed.lookup key)

section Overlay

variable {committed m : ByteMap} {ops : List StorageOp} {st : StorageKv}

theorem Overlays.write (h : Overlays committed ops st m) (key value : Bytes) :
    Overlays committed (ops ++ [.write key value]) (st.write key value) (m.insert key value) := by
  have hlast : ∀ other, deletedLast other (ops ++ [.write key value]) =
      if key = other then false else deletedLast other ops := by
    intro other
    unfold deletedLast
    rw [List.foldl_append]
    rfl
  have hmem : ∀ other, other ∈ (st.write key value).pendingDeletes ↔
      other ∈ st.pendingDeletes ∧ other ≠ key := by
    intro other
    unfold StorageKv.write
    rw [List.mem_filter, decide_eq_true_iff]
  refine ⟨h.base, ?_, ?_, ?_⟩
  · intro other
    rw [hmem, h.deleted, hlast]
    by_cases heq : key = other
    · subst heq
      simp
    · simp [heq, Ne.symm heq]
  · intro other hother
    obtain ⟨hdel, hne⟩ := (hmem other).1 hother
    exact (AList.lookup_insert_ne hne).trans (h.apart other hdel)
  · intro other
    simp only [hmem]
    unfold StorageKv.write
    dsimp only
    by_cases heq : other = key
    · subst heq
      rw [AList.lookup_insert, AList.lookup_insert]
      rfl
    · rw [AList.lookup_insert_ne heq, AList.lookup_insert_ne heq, h.view]
      simp [heq]

theorem Overlays.delete (h : Overlays committed ops st m) (key : Bytes) :
    Overlays committed (ops ++ [.delete key]) (st.delete key) (m.erase key) := by
  have hlast : ∀ other, deletedLast other (ops ++ [.delete key]) =
      if key = other then true else deletedLast other ops := by
    intro other
    unfold deletedLast
    rw [List.foldl_append]
    rfl
  have hmem : ∀ other, other ∈ (st.delete key).pendingDeletes ↔
      other ∈ st.pendingDeletes ∨ key ∈ committed ∧ other = key := by
    intro other
    unfold StorageKv.delete
    dsimp only
    rw [h.base]
    split
    · next hin => simp [hin]
    · next hout => simp [hout]
  refine ⟨h.base, ?_, ?_, ?_⟩
  · intro other
    rw [hmem, h.deleted, hlast]
    by_cases heq : key = other
    · subst heq
      simpa using fun hin _ => hin
    · simp [heq, Ne.symm heq]
  · intro other hother
    rcases (hmem other).1 hother with hdel | ⟨-, rfl⟩
    · by_cases heq : other = key
      · subst heq
        exact AList.lookup_erase _ _
      · exact (AList.lookup_erase_ne heq).trans (h.apart other hdel)
    · exact AList.lookup_erase _ _
  · intro other
    simp only [hmem]
    unfold StorageKv.delete
    dsimp only
    by_cases heq : other = key
    · subst heq
      rw [AList.lookup_erase, AList.lookup_erase]
      by_cases hin : other ∈ committed
      · simp [hin]
      · simp [hin, AList.lookup_eq_none.2 hin]
    · rw [AList.lookup_erase_ne heq, AList.lookup_erase_ne heq, h.view]
      simp [heq]

/-- After any calls. -/
theorem overlays_runAll (committed : ByteMap) (ops : List StorageOp) :
    Overlays committed ops ((StorageKv.fresh committed).runAll ops) (plain committed ops) := by
  induction ops using List.reverseRecOn with
  | nil => exact ⟨rfl, by simp [StorageKv.runAll, StorageKv.fresh, deletedLast], nofun, by
      simp [StorageKv.runAll, StorageKv.fresh, plain]⟩
  | append_singleton ops op ih =>
    unfold StorageKv.runAll plain
    rw [List.foldl_append, List.foldl_append]
    change Overlays _ _ (op.run _) (op.runMap _)
    cases op with
    | write key value => exact ih.write key value
    | delete key => exact ih.delete key
    | read key =>
      refine ⟨ih.base, fun other => (ih.deleted other).trans ?_, ih.apart, ih.view⟩
      unfold deletedLast
      rw [List.foldl_append]
      rfl
    | hasKey key =>
      refine ⟨ih.base, fun other => (ih.deleted other).trans ?_, ih.apart, ih.view⟩
      unfold deletedLast
      rw [List.foldl_append]
      rfl

/-- A read is that of the map except where it finds what was deleted. -/
theorem Overlays.read_iff (h : Overlays committed ops st m) (key : Bytes) :
    st.read key = m.lookup key ↔ (key ∈ committed → deletedLast key ops = false) := by
  unfold StorageKv.read
  rw [h.view, h.base]
  by_cases hdel : key ∈ st.pendingDeletes
  · obtain ⟨hin, hlast⟩ := (h.deleted key).1 hdel
    obtain ⟨value, hvalue⟩ := Option.isSome_iff_exists.1 (AList.lookup_isSome.2 hin)
    rw [h.apart key hdel, if_pos hdel, hvalue, hlast]
    simp [hin]
  · rw [if_neg hdel]
    refine iff_of_true rfl fun hin => ?_
    by_contra hlast
    exact hdel ((h.deleted key).2 ⟨hin, Bool.of_not_eq_false hlast⟩)

theorem Overlays.hasKey_iff (h : Overlays committed ops st m) (key : Bytes) :
    st.hasKey key = (m.lookup key).isSome ↔ (key ∈ committed → deletedLast key ops = false) := by
  rw [← h.read_iff]
  unfold StorageKv.hasKey
  refine ⟨fun heq => ?_, fun heq => by rw [heq]⟩
  unfold StorageKv.read at heq ⊢
  rw [h.view, h.base] at heq ⊢
  cases hpending : st.pending.lookup key with
  | some value => rfl
  | none =>
    rw [hpending] at heq
    split at heq
    · next hdel =>
      obtain ⟨hin, -⟩ := (h.deleted key).1 hdel
      rw [Option.none_or, AList.lookup_isSome.2 hin] at heq
      cases heq
    · next hdel => rw [if_neg hdel]

end Overlay

/-! ## Committing -/

section Commit

variable {contractId hexKey : String} {s : Chain}

theorem storageKey_inj {other : String} :
    storageKey contractId hexKey = storageKey contractId other ↔ hexKey = other := by
  constructor
  · intro heq
    have hlist := congrArg String.toList heq
    unfold storageKey at hlist
    rw [String.toList_append, String.toList_append (t := toString other)] at hlist
    exact String.toList_inj.1 (List.append_cancel_left hlist)
  · rintro rfl
    rfl

/-- The chain after the writes of a call. -/
def withWrites (contractId : String) (writes : List (String × Bytes)) (s : Chain) : Chain :=
  writes.foldl (fun s b => s.stateSet .contract (storageKey contractId b.1) b.2) s

def withDeletes (contractId : String) (deletes : List String) (s : Chain) : Chain :=
  deletes.foldl (fun s hexKey => s.stateDelete .contract (storageKey contractId hexKey)) s

theorem run_commitStorage {W : Footprint} (result : ContractResult) :
    (commitStorage contractId result : Prog W Unit).run s =
      (.ok (), withDeletes contractId result.storageDeletes
        (withWrites contractId result.storageWrites s)) := by
  have hwrites : ∀ (writes : List (String × Bytes)) (s : Chain),
      (writes.forM fun b => stateSet .contract (storageKey contractId b.1) b.2 : Prog W Unit).run s =
        (.ok (), withWrites contractId writes s) := by
    intro writes
    induction writes with
    | nil => exact fun _ => rfl
    | cons b rest ih => exact fun s => ih _
  have hdeletes : ∀ (deletes : List String) (s : Chain),
      (deletes.forM fun hexKey => stateDelete .contract (storageKey contractId hexKey) :
        Prog W Unit).run s = (.ok (), withDeletes contractId deletes s) := by
    intro deletes
    induction deletes with
    | nil => exact fun _ => rfl
    | cons head rest ih => exact fun s => ih _
  unfold commitStorage
  rw [run_bind_ok (hwrites _ _), hdeletes]

theorem stateGet_withWrites_of_notMem {writes : List (String × Bytes)}
    (h : hexKey ∉ writes.map Prod.fst) :
    (withWrites contractId writes s).stateGet .contract (storageKey contractId hexKey) =
      s.stateGet .contract (storageKey contractId hexKey) := by
  induction writes generalizing s with
  | nil => rfl
  | cons b rest ih =>
    rw [List.map_cons, List.mem_cons, not_or] at h
    refine (ih h.2).trans ?_
    rw [stateGet_stateSet, if_neg]
    exact fun heq => h.1 (storageKey_inj.1 heq).symm

/-- With distinct keys each write is what its key reads afterwards. -/
theorem stateGet_withWrites_of_mem {writes : List (String × Bytes)}
    (hnodup : (writes.map Prod.fst).Nodup) {value : Bytes} (h : (hexKey, value) ∈ writes) :
    (withWrites contractId writes s).stateGet .contract (storageKey contractId hexKey) =
      some value := by
  induction writes generalizing s with
  | nil => cases h
  | cons b rest ih =>
    rw [List.map_cons, List.nodup_cons] at hnodup
    rcases List.mem_cons.1 h with rfl | hrest
    · refine (stateGet_withWrites_of_notMem hnodup.1).trans ?_
      rw [stateGet_stateSet, if_pos rfl]
    · exact ih hnodup.2 hrest

theorem stateGet_withDeletes {deletes : List String} :
    (withDeletes contractId deletes s).stateGet .contract (storageKey contractId hexKey) =
      if hexKey ∈ deletes then none
      else s.stateGet .contract (storageKey contractId hexKey) := by
  induction deletes generalizing s with
  | nil => rfl
  | cons head rest ih =>
    refine ih.trans ?_
    rw [stateGet_stateDelete]
    by_cases hin : hexKey ∈ rest
    · rw [if_pos hin, if_pos (List.mem_cons_of_mem _ hin)]
    · rw [if_neg hin]
      by_cases heq : hexKey = head
      · subst heq
        rw [if_pos rfl, if_pos List.mem_cons_self]
      · rw [if_neg fun hkey => heq (storageKey_inj.1 hkey).symm,
          if_neg fun hmem => (List.mem_cons.1 hmem).elim heq hin]

/-- Where the stored entry of a key is that of the committed map, it becomes that of the plain
map. -/
theorem commits_key {committed : ByteMap} {ops : List StorageOp} {result : ContractResult}
    {key : Bytes}
    (hstores : s.stateGet .contract (storageKey contractId (hexEncode key)) =
      committed.lookup key)
    (hwrites : result.storageWrites.Perm ((StorageKv.fresh committed).runAll ops).drainWrites)
    (hdeletes : result.storageDeletes = ((StorageKv.fresh committed).runAll ops).drainDeletes) :
    ((commitStorage contractId result : Prog {} Unit).run s).2.stateGet .contract
      (storageKey contractId (hexEncode key)) = (plain committed ops).lookup key := by
  have hover := overlays_runAll committed ops
  generalize (StorageKv.fresh committed).runAll ops = st at hwrites hdeletes hover
  have hnodup : (result.storageWrites.map Prod.fst).Nodup := by
    refine (hwrites.map Prod.fst).nodup_iff.2 ?_
    unfold StorageKv.drainWrites
    rw [List.map_map]
    refine List.Nodup.of_map (fun hexKey => hexDecode hexKey) ?_
    rw [List.map_map]
    have hkeys := st.pending.keys_nodup.map (f := some) (Option.some_injective _)
    unfold AList.keys List.keys at hkeys
    rw [List.map_map] at hkeys
    refine (congrArg List.Nodup (List.map_congr_left fun b _ => ?_)).mp hkeys
    exact (hexDecode_hexEncode b.1).symm
  have hdel : hexEncode key ∈ result.storageDeletes ↔ key ∈ st.pendingDeletes := by
    rw [hdeletes]
    unfold StorageKv.drainDeletes
    rw [List.mem_map]
    constructor
    · rintro ⟨other, hmem, heq⟩
      rwa [← Text.hexEncode_inj.1 heq]
    · exact fun hmem => ⟨key, hmem, rfl⟩
  rw [run_commitStorage, stateGet_withDeletes, hover.view]
  by_cases hkey : key ∈ st.pendingDeletes
  · rw [if_pos (hdel.2 hkey), if_pos hkey, hover.apart key hkey]
    rfl
  · rw [if_neg fun hmem => hkey (hdel.1 hmem), if_neg hkey]
    cases hpending : st.pending.lookup key with
    | some value =>
      have hmem : (hexEncode key, value) ∈ st.drainWrites :=
        List.mem_map.2 ⟨⟨key, value⟩, AList.mem_lookup_iff.1 hpending, rfl⟩
      exact stateGet_withWrites_of_mem hnodup (hwrites.mem_iff.2 hmem)
    | none =>
      refine (stateGet_withWrites_of_notMem ?_).trans hstores
      intro hmem
      obtain ⟨b, hb, heq⟩ := List.mem_map.1 ((hwrites.map Prod.fst).mem_iff.1 hmem)
      obtain ⟨entry, hentry, rfl⟩ := List.mem_map.1 hb
      rw [← Text.hexEncode_inj.1 heq, AList.mem_lookup_iff.2 hentry] at hpending
      cases hpending

/-- What is committed is the plain map. -/
theorem commits_plain (committed : ByteMap) (ops : List StorageOp) : Commits committed ops :=
  fun _ _ _ hstores hwrites hdeletes key => commits_key (hstores key) hwrites hdeletes

end Commit

/-! ## The refinement -/

/-- The storage refines the plain map exactly as long as no call looks up a key of the committed
map whose last write or deletion was a deletion. -/
theorem storage_refines_map_iff (committed : ByteMap) (ops : List StorageOp) :
    Refines committed ops ∧ Commits committed ops ↔
      ∀ before op after, ops = before ++ op :: after → ∀ key ∈ op.asks, key ∈ committed →
        deletedLast key before = false := by
  have hreply : ∀ (before : List StorageOp) (op : StorageOp),
      op.reply ((StorageKv.fresh committed).runAll before) = op.replyMap (plain committed before) ↔
        ∀ key ∈ op.asks, key ∈ committed → deletedLast key before = false := by
    intro before op
    have hover := overlays_runAll committed before
    cases op with
    | write key value => exact iff_of_true rfl nofun
    | delete key => exact iff_of_true rfl nofun
    | read key =>
      unfold StorageOp.reply StorageOp.replyMap StorageOp.asks
      rw [Reply.value.injEq, hover.read_iff]
      simp
    | hasKey key =>
      unfold StorageOp.reply StorageOp.replyMap StorageOp.asks
      rw [Reply.has.injEq, hover.hasKey_iff]
      simp
  constructor
  · rintro ⟨hrefines, -⟩ before op after heq
    exact (hreply before op).1 (hrefines before op after heq)
  · intro hclear
    exact ⟨fun before op after heq => (hreply before op).2 (hclear before op after heq),
      commits_plain committed ops⟩

/-- A contract still reads what it has deleted. -/
theorem deleted_key_is_read :
    ¬ Refines (AList.singleton [1] [2]) [.delete [1], .read [1]] := by
  intro h
  have hread := h [.delete [1]] (.read [1]) [] rfl
  revert hread
  decide

end HoneNode.Contracts
