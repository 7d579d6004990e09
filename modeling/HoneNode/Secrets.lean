import HoneNode.Lib.Text
import HoneNode.Lib.Trace
import HoneNode.Store

/-!
# Secrets — the encrypted file and its index

Secrets live in an encrypted file. An index of them in the database outlives the
process, is merged with the file when a store is opened, and every write encrypts
the whole index anew. A file that does not decrypt counts as empty.

1. **The store**: `open`, `set`, `delete`, `import_file` over a disk.
2. **The component**: calls on opened stores, with the names a failed call has left
   half written.
3. **Runs** whose opens fit the disk lose nothing, bring nothing back, and end in
   sync after every call that succeeds (`secrets_kept`).

What a file holds is what it opens to under a key that is in use. `K` is the set of
these keys, and in the runs below no file opens to two contents under keys of `K`.
-/

namespace HoneNode.Secrets

open Trace

/-! ## The file -/

/-- A `[u8; 32]`. -/
abbrev Key := { k : Bytes // k.length = 32 }

/-- The cipher, the hash and the reading of JSON. -/
structure Outside where
  sha256 : Bytes → Key
  encrypt : Key → (nonce plain : Bytes) → Option Bytes
  decrypt : Key → (nonce ciphertext : Bytes) → Option Bytes
  readMap : Bytes → Except String (Kv String String)

/-- What is encrypted opens under its key. Nothing is said about other keys: the cipher does not
commit to one. -/
def Opens (C : Outside) : Prop :=
  ∀ key nonce plain c, C.encrypt key nonce plain = some c → C.decrypt key nonce c = some plain

def magic : Bytes := Text.bytes "HONE_SECRETS_V1"

def nonceLen : ℕ := 12

def deriveKey (C : Outside) (material : Bytes) : Key :=
  C.sha256 (Text.bytes "hone-secret-store-v1:" ++ material)

def encryptMap (C : Outside) (key : Key) (nonce plain : Bytes) : Except String Bytes :=
  match C.encrypt key nonce plain with
  | none => .error "encrypt failed: Error"
  | some ciphertext => .ok (magic ++ nonce ++ ciphertext)

def decryptMap (C : Outside) (key : Key) (data : Bytes) : Except String (Kv String String) :=
  if data.length < magic.length + nonceLen then .error "secrets file too short"
  else if data.take magic.length ≠ magic then
    .error "secrets file has wrong magic — wrong key or corrupted"
  else
    match C.decrypt key ((data.drop magic.length).take nonceLen)
      (data.drop (magic.length + nonceLen)) with
    | none => .error "secrets decryption failed — wrong passphrase?"
    | some plain => C.readMap plain

/-! ## The store -/

structure Disk where
  file : Option Bytes
  index : Kv String String

/-- What one call meets: fresh randomness, the order a hash map prints in, and what fails. -/
structure Io where
  nonce : Bytes
  nonce_length : nonce.length = nonceLen
  print : Kv String String → Bytes
  /-- Why the file cannot be read. -/
  read : Option String := none
  /-- Why the index cannot be written under a name. -/
  db : String → Option String := fun _ => none
  /-- Why the new file does not get in place. -/
  write : Option String := none

/-- Failures of the database are ignored. -/
def absorb (io : Io) (m index : Kv String String) : Kv String String :=
  m.bindings.foldl (fun index b => if (io.db b.1).isNone then index.put b.1 b.2 else index) index

def loadFile (C : Outside) (key : Key) (io : Io) (raw : Bytes) : Except String (Kv String String) :=
  match io.read with
  | some e => .error e
  | none => decryptMap C key raw

def flushToFile (C : Outside) (key : Key) (io : Io) (d : Disk) : Except String Unit × Disk :=
  match encryptMap C key io.nonce (io.print d.index) with
  | .error e => (.error e, d)
  | .ok raw => match io.write with
    | some e => (.error e, d)
    | none => (.ok (), { d with file := some raw })

/-- Opening always succeeds. -/
def openStore (C : Outside) (material : Bytes) (io : Io) (d : Disk) : Key × Disk :=
  let key := deriveKey C material
  match d.file with
  | none => (key, d)
  | some raw => match loadFile C key io raw with
    | .ok m => (key, { d with index := absorb io m d.index })
    | .error _ => (key, d)

def set (C : Outside) (key : Key) (name value : String) (io : Io) (d : Disk) :
    Except String Unit × Disk :=
  match io.db name with
  | some e => (.error s!"rocksdb write failed: {e}", d)
  | none => flushToFile C key io { d with index := d.index.put name value }

/-- A failure of the database is ignored. -/
def delete (C : Outside) (key : Key) (name : String) (io : Io) (d : Disk) : Except String Unit × Disk :=
  flushToFile C key io
    (match io.db name with
    | some _ => d
    | none => { d with index := d.index.del name })

/-- What a file to import holds. -/
def imported (C : Outside) (raw : Except String Bytes) (passphrase : Option Bytes) :
    Except String (Kv String String) := do
  let raw ← raw
  match passphrase with
  | some pp => decryptMap C (deriveKey C pp) raw
  | none => C.readMap raw

def importFile (C : Outside) (key : Key) (raw : Except String Bytes) (passphrase : Option Bytes)
    (io : Io) (d : Disk) : Except String ℕ × Disk :=
  match imported C raw passphrase with
  | .error e => (.error e, d)
  | .ok m => match flushToFile C key io { d with index := absorb io m d.index } with
    | (.error e, d') => (.error e, d')
    | (.ok (), d') => (.ok m.bindings.length, d')

/-! ## The component -/

/-- The calls, with the key of the store they are made on. -/
inductive Op where
  | «open» (material : Bytes) (io : Io)
  | set (key : Key) (name value : String) (io : Io)
  | delete (key : Key) (name : String) (io : Io)
  | importFile (key : Key) (raw : Except String Bytes) (passphrase : Option Bytes) (io : Io)

namespace Op

def run (C : Outside) (d : Disk) : Op → Except String Unit × Disk
  | «open» material io => (.ok (), (openStore C material io d).2)
  | set key name value io => Secrets.set C key name value io d
  | delete key name io => Secrets.delete C key name io d
  | importFile key raw passphrase io =>
    let (result, d') := Secrets.importFile C key raw passphrase io d
    (result.map fun _ => (), d')

/-- The key of the store. -/
def key (C : Outside) : Op → Key
  | «open» material _ => deriveKey C material
  | set key _ _ _ | delete key _ _ | importFile key _ _ _ => key

def io : Op → Io
  | «open» _ io | set _ _ _ io | delete _ _ io | importFile _ _ _ io => io

/-- The names a call gives a value. -/
def writes (C : Outside) : Op → List String
  | set _ name _ _ => [name]
  | importFile _ raw passphrase _ => match imported C raw passphrase with
    | .ok m => m.bindings.map Prod.fst
    | .error _ => []
  | _ => []

/-- The names it takes away. -/
def deletes : Op → List String
  | delete _ name _ => [name]
  | _ => []

end Op

/-- The disk, the keys of the stores that were opened, and the names that failed calls wrote
and deleted since the last call that went through. -/
structure Shelf where
  disk : Disk
  opened : List Key := []
  torn : List String := []
  dropped : List String := []

def step (C : Outside) (s : Shelf) (op : Op) : Shelf :=
  match op.run C s.disk with
  | (.ok _, d) => { disk := d, opened := op.key C :: s.opened }
  | (.error _, d) =>
    { s with disk := d, torn := op.writes C ++ s.torn, dropped := op.deletes ++ s.dropped }

/-- Any disk to begin with, and no store open. -/
def component (C : Outside) : Component Shelf Op where
  init := fun s => s.opened = [] ∧ s.torn = [] ∧ s.dropped = []
  step := step C

section Definitions

variable (C : Outside) (K : Set Key)

/-- No two keys in use open the file to different contents. -/
def OneReading (d : Disk) : Prop := ∀ raw, d.file = some raw → ∀ key ∈ K, ∀ key' ∈ K, ∀ m m',
  decryptMap C key raw = .ok m → decryptMap C key' raw = .ok m' → m' = m

/-- The store of the call has been opened. -/
def OnOpened (s : Shelf) : Op → Prop
  | .open _ _ => True
  | op => op.key C ∈ s.opened

instance (s : Shelf) : ∀ op, Decidable (OnOpened C s op)
  | .open _ _ => .isTrue trivial
  | .set key _ _ _ | .delete key _ _ | .importFile key _ _ _ =>
    inferInstanceAs (Decidable (key ∈ s.opened))

/-- Calls are made on opened stores and under keys in use, JSON reads back what is printed, and
the files before and after the call have one reading. -/
structure Proper (s : Shelf) (op : Op) : Prop where
  reads : C.readMap (op.io.print (op.run C s.disk).2.index) = .ok (op.run C s.disk).2.index
  opened : OnOpened C s op
  inUse : op.key C ∈ K
  before : OneReading C K s.disk
  after : OneReading C K (op.run C s.disk).2

/-- The file holds a secret, under some key in use. -/
def InFile (d : Disk) (name value : String) : Prop :=
  ∃ raw, ∃ key ∈ K, ∃ m, d.file = some raw ∧ decryptMap C key raw = .ok m ∧
    m.get name = some value

/-- Neither the file nor the index knows a name. -/
def Absent (d : Disk) (name : String) : Prop :=
  d.index.get name = none ∧ ∀ value, ¬ InFile C K d name value

/-- The file, read with the key of a store, is the index. -/
def Synced (key : Key) (d : Disk) : Prop :=
  match d.file with
  | none => ∀ name, d.index.get name = none
  | some raw => ∃ m, decryptMap C key raw = .ok m ∧ ∀ name, m.get name = d.index.get name

/-- What a call keeps. A secret in the file that nobody deletes stays there, with its value
unless it is written; a name that is nowhere stays so unless it is written; a call that succeeds
leaves file and index the same, and what it deletes is nowhere. -/
structure Faithful (s : Shelf) (op : Op) : Prop where
  kept : ∀ name value, InFile C K s.disk name value → name ∉ op.deletes → name ∉ s.dropped →
    ∃ value', InFile C K (step C s op).disk name value' ∧
      (value' = value ∨ name ∈ op.writes C ∨ name ∈ s.torn)
  gone : ∀ name, Absent C K s.disk name → name ∉ op.writes C →
    Absent C K (step C s op).disk name
  synced : (op.run C s.disk).1 = .ok () → Synced C (op.key C) (step C s op).disk
  deleted : (op.run C s.disk).1 = .ok () → ∀ name ∈ op.deletes, Absent C K (step C s op).disk name

/-- Every call of a run did. -/
def AllFaithful (hist : List (Shelf × Op)) : Prop := ∀ c ∈ hist, Faithful C K c.1 c.2

end Definitions

/-- A store is opened without a file on an empty index, or with the key of the file on an index
without names that the file lacks; and the database does what `open` and `delete` ask. -/
def Fits (C : Outside) (s : Shelf) : Op → Prop
  | .open material io => match s.disk.file with
    | none => ∀ name, s.disk.index.get name = none
    | some raw => ∃ m, loadFile C (deriveKey C material) io raw = .ok m ∧
        (∀ name, s.disk.index.get name ≠ none → m.get name ≠ none) ∧
        ∀ name, m.get name ≠ none → io.db name = none
  | .delete _ name io => io.db name ≠ none → s.disk.index.get name = none
  | _ => True

/-! ## What a file opens to -/

section Files

variable {C : Outside} {nonce c : Bytes}

theorem decryptMap_frame (hnonce : nonce.length = nonceLen) (key : Key) :
    decryptMap C key (magic ++ nonce ++ c) =
      match C.decrypt key nonce c with
      | none => .error "secrets decryption failed — wrong passphrase?"
      | some plain => C.readMap plain := by
  have hlong : ¬ (magic ++ nonce ++ c).length < magic.length + nonceLen := by
    rw [List.length_append, List.length_append, hnonce]
    exact Nat.not_lt.2 (Nat.le_add_right _ _)
  have htake : (magic ++ nonce ++ c).take magic.length = magic := by
    rw [List.append_assoc, List.take_left]
  have hmiddle : ((magic ++ nonce ++ c).drop magic.length).take nonceLen = nonce := by
    rw [List.append_assoc, List.drop_left, ← hnonce, List.take_left]
  have hrest : (magic ++ nonce ++ c).drop (magic.length + nonceLen) = c := by
    rw [← hnonce, ← List.length_append, List.drop_left]
  unfold decryptMap
  rw [if_neg hlong, htake, if_neg (not_not_intro rfl), hmiddle, hrest]

/-- The index is encrypted and put in place, or the disk is as it was. -/
theorem flush_cases (hC : Opens C) (key : Key) (io : Io) (d : Disk) :
    (∃ e, flushToFile C key io d = (.error e, d)) ∨
      ∃ raw, flushToFile C key io d = (.ok (), { d with file := some raw }) ∧
        decryptMap C key raw = C.readMap (io.print d.index) := by
  unfold flushToFile encryptMap
  cases henc : C.encrypt key io.nonce (io.print d.index) with
  | none => exact .inl ⟨_, rfl⟩
  | some c =>
    dsimp only
    cases io.write with
    | some e => exact .inl ⟨e, rfl⟩
    | none =>
      refine .inr ⟨_, rfl, ?_⟩
      rw [decryptMap_frame io.nonce_length, hC _ _ _ _ henc]

end Files

/-! ## What a call does to the index -/

section Index

variable {io : Io} {name : String}

theorem get_absorb (m index : Kv String String) :
    (absorb io m index).get name =
      if (m.get name).isSome ∧ io.db name = none then m.get name else index.get name := by
  obtain ⟨l, hsorted⟩ := m
  change (l.foldl _ index).get name =
    if (Kv.lookup name l).isSome ∧ io.db name = none then Kv.lookup name l else index.get name
  induction l generalizing index with
  | nil => rfl
  | cons b rest ih =>
    obtain ⟨hhead, htail⟩ := List.pairwise_cons.1 hsorted
    obtain ⟨k, v⟩ := b
    rw [List.foldl_cons, ih _ htail]
    by_cases hk : k = name
    · -- the rest of the list is above this name
      subst hk
      rw [Kv.lookup_eq_none_of_lt hhead, if_neg (fun h => nomatch h.1), Kv.lookup, if_pos rfl]
      cases io.db k with
      | none => exact Kv.get_put_self index k v
      | some e => rfl
    · have hput : (if (io.db k).isNone then index.put k v else index).get name = index.get name := by
        split
        · exact Kv.get_put_of_ne index v hk
        · rfl
      rw [hput, Kv.lookup, if_neg hk]

theorem lookup_isSome_iff {m : Kv String String} :
    (m.get name).isSome ↔ name ∈ m.bindings.map Prod.fst := by
  constructor
  · intro h
    obtain ⟨v, hv⟩ := Option.isSome_iff_exists.1 h
    exact List.mem_map.2 ⟨_, (Kv.lookup_eq_some_iff m.sorted).1 hv, rfl⟩
  · intro h
    obtain ⟨⟨k, v⟩, hb, rfl⟩ := List.mem_map.1 h
    exact Option.isSome_iff_exists.2 ⟨v, (Kv.lookup_eq_some_iff m.sorted).2 hb⟩

/-- What becomes of the names of an index in a call. -/
structure Edits (C : Outside) (op : Op) (before after : Kv String String) : Prop where
  other : ∀ name, name ∉ op.writes C → name ∉ op.deletes → after.get name = before.get name
  stays : ∀ name, name ∉ op.deletes → before.get name ≠ none → after.get name ≠ none
  away : ∀ name, name ∉ op.writes C → before.get name = none → after.get name = none
  deleted : ∀ name ∈ op.deletes, (op.io.db name ≠ none → before.get name = none) →
    after.get name = none

variable {C : Outside} (before : Kv String String)

theorem edits_refl {op : Op} {before : Kv String String}
    (h : ∀ name ∈ op.deletes, op.io.db name ≠ none) : Edits C op before before where
  other := fun _ _ _ => rfl
  stays := fun _ _ => id
  away := fun _ _ => id
  deleted := fun name hname hfits => hfits (h name hname)

theorem edits_set {key : Key} {value : String} :
    Edits C (.set key name value io) before (before.put name value) where
  other := by
    intro other hother _
    exact Kv.get_put_of_ne before value fun h => hother (List.mem_singleton.2 h.symm)
  stays := by
    intro other _ hbefore
    rw [Kv.get_put]
    split
    · exact nofun
    · exact hbefore
  away := by
    intro other hother hbefore
    rw [Kv.get_put_of_ne before value fun h => hother (List.mem_singleton.2 h.symm)]
    exact hbefore
  deleted := nofun

theorem edits_delete {key : Key} :
    Edits C (.delete key name io) before (before.del name) where
  other := by
    intro other _ hother
    exact Kv.get_del_of_ne before fun h => hother (List.mem_singleton.2 h.symm)
  stays := by
    intro other hother hbefore
    rw [Kv.get_del_of_ne before fun h => hother (List.mem_singleton.2 h.symm)]
    exact hbefore
  away := by
    intro other _ hbefore
    rw [Kv.get_del]
    split
    · rfl
    · exact hbefore
  deleted := by
    intro other hother _
    rw [List.mem_singleton.1 hother, Kv.get_del_self]

theorem edits_import {key : Key} {raw : Except String Bytes} {pp : Option Bytes}
    {m : Kv String String} (h : imported C raw pp = .ok m) :
    Edits C (.importFile key raw pp io) before (absorb io m before) := by
  have hother : ∀ name, name ∉ Op.writes C (.importFile key raw pp io) →
      (absorb io m before).get name = before.get name := by
    intro name hname
    rw [get_absorb, if_neg]
    intro hget
    simp only [Op.writes, h] at hname
    exact hname (lookup_isSome_iff.1 hget.1)
  constructor
  · exact fun name hname _ => hother name hname
  · intro name _ hbefore
    rw [get_absorb]
    split
    · next hget => exact Option.isSome_iff_ne_none.1 hget.1
    · exact hbefore
  · intro name hname hbefore
    rw [hother name hname]
    exact hbefore
  · exact nofun

end Index

/-! ## The calls -/

section Calls

variable {C : Outside} {K : Set Key} {op : Op} {s : Shelf} {d : Disk} {hist : List (Shelf × Op)}

/-- What a call on an open store can come to: it fails and leaves the file, or the file is the
edited index under the key of the store. -/
inductive Outcome (C : Outside) (d : Disk) (op : Op) : Except String Unit × Disk → Prop where
  | failed (e : String) {index : Kv String String} (h : Edits C op d.index index) :
      Outcome C d op (.error e, { d with index })
  | written {raw : Bytes} {index : Kv String String} (h : Edits C op d.index index)
      (hraw : decryptMap C (op.key C) raw = C.readMap (op.io.print index)) :
      Outcome C d op (.ok (), { file := some raw, index })

theorem outcome_flush (hC : Opens C) {index : Kv String String} (h : Edits C op d.index index) :
    Outcome C d op (flushToFile C (op.key C) op.io { d with index }) := by
  rcases flush_cases hC (op.key C) op.io { d with index } with ⟨e, hrun⟩ | ⟨raw, hrun, hraw⟩
  · rw [hrun]
    exact .failed e h
  · rw [hrun]
    exact .written h hraw

/-- One inversion for the calls on an open store. -/
theorem run_outcome (hC : Opens C) (d : Disk) (op : Op) (hop : ∀ material io, op ≠ .open material io) :
    Outcome C d op (op.run C d) := by
  cases op with
  | «open» material io => exact absurd rfl (hop material io)
  | set key name value io =>
    change Outcome C d _ (set C key name value io d)
    unfold set
    cases io.db name with
    | some e => exact .failed _ (edits_refl fun _ h => absurd h List.not_mem_nil)
    | none => exact outcome_flush hC (edits_set d.index)
  | delete key name io =>
    change Outcome C d _ (delete C key name io d)
    unfold delete
    cases hdb : io.db name with
    | some e =>
      refine outcome_flush hC (edits_refl ?_)
      intro other hother hnone
      rw [List.mem_singleton.1 hother] at hnone
      exact nomatch hdb.symm.trans hnone
    | none => exact outcome_flush hC (edits_delete d.index)
  | importFile key raw pp io =>
    have hrun : Op.run C d (.importFile key raw pp io) = match imported C raw pp with
        | .error e => (.error e, d)
        | .ok m => flushToFile C key io { d with index := absorb io m d.index } := by
      unfold Op.run importFile
      dsimp only
      rcases imported C raw pp with e | m
      · rfl
      · dsimp only
        rcases flushToFile C key io { d with index := absorb io m d.index } with ⟨e | u, d'⟩ <;> rfl
    rw [hrun]
    cases hmap : imported C raw pp with
    | error e => exact .failed _ (edits_refl fun _ h => absurd h List.not_mem_nil)
    | ok m => exact outcome_flush hC (edits_import d.index hmap)

/-- A file that decrypts holds what it decrypts to. -/
theorem inFile_iff (hone : OneReading C K d) {raw : Bytes} {key : Key} {m : Kv String String}
    {name value : String} (hkey : key ∈ K) (hfile : d.file = some raw)
    (hraw : decryptMap C key raw = .ok m) : InFile C K d name value ↔ m.get name = some value := by
  constructor
  · rintro ⟨raw', key', hkey', m', hfile', hraw', hget⟩
    rw [hfile] at hfile'
    cases hfile'
    rwa [← hone _ hfile _ hkey _ hkey' _ _ hraw hraw']
  · exact fun hget => ⟨raw, key, hkey, m, hfile, hraw, hget⟩

theorem inFile_congr {d' : Disk} {name value : String} (h : d'.file = d.file) :
    InFile C K d' name value ↔ InFile C K d name value := by
  unfold InFile
  rw [h]

theorem loadFile_ok_iff {key : Key} {io : Io} {raw : Bytes} {m : Kv String String} :
    loadFile C key io raw = .ok m ↔ io.read = none ∧ decryptMap C key raw = .ok m := by
  unfold loadFile
  cases io.read with
  | none => exact (and_iff_right rfl).symm
  | some e => exact iff_of_false nofun nofun

/-- Opening leaves the file; it merges what it can read. -/
theorem openStore_cases (material : Bytes) (io : Io) (d : Disk) :
    (openStore C material io d).2 = d ∨
      ∃ raw m, d.file = some raw ∧ loadFile C (deriveKey C material) io raw = .ok m ∧
        (openStore C material io d).2 = { d with index := absorb io m d.index } := by
  unfold openStore
  dsimp only
  cases hfile : d.file with
  | none => exact .inl rfl
  | some raw =>
    dsimp only
    cases hload : loadFile C (deriveKey C material) io raw with
    | error e => exact .inl rfl
    | ok m => exact .inr ⟨raw, m, rfl, hload, rfl⟩

theorem file_openStore (material : Bytes) (io : Io) (d : Disk) :
    (openStore C material io d).2.file = d.file := by
  rcases @openStore_cases C material io d with h | ⟨raw, m, -, -, h⟩
  · rw [h]
  · rw [h]

/-- A store that fits the disk it is opened on has the file for its index. -/
theorem openStore_of_fits {material : Bytes} {io : Io} (h : Fits C s (.open material io)) :
    match s.disk.file with
    | none => ∀ name, (openStore C material io s.disk).2.index.get name = none
    | some raw => ∃ m, decryptMap C (deriveKey C material) raw = .ok m ∧
        ∀ name, m.get name = (openStore C material io s.disk).2.index.get name := by
  unfold Fits at h
  unfold openStore
  dsimp only at h ⊢
  cases hfile : s.disk.file with
  | none =>
    rw [hfile] at h
    exact h
  | some raw =>
    rw [hfile] at h
    obtain ⟨m, hload, hstale, hdb⟩ := h
    dsimp only
    rw [hload]
    refine ⟨m, (loadFile_ok_iff.1 hload).2, ?_⟩
    intro name
    rw [get_absorb]
    by_cases hget : m.get name = none
    · rw [hget, if_neg (fun h => nomatch h.1)]
      by_contra hne
      exact hstale name (Ne.symm hne) hget
    · rw [if_pos ⟨Option.isSome_iff_ne_none.2 hget, hdb name hget⟩]

end Calls

/-! ## Runs -/

/-- Up to the names that failed calls had in hand, the file is the index. -/
def Booked (C : Outside) (K : Set Key) (s : Shelf) : Prop :=
  ∀ raw, ∀ key ∈ K, ∀ m, s.disk.file = some raw → decryptMap C key raw = .ok m → ∀ name,
    (name ∉ s.torn → name ∉ s.dropped → m.get name = s.disk.index.get name) ∧
      (name ∉ s.dropped → m.get name ≠ none → s.disk.index.get name ≠ none)

section Runs

variable {C : Outside} {K : Set Key} {op : Op} {s : Shelf} {hist : List (Shelf × Op)}

theorem booked_open {material : Bytes} {io : Io} (hproper : Proper C K s (.open material io))
    (h : Fits C s (.open material io)) : Booked C K (step C s (.open material io)) := by
  intro raw key hkey m hfile hraw name
  have hopened := openStore_of_fits h
  change (openStore C material io s.disk).2.file = some raw at hfile
  rw [file_openStore] at hfile
  rw [hfile] at hopened
  obtain ⟨m', hraw', hsame⟩ := hopened
  rw [← hproper.before _ hfile _ hkey _ hproper.inUse _ _ hraw hraw']
  change (_ → _ → m'.get name = (openStore C material io s.disk).2.index.get name) ∧
    (_ → m'.get name ≠ none → (openStore C material io s.disk).2.index.get name ≠ none)
  rw [hsame]
  exact ⟨fun _ _ => rfl, fun _ => id⟩

theorem booked_call (hC : Opens C) (hop : ∀ material io, op ≠ .open material io)
    (hproper : Proper C K s op) (h : Booked C K s) : Booked C K (step C s op) := by
  have hout := run_outcome hC s.disk op hop
  have hread := hproper.reads
  have hone := hproper.after
  have hinUse := hproper.inUse
  unfold step
  generalize op.run C s.disk = r at hout hread hone
  cases hout with
  | @failed e index hedit =>
    intro raw key hkey m hfile hraw name
    obtain ⟨hsame, hthere⟩ := h raw key hkey m hfile hraw name
    constructor
    · intro htorn hdropped
      rw [hsame (fun h => htorn (List.mem_append_right _ h))
        (fun h => hdropped (List.mem_append_right _ h))]
      exact (hedit.other name (fun h => htorn (List.mem_append_left _ h))
        (fun h => hdropped (List.mem_append_left _ h))).symm
    · intro hdropped hget
      exact hedit.stays name (fun h => hdropped (List.mem_append_left _ h))
        (hthere (fun h => hdropped (List.mem_append_right _ h)) hget)
  | @written raw' index hedit hraw' =>
    intro raw key hkey m hfile hraw name
    rw [hone _ hfile _ hinUse _ hkey _ _ ?_ hraw]
    · exact ⟨fun _ _ => rfl, fun _ => id⟩
    · cases hfile
      exact hraw'.trans hread

theorem faithful_open {material : Bytes} {io : Io} (hproper : Proper C K s (.open material io))
    (h : Fits C s (.open material io)) : Faithful C K s (.open material io) := by
  have hsame : ∀ name value, InFile C K (step C s (.open material io)).disk name value ↔
      InFile C K s.disk name value := fun _ _ => inFile_congr (file_openStore material io s.disk)
  constructor
  · exact fun name value hin _ _ => ⟨value, (hsame name value).2 hin, .inl rfl⟩
  · rintro name ⟨hindex, hfile⟩ -
    refine ⟨?_, fun value hin => hfile value ((hsame name value).1 hin)⟩
    change (openStore C material io s.disk).2.index.get name = none
    rcases @openStore_cases C material io s.disk with hopen | ⟨raw, m, hraw, hload, hopen⟩
    · rw [hopen]
      exact hindex
    · rw [hopen, get_absorb, if_neg]
      · exact hindex
      · intro hget
        obtain ⟨value, hvalue⟩ := Option.isSome_iff_exists.1 hget.1
        exact hfile value ⟨raw, _, hproper.inUse, m, hraw, (loadFile_ok_iff.1 hload).2, hvalue⟩
  · intro _
    change Synced C (deriveKey C material) (openStore C material io s.disk).2
    unfold Synced
    have hopened := openStore_of_fits h
    rw [file_openStore]
    exact hopened
  · exact fun _ _ hmem => absurd hmem List.not_mem_nil

theorem disk_step : (step C s op).disk = (op.run C s.disk).2 := by
  unfold step
  rcases op.run C s.disk with ⟨e | u, d⟩ <;> rfl

theorem faithful_call (hC : Opens C) (hop : ∀ material io, op ≠ .open material io)
    (hproper : Proper C K s op) (hfits : Fits C s op) (h : Booked C K s) : Faithful C K s op := by
  have hdb : ∀ name ∈ op.deletes, op.io.db name ≠ none → s.disk.index.get name = none := by
    cases op with
    | delete key name io =>
      intro other hother
      rw [List.mem_singleton.1 hother]
      exact hfits
    | _ => exact fun _ hmem => absurd hmem List.not_mem_nil
  have hout := run_outcome hC s.disk op hop
  have hread := hproper.reads
  have hone := hproper.after
  rcases hrun : op.run C s.disk with ⟨result, d⟩
  have hdisk : (step C s op).disk = d := by rw [disk_step, hrun]
  rw [hrun] at hout hread hone
  cases hout with
  | @failed e index hedit =>
    constructor
    · intro name value hin _ _
      rw [hdisk]
      exact ⟨value, hin, .inl rfl⟩
    · rintro name ⟨hindex, hfile⟩ hname
      rw [hdisk]
      exact ⟨hedit.away name hname hindex, hfile⟩
    · rw [hrun]
      exact nofun
    · rw [hrun]
      exact nofun
  | @written raw index hedit hraw =>
    have hraw := hraw.trans hread
    have hholds : ∀ name value, InFile C K { file := some raw, index := index } name value ↔
        index.get name = some value := fun _ _ => inFile_iff hone hproper.inUse rfl hraw
    have habsent : ∀ name, index.get name = none →
        Absent C K { file := some raw, index := index } name := by
      intro name hnone
      refine ⟨hnone, fun value hin => ?_⟩
      rw [hholds, hnone] at hin
      cases hin
    constructor
    · intro name value hin hdeletes hdropped
      rw [hdisk]
      obtain ⟨raw', key', hkey', m, hfile', hraw', hget⟩ := hin
      obtain ⟨hsame, hthere⟩ := h raw' key' hkey' m hfile' hraw' name
      have hbefore := hthere hdropped (by rw [hget]; exact nofun)
      obtain ⟨value', hvalue'⟩ := Option.ne_none_iff_exists'.1 (hedit.stays name hdeletes hbefore)
      refine ⟨value', (hholds name value').2 hvalue', ?_⟩
      by_cases hwrites : name ∈ op.writes C
      · exact .inr (.inl hwrites)
      · by_cases htorn : name ∈ s.torn
        · exact .inr (.inr htorn)
        · rw [hedit.other name hwrites hdeletes, ← hsame htorn hdropped, hget] at hvalue'
          exact .inl (Option.some.inj hvalue').symm
    · rintro name ⟨hindex, -⟩ hname
      rw [hdisk]
      exact habsent name (hedit.away name hname hindex)
    · intro _
      rw [hdisk]
      exact ⟨index, hraw, fun _ => rfl⟩
    · intro _ name hname
      rw [hdisk]
      exact habsent name (hedit.deleted name hname (hdb name hname))

theorem opened_of_proper (hop : ∀ material io, op ≠ .open material io) (h : Proper C K s op) :
    s.opened ≠ [] := by
  have hmem : op.key C ∈ s.opened := by
    cases op with
    | «open» material io => exact absurd rfl (hop material io)
    | _ => exact h.opened
  exact List.ne_nil_of_mem hmem

/-- What holds once a store is open. -/
theorem booked_of_run (hC : Opens C)
    (h : Run (component C) (fun s op => Proper C K s op ∧ Fits C s op) hist s) :
    s.opened = [] ∨ Booked C K s := by
  refine h.invariant (I := fun s => s.opened = [] ∨ Booked C K s) ?_ ?_ ?_
  · rintro s ⟨hopened, -, -⟩
    exact .inl hopened
  · rintro s op ⟨hproper, hfits⟩ hs
    right
    by_cases hop : ∃ material io, op = .open material io
    · obtain ⟨material, io, rfl⟩ := hop
      exact booked_open hproper hfits
    · have hop : ∀ material io, op ≠ .open material io := fun material io h => hop ⟨material, io, h⟩
      exact booked_call hC hop hproper (hs.resolve_left (opened_of_proper hop hproper))
  · rintro s s' rfl hs
    exact hs

/-- In every run whose opens fit the disk, no secret is lost, none comes back, and the file is the
index after every call that succeeds. -/
theorem secrets_kept (hC : Opens C)
    (h : Run (component C) (fun s op => Proper C K s op ∧ Fits C s op) hist s) :
    AllFaithful C K hist := by
  rintro ⟨s', op⟩ hmem
  obtain ⟨⟨hproper, hfits⟩, before, hrun⟩ := h.of_mem hmem
  by_cases hop : ∃ material io, op = .open material io
  · obtain ⟨material, io, rfl⟩ := hop
    exact faithful_open hproper hfits
  · have hop : ∀ material io, op ≠ .open material io := fun material io h => hop ⟨material, io, h⟩
    exact faithful_call hC hop hproper hfits
      ((booked_of_run hC hrun).resolve_left (opened_of_proper hop hproper))

end Runs

/-! ### Two secrets -/

/-- A map without quotes in it, as JSON. -/
def printed (m : Kv String String) : Bytes :=
  Text.bytes ("\x7b" ++ ",".intercalate (m.bindings.map fun b => s!"\"{b.1}\":\"{b.2}\"") ++ "\x7d")

/-- A cipher that locks a text with its key, and a reader that knows the listed maps. -/
def lockbox (known : List (Kv String String)) : Outside where
  sha256 := fun b => ⟨(List.replicate 32 0 ++ b).drop b.length, by
    rw [List.length_drop, List.length_append, List.length_replicate, Nat.add_sub_cancel]⟩
  encrypt := fun key _ plain => some (key.1 ++ plain)
  decrypt := fun key _ c => if c.take 32 = key.1 then some (c.drop 32) else none
  readMap := fun b => match known.find? (printed · = b) with
    | some m => .ok m
    | none => .error "expected value at line 1 column 1"

theorem opens_lockbox (known : List (Kv String String)) : Opens (lockbox known) := by
  rintro ⟨key, hkey⟩ nonce plain c hc
  obtain rfl := Option.some.inj hc
  change (if (key ++ plain).take 32 = key then some ((key ++ plain).drop 32) else none) = some plain
  rw [← hkey, List.take_left, if_pos rfl, List.drop_left]

/-- What the lock does not keep back is what is behind it. -/
theorem decryptMap_lockbox {known : List (Kv String String)} {key : Key} {raw : Bytes}
    {m : Kv String String} (h : decryptMap (lockbox known) key raw = .ok m) :
    (lockbox known).readMap ((raw.drop (magic.length + nonceLen)).drop 32) = .ok m := by
  unfold decryptMap at h
  split at h
  · cases h
  split at h
  · cases h
  split at h
  · cases h
  · next plain hplain =>
    change (if _ then some _ else none) = some plain at hplain
    split at hplain
    · cases hplain
      exact h
    · cases hplain

theorem oneReading_lockbox {known : List (Kv String String)} (K : Set Key) (d : Disk) :
    OneReading (lockbox known) K d := by
  intro raw _ key _ key' _ m m' h h'
  have hsame := (decryptMap_lockbox h').symm.trans (decryptMap_lockbox h)
  exact Except.ok.inj hsame

/-- A call on which nothing fails. -/
def calm : Io := { nonce := List.replicate 12 0, nonce_length := rfl, print := printed }

def onlyA : Kv String String := (∅ : Kv String String).put "a" "1"
def onlyB : Kv String String := (∅ : Kv String String).put "b" "2"
def both : Kv String String := onlyA.put "b" "2"

def box : Outside := lockbox [onlyA, onlyB, both, ∅]

def keyOf (passphrase : String) : Key := deriveKey box (Text.bytes passphrase)

/-- The two passphrases around. -/
def keys : Set Key := {keyOf "k", keyOf "l"}

def opening (passphrase : String) : Op := .open (Text.bytes passphrase) calm

/-- A disk without a store on it. -/
def shelf (file : Option Bytes) (index : Kv String String) : Shelf := { disk := { file, index } }

/-- A call on an opened store after which JSON reads back what is printed. -/
theorem proper_box {s : Shelf} {op : Op} (hkey : op.key box ∈ keys)
    (hreads : box.readMap (op.io.print (op.run box s.disk).2.index) =
      .ok (op.run box s.disk).2.index)
    (hopened : OnOpened box s op) : Proper box keys s op :=
  ⟨hreads, hopened, hkey, oneReading_lockbox keys _, oneReading_lockbox keys _⟩

/-- Both are set and one is deleted again. -/
theorem secrets_kept_both : AllFaithful box keys ((component box).record (shelf none ∅)
    [opening "k", .set (keyOf "k") "a" "1" calm, .set (keyOf "k") "b" "2" calm,
      .delete (keyOf "k") "a" calm] []) := by
  refine secrets_kept (opens_lockbox _) (s := (component box).exec (shelf none ∅)
    [opening "k", .set (keyOf "k") "a" "1" calm, .set (keyOf "k") "b" "2" calm,
      .delete (keyOf "k") "a" calm]) (Run.exec (.start ⟨rfl, rfl, rfl⟩) ?_)
  refine ⟨⟨proper_box (.inl rfl) ?_ trivial, fun _ => rfl⟩,
    ⟨proper_box (.inl rfl) ?_ ?_, trivial⟩, ⟨proper_box (.inl rfl) ?_ ?_, trivial⟩,
    ⟨proper_box (.inl rfl) ?_ ?_, fun h => absurd rfl h⟩, trivial⟩
  all_goals decide

/-- The file of a store with one secret in it. -/
def locked (passphrase : String) (m : Kv String String) : Bytes :=
  magic ++ calm.nonce ++ ((keyOf passphrase).1 ++ printed m)

/-- A store is opened with another passphrase and on a new database. -/
def mistaken : Shelf := (component box).exec (shelf (some (locked "k" onlyA)) ∅) [opening "l"]

/-- With another passphrase and a new database the next write forgets the secret; without the
file, an old database still knows it. -/
theorem secrets_lost_or_stale :
    ¬ Faithful box keys mistaken (.set (keyOf "l") "b" "2" calm) ∧
    ¬ Faithful box keys (shelf none onlyA) (opening "k") ∧
    ¬ ∀ hist s, Run (component box) (Proper box keys) hist s → AllFaithful box keys hist := by
  have hlost : ¬ Faithful box keys mistaken (.set (keyOf "l") "b" "2" calm) := by
    intro h
    have hin : InFile box keys mistaken.disk "a" "1" :=
      ⟨locked "k" onlyA, keyOf "k", .inl rfl, onlyA, by decide, by decide, rfl⟩
    obtain ⟨value, hstill, -⟩ := h.kept "a" "1" hin List.not_mem_nil List.not_mem_nil
    have hfile : (step box mistaken (.set (keyOf "l") "b" "2" calm)).disk.file =
        some (locked "l" onlyB) := by decide
    have hraw : decryptMap box (keyOf "l") (locked "l" onlyB) = .ok onlyB := by decide
    cases (inFile_iff (oneReading_lockbox keys _) (.inr rfl) hfile hraw).1 hstill
  refine ⟨hlost, ?_, ?_⟩
  · intro h
    have hsynced := h.synced rfl "a"
    revert hsynced
    decide
  · intro hall
    have hrun : Run (component box) (Proper box keys) _ _ := Run.exec (.start ⟨rfl, rfl, rfl⟩)
      (show Legal (component box) (Proper box keys) (shelf (some (locked "k" onlyA)) ∅)
          [opening "l", .set (keyOf "l") "b" "2" calm] by
        refine ⟨proper_box (.inr rfl) ?_ trivial, proper_box (.inr rfl) ?_ ?_, trivial⟩
        all_goals decide)
    exact hlost (hall _ _ hrun _ List.mem_cons_self)

end HoneNode.Secrets
