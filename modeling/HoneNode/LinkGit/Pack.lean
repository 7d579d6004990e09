import HoneNode.Lib.Saturate
import HoneNode.LinkGit.Delta

/-!
# LinkGit.Pack — packs, as they are written and read

A pack is a header with the number of its entries, the entries, and twenty bytes of
checksum. An entry has its type and size, the base if it is a delta, and a zlib stream; the
next one begins where the stream has ended. Entries are read first and deltas applied
afterwards, pass after pass; an entry that is never resolved is left out of the result.
-/

namespace HoneNode.LinkGit

structure PackObject where
  objType : UInt8
  data : Bytes
  sha : String
deriving DecidableEq

/-! ## Writing -/

/-- Seven bits a byte, lowest first. -/
def sizeTail (sizeRem : ℕ) : Bytes :=
  let byte := UInt8.ofNat (sizeRem &&& 0x7f)
  if 0 < sizeRem >>> 7 then (byte ||| 0x80) :: sizeTail (sizeRem >>> 7) else [byte]
termination_by sizeRem
decreasing_by
  rw [Nat.shiftRight_eq_div_pow] at *
  omega

/-- The type, and the size from its lowest four bits on. -/
def entryHeader (objType : UInt8) (size : ℕ) : Bytes :=
  let first := ((objType &&& 0x07) <<< 4) ||| UInt8.ofNat (size &&& 0x0f)
  if 0 < size >>> 4 then (first ||| 0x80) :: sizeTail (size >>> 4) else [first]

def packEntry (lib : GitLibs) (object : UInt8 × Bytes) : Bytes :=
  entryHeader object.1 object.2.length ++ lib.deflate object.2

def packMagic : Bytes := [80, 65, 67, 75]

def packBody (lib : GitLibs) (objects : List (UInt8 × Bytes)) : Bytes :=
  packMagic ++ beBytes 4 2 ++ beBytes 4 (objects.length % 2 ^ 32) ++
    objects.flatMap (packEntry lib)

def buildPack (lib : GitLibs) (objects : List (UInt8 × Bytes)) : Bytes :=
  packBody lib objects ++ lib.sha1 (packBody lib objects)

/-! ## Reading entries

The readers of a header take the bytes from their position on and return what is behind. -/

def panics {α : Type} (x : Except String α) : Except Fault α := x.mapError .panic

/-- The size goes on while the top bit of `cur` is set. -/
def readSize (checks : Bool) (cur : UInt8) (shift size : ℕ) : Bytes → Except Fault (ℕ × Bytes)
  | [] =>
    if cur &&& 0x80 = 0 then .ok (size, [])
    else .error (.err "pack truncated in size varint")
  | b :: rest =>
    if cur &&& 0x80 = 0 then .ok (size, b :: rest)
    else do
      let part ← panics (usizeShl checks (b &&& 0x7f).toNat shift)
      readSize checks b (shift + 7) (size ||| part) rest

/-- `ofs + 1`. -/
def usizeSucc (checks : Bool) (ofs : ℕ) : Except String ℕ :=
  if checks = true ∧ ofs + 1 = 2 ^ 64 then .error "attempt to add with overflow"
  else .ok ((ofs + 1) % 2 ^ 64)

/-- `((ofs + 1) << 7) | (b & 0x7f)`, behind the sum. -/
def ofsAppend (succ : ℕ) (b : UInt8) : ℕ := succ * 2 ^ 7 % 2 ^ 64 ||| (b &&& 0x7f).toNat

def readOfs (checks : Bool) (b : UInt8) (ofs : ℕ) : Bytes → Except Fault (ℕ × Bytes)
  | [] =>
    if b &&& 0x80 = 0 then .ok (ofs, [])
    else .error (.err "pack truncated in ofs")
  | c :: rest =>
    if b &&& 0x80 = 0 then .ok (ofs, c :: rest)
    else do
      let succ ← panics (usizeSucc checks ofs)
      readOfs checks c (ofsAppend succ c) rest

/-- What stands in front of the stream of an entry. -/
structure Header where
  objType : UInt8
  /-- The name of the base. -/
  baseSha : Option String
  /-- The offset of the base in the pack. -/
  baseOfs : Option ℕ

def readBase (checks : Bool) (packOffset : ℕ) (objType : UInt8) (rest : Bytes) :
    Except Fault (Header × Bytes) :=
  if objType = objOfsDelta then
    match rest with
    | [] => .error (.err "pack truncated in ofs header")
    | b :: rest => do
      let (ofs, rest) ← readOfs checks b (b &&& 0x7f).toNat rest
      if packOffset < ofs then .error (.err "ofs_delta underflow")
      else return (⟨objType, none, some (packOffset - ofs)⟩, rest)
  else if objType = objRefDelta then
    if rest.length < 20 then .error (.err "pack truncated in ref_delta sha")
    else return (⟨objType, some (hexEncode (rest.take 20)), none⟩, rest.drop 20)
  else return (⟨objType, none, none⟩, rest)

def readHeader (checks : Bool) (packOffset : ℕ) : Bytes → Except Fault (Header × Bytes)
  | [] => .error (.err "pack truncated at object header")
  | b0 :: rest => do
    let (_size, rest) ← readSize checks b0 4 (b0 &&& 0x0f).toNat rest
    readBase checks packOffset ((b0 >>> 4) &&& 0x07) rest

structure RawEntry where
  header : Header
  data : Bytes
  packOffset : ℕ

/-- The stream has to begin in front of the checksum. -/
def readEntry (lib : GitLibs) (pack : Bytes) (pos : ℕ) : Except Fault (RawEntry × ℕ) := do
  let (header, rest) ← readHeader lib.checks pos (pack.drop pos)
  let start := pack.length - rest.length
  let input ← panics (cutBytes start (pack.length - 20) pack)
  let (data, totalIn) ← (lib.inflate input).mapError .err
  return (⟨header, data, pos⟩, start + totalIn)

def readEntries (lib : GitLibs) (pack : Bytes) : ℕ → ℕ → Except Fault (List RawEntry)
  | 0, _ => return []
  | n + 1, pos => do
    let (entry, next) ← readEntry lib pack pos
    let rest ← readEntries lib pack n next
    return entry :: rest

/-! ## Resolving deltas -/

def offsetToIdx (entries : List RawEntry) : Kv ℕ ℕ :=
  entries.zipIdx.foldl (fun m entry => m.put entry.1.packOffset entry.2) ∅

def packObject (lib : GitLibs) (objType : UInt8) (data : Bytes) : PackObject :=
  ⟨objType, data, objectSha1 lib objType data⟩

/-- Entries that are no deltas stand for themselves. -/
def plainObject (lib : GitLibs) (e : RawEntry) : Option PackObject :=
  if IsObjType e.header.objType then some (packObject lib e.header.objType e.data) else none

/-- The base of a delta, if it is there: an object of the pack by its name, else one of the
store; or the entry at an offset. -/
def baseOf (objects : GitObjects) (repoId : String) (entries : List RawEntry)
    (resolved : List (Option PackObject)) (e : RawEntry) :
    Except Fault (Option (UInt8 × Bytes)) :=
  match e.header.baseSha with
  | some sha =>
    match resolved.findSome? fun r => r.filter (·.sha = sha) with
    | some o => .ok (some (o.objType, o.data))
    | none => match objects.gitObjectGet repoId sha with
      | none => .ok none
      | some [] => .error (.panic "index out of bounds")
      | some (t :: d) => .ok (some (t, d))
  | none => match e.header.baseOfs with
    | none => .ok none
    | some ofs => .ok (((offsetToIdx entries).get ofs).bind fun i =>
        resolved[i]?.join.map fun o => (o.objType, o.data))

def resolveAt (lib : GitLibs) (objects : GitObjects) (repoId : String) (entries : List RawEntry)
    (resolved : List (Option PackObject)) (i : ℕ) : Except Fault (Option PackObject) :=
  match entries[i]? with
  | none => .ok none
  | some e => do
    match ← baseOf objects repoId entries resolved e with
    | none => return none
    | some (t, base) => do
      let out ← panics (applyDelta lib.checks base e.data)
      return some (packObject lib t out)

/-- The number of entries that the header names. -/
def packCount (pack : Bytes) : ℕ := Text.beNat (Text.slice 8 12 pack)

/-- `Vec::with_capacity(count)` has room for every `u32`. -/
def parsePack (lib : GitLibs) (pack : Bytes) (objects : GitObjects) (repoId : String) :
    Except Fault (List PackObject) :=
  if pack.length < 12 then .error (.err "pack file too short")
  else if pack.take 4 ≠ packMagic then .error (.err "missing PACK magic")
  else do
    let entries ← readEntries lib pack (packCount pack) 12
    let resolved ← Saturate.fill (resolveAt lib objects repoId entries)
      (entries.map (plainObject lib))
    return resolved.filterMap id

def storePack (lib : GitLibs) (objects : GitObjects) (repoId : String) (pack : Bytes) :
    Except Fault (List PackObject × GitObjects) :=
  if pack = [] then .ok ([], objects)
  else do
    let parsed ← parsePack lib pack objects repoId
    return (parsed, parsed.foldl (fun objects o =>
      objects.gitObjectPut repoId o.sha o.objType o.data) objects)

/-! ## Reading what was written -/

/-- What can be packed: an object of one of the four types, as long as a `Vec` can be. -/
structure GitObject where
  objType : UInt8
  data : Bytes
  isObjType : IsObjType objType
  length_lt : data.length < 2 ^ 64

def GitObject.raw (o : GitObject) : UInt8 × Bytes := (o.objType, o.data)

def GitObject.packObject (lib : GitLibs) (o : GitObject) : PackObject :=
  LinkGit.packObject lib o.objType o.data

theorem panics_eq_ok_iff {α : Type} {y : Except String α} {a : α} :
    panics y = .ok a ↔ y = .ok a := by
  cases y with
  | error msg => exact iff_of_false nofun nofun
  | ok b => exact ⟨fun h => congrArg _ (Except.ok.inj h), fun h => congrArg _ (Except.ok.inj h)⟩

section Sizes

variable {checks : Bool} {cur t : UInt8} {shift size n pos : ℕ} {x : Bytes}

theorem readSize_done (h : cur &&& 0x80 = 0) :
    readSize checks cur shift size x = .ok (size, x) := by
  cases x with
  | nil => exact if_pos h
  | cons b rest => exact if_pos h

theorem readSize_cons (checks : Bool) (size : ℕ) (b : UInt8) (x : Bytes) (h : cur &&& 0x80 ≠ 0)
    (hshift : shift < 64) :
    ∃ size', readSize checks cur shift size (b :: x) = readSize checks b (shift + 7) size' x := by
  obtain ⟨part, hpart⟩ : ∃ part, usizeShl checks (b &&& 0x7f).toNat shift = .ok part :=
    usizeShl_ok_iff.2 fun _ => hshift
  refine ⟨size ||| part, ?_⟩
  rw [readSize, if_neg h, hpart]
  rfl

theorem tail_byte (n : ℕ) : UInt8.ofNat (n &&& 0x7f) &&& 0x80 = 0 ∧
    (UInt8.ofNat (n &&& 0x7f) ||| 0x80) &&& 0x80 ≠ 0 := by
  have hall : ∀ i : Fin 128, UInt8.ofNat i &&& 0x80 = 0 ∧
      (UInt8.ofNat i ||| 0x80) &&& 0x80 ≠ 0 := by decide
  have hmod : n &&& 0x7f = n % 128 := Nat.and_two_pow_sub_one_eq_mod n 7
  rw [hmod]
  exact hall ⟨n % 128, Nat.mod_lt n (by decide)⟩

/-- The size bytes of a word are read with shifts in range. -/
theorem readSize_sizeTail (checks : Bool) (size : ℕ) (x : Bytes) (h : cur &&& 0x80 ≠ 0)
    (hshift : shift < 64) (hn : n < 2 ^ (64 - shift)) :
    ∃ size', readSize checks cur shift size (sizeTail n ++ x) = .ok (size', x) := by
  induction n using Nat.strong_induction_on generalizing cur shift size with
  | _ n ih =>
    obtain ⟨hclear, hset⟩ := tail_byte n
    have hdiv : n >>> 7 = n / 128 := Nat.shiftRight_eq_div_pow n 7
    rw [sizeTail]
    split
    · next hmore =>
      rw [hdiv] at hmore
      -- seven bits are off, and there are some left
      have hbig : 128 ≤ n := by omega
      have hroom : 7 < 64 - shift := by
        by_contra hsmall
        have hle : 2 ^ (64 - shift) ≤ 2 ^ 7 :=
          Nat.pow_le_pow_right (by decide) (Nat.le_of_not_lt hsmall)
        omega
      have hrest : n / 128 < 2 ^ (64 - (shift + 7)) := by
        refine Nat.div_lt_of_lt_mul (hn.trans_le ?_)
        rw [show 128 = 2 ^ 7 from rfl, ← Nat.pow_add]
        exact Nat.pow_le_pow_right (by decide) (by omega)
      obtain ⟨size', hfirst⟩ := readSize_cons checks size
        (UInt8.ofNat (n &&& 0x7f) ||| 0x80) (sizeTail (n >>> 7) ++ x) h hshift
      rw [List.cons_append, hfirst, hdiv]
      exact ih (n / 128) (by omega) size' hset (by omega) hrest
    · obtain ⟨size', hfirst⟩ := readSize_cons checks size (UInt8.ofNat (n &&& 0x7f)) x h hshift
      rw [List.singleton_append, hfirst]
      exact ⟨size', readSize_done hclear⟩

theorem first_byte (ht : IsObjType t) (size : ℕ) :
    let first := ((t &&& 0x07) <<< 4) ||| UInt8.ofNat (size &&& 0x0f)
    (first &&& 0x80 = 0 ∧ (first >>> 4) &&& 0x07 = t) ∧
      (first ||| 0x80) &&& 0x80 ≠ 0 ∧ ((first ||| 0x80) >>> 4) &&& 0x07 = t := by
  have hmod : size &&& 0x0f = size % 16 := Nat.and_two_pow_sub_one_eq_mod size 4
  have hlt : size % 16 < 16 := Nat.mod_lt size (by decide)
  rw [hmod]
  generalize size % 16 = low at hlt
  have hall : ∀ i : Fin 16, ∀ t ∈ [(1 : UInt8), 2, 3, 4],
      let first := ((t &&& 0x07) <<< 4) ||| UInt8.ofNat i
      (first &&& 0x80 = 0 ∧ (first >>> 4) &&& 0x07 = t) ∧
        (first ||| 0x80) &&& 0x80 ≠ 0 ∧ ((first ||| 0x80) >>> 4) &&& 0x07 = t := by
    decide +kernel
  refine hall ⟨low, hlt⟩ t ?_
  rcases ht.cases with rfl | rfl | rfl | rfl <;> decide

theorem readBase_plain (ht : IsObjType t) :
    readBase checks pos t x = .ok (⟨t, none, none⟩, x) := by
  rcases ht.cases with rfl | rfl | rfl | rfl <;> rfl

theorem readHeader_entryHeader (checks : Bool) (pos : ℕ) (x : Bytes) (ht : IsObjType t)
    (hsize : size < 2 ^ 64) :
    readHeader checks pos (entryHeader t size ++ x) = .ok (⟨t, none, none⟩, x) := by
  obtain ⟨⟨hclear, htype⟩, hset, htype'⟩ := first_byte ht size
  have hdiv : size >>> 4 = size / 16 := Nat.shiftRight_eq_div_pow size 4
  rw [entryHeader]
  split
  · have hroom : size >>> 4 < 2 ^ (64 - 4) := by omega
    obtain ⟨size', hread⟩ := readSize_sizeTail checks
      ((((t &&& 0x07) <<< 4 ||| UInt8.ofNat (size &&& 0x0f)) ||| 0x80) &&& 0x0f).toNat x hset
      (by decide) hroom
    rw [List.cons_append, readHeader, hread]
    simp only [bind, Except.bind, htype']
    exact readBase_plain ht
  · rw [List.singleton_append, readHeader, readSize_done hclear]
    simp only [bind, Except.bind, htype]
    exact readBase_plain ht

end Sizes

section Entries

variable {lib : GitLibs} {pack tail : Bytes} {pos : ℕ}

/-- What one entry was written as reads as that entry. -/
theorem readEntry_packEntry
    (hzlib : ∀ d rest, lib.inflate (lib.deflate d ++ rest) = .ok (d, (lib.deflate d).length))
    (o : GitObject) (hpos : pack.drop pos = packEntry lib o.raw ++ tail)
    (htail : 20 ≤ tail.length) :
    readEntry lib pack pos =
      .ok (⟨⟨o.objType, none, none⟩, o.data, pos⟩, pos + (packEntry lib o.raw).length) := by
  have hentry : packEntry lib o.raw = entryHeader o.objType o.data.length ++
      lib.deflate o.data := rfl
  have hlen := congrArg List.length hpos
  rw [hentry, List.length_drop] at hlen
  simp only [List.length_append] at hlen
  have hstream : pack.drop (pos + (entryHeader o.objType o.data.length).length) =
      lib.deflate o.data ++ tail := by
    rw [← List.drop_drop, hpos, hentry, List.append_assoc, List.drop_left]
  have hstart : pack.length - (lib.deflate o.data ++ tail).length =
      pos + (entryHeader o.objType o.data.length).length := by
    rw [List.length_append]
    omega
  have hcut : cutBytes (pos + (entryHeader o.objType o.data.length).length)
      (pack.length - 20) pack = .ok (lib.deflate o.data ++ tail.take (tail.length - 20)) := by
    have hroom : pack.length - 20 - (pos + (entryHeader o.objType o.data.length).length) =
        (lib.deflate o.data).length + (tail.length - 20) := by omega
    refine cutBytes_ok_iff.2 ⟨by omega, Nat.sub_le _ _, ?_⟩
    rw [Text.slice, hstream, hroom, List.take_length_add_append]
  have hheader := readHeader_entryHeader lib.checks pos (lib.deflate o.data ++ tail) o.isObjType
    o.length_lt
  rw [readEntry, hpos, hentry, List.append_assoc, hheader]
  simp only [bind, Except.bind, hstart, hcut, panics, Except.mapError, hzlib, pure, Except.pure]
  rw [@List.length_append _ (entryHeader _ _), Nat.add_assoc]

theorem length_readEntries {n : ℕ} {entries : List RawEntry}
    (h : readEntries lib pack n pos = .ok entries) : entries.length = n := by
  induction n generalizing pos entries with
  | zero =>
    cases h
    rfl
  | succ n ih =>
    rw [readEntries] at h
    obtain ⟨entry, -, h⟩ := Except.bind_eq_ok.1 h
    obtain ⟨rest, hrest, h⟩ := Except.bind_eq_ok.1 h
    cases h
    rw [List.length_cons, ih hrest]

theorem readEntries_packed
    (hzlib : ∀ d rest, lib.inflate (lib.deflate d ++ rest) = .ok (d, (lib.deflate d).length))
    (os : List GitObject)
    (hpos : pack.drop pos = (os.map GitObject.raw).flatMap (packEntry lib) ++ tail)
    (htail : 20 ≤ tail.length) :
    ∃ entries, readEntries lib pack os.length pos = .ok entries ∧
      entries.map (plainObject lib) = os.map fun o => some (o.packObject lib) := by
  induction os generalizing pos with
  | nil => exact ⟨[], rfl, rfl⟩
  | cons o os ih =>
    rw [List.map_cons, List.flatMap_cons, List.append_assoc] at hpos
    have hnext : pack.drop (pos + (packEntry lib o.raw).length) =
        (os.map GitObject.raw).flatMap (packEntry lib) ++ tail := by
      rw [← List.drop_drop, hpos, List.drop_left]
    obtain ⟨entries, hread, hplain⟩ := ih hnext
    have hfirst := readEntry_packEntry hzlib o hpos (by rw [List.length_append]; omega)
    refine ⟨⟨⟨o.objType, none, none⟩, o.data, pos⟩ :: entries, ?_, ?_⟩
    · rw [List.length_cons, readEntries, hfirst]
      exact Except.bind_eq_ok.2 ⟨_, rfl, Except.bind_eq_ok.2 ⟨entries, hread, rfl⟩⟩
    · rw [List.map_cons, List.map_cons, hplain, plainObject, if_pos o.isObjType]
      rfl

end Entries

section Packs

variable {lib : GitLibs} {objects : GitObjects} {repoId : String} {pack : Bytes}
  {os : List GitObject} {parsed : List PackObject}

theorem parsePack_ok_iff : parsePack lib pack objects repoId = .ok parsed ↔
    12 ≤ pack.length ∧ pack.take 4 = packMagic ∧ ∃ entries resolved,
      readEntries lib pack (packCount pack) 12 = .ok entries ∧
      Saturate.fill (resolveAt lib objects repoId entries) (entries.map (plainObject lib)) =
        .ok resolved ∧ parsed = resolved.filterMap id := by
  unfold parsePack
  by_cases hshort : pack.length < 12
  · rw [if_pos hshort]
    exact iff_of_false nofun fun h => absurd h.1 (Nat.not_le.2 hshort)
  · rw [if_neg hshort]
    by_cases hmagic : pack.take 4 = packMagic
    · rw [if_neg (not_not.2 hmagic)]
      constructor
      · intro h
        obtain ⟨entries, hread, h⟩ := Except.bind_eq_ok.1 h
        obtain ⟨resolved, hfill, h⟩ := Except.bind_eq_ok.1 h
        cases h
        exact ⟨Nat.le_of_not_lt hshort, hmagic, entries, resolved, hread, hfill, rfl⟩
      · rintro ⟨-, -, entries, resolved, hread, hfill, rfl⟩
        exact Except.bind_eq_ok.2 ⟨entries, hread, Except.bind_eq_ok.2 ⟨resolved, hfill, rfl⟩⟩
    · rw [if_pos hmagic]
      exact iff_of_false nofun fun h => hmagic h.2.1

/-- The parts of a pack: magic, version, count, entries and checksum. -/
theorem buildPack_eq (lib : GitLibs) (os : List GitObject) :
    ∃ checksum, buildPack lib (os.map GitObject.raw) =
      packMagic ++ (beBytes 4 2 ++ (beBytes 4 (os.length % 2 ^ 32) ++
        ((os.map GitObject.raw).flatMap (packEntry lib) ++ lib.sha1 checksum))) := by
  refine ⟨packBody lib (os.map GitObject.raw), ?_⟩
  rw [buildPack]
  nth_rewrite 1 [packBody]
  rw [List.length_map]
  simp only [List.append_assoc]

/-- A pack is read back, as many entries as its count says. -/
theorem parsePack_buildPack
    (hzlib : ∀ d rest, lib.inflate (lib.deflate d ++ rest) = .ok (d, (lib.deflate d).length))
    (hsha : ∀ bs, (lib.sha1 bs).length = 20) :
    parsePack lib (buildPack lib (os.map GitObject.raw)) objects repoId =
      .ok ((os.take (os.length % 2 ^ 32)).map (GitObject.packObject lib)) := by
  obtain ⟨checksum, hpack⟩ := buildPack_eq lib os
  have hcount : packCount (buildPack lib (os.map GitObject.raw)) = os.length % 2 ^ 32 := by
    rw [hpack, packCount, Text.slice, ← List.append_assoc, List.drop_left' (by rfl),
      List.take_left' (Text.length_beBytes 4 _), Text.beNat_beBytes]
    exact Nat.mod_mod _ _
  -- only the entries that the count leaves in are read
  have hsplit : os.take (os.length % 2 ^ 32) ++ os.drop (os.length % 2 ^ 32) = os :=
    List.take_append_drop _ _
  have hlength : (os.take (os.length % 2 ^ 32)).length = os.length % 2 ^ 32 :=
    List.length_take_of_le (Nat.mod_le _ _)
  have hdrop : (buildPack lib (os.map GitObject.raw)).drop 12 =
      ((os.take (os.length % 2 ^ 32)).map GitObject.raw).flatMap (packEntry lib) ++
        (((os.drop (os.length % 2 ^ 32)).map GitObject.raw).flatMap (packEntry lib) ++
          lib.sha1 checksum) := by
    rw [hpack, ← List.append_assoc, ← List.append_assoc, List.drop_left' (by
      rw [List.length_append, Text.length_beBytes]
      rfl), ← List.append_assoc, ← List.flatMap_append, ← List.map_append, hsplit]
  obtain ⟨entries, hread, hplain⟩ := readEntries_packed hzlib _ hdrop
    (by rw [List.length_append, hsha]; exact Nat.le_add_left _ _)
  rw [hlength] at hread
  have hstuck : Saturate.Stuck (resolveAt lib objects repoId entries)
      (entries.map (plainObject lib)) := by
    intro i hempty
    rw [hplain] at hempty
    obtain ⟨o, -, ho⟩ := List.mem_map.1 (List.mem_of_getElem? hempty)
    cases ho
  refine parsePack_ok_iff.2 ⟨?_, ?_, entries, _, hcount ▸ hread, Saturate.fill_of_stuck hstuck, ?_⟩
  · rw [hpack]
    have hmagic : packMagic.length = 4 := rfl
    simp only [List.length_append, Text.length_beBytes]
    omega
  · rw [hpack]
    exact List.take_left' rfl
  · rw [hplain, List.filterMap_map]
    exact (congrFun List.filterMap_eq_map _).symm

end Packs

end HoneNode.LinkGit
