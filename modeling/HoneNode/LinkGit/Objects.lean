import HoneNode.Env
import HoneNode.Lib.Decimal

/-!
# LinkGit.Objects — git objects and where they are stored

An object is a type and its bytes, and goes by the SHA-1 of both. The store keeps the
type in front of the bytes, under the id of the repository and that name.
-/

namespace HoneNode.LinkGit

/-! ## Types and names -/

def objCommit : UInt8 := 1
def objTree : UInt8 := 2
def objBlob : UInt8 := 3
def objTag : UInt8 := 4
def objOfsDelta : UInt8 := 6
def objRefDelta : UInt8 := 7

/-- `flate2` and `sha1`, and whether the build has overflow checks. `inflate` returns what it
has read and how many bytes that took. -/
structure GitLibs where
  deflate : Bytes → Bytes
  inflate : Bytes → Except String (Bytes × ℕ)
  sha1 : Bytes → Bytes
  checks : Bool

def typeStr (objType : UInt8) : String :=
  if objType = objCommit then "commit"
  else if objType = objTree then "tree"
  else if objType = objBlob then "blob"
  else if objType = objTag then "tag"
  else "blob"

/-- The bytes that name an object. -/
def hashed (objType : UInt8) (data : Bytes) : Bytes :=
  Text.bytes s!"{typeStr objType} {data.length}\x00" ++ data

def objectSha1 (lib : GitLibs) (objType : UInt8) (data : Bytes) : String :=
  hexEncode (lib.sha1 (hashed objType data))

/-- Commits, trees, blobs and tags; the other types of a pack are deltas or reserved. -/
def IsObjType (objType : UInt8) : Prop := 1 ≤ objType ∧ objType ≤ 4

instance (objType : UInt8) : Decidable (IsObjType objType) := inferInstanceAs (Decidable (_ ∧ _))

section Names

variable {t t' : UInt8} {d d' : Bytes}

theorem IsObjType.cases (h : IsObjType t) : t = 1 ∨ t = 2 ∨ t = 3 ∨ t = 4 := by
  have hall : ∀ n : Fin 256, IsObjType (UInt8.ofNat n) →
      UInt8.ofNat n = 1 ∨ UInt8.ofNat n = 2 ∨ UInt8.ofNat n = 3 ∨ UInt8.ofNat n = 4 := by
    decide +kernel
  have ht := hall ⟨t.toNat, t.toNat_lt⟩
  rw [UInt8.ofNat_toNat] at ht
  exact ht h

theorem hashed_eq (t : UInt8) (d : Bytes) :
    hashed t d = Text.bytes (typeStr t ++ " ") ++ (Text.bytes (toString d.length) ++ 0 :: d) := by
  have htext : s!"{typeStr t} {d.length}\x00" =
      typeStr t ++ " " ++ (toString d.length ++ "\x00") := by
    simp only [String.append_assoc]
    rfl
  have hnul : Text.bytes "\x00" = [0] := by decide
  rw [hashed, htext, Text.bytes_append, Text.bytes_append (toString _), hnul]
  simp only [List.append_assoc, List.cons_append, List.nil_append]

theorem two_le_length_typeStr (h : IsObjType t) :
    2 ≤ (Text.bytes (typeStr t ++ " ")).length := by
  rcases h.cases with rfl | rfl | rfl | rfl <;> decide

/-- The words for the types are told apart by their first two letters. -/
theorem typeStr_inj (ht : IsObjType t) (ht' : IsObjType t') {x x' : Bytes}
    (h : Text.bytes (typeStr t ++ " ") ++ x = Text.bytes (typeStr t' ++ " ") ++ x') : t = t' := by
  have hfirst := congrArg (List.take 2) h
  rw [List.take_append_of_le_length (two_le_length_typeStr ht),
    List.take_append_of_le_length (two_le_length_typeStr ht')] at hfirst
  rcases ht.cases with rfl | rfl | rfl | rfl <;> rcases ht'.cases with rfl | rfl | rfl | rfl <;>
    first
    | rfl
    | exact absurd hfirst (by decide)

/-- Type and bytes can be told from what is hashed. -/
theorem hashed_inj (ht : IsObjType t) (ht' : IsObjType t') (h : hashed t d = hashed t' d') :
    t = t' ∧ d = d' := by
  rw [hashed_eq, hashed_eq] at h
  obtain rfl := typeStr_inj ht ht' h
  refine ⟨rfl, ?_⟩
  rcases Text.append_sep_first (Text.notMem_bytes_toString _) (List.append_cancel_left h) with
    ⟨-, hd⟩ | ⟨z, hz, -⟩
  · exact hd
  · have hmem : (0 : UInt8) ∈ Text.bytes (toString d'.length) :=
      hz ▸ List.mem_append_right _ List.mem_cons_self
    exact absurd hmem (Text.notMem_bytes_toString _)

end Names

/-! ## The object store -/

/-- `CF_GIT_OBJECTS`. -/
abbrev GitObjects := Kv String Bytes

def objectKey (repoId sha : String) : String := s!"{repoId}\x00{sha}"

namespace GitObjects

def gitObjectPut (objects : GitObjects) (repoId sha : String) (objType : UInt8) (data : Bytes) :
    GitObjects := objects.put (objectKey repoId sha) (objType :: data)

def gitObjectGet (objects : GitObjects) (repoId sha : String) : Option Bytes :=
  objects.get (objectKey repoId sha)

end GitObjects

/-- Each object of the repository is stored under its name. -/
def Addressed (lib : GitLibs) (objects : GitObjects) (repoId : String) : Prop :=
  ∀ sha raw, objects.gitObjectGet repoId sha = some raw →
    ∃ t d, raw = t :: d ∧ IsObjType t ∧ objectSha1 lib t d = sha

/-- No two of the objects have one SHA-1. -/
def NoCollision (lib : GitLibs) (known : UInt8 × Bytes → Prop) : Prop :=
  ∀ o o', known o → known o' → lib.sha1 (hashed o.1 o.2) = lib.sha1 (hashed o'.1 o'.2) →
    hashed o.1 o.2 = hashed o'.1 o'.2

section Store

variable {lib : GitLibs} {objects : GitObjects} {repoId sha sha' : String} {t : UInt8} {d : Bytes}

theorem objectKey_eq (repoId sha : String) : objectKey repoId sha = repoId ++ "\x00" ++ sha := rfl

theorem objectKey_inj : objectKey repoId sha = objectKey repoId sha' ↔ sha = sha' := by
  rw [objectKey_eq, objectKey_eq, ← String.toList_inj, String.toList_append,
    String.toList_append (s := repoId ++ "\x00"), List.append_cancel_left_eq, String.toList_inj]

theorem gitObjectGet_put : (objects.gitObjectPut repoId sha t d).gitObjectGet repoId sha' =
    if sha = sha' then some (t :: d) else objects.gitObjectGet repoId sha' := by
  unfold GitObjects.gitObjectGet GitObjects.gitObjectPut
  rw [Kv.get_put]
  simp only [objectKey_inj]

theorem Addressed.put (h : Addressed lib objects repoId) (ht : IsObjType t) :
    Addressed lib (objects.gitObjectPut repoId (objectSha1 lib t d) t d) repoId := by
  intro sha raw hget
  rw [gitObjectGet_put] at hget
  split at hget
  · next hsha =>
    cases hget
    exact ⟨t, d, rfl, ht, hsha⟩
  · exact h sha raw hget

/-- Where hashes do not collide, the name says which object it is. -/
theorem NoCollision.eq {known : UInt8 × Bytes → Prop} (h : NoCollision lib known)
    {o o' : UInt8 × Bytes} (ho : known o) (ho' : known o') (ht : IsObjType o.1)
    (ht' : IsObjType o'.1) (hsha : objectSha1 lib o.1 o.2 = objectSha1 lib o'.1 o'.2) : o = o' := by
  obtain ⟨htype, hdata⟩ := hashed_inj ht ht' (h o o' ho ho' (Text.hexEncode_inj.1 hsha))
  exact Prod.ext htype hdata

end Store

end HoneNode.LinkGit
