import HoneNode.Blocks.Sealed

/-!
# Blocks.TransactionRoot — what a transaction root tells apart

A root goes with its list up to what the tree repeats: a last hash without a neighbour
stands for two of it, and a hash can stand for the two that it joins. Apart from that
a root has one list (`merkleRoot_eq_iff`), and lists of one length are told apart.
-/

namespace HoneNode.Blocks

variable (node : Node)

/-- 64 hex digits, of either case. -/
def EntryHash (h : String) : Prop := h.toList.length = 64 ∧ (hexDecode h).isSome

instance (h : String) : Decidable (EntryHash h) := inferInstanceAs (Decidable (_ ∧ _))

/-- Two hashes are hashed one behind the other, without a mark. -/
def join (left right : Hash) : Hash := node.digest (left.1 ++ right.1)

/-- The leaves of a list, where the root of no hashes is the one of a zero hash. -/
def leaves (hashes : List String) : List Hash :=
  if hashes = [] then [zeroHash] else hashes.map (leafHash node)

/-- What is hashed on the way to a root. -/
def hashed (hashes : List String) : List Bytes :=
  (Merkle.joinsOf (join node) (leaves node hashes)).map fun p => p.1.1 ++ p.2.1

/-- One tree is the upper part of the other, up to repeated last nodes. -/
def Twins (l l' : List Hash) : Prop :=
  if Nat.clog 2 l.length ≤ Nat.clog 2 l'.length then Merkle.Alike (join node) l l'
  else Merkle.Alike (join node) l' l

section Leaves

variable {node : Node} {h : String} {hashes : List String}

theorem EntryHash.decode (hhash : EntryHash h) :
    hexDecode h = some (leafHash node h).1 := by
  obtain ⟨hlen, hsome⟩ := hhash
  obtain ⟨b, hb⟩ := Option.isSome_iff_exists.1 hsome
  have hdigits := Text.length_hexPairs hb
  have hbytes : b.length = 32 := by omega
  have hsize : h.utf8ByteSize = 64 := by rw [Text.utf8ByteSize_of_hexDecode hb, hbytes]
  unfold leafHash
  rw [if_pos hsize, hb, Option.bind_some, toHash_val ⟨b, hbytes⟩]
  rfl

theorem entryHash_hexEncode (b : Hash) : EntryHash (hexEncode b.1) := by
  have hdecode := hexDecode_hexEncode b.1
  refine ⟨?_, ?_⟩
  · rw [Text.length_hexPairs hdecode, b.2]
  · rw [hdecode]
    rfl

theorem leaves_ne_nil : leaves node hashes ≠ [] := by
  unfold leaves
  split
  · exact List.cons_ne_nil _ _
  · next hne => exact fun h => hne (List.map_eq_nil_iff.1 h)

theorem root_leaves : Merkle.root (join node) (leaves node hashes) =
    some (merkleRoot node hashes) := by
  unfold leaves
  split
  · next hnil =>
    subst hnil
    unfold merkleRoot
    rw [Merkle.root_singleton, List.map_nil, Merkle.root_nil]
    rfl
  · next hne =>
    obtain ⟨r, -, hroot⟩ := Merkle.iterate_nextLevel (join node)
      (fun h => hne (List.map_eq_nil_iff.1 h) : hashes.map (leafHash node) ≠ [])
    unfold merkleRoot
    unfold join at hroot ⊢
    rw [hroot]
    rfl

/-- The leaves of entry hashes are what they say. -/
theorem map_decode (hall : ∀ h ∈ hashes, EntryHash h) :
    hashes.map hexDecode = (hashes.map (leafHash node)).map fun b => some b.1 := by
  rw [List.map_map]
  exact List.map_congr_left fun h hh => (hall h hh).decode

end Leaves

section Roots

variable {node : Node} {hashes hashes' : List String}

theorem apart_of_collisionFree (h : node.CollisionFree (hashed node hashes) (hashed node hashes')) :
    Merkle.Apart (join node) (Merkle.joinsOf (join node) (leaves node hashes))
      (Merkle.joinsOf (join node) (leaves node hashes')) := by
  intro p hp q hq heq
  have hbytes : p.1.1 ++ p.2.1 = q.1.1 ++ q.2.1 :=
    h _ (List.mem_map.2 ⟨p, hp, rfl⟩) _ (List.mem_map.2 ⟨q, hq, rfl⟩) heq
  obtain ⟨hleft, hright⟩ := List.append_inj hbytes (p.1.2.trans q.1.2.symm)
  exact Prod.ext (Subtype.ext hleft) (Subtype.ext hright)

/-- Where nothing that is hashed collides, roots agree exactly over twins, and lists of one length
with one root have the same hashes. -/
theorem merkleRoot_eq_iff (hall : ∀ h ∈ hashes, EntryHash h) (hall' : ∀ h ∈ hashes', EntryHash h)
    (hfree : node.CollisionFree (hashed node hashes) (hashed node hashes')) :
    (merkleRoot node hashes = merkleRoot node hashes' ↔
      Twins node (leaves node hashes) (leaves node hashes')) ∧
    (hashes.length = hashes'.length → merkleRoot node hashes = merkleRoot node hashes' →
      hashes.map hexDecode = hashes'.map hexDecode) := by
  have hapart := apart_of_collisionFree hfree
  have hroots : merkleRoot node hashes = merkleRoot node hashes' ↔
      Merkle.root (join node) (leaves node hashes) =
        Merkle.root (join node) (leaves node hashes') := by
    rw [root_leaves, root_leaves, Option.some_inj]
  constructor
  · rw [hroots]
    unfold Twins
    split
    · next hheight => exact Merkle.root_eq_iff leaves_ne_nil leaves_ne_nil hheight hapart
    · next hheight =>
      rw [eq_comm]
      exact Merkle.root_eq_iff leaves_ne_nil leaves_ne_nil (Nat.le_of_not_le hheight) hapart.symm
  · intro hlen hroot
    by_cases hnil : hashes = []
    · subst hnil
      rw [List.length_eq_zero_iff.1 hlen.symm]
    · have hnil' : hashes' ≠ [] := fun h => hnil (List.length_eq_zero_iff.1 (by rw [hlen, h]; rfl))
      have hleaves := Merkle.root_inj_of_length
        (by
          unfold leaves
          rw [if_neg hnil, if_neg hnil', List.length_map, List.length_map, hlen])
        hapart (hroots.1 hroot)
      unfold leaves at hleaves
      rw [if_neg hnil, if_neg hnil'] at hleaves
      rw [map_decode hall, map_decode hall', hleaves]

/-- A third hash stands for two of it. -/
theorem merkleRoot_repeated (a b c : String) :
    merkleRoot node [a, b, c] = merkleRoot node [a, b, c, c] := by
  unfold merkleRoot
  rw [List.map_cons, List.map_cons, List.map_cons, List.map_nil, List.map_cons, List.map_cons,
    List.map_cons, List.map_cons, List.map_nil, Merkle.root, Merkle.root]
  rfl

end Roots

/-! ## Two lists -/

def allBytes (b : UInt8) : Hash := ⟨List.replicate 32 b, List.length_replicate⟩

def three : List String := [1, 2, 3].map fun b => hexEncode (allBytes b).1

def four : List String := [1, 2, 3, 3].map fun b => hexEncode (allBytes b).1

theorem entryHash_three : ∀ h ∈ three, EntryHash h := by
  intro h hh
  obtain ⟨b, -, rfl⟩ := List.mem_map.1 hh
  exact entryHash_hexEncode (allBytes b)

theorem entryHash_four : ∀ h ∈ four, EntryHash h := by
  intro h hh
  obtain ⟨b, -, rfl⟩ := List.mem_map.1 hh
  exact entryHash_hexEncode (allBytes b)

theorem clog_three_four : Nat.clog 2 3 = 2 ∧ Nat.clog 2 4 = 2 := by
  constructor
  · rw [Nat.clog_of_two_le Nat.one_lt_two (by decide),
      Nat.clog_of_two_le Nat.one_lt_two (by decide), Nat.clog_one_right]
  · rw [Nat.clog_of_two_le Nat.one_lt_two (by decide),
      Nat.clog_of_two_le Nat.one_lt_two (by decide), Nat.clog_one_right]

/-- What is hashed on the way to their roots, and its digests. -/
def joinedDigests : List (Bytes × Bytes) :=
  let left := [
    248, 24, 175, 211, 122, 109, 195, 188, 146, 251, 68, 115, 16, 17, 39, 112, 6, 219, 78, 250,
    110, 144, 35, 205, 116, 104, 192, 35, 53, 210, 42, 77]
  let right := [
    106, 165, 108, 75, 205, 32, 137, 17, 121, 42, 210, 76, 118, 129, 254, 251, 147, 190, 213, 25,
    3, 175, 197, 72, 96, 201, 189, 55, 228, 30, 90, 49]
  [((allBytes 1).1 ++ (allBytes 2).1, left), ((allBytes 3).1 ++ (allBytes 3).1, right),
    (left ++ right, [
      131, 30, 24, 179, 43, 83, 146, 192, 49, 242, 76, 113, 80, 134, 130, 29, 117, 50, 252, 182,
      202, 192, 187, 129, 90, 26, 100, 121, 144, 207, 242, 97])]

def listNode : Node := { Env.bare with
  sha256 := fun b =>
    ((joinedDigests.find? (·.1 = b)).map Prod.snd).getD (List.replicate 32 0)
  length_sha256 := fun b => by
    have hlengths : ∀ d ∈ joinedDigests, d.2.length = 32 := by decide
    cases hfind : joinedDigests.find? (·.1 = b) with
    | none => rfl
    | some d => exact hlengths d (List.mem_of_find?_eq_some hfind) }

theorem collisionFree_three_four :
    listNode.CollisionFree (hashed listNode three) (hashed listNode four) := by
  have hthree : (leaves listNode three).length = 3 := rfl
  have hfour : (leaves listNode four).length = 4 := rfl
  unfold hashed Merkle.joinsOf Node.CollisionFree
  rw [hthree, hfour, clog_three_four.1, clog_three_four.2]
  decide +kernel

/-- Three hashes, and the last of them twice. -/
theorem merkleRoot_eq_iff_three :
    merkleRoot listNode three = merkleRoot listNode four ↔
      Twins listNode (leaves listNode three) (leaves listNode four) :=
  (merkleRoot_eq_iff entryHash_three entryHash_four collisionFree_three_four).1

/-- With any digest at all they have one root, and nothing has to collide for it. -/
theorem three_and_four_share_a_root :
    (∀ node : Node, ¬ ∀ hashes hashes', (∀ h ∈ hashes, EntryHash h) → (∀ h ∈ hashes', EntryHash h) →
      merkleRoot node hashes = merkleRoot node hashes' → hashes = hashes') ∧
    ¬ ∀ hashes hashes', (∀ h ∈ hashes, EntryHash h) → (∀ h ∈ hashes', EntryHash h) →
      listNode.CollisionFree (hashed listNode hashes) (hashed listNode hashes') →
      merkleRoot listNode hashes = merkleRoot listNode hashes' → hashes = hashes' := by
  have hne : three ≠ four := fun h => absurd (congrArg List.length h) (by decide)
  constructor
  · intro node h
    exact hne (h three four entryHash_three entryHash_four (merkleRoot_repeated _ _ _))
  · intro h
    exact hne (h three four entryHash_three entryHash_four collisionFree_three_four
      (merkleRoot_repeated _ _ _))

end HoneNode.Blocks
