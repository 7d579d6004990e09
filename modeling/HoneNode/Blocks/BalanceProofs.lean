import HoneNode.Blocks.Header
import HoneNode.Lib.Merkle
import HoneNode.Supply

/-!
# Blocks.BalanceProofs — what a balance proof shows

The balances form a tree in which leaves and joined nodes are marked apart, and a
proof is the path from a leaf to the root.

1. **The tree** over the balances, and proofs.
2. **Stored balances** have a proof (`verify_balanceMerkleProof`).
3. **Accepted proofs** state stored balances, whatever their path, where nothing
   that is hashed collides (`stored_of_verify`).
-/

namespace HoneNode.Blocks

open Supply

/-! ## The tree -/

def balanceKeyBytes (account token : String) : Bytes := Text.bytes account ++ 0 :: Text.bytes token

def leafInput (key val : Bytes) : Bytes :=
  Text.bytes "leaf:" ++ (key ++ (Text.bytes "=" ++ val))

def nodeInput (left right : Hash) : Bytes := Text.bytes "node:" ++ (left.1 ++ right.1)

/-- Of a panicking index. -/
def indexed {α : Type} : Option α → Except Fault α
  | some a => .ok a
  | none => .error (.panic "index out of bounds")

section Tree

variable (node : Node)

def merkleLeaf (key val : Bytes) : Hash := node.digest (leafInput key val)

def merkleNode (left right : Hash) : Hash := node.digest (nodeInput left right)

def buildMerkleTree (leaves : List Hash) : List (List Hash) :=
  Merkle.levels (merkleNode node) leaves

def merkleProofPath (levels : List (List Hash)) (idx : ℕ) : Except Fault (List (Hash × Bool)) :=
  indexed (Merkle.proofPath levels idx)

/-- `levels.last().unwrap()[0]`. -/
def rootOf (levels : List (List Hash)) : Except Fault Hash :=
  indexed (levels.getLast?.bind List.head?)

/-! ## Proofs -/

structure BalanceMerkleProof where
  (account token : String)
  balance : UInt64
  leafHash : String
  path : List (String × Bool)
  root : String

/-- `hex::decode` into 32 bytes. -/
def decodeHash (text : String) : Option Hash := (hexDecode text).bind toHash

/-- The loop of `verify`, which stops at a text that is no hash. -/
def walk : Hash → List (String × Bool) → Option Hash
  | current, [] => some current
  | current, (sibHex, isLeft) :: rest =>
    match decodeHash sibHex with
    | none => none
    | some sib =>
      walk (if isLeft then merkleNode node current sib else merkleNode node sib current) rest

namespace BalanceMerkleProof

variable (p : BalanceMerkleProof)

def key : Bytes := balanceKeyBytes p.account p.token

def val : Bytes := leBytes 8 p.balance.toNat

def verify : Bool :=
  let expectedLeaf := merkleLeaf node p.key p.val
  if hexEncode expectedLeaf.1 ≠ p.leafHash then false
  else match walk node expectedLeaf p.path with
    | some current => hexEncode current.1 = p.root
    | none => false

end BalanceMerkleProof

variable (s : Chain)

/-- A row holds eight bytes. -/
def sortedBalanceEntries : List (String × Bytes) :=
  s.balances.bindings.map fun (key, n) => (key, leBytes 8 n)

def balanceLeaves : List Hash :=
  (sortedBalanceEntries s).map fun (key, val) => merkleLeaf node (Text.bytes key) val

def balanceMerkleRoot : Except Fault String :=
  if sortedBalanceEntries s = [] then .ok (String.ofList (List.replicate 64 '0'))
  else do
    let root ← rootOf (buildMerkleTree node (balanceLeaves node s))
    return hexEncode root.1

def balanceMerkleProof (account token : String) : Except Fault (Option BalanceMerkleProof) :=
  let targetKey := account ++ "\x00" ++ token
  if sortedBalanceEntries s = [] then return none
  else match (sortedBalanceEntries s).findIdx? (fun entry => entry.1 = targetKey) with
  | none => return none
  | some idx => do
    let (_, valBytes) ← indexed (sortedBalanceEntries s)[idx]?
    if valBytes.length = 8 then
      let levels := buildMerkleTree node (balanceLeaves node s)
      let root ← rootOf levels
      let rawPath ← merkleProofPath levels idx
      return some {
        account, token
        balance := .ofNat (Text.leNat valBytes)
        leafHash := hexEncode (merkleLeaf node (Text.bytes targetKey) valBytes).1
        path := rawPath.map fun (h, isLeft) => (hexEncode h.1, isLeft)
        root := hexEncode root.1 }
    else return none

/-! ## What is hashed -/

def decodePath : List (String × Bool) → Option (List (Hash × Bool))
  | [] => some []
  | (sibHex, isLeft) :: rest =>
    match decodeHash sibHex, decodePath rest with
    | some sib, some path => some ((sib, isLeft) :: path)
    | _, _ => none

/-- By `verify`. -/
def BalanceMerkleProof.hashed (p : BalanceMerkleProof) : List Bytes :=
  leafInput p.key p.val ::
    (Merkle.climbed (merkleNode node) (merkleLeaf node p.key p.val)
      ((decodePath p.path).getD [])).map fun pair => nodeInput pair.1 pair.2

/-- For the tree. -/
def balancesHashed : List Bytes :=
  ((sortedBalanceEntries s).map fun (key, val) => leafInput (Text.bytes key) val) ++
    (Merkle.joinsOf (merkleNode node) (balanceLeaves node s)).map fun pair =>
      nodeInput pair.1 pair.2

end Tree

section Inputs

variable {node : Node}

theorem bytes_balanceKey (account token : String) :
    Text.bytes (balanceKey account token) = balanceKeyBytes account token := by
  have hnul : Text.bytes "\x00" = [0] := by decide
  unfold balanceKey balanceKeyBytes
  rw [Text.bytes_append, Text.bytes_append, hnul, List.append_assoc]
  rfl

/-- Values of one width can be told from their keys. -/
theorem leafInput_inj {key key' val val' : Bytes} (hlen : val.length = val'.length)
    (h : leafInput key val = leafInput key' val') : key = key' ∧ val = val' := by
  unfold leafInput at h
  obtain ⟨hkey, hval⟩ := List.append_inj' (List.append_cancel_left h) (by
    rw [List.length_append, List.length_append, hlen])
  exact ⟨hkey, List.append_cancel_left hval⟩

theorem nodeInput_inj {left right left' right' : Hash}
    (h : nodeInput left right = nodeInput left' right') : left = left' ∧ right = right' := by
  unfold nodeInput at h
  obtain ⟨hleft, hright⟩ :=
    List.append_inj (List.append_cancel_left h) (left.2.trans left'.2.symm)
  exact ⟨Subtype.ext hleft, Subtype.ext hright⟩

/-- The marks differ. -/
theorem leafInput_ne_nodeInput {key val : Bytes} {left right : Hash} :
    leafInput key val ≠ nodeInput left right := by
  have hleaf : Text.bytes "leaf:" = [108, 101, 97, 102, 58] := by decide
  have hnode : Text.bytes "node:" = [110, 111, 100, 101, 58] := by decide
  intro h
  unfold leafInput nodeInput at h
  rw [hleaf, hnode] at h
  exact absurd (List.cons.inj h).1 (by decide)

theorem decodeHash_hexEncode (h : Hash) : decodeHash (hexEncode h.1) = some h := by
  unfold decodeHash
  rw [hexDecode_hexEncode, Option.bind_some, toHash_val]

theorem decodePath_encoded (path : List (Hash × Bool)) :
    decodePath (path.map fun (h, isLeft) => (hexEncode h.1, isLeft)) = some path := by
  induction path with
  | nil => rfl
  | cons step path ih =>
    rw [List.map_cons, decodePath, ih, decodeHash_hexEncode]

theorem walk_eq (current : Hash) (path : List (String × Bool)) :
    walk node current path = (decodePath path).map (Merkle.climb (merkleNode node) current) := by
  induction path generalizing current with
  | nil => rfl
  | cons step path ih =>
    obtain ⟨sibHex, isLeft⟩ := step
    rw [walk, decodePath]
    cases decodeHash sibHex with
    | none => rfl
    | some sib =>
      have hnext : (if isLeft then merkleNode node current sib else merkleNode node sib current) =
          merkleNode node (Merkle.beside current (sib, isLeft)).1
            (Merkle.beside current (sib, isLeft)).2 := by
        cases isLeft with
        | true => rfl
        | false => rfl
      dsimp only
      rw [ih, hnext]
      cases decodePath path with
      | none => rfl
      | some rest => rfl

/-- What an accepted proof shows. -/
theorem verify_iff {p : BalanceMerkleProof} : p.verify node = true ↔
    hexEncode (merkleLeaf node p.key p.val).1 = p.leafHash ∧
    ∃ path, decodePath p.path = some path ∧
      hexEncode (Merkle.climb (merkleNode node) (merkleLeaf node p.key p.val) path).1 =
        p.root := by
  unfold BalanceMerkleProof.verify
  dsimp only
  rw [walk_eq]
  by_cases hleaf : hexEncode (merkleLeaf node p.key p.val).1 = p.leafHash
  · rw [if_neg (not_not.2 hleaf)]
    cases decodePath p.path with
    | none =>
      constructor
      · intro h
        cases h
      · rintro ⟨-, path, hpath, -⟩
        cases hpath
    | some path =>
      rw [Option.map_some, decide_eq_true_iff]
      exact ⟨fun h => ⟨hleaf, path, rfl, h⟩, fun ⟨_, _, hpath, h⟩ => Option.some.inj hpath ▸ h⟩
  · rw [if_pos hleaf]
    constructor
    · intro h
      cases h
    · exact fun h => absurd h.1 hleaf

end Inputs

/-! ## Stored balances -/

section Stored

variable {node : Node} {s : Chain} {account token : String} {n : ℕ}

theorem mem_sortedBalanceEntries {key : String} {val : Bytes} :
    (key, val) ∈ sortedBalanceEntries s ↔
      ∃ n, s.balances.get key = some n ∧ val = leBytes 8 n := by
  unfold sortedBalanceEntries
  constructor
  · intro h
    obtain ⟨⟨key', n⟩, hmem, heq⟩ := List.mem_map.1 h
    obtain ⟨rfl, rfl⟩ := Prod.mk.inj heq
    exact ⟨n, (Kv.lookup_eq_some_iff s.balances.sorted).2 hmem, rfl⟩
  · rintro ⟨n, hget, rfl⟩
    exact List.mem_map.2 ⟨(key, n), (Kv.lookup_eq_some_iff s.balances.sorted).1 hget, rfl⟩

/-- The root over balances is the last level of the tree. -/
theorem balanceMerkleRoot_eq (hne : balanceLeaves node s ≠ []) :
    ∃ r, Merkle.root (merkleNode node) (balanceLeaves node s) = some r ∧
      rootOf (buildMerkleTree node (balanceLeaves node s)) = .ok r ∧
      balanceMerkleRoot node s = .ok (hexEncode r.1) := by
  obtain ⟨r, hlast, hroot⟩ := Merkle.getLast?_levels (merkleNode node) hne
  have hrootOf : rootOf (buildMerkleTree node (balanceLeaves node s)) = .ok r := by
    unfold rootOf buildMerkleTree
    rw [hlast]
    rfl
  refine ⟨r, hroot, hrootOf, ?_⟩
  have hentries : sortedBalanceEntries s ≠ [] := fun h => hne (List.map_eq_nil_iff.2 h)
  unfold balanceMerkleRoot
  rw [if_neg hentries, hrootOf]
  rfl

/-- Every stored balance has a proof, which is accepted under the root. -/
theorem verify_balanceMerkleProof (hfit : n < 2 ^ 64)
    (h : s.balances.get (balanceKey account token) = some n) :
    ∃ p, balanceMerkleProof node s account token = .ok (some p) ∧ p.verify node = true ∧
      balanceMerkleRoot node s = .ok p.root ∧
      p.account = account ∧ p.token = token ∧ p.balance.toNat = n := by
  have hmem : (balanceKey account token, leBytes 8 n) ∈ sortedBalanceEntries s :=
    mem_sortedBalanceEntries.2 ⟨n, h, rfl⟩
  have hentries : sortedBalanceEntries s ≠ [] := List.ne_nil_of_mem hmem
  have hleaves : balanceLeaves node s ≠ [] := fun heq => hentries (List.map_eq_nil_iff.1 heq)
  -- the first entry under the key is the stored one
  obtain ⟨idx, hidx⟩ : ∃ idx, (sortedBalanceEntries s).findIdx?
      (fun entry => entry.1 = account ++ "\x00" ++ token) = some idx := by
    rw [← Option.isSome_iff_exists, List.findIdx?_isSome, List.any_eq_true]
    exact ⟨_, hmem, decide_eq_true rfl⟩
  obtain ⟨hlt, hfound, -⟩ := List.findIdx?_eq_some_iff_getElem.1 hidx
  have hentry : (sortedBalanceEntries s)[idx]? =
      some (balanceKey account token, leBytes 8 n) := by
    obtain ⟨⟨key, val⟩, hget⟩ : ∃ entry, (sortedBalanceEntries s)[idx] = entry := ⟨_, rfl⟩
    rw [hget] at hfound
    obtain rfl : key = balanceKey account token := of_decide_eq_true hfound
    obtain ⟨m, hm, rfl⟩ := mem_sortedBalanceEntries.1 (hget ▸ List.getElem_mem hlt)
    rw [h] at hm
    rw [List.getElem?_eq_getElem hlt, hget, Option.some.inj hm]
  obtain ⟨r, hroot, hrootOf, hbalanceRoot⟩ := balanceMerkleRoot_eq hleaves
  have hleaf : (balanceLeaves node s)[idx]? =
      some (merkleLeaf node (Text.bytes (balanceKey account token)) (leBytes 8 n)) := by
    unfold balanceLeaves
    rw [List.getElem?_map, hentry]
    rfl
  obtain ⟨path, hpath, hclimb⟩ := Merkle.climb_proofPath (merkleNode node) hleaf
  have hbalance : (UInt64.ofNat (Text.leNat (leBytes 8 n))).toNat = n := by
    rw [Text.leNat_leBytes_of_lt hfit, UInt64.toNat_ofNat_of_lt' hfit]
  refine ⟨{
    account, token
    balance := .ofNat (Text.leNat (leBytes 8 n))
    leafHash := hexEncode
      (merkleLeaf node (Text.bytes (balanceKey account token)) (leBytes 8 n)).1
    path := path.map fun (h, isLeft) => (hexEncode h.1, isLeft)
    root := hexEncode r.1 }, ?_, ?_, hbalanceRoot, rfl, rfl, hbalance⟩
  · unfold balanceMerkleProof
    dsimp only
    rw [if_neg hentries, hidx]
    dsimp only
    rw [hentry, hrootOf]
    dsimp only [indexed, merkleProofPath, buildMerkleTree, bind, Except.bind]
    rw [if_pos (Text.length_leBytes ..), hpath]
    rfl
  · have hval : leBytes 8 (UInt64.ofNat (Text.leNat (leBytes 8 n))).toNat =
        leBytes 8 n := by rw [hbalance]
    refine verify_iff.2 ⟨?_, path, decodePath_encoded path, ?_⟩
    · unfold BalanceMerkleProof.key BalanceMerkleProof.val
      dsimp only
      rw [hval, bytes_balanceKey]
    · unfold BalanceMerkleProof.key BalanceMerkleProof.val
      dsimp only
      rw [hval, ← bytes_balanceKey]
      rw [hroot] at hclimb
      rw [Option.some.inj hclimb]

end Stored

/-! ## Accepted proofs -/

section Accepted

variable {node : Node} {s : Chain} {p : BalanceMerkleProof}

/-- Where nothing that is hashed collides, an accepted proof states a stored balance. -/
theorem stored_of_verify (hrows : PlainRows s) (hne : s.balances.bindings ≠ [])
    (hfree : node.CollisionFree (p.hashed node) (balancesHashed node s))
    (hroot : balanceMerkleRoot node s = .ok p.root) (hverify : p.verify node = true) :
    NulFree p.account ∧ NulFree p.token ∧
      s.balances.get (balanceKey p.account p.token) = some p.balance.toNat := by
  obtain ⟨-, path, hpath, hclimb⟩ := verify_iff.1 hverify
  have hleaves : balanceLeaves node s ≠ [] := fun heq =>
    hne (List.map_eq_nil_iff.1 (List.map_eq_nil_iff.1 heq))
  obtain ⟨r, hr, -, hbalanceRoot⟩ := balanceMerkleRoot_eq hleaves
  have hsame : Merkle.climb (merkleNode node) (merkleLeaf node p.key p.val) path = r := by
    rw [hbalanceRoot] at hroot
    exact Subtype.ext (Text.hexEncode_inj.1 (hclimb.trans (Except.ok.inj hroot).symm))
  have hleafHashed : leafInput p.key p.val ∈ p.hashed node := List.mem_cons_self
  have hnodeHashed : ∀ c ∈ Merkle.climbed (merkleNode node) (merkleLeaf node p.key p.val) path,
      nodeInput c.1 c.2 ∈ p.hashed node := by
    intro c hc
    unfold BalanceMerkleProof.hashed
    rw [hpath, Option.getD_some]
    exact List.mem_cons_of_mem _ (List.mem_map.2 ⟨c, hc, rfl⟩)
  have hentryHashed : ∀ key val, (key, val) ∈ sortedBalanceEntries s →
      leafInput (Text.bytes key) val ∈ balancesHashed node s := fun key val h =>
    List.mem_append_left _ (List.mem_map.2 ⟨(key, val), h, rfl⟩)
  have hjoinHashed : ∀ q ∈ Merkle.joinsOf (merkleNode node) (balanceLeaves node s),
      nodeInput q.1 q.2 ∈ balancesHashed node s := fun q hq =>
    List.mem_append_right _ (List.mem_map.2 ⟨q, hq, rfl⟩)
  have hmem : merkleLeaf node p.key p.val ∈ balanceLeaves node s := by
    refine @Merkle.mem_of_climb_root _ (merkleNode node) _ _ path ?_ ?_ ?_ ?_
    · intro c hc q hq heq
      obtain ⟨hleft, hright⟩ :=
        nodeInput_inj (hfree _ (hnodeHashed c hc) _ (hjoinHashed q hq) heq)
      exact Prod.ext hleft hright
    · intro q hq heq
      exact leafInput_ne_nodeInput (hfree _ hleafHashed _ (hjoinHashed q hq) heq.symm)
    · intro c hc hleaf
      obtain ⟨⟨key, val⟩, hentry, heq⟩ := List.mem_map.1 hleaf
      exact leafInput_ne_nodeInput
        (hfree _ (hnodeHashed c hc) _ (hentryHashed key val hentry) heq.symm).symm
    · rw [hr, hsame]
  obtain ⟨⟨key, val⟩, hentry, heq⟩ := List.mem_map.1 hmem
  obtain ⟨n, hget, rfl⟩ := mem_sortedBalanceEntries.1 hentry
  have hwidth : p.val.length = (leBytes 8 n).length := by
    unfold BalanceMerkleProof.val
    rw [Text.length_leBytes, Text.length_leBytes]
  obtain ⟨hkey, hval⟩ := leafInput_inj hwidth
    (hfree _ hleafHashed _ (hentryHashed key _ hentry) heq.symm)
  have hrow : balanceKey p.account p.token = key := bytes_injective (by
    rw [bytes_balanceKey]
    exact hkey)
  obtain ⟨hfit, account, token, haccount, htoken, rfl⟩ := hrows key n hget
  obtain ⟨hsameAccount, hsameToken⟩ := (balanceKey_inj_of_nulFree haccount htoken).1 hrow.symm
  have hbalance : p.balance.toNat = n := @Text.leBytes_inj 8 _ _ p.balance.toNat_lt hfit hval
  rw [← hsameAccount, ← hsameToken, hbalance]
  exact ⟨haccount, htoken, hget⟩

/-- Balance proofs are complete and sound. -/
theorem balanceProofs_sound (hrows : PlainRows s) (hne : s.balances.bindings ≠ []) :
    (∀ account token n, s.balances.get (balanceKey account token) = some n →
      ∃ p, balanceMerkleProof node s account token = .ok (some p) ∧ p.verify node = true ∧
        balanceMerkleRoot node s = .ok p.root ∧
        p.account = account ∧ p.token = token ∧ p.balance.toNat = n) ∧
    ∀ p : BalanceMerkleProof, node.CollisionFree (p.hashed node) (balancesHashed node s) →
      balanceMerkleRoot node s = .ok p.root → p.verify node = true →
      NulFree p.account ∧ NulFree p.token ∧
        s.balances.get (balanceKey p.account p.token) = some p.balance.toNat :=
  ⟨fun _ _ _ h => verify_balanceMerkleProof (hrows _ _ h).1 h,
    fun _ hfree hroot hverify => stored_of_verify hrows hne hfree hroot hverify⟩

/-- The digests of the two leaves of the sample. -/
def leafEnv : Env := Env.digesting [
  ("leaf:alice\x00HONE=\x05\x00\x00\x00\x00\x00\x00\x00",
    "ce0e309705adbefcefd78b9019101ab84cfceb0637b50477c5ddc3661c41386d"),
  ("leaf:bob\x00HONE=\x07\x00\x00\x00\x00\x00\x00\x00",
    "35144222db1bba3945ef83f4320ca2b6667a31b871eab655ef9482ea6567a2cc")]

/-- What the two are hashed to together. -/
def joinedInput : Bytes :=
  Text.bytes "node:" ++
    (leafEnv.sha256 (leafInput (balanceKeyBytes "alice" "HONE") (leBytes 8 5)) ++
      leafEnv.sha256 (leafInput (balanceKeyBytes "bob" "HONE") (leBytes 8 7)))

/-- A node that knows the digests of the sample. -/
def twoLeaves : Node := { leafEnv with
  sha256 := fun b =>
    if b = joinedInput then [
      225, 91, 196, 124, 9, 43, 59, 121, 113, 146, 32, 34, 104, 210, 79, 161, 125, 85, 231, 252,
      244, 126, 158, 199, 115, 9, 190, 148, 192, 0, 113, 42]
    else leafEnv.sha256 b
  length_sha256 := fun b => by
    split
    · rfl
    · exact Env.length_sha256_digesting _ b }

def held : Chain where
  balances := (Kv.empty.put (balanceKey "alice" "HONE") 5).put (balanceKey "bob" "HONE") 7

def leafOf (account : String) (n : ℕ) : Hash :=
  merkleLeaf twoLeaves (balanceKeyBytes account "HONE") (leBytes 8 n)

def aliceProof : BalanceMerkleProof where
  account := "alice"
  token := "HONE"
  balance := 5
  leafHash := hexEncode (leafOf "alice" 5).1
  path := [(hexEncode (leafOf "bob" 7).1, true)]
  root := hexEncode (merkleNode twoLeaves (leafOf "alice" 5) (leafOf "bob" 7)).1

theorem plainRows_held : PlainRows held := by
  intro k n h
  unfold held at h
  dsimp only at h
  rw [Kv.get_put, Kv.get_put] at h
  split at h
  · next hkey =>
    cases h
    exact ⟨by decide, "bob", "HONE", by decide, by decide, hkey.symm⟩
  · split at h
    · next hkey =>
      cases h
      exact ⟨by decide, "alice", "HONE", by decide, by decide, hkey.symm⟩
    · cases h

/-- Two balances, and the proof of one of them. -/
theorem balanceProofs_sound_held :
    (∃ p, balanceMerkleProof twoLeaves held "alice" "HONE" = .ok (some p) ∧
      p.verify twoLeaves = true ∧ balanceMerkleRoot twoLeaves held = .ok p.root) ∧
    held.balances.get (balanceKey "alice" "HONE") = some 5 := by
  have hleaves : balanceLeaves twoLeaves held = [leafOf "alice" 5, leafOf "bob" 7] := by
    decide +kernel
  have hclog : Nat.clog 2 2 = 1 := by
    rw [Nat.clog_of_two_le Nat.one_lt_two Nat.le.refl, Nat.clog_one_right]
  have hjoins : Merkle.joinsOf (merkleNode twoLeaves) (balanceLeaves twoLeaves held) =
      [(leafOf "alice" 5, leafOf "bob" 7)] := by
    unfold Merkle.joinsOf
    rw [hleaves, List.length_cons, List.length_cons, List.length_nil, hclog]
    rfl
  have hfree : twoLeaves.CollisionFree (aliceProof.hashed twoLeaves) (balancesHashed twoLeaves held) := by
    unfold balancesHashed
    rw [hjoins]
    unfold Node.CollisionFree
    decide +kernel
  have hroot : balanceMerkleRoot twoLeaves held = .ok aliceProof.root := by
    have hne : balanceLeaves twoLeaves held ≠ [] := by
      rw [hleaves]
      exact List.cons_ne_nil _ _
    obtain ⟨r, hr, -, hbalanceRoot⟩ := balanceMerkleRoot_eq hne
    rw [hleaves, Merkle.root, Merkle.nextLevel, Merkle.nextLevel, Merkle.root] at hr
    rw [hbalanceRoot, ← Option.some.inj hr]
    rfl
  have hsound := @balanceProofs_sound twoLeaves held plainRows_held (List.cons_ne_nil _ _)
  obtain ⟨p, hproof, hverify, hproofRoot, -⟩ := hsound.1 "alice" "HONE" 5 (by decide)
  exact ⟨⟨p, hproof, hverify, hproofRoot⟩,
    (hsound.2 aliceProof hfree hroot (by decide +kernel)).2.2⟩

end Accepted

end HoneNode.Blocks
