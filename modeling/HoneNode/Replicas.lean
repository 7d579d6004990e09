import HoneNode.Apply
import HoneNode.Lib.Decimal
import HoneNode.Lib.Trace
import HoneNode.Lib.Word

/-!
# Replicas — what Hive replicas score, and what tells them apart

`hive_replica.rs`: a node commits a reference to a Hive post and another node
verifies it, once for each epoch. The score adds up in the node's storage beat.
A reference is stored under the hash of its fields, of which the first three are
texts of any length with nothing between them, so two references can meet.

1. **Reference ids**: for which references they are equal (`refId_eq_iff`).
2. **Calls** and what the beat of a node and epoch has to show.
3. **Runs** (`replicas_accounted_iff`).
-/

namespace HoneNode.Replicas

open Entry Prog Within Trace HiveReplica

/-! ## Reference ids -/

/-- What the checks ask of the fields of a reference. -/
structure WellFormed (r : Ref) : Prop where
  cid : isSafeToken r.cid 1 256 = true
  hiveAccount : isHiveAccount r.hiveAccount = true
  customJsonId : isSafeToken r.customJsonId 1 128 = true
  block : 0 < r.hiveBlockNum
  txId : isHexLen r.hiveTxId 40 = true ∨ isHexLen r.hiveTxId 64 = true
  payload : isHexLen r.payloadSha256 64 = true
  merkle : isHexLen r.merkleRoot 64 = true

/-- The block is a `u64` and the operation a `u32`. -/
def Typed (r : Ref) : Prop := r.hiveBlockNum < 2 ^ 64 ∧ r.opIndex < 2 ^ 32

/-- The three texts at the start, with nothing between them. -/
def texts (r : Ref) : String := r.cid ++ r.hiveAccount ++ r.customJsonId

/-- The part of the hashed bytes whose pieces have no fixed length. -/
def headBytes (r : Ref) : List UInt8 :=
  Text.bytes (texts r) ++ leBytes 8 r.hiveBlockNum ++ Text.bytes r.hiveTxId

/-- What the id of a reference is the digest of. -/
def hashed (r : Ref) : List UInt8 :=
  headBytes r ++ leBytes 4 r.opIndex ++ Text.bytes r.payloadSha256 ++ Text.bytes r.merkleRoot

/-- Two references that are hashed from the same bytes: characters have moved between the
three texts, or transaction ids of different length let the bytes of texts and block run into
them. -/
inductive Clash (r r' : Ref) : Prop where
  | moved (hne : r ≠ r') (htexts : texts r = texts r') (hblock : r.hiveBlockNum = r'.hiveBlockNum)
      (htx : r.hiveTxId = r'.hiveTxId) (hop : r.opIndex = r'.opIndex)
      (hpayload : r.payloadSha256 = r'.payloadSha256) (hmerkle : r.merkleRoot = r'.merkleRoot)
  | overrun (hlen : r.hiveTxId.utf8ByteSize ≠ r'.hiveTxId.utf8ByteSize)
      (hhead : headBytes r = headBytes r') (hop : r.opIndex = r'.opIndex)
      (hpayload : r.payloadSha256 = r'.payloadSha256) (hmerkle : r.merkleRoot = r'.merkleRoot)

section Ids

variable {env : Env} {r r' : Ref}

theorem length_bytes (x : String) : (Text.bytes x).length = x.utf8ByteSize := rfl

theorem length_of_isHexLen {text : String} {n : ℕ} (h : isHexLen text n = true) :
    (Text.bytes text).length = n := by
  unfold isHexLen isToken at h
  rw [length_bytes]
  simp only [Bool.and_eq_true, decide_eq_true_eq] at h
  omega

theorem refId_eq (env : Env) (r : Ref) :
    refId env r = hexEncode (env.sha256 (hashed r)) := by
  unfold refId hashed headBytes texts
  rw [Text.bytes_append, Text.bytes_append]

/-- The hashed bytes end in three fields of fixed length. -/
theorem hashed_eq_iff_head (h : WellFormed r) (h' : WellFormed r') (ht : Typed r)
    (ht' : Typed r') : hashed r = hashed r' ↔
      headBytes r = headBytes r' ∧ r.opIndex = r'.opIndex ∧
        r.payloadSha256 = r'.payloadSha256 ∧ r.merkleRoot = r'.merkleRoot := by
  constructor
  · intro hbytes
    have hmerkle := List.append_inj' hbytes
      ((length_of_isHexLen h.merkle).trans (length_of_isHexLen h'.merkle).symm)
    have hpayload := List.append_inj' hmerkle.1
      ((length_of_isHexLen h.payload).trans (length_of_isHexLen h'.payload).symm)
    have hop := List.append_inj' hpayload.1
      ((Text.length_leBytes 4 _).trans (Text.length_leBytes 4 _).symm)
    exact ⟨hop.1, @Text.leBytes_inj 4 _ _ ht.2 ht'.2 hop.2, bytes_injective hpayload.2,
      bytes_injective hmerkle.2⟩
  · rintro ⟨hhead, hop, hpayload, hmerkle⟩
    rw [hashed, hashed, hhead, hop, hpayload, hmerkle]

/-- Two different references are hashed from the same bytes exactly if they clash. -/
theorem hashed_eq_iff (h : WellFormed r) (h' : WellFormed r') (ht : Typed r) (ht' : Typed r') :
    r ≠ r' ∧ hashed r = hashed r' ↔ Clash r r' := by
  rw [hashed_eq_iff_head h h' ht ht']
  constructor
  · rintro ⟨hne, hhead, hop, hpayload, hmerkle⟩
    by_cases hlen : r.hiveTxId.utf8ByteSize = r'.hiveTxId.utf8ByteSize
    · have htx := List.append_inj' hhead hlen
      have hblock := List.append_inj' htx.1
        ((Text.length_leBytes 8 r.hiveBlockNum).trans (Text.length_leBytes 8 r'.hiveBlockNum).symm)
      exact .moved hne (bytes_injective hblock.1) (@Text.leBytes_inj 8 _ _ ht.1 ht'.1 hblock.2)
        (bytes_injective htx.2) hop hpayload hmerkle
    · exact .overrun hlen hhead hop hpayload hmerkle
  · intro hclash
    cases hclash with
    | moved hne htexts hblock htx hop hpayload hmerkle =>
      refine ⟨hne, ?_, hop, hpayload, hmerkle⟩
      unfold headBytes
      rw [htexts, hblock, htx]
    | overrun hlen hhead hop hpayload hmerkle =>
      refine ⟨?_, hhead, hop, hpayload, hmerkle⟩
      rintro rfl
      exact hlen rfl

/-- Where the digests of the two do not collide, two different references have the same id exactly
if they clash. -/
theorem refId_eq_iff (hsha : env.sha256 (hashed r) = env.sha256 (hashed r') → hashed r = hashed r')
    (h : WellFormed r) (h' : WellFormed r') (ht : Typed r) (ht' : Typed r') :
    r ≠ r' ∧ refId env r = refId env r' ↔ Clash r r' := by
  rw [← hashed_eq_iff h h' ht ht', refId_eq, refId_eq, Text.hexEncode_inj]
  exact and_congr_right fun _ => ⟨hsha, congrArg env.sha256⟩

end Ids

/-! ## Calls -/

inductive ReplicaOp where
  | commit (p : HiveReplicaCommit)
  | verify (p : HiveReplicaVerify)

def ReplicaOp.run (env : Env) (s : Chain) : ReplicaOp → Except Fault Unit × Chain
  | .commit p => (applyHiveReplicaCommit env p).run s
  | .verify p => (applyHiveReplicaVerify env p).run s

def commitRef (p : HiveReplicaCommit) : Ref :=
  ⟨p.cid, p.hiveAccount, p.customJsonId, p.hiveBlockNum, p.hiveTxId, p.opIndex, p.payloadSha256,
    p.merkleRoot⟩

def verifyRef (p : HiveReplicaVerify) : Ref :=
  ⟨p.cid, p.hiveAccount, p.customJsonId, p.hiveBlockNum, p.hiveTxId, p.opIndex, p.payloadSha256,
    p.merkleRoot⟩

/-- The key of a node's Hive beat in an epoch. -/
def beatKey (node : String) (epoch : ℕ) : String := s!"{epoch}:{node}:hive"

def rewardKey (ref : String) (epoch : ℕ) : String := s!"{epoch}:{ref}"

def beatOf (s : Chain) (node : String) (epoch : ℕ) : Option StorageBeat :=
  s.stateGet .storageBeat (beatKey node epoch)

def bytesProven (s : Chain) (node : String) (epoch : ℕ) : ℕ :=
  (beatOf s node epoch).elim 0 (·.bytesProven)

def replicaCount (s : Chain) (node : String) (epoch : ℕ) : ℕ :=
  (beatOf s node epoch).elim 0 fun beat => beat.replicaCount.getD 0

def commitOf (s : Chain) (ref : String) : Option HiveCommit :=
  s.stateGet .hiveReplicaCommit ref

/-- What a committed replica scores. -/
def scoreOf (c : HiveCommit) : ℕ :=
  match scoreBytes c.bytesReplicated c.replicaKind with
  | .ok score => score
  | .error _ => 0

def scoreAt (s : Chain) (ref : String) : ℕ := (commitOf s ref).elim 0 scoreOf

section Calls

variable {env : Env} {s t : Chain}

theorem rewardKey_inj {ref other : String} {epoch e : ℕ} :
    rewardKey ref epoch = rewardKey other e ↔ ref = other ∧ epoch = e :=
  Text.numbered_inj.trans And.comm

theorem beatKey_inj {node other : String} {epoch e : ℕ} :
    beatKey node epoch = beatKey other e ↔ node = other ∧ epoch = e := by
  constructor
  · intro h
    have hreward : rewardKey node epoch = rewardKey other e := (String.append_left_inj ":hive").1 h
    exact rewardKey_inj.1 hreward
  · rintro ⟨rfl, rfl⟩
    rfl

/-- The checks leave the chain; what passes them scores. -/
theorem run_validateCommon (r : Ref) (bytes : ℕ) (kind : String) (s : Chain) :
    (∃ score, scoreBytes bytes kind = .ok score ∧
      (validateCommon r bytes kind).run s = (.ok (), s)) ∨
        ∃ msg, (validateCommon r bytes kind).run s = (.error (.err msg), s) := by
  unfold validateCommon
  rcases refused_or_ensure (W := {}) (s := s) (isSafeToken r.cid 1 256) _ _ with h | ⟨-, h⟩
  · exact .inr h
  rw [h]
  rcases refused_or_ensure (W := {}) (s := s) (isHiveAccount r.hiveAccount) _ _ with h | ⟨-, h⟩
  · exact .inr h
  rw [h]
  rcases refused_or_ensure (W := {}) (s := s) (isSafeToken r.customJsonId 1 128) _ _ with h | ⟨-, h⟩
  · exact .inr h
  rw [h]
  rcases refused_or_ensure (W := {}) (s := s) (0 < r.hiveBlockNum) _ _ with h | ⟨-, h⟩
  · exact .inr h
  rw [h]
  rcases refused_or_ensure (W := {}) (s := s) (isHexLen r.hiveTxId 40 ∨ isHexLen r.hiveTxId 64) _ _
    with h | ⟨-, h⟩
  · exact .inr h
  rw [h]
  rcases refused_or_ensure (W := {}) (s := s) (isHexLen r.payloadSha256 64) _ _ with h | ⟨-, h⟩
  · exact .inr h
  rw [h]
  rcases refused_or_ensure (W := {}) (s := s) (isHexLen r.merkleRoot 64) _ _ with h | ⟨-, h⟩
  · exact .inr h
  rw [h]
  cases hscore : scoreBytes bytes kind with
  | ok score => exact .inl ⟨score, rfl, rfl⟩
  | error msg => exact .inr ⟨msg, rfl⟩

end Calls

section Effects

variable {env : Env} {s t : Chain}

/-- What an accepted verification found and wrote. -/
structure Verifies (env : Env) (p : HiveReplicaVerify) (s t : Chain) : Prop where
  commit : ∃ c, commitOf s (refId env (verifyRef p)) = some c ∧ c.nodeId = p.nodeId
  fresh : s.stateGet .hiveReplicaRewarded (rewardKey (refId env (verifyRef p)) p.epoch) = none
  commits : t.state .hiveReplicaCommit = s.state .hiveReplicaCommit
  rewarded : t.state .hiveReplicaRewarded = (s.state .hiveReplicaRewarded).put
    (rewardKey (refId env (verifyRef p)) p.epoch) p.verifier
  others : ∀ node epoch, beatKey node epoch ≠ beatKey p.nodeId p.epoch →
    beatOf t node epoch = beatOf s node epoch
  bytes : bytesProven t p.nodeId p.epoch = min (satAdd (bytesProven s p.nodeId p.epoch)
    (scoreAt s (refId env (verifyRef p)))) maxScorePerEpoch
  count : replicaCount t p.nodeId p.epoch = wrapAdd (replicaCount s p.nodeId p.epoch) 1

/-- Neither commits nor rewards nor beats have changed. -/
structure Same (s t : Chain) : Prop where
  commits : t.state .hiveReplicaCommit = s.state .hiveReplicaCommit
  rewarded : t.state .hiveReplicaRewarded = s.state .hiveReplicaRewarded
  beats : ∀ node epoch, beatOf t node epoch = beatOf s node epoch

theorem same_of_noted (h : Noted s t) : Same s t where
  commits := h.state _ (by decide)
  rewarded := h.state _ (by decide)
  beats _ _ := h.stateGet (by decide) _

theorem state_stateSet_of {f : Family} {u : Chain} (h : u.state f = s.state f) (key : String)
    (v : f.Val) : (u.stateSet f key v).state f = (s.state f).put key v := by
  rw [state_stateSet_self, h]

theorem verifies_of_writes {u : Chain} {p : HiveReplicaVerify} (hsame : Same s u)
    {commit : HiveCommit} (hcommit : commitOf u (refId env (verifyRef p)) = some commit)
    (hnode : commit.nodeId = p.nodeId)
    (hfresh : (u.stateGet .hiveReplicaRewarded
      (rewardKey (refId env (verifyRef p)) p.epoch)).isNone = true)
    {beat : StorageBeat} (hbytes : beat.bytesProven =
      min (satAdd (bytesProven s p.nodeId p.epoch) (scoreOf commit)) maxScorePerEpoch)
    (hcount : beat.replicaCount = some (wrapAdd (replicaCount s p.nodeId p.epoch) 1)) :
    Verifies env p s ((u.stateSet .hiveReplicaRewarded
      (rewardKey (refId env (verifyRef p)) p.epoch) p.verifier).stateSet .storageBeat
        (beatKey p.nodeId p.epoch) beat) := by
  have hcommit' : commitOf s (refId env (verifyRef p)) = some commit :=
    (stateGet_of_state hsame.commits _).symm.trans hcommit
  have hbeat : ∀ node epoch, beatOf ((u.stateSet .hiveReplicaRewarded
      (rewardKey (refId env (verifyRef p)) p.epoch) p.verifier).stateSet .storageBeat
        (beatKey p.nodeId p.epoch) beat) node epoch =
      if beatKey p.nodeId p.epoch = beatKey node epoch then some beat else beatOf s node epoch := by
    intro node epoch
    rw [← hsame.beats]
    unfold beatOf
    rw [stateGet_stateSet, stateGet_stateSet_of_ne _ (by decide)]
  constructor
  · exact ⟨commit, hcommit', hnode⟩
  · exact (stateGet_of_state hsame.rewarded _).symm.trans (Option.isNone_iff_eq_none.1 hfresh)
  · rw [state_stateSet_of_ne _ (by decide), state_stateSet_of_ne _ (by decide),
      hsame.commits]
  · rw [state_stateSet_of_ne _ (by decide), state_stateSet_of hsame.rewarded]
  · intro node epoch hne
    rw [hbeat, if_neg (Ne.symm hne)]
  · have hscore : scoreAt s (refId env (verifyRef p)) = scoreOf commit := by
      unfold scoreAt
      rw [hcommit']
      rfl
    unfold bytesProven at hbytes ⊢
    rw [hbeat, if_pos rfl, hscore]
    exact hbytes
  · unfold replicaCount at hcount ⊢
    rw [hbeat, if_pos rfl]
    change beat.replicaCount.getD 0 = _
    rw [hcount]
    rfl

theorem verify_cases (env : Env) (p : HiveReplicaVerify) (s : Chain) :
    (∃ e t, (applyHiveReplicaVerify env p).run s = (.error e, t) ∧ Same s t) ∨
      ∃ t, (applyHiveReplicaVerify env p).run s = (.ok (), t) ∧ Verifies env p s t := by
  unfold applyHiveReplicaVerify
  rw [run_touchAlive_bind, run_ensureAccount_bind,
    run_ensureAccount_bind]
  have hnoted : Noted s (((s.touched p.verifier p.epoch).withAccount p.verifier p.epoch).withAccount
      p.nodeId p.epoch) := (noted s p.verifier p.epoch).withAccount p.nodeId p.epoch
  generalize ((s.touched p.verifier p.epoch).withAccount p.verifier p.epoch).withAccount
    p.nodeId p.epoch = u at hnoted ⊢
  have hsame := same_of_noted hnoted
  rcases refused_or_ensure (W := {}) (s := u) (p.signedBy = p.verifier) _ _ with ⟨m, h⟩ | ⟨-, h⟩
  · exact .inl ⟨_, u, h, hsame⟩
  rw [h]
  rcases refused_or_ensure (W := {}) (s := u) (p.verifier ≠ p.nodeId) _ _ with ⟨m, h⟩ | ⟨-, h⟩
  · exact .inl ⟨_, u, h, hsame⟩
  rw [h]
  dsimp only
  rcases run_validateCommon (verifyRef p) p.bytesVerified p.replicaKind u with
    ⟨score, hscore, h⟩ | ⟨m, h⟩
  swap
  · exact .inl ⟨_, u, run_bind_error h, hsame⟩
  unfold verifyRef at h
  rw [run_bind_ok h, run_inspect_bind]
  rcases refused_or_ensure (W := {}) (s := u) (expectedChallengeHash env p u = some p.challengeHash)
    _ _ with ⟨m, h⟩ | ⟨-, h⟩
  · exact .inl ⟨_, u, h, hsame⟩
  rw [h, run_stateGet_bind]
  rcases refused_or_orBail (W := {}) (s := u) (commitOf u (refId env (verifyRef p))) _ _
    with ⟨m, h⟩ | ⟨commit, hcommit, h⟩
  · exact .inl ⟨_, u, h, hsame⟩
  unfold commitOf verifyRef at h
  rw [h]
  rcases refused_or_ensure (W := {}) (s := u) (commit.nodeId = p.nodeId) _ _ with ⟨m, h⟩ | ⟨hnode, h⟩
  · exact .inl ⟨_, u, h, hsame⟩
  rw [h]
  rcases refused_or_ensure (W := {}) (s := u) (commit.bytesReplicated = p.bytesVerified) _ _
    with ⟨m, h⟩ | ⟨hbytes, h⟩
  · exact .inl ⟨_, u, h, hsame⟩
  rw [h]
  rcases refused_or_ensure (W := {}) (s := u) (commit.replicaKind = p.replicaKind) _ _
    with ⟨m, h⟩ | ⟨hkind, h⟩
  · exact .inl ⟨_, u, h, hsame⟩
  rw [h, run_stateGet_bind]
  rcases refused_or_ensure (W := {}) (s := u) ((u.stateGet .hiveReplicaRewarded
    (rewardKey (refId env (verifyRef p)) p.epoch)).isNone = true) _ _ with ⟨m, h⟩ | ⟨hfresh, h⟩
  · exact .inl ⟨_, u, h, hsame⟩
  unfold rewardKey verifyRef at h
  rw [h, run_stateSet_bind]
  rw [hscore]
  dsimp only
  rw [run_bind_ok (run_pure _ _), run_stateGet_bind]
  have hscore' : scoreOf commit = score := by
    unfold scoreOf
    rw [hbytes, hkind, hscore]
  have hstored : (u.stateSet .hiveReplicaRewarded (rewardKey (refId env (verifyRef p)) p.epoch)
      p.verifier).stateGet .storageBeat (beatKey p.nodeId p.epoch) =
        beatOf s p.nodeId p.epoch := by
    rw [stateGet_stateSet_of_ne _ (by decide), ← hsame.beats]
    rfl
  unfold rewardKey beatKey verifyRef at hstored
  rw [hstored]
  refine .inr ⟨_, rfl, verifies_of_writes hsame hcommit hnode hfresh ?_ ?_⟩
  · rw [hscore']
    unfold bytesProven
    cases beatOf s p.nodeId p.epoch <;> rfl
  · unfold replicaCount
    cases beatOf s p.nodeId p.epoch <;> rfl

/-- A commit adds one record under an id that had none. -/
structure Commits (env : Env) (p : HiveReplicaCommit) (s t : Chain) : Prop where
  fresh : commitOf s (refId env (commitRef p)) = none
  commits : ∃ c, t.state .hiveReplicaCommit =
    (s.state .hiveReplicaCommit).put (refId env (commitRef p)) c
  rewarded : t.state .hiveReplicaRewarded = s.state .hiveReplicaRewarded
  beats : ∀ node epoch, beatOf t node epoch = beatOf s node epoch

theorem commit_cases (env : Env) (p : HiveReplicaCommit) (s : Chain) :
    (∃ e t, (applyHiveReplicaCommit env p).run s = (.error e, t) ∧ Same s t) ∨
      ∃ t, (applyHiveReplicaCommit env p).run s = (.ok (), t) ∧ Commits env p s t := by
  unfold applyHiveReplicaCommit
  rw [run_touchAlive_bind, run_ensureAccount_bind]
  have hnoted := noted s p.nodeId p.epoch
  generalize (s.touched p.nodeId p.epoch).withAccount p.nodeId p.epoch = u at hnoted ⊢
  have hsame := same_of_noted hnoted
  rcases refused_or_ensure (W := {}) (s := u) (p.signedBy = p.nodeId) _ _ with ⟨m, h⟩ | ⟨-, h⟩
  · exact .inl ⟨_, u, h, hsame⟩
  rw [h]
  dsimp only
  rcases run_validateCommon (commitRef p) p.bytesReplicated p.replicaKind u with
    ⟨score, -, h⟩ | ⟨m, h⟩
  swap
  · exact .inl ⟨_, u, run_bind_error h, hsame⟩
  unfold commitRef at h
  rw [run_bind_ok h]
  rcases refused_or_ensure (W := {}) (s := u) (minConfirmations ≤ p.confirmations) _ _
    with ⟨m, h⟩ | ⟨-, h⟩
  · exact .inl ⟨_, u, h, hsame⟩
  rw [h, run_stateGet_bind]
  cases hfound : u.stateGet .hiveReplicaCommit (refId env (commitRef p)) with
  | some c =>
    unfold commitRef at hfound
    rw [hfound]
    dsimp only
    rcases refused_or_ensure (W := {}) (s := u) (c.nodeId = p.nodeId) _ _ with ⟨m, h⟩ | ⟨-, h⟩
    · exact .inl ⟨_, u, h, hsame⟩
    · rw [h]
      exact .inl ⟨_, u, run_bind_error (run_bail _ _), hsame⟩
  | none =>
    have hnone : commitOf s (refId env (commitRef p)) = none :=
      (stateGet_of_state hsame.commits _).symm.trans hfound
    unfold commitRef at hfound
    rw [hfound]
    refine .inr ⟨_, rfl, hnone, ⟨_, state_stateSet_of hsame.commits _ _⟩, ?_,
      fun node epoch => ?_⟩
    · rw [state_stateSet_of_ne _ (by decide), hsame.rewarded]
    · unfold beatOf
      rw [stateGet_stateSet_of_ne _ (by decide)]
      exact hsame.beats node epoch

end Effects

/-! ## Runs -/

/-- Commits and verifications in any order; whatever else the node does leaves commits, rewards
and Hive beats alone. -/
def replicas (env : Env) : Component Chain ReplicaOp where
  init s := ∀ node epoch, beatOf s node epoch = none
  step s op := (op.run env s).2
  other s t := Same s t

/-- The reference that a call has verified for the node in the epoch. -/
def verifiedBy (env : Env) (node : String) (epoch : ℕ) (c : Chain × ReplicaOp) : Option String :=
  match c.2 with
  | .verify p => if p.nodeId = node ∧ p.epoch = epoch ∧ (c.2.run env c.1).1 = .ok () then
      some (refId env (verifyRef p)) else none
  | .commit _ => none

def verified (env : Env) (hist : List (Chain × ReplicaOp)) (node : String) (epoch : ℕ) :
    List String := hist.filterMap (verifiedBy env node epoch)

/-- A reference that some commit of the run carries. -/
def Offered (hist : List (Chain × ReplicaOp)) (r : Ref) : Prop :=
  WellFormed r ∧ ∃ c ∈ hist, ∃ p, c.2 = .commit p ∧ commitRef p = r

/-- The beats count each verified reference once, the number of them as a `u64`. -/
structure Accounted (env : Env) (hist : List (Chain × ReplicaOp)) (s : Chain) : Prop where
  committed : ∀ node epoch, ∀ ref ∈ verified env hist node epoch, ∃ c, commitOf s ref = some c ∧
    c.nodeId = node
  bytes : ∀ node epoch, bytesProven s node epoch =
    min maxScorePerEpoch ((verified env hist node epoch).dedup.map (scoreAt s)).sum
  count : ∀ node epoch, replicaCount s node epoch =
    (verified env hist node epoch).dedup.length % 2 ^ 64

/-- Different references that are offered have different ids. -/
def Distinct (env : Env) (hist : List (Chain × ReplicaOp)) : Prop :=
  ∀ r r', Offered hist r → Offered hist r' → r ≠ r' → refId env r ≠ refId env r'

/-- The digests of the offered references do not collide. -/
def NoCollision (env : Env) (hist : List (Chain × ReplicaOp)) : Prop :=
  ∀ r r', Offered hist r → Offered hist r' → env.sha256 (hashed r) = env.sha256 (hashed r') →
    hashed r = hashed r'

/-- What every run keeps. -/
structure Tallied (env : Env) (hist : List (Chain × ReplicaOp)) (s : Chain) : Prop where
  committed : ∀ node epoch, ∀ ref ∈ verified env hist node epoch, ∃ c, commitOf s ref = some c ∧
    c.nodeId = node
  rewarded : ∀ node epoch, ∀ ref ∈ verified env hist node epoch,
    s.stateGet .hiveReplicaRewarded (rewardKey ref epoch) ≠ none
  once : ∀ node epoch, (verified env hist node epoch).Nodup
  bytes : ∀ node epoch, bytesProven s node epoch =
    min maxScorePerEpoch ((verified env hist node epoch).map (scoreAt s)).sum
  count : ∀ node epoch, replicaCount s node epoch =
    (verified env hist node epoch).length % 2 ^ 64

section Runs

variable {env : Env} {P : Chain → ReplicaOp → Prop} {hist : List (Chain × ReplicaOp)} {s t : Chain}

theorem commitOf_of_state (h : t.state .hiveReplicaCommit = s.state .hiveReplicaCommit)
    (ref : String) : commitOf t ref = commitOf s ref := stateGet_of_state h ref

theorem scoreAt_of_commitOf {ref : String} (h : commitOf t ref = commitOf s ref) :
    scoreAt t ref = scoreAt s ref := by
  unfold scoreAt
  rw [h]

/-- Records stay, and so do beats and rewards: nothing that was tallied changes. -/
theorem Tallied.frame (h : Tallied env hist s)
    (hcommits : ∀ ref c, commitOf s ref = some c → commitOf t ref = some c)
    (hrewarded : t.state .hiveReplicaRewarded = s.state .hiveReplicaRewarded)
    (hbeats : ∀ node epoch, beatOf t node epoch = beatOf s node epoch) : Tallied env hist t where
  committed node epoch ref href := by
    obtain ⟨c, hc, hnode⟩ := h.committed node epoch ref href
    exact ⟨c, hcommits ref c hc, hnode⟩
  rewarded node epoch ref href := by
    rw [stateGet_of_state hrewarded]
    exact h.rewarded node epoch ref href
  once := h.once
  bytes node epoch := by
    have hscore : (verified env hist node epoch).map (scoreAt t) =
        (verified env hist node epoch).map (scoreAt s) := by
      refine List.map_congr_left fun ref href => ?_
      obtain ⟨c, hc, -⟩ := h.committed node epoch ref href
      exact scoreAt_of_commitOf ((hcommits ref c hc).trans hc.symm)
    unfold bytesProven
    rw [hbeats, hscore]
    exact h.bytes node epoch
  count node epoch := by
    unfold replicaCount
    rw [hbeats]
    exact h.count node epoch

theorem Tallied.same (h : Tallied env hist s) (hsame : Same s t) : Tallied env hist t :=
  h.frame (fun ref _ hc => (commitOf_of_state hsame.commits ref).trans hc) hsame.rewarded
    hsame.beats

theorem Tallied.commits (h : Tallied env hist s) {p : HiveReplicaCommit}
    (hcommit : Commits env p s t) : Tallied env hist t := by
  refine h.frame (fun ref c hc => ?_) hcommit.rewarded hcommit.beats
  obtain ⟨new, hput⟩ := hcommit.commits
  -- the new id had no record
  have hne : refId env (commitRef p) ≠ ref := by
    rintro rfl
    rw [hcommit.fresh] at hc
    cases hc
  unfold commitOf Chain.stateGet at hc ⊢
  rw [hput, Kv.get_put_of_ne _ _ hne]
  exact hc

theorem verified_cons (c : Chain × ReplicaOp) (node : String) (epoch : ℕ) :
    verified env (c :: hist) node epoch =
      (verifiedBy env node epoch c).toList ++ verified env hist node epoch := by
  unfold verified
  rw [List.filterMap_cons]
  cases verifiedBy env node epoch c <;> rfl

/-- A call that verifies nothing leaves the tally. -/
theorem Tallied.cons (h : Tallied env hist t) {c : Chain × ReplicaOp}
    (hnone : ∀ node epoch, verifiedBy env node epoch c = none) : Tallied env (c :: hist) t := by
  have hsame : ∀ node epoch, verified env (c :: hist) node epoch = verified env hist node epoch := by
    intro node epoch
    rw [verified_cons, hnone]
    rfl
  constructor <;> intro node epoch <;> rw [hsame]
  · exact h.committed node epoch
  · exact h.rewarded node epoch
  · exact h.once node epoch
  · exact h.bytes node epoch
  · exact h.count node epoch

/-- An accepted verification counts one reference that was not counted before. -/
theorem Tallied.verifies (h : Tallied env hist s) {p : HiveReplicaVerify}
    (hok : ((ReplicaOp.verify p).run env s).1 = .ok ()) (hv : Verifies env p s t) :
    Tallied env ((s, .verify p) :: hist) t := by
  have hcommitOf := commitOf_of_state hv.commits
  have hscore : scoreAt t = scoreAt s := funext fun ref => scoreAt_of_commitOf (hcommitOf ref)
  have hlist : ∀ node epoch, verified env ((s, .verify p) :: hist) node epoch =
      if p.nodeId = node ∧ p.epoch = epoch then
        refId env (verifyRef p) :: verified env hist node epoch
      else verified env hist node epoch := by
    intro node epoch
    rw [verified_cons]
    unfold verifiedBy
    dsimp only
    by_cases hkey : p.nodeId = node ∧ p.epoch = epoch
    · rw [if_pos ⟨hkey.1, hkey.2, hok⟩, if_pos hkey]
      rfl
    · rw [if_neg (fun hall => hkey ⟨hall.1, hall.2.1⟩), if_neg hkey]
      rfl
  have hnew : refId env (verifyRef p) ∉ verified env hist p.nodeId p.epoch :=
    fun hmem => h.rewarded _ _ _ hmem hv.fresh
  have hreward : ∀ key, key = rewardKey (refId env (verifyRef p)) p.epoch ∨
      s.stateGet .hiveReplicaRewarded key ≠ none → t.stateGet .hiveReplicaRewarded key ≠ none := by
    intro key hor
    unfold Chain.stateGet at hor ⊢
    rw [hv.rewarded, Kv.get_put]
    split
    · exact Option.some_ne_none _
    · rename_i hne
      exact hor.resolve_left (Ne.symm hne)
  have hbeats : ∀ node epoch, ¬ (p.nodeId = node ∧ p.epoch = epoch) →
      beatOf t node epoch = beatOf s node epoch := by
    intro node epoch hne
    refine hv.others node epoch fun heq => hne ?_
    obtain ⟨hnode, hepoch⟩ := beatKey_inj.1 heq
    exact ⟨hnode.symm, hepoch.symm⟩
  constructor
  · intro node epoch ref href
    rw [hcommitOf]
    rw [hlist] at href
    split at href
    · rename_i hkey
      rcases List.mem_cons.1 href with rfl | href
      · obtain ⟨c, hc, hnode⟩ := hv.commit
        exact ⟨c, hc, hnode.trans hkey.1⟩
      · exact h.committed node epoch ref href
    · exact h.committed node epoch ref href
  · intro node epoch ref href
    rw [hlist] at href
    split at href
    · rename_i hkey
      rcases List.mem_cons.1 href with rfl | href
      · exact hreward _ (.inl (by rw [hkey.2]))
      · exact hreward _ (.inr (h.rewarded node epoch ref href))
    · exact hreward _ (.inr (h.rewarded node epoch ref href))
  · intro node epoch
    rw [hlist]
    split
    · rename_i hkey
      rw [← hkey.1, ← hkey.2]
      exact List.nodup_cons.2 ⟨hnew, h.once _ _⟩
    · exact h.once node epoch
  · intro node epoch
    rw [hlist, hscore]
    split
    · rename_i hkey
      have hold := h.bytes node epoch
      rw [← hkey.1, ← hkey.2] at hold ⊢
      rw [hv.bytes, hold, List.map_cons, List.sum_cons]
      unfold satAdd u64Max maxScorePerEpoch
      omega
    · rename_i hkey
      unfold bytesProven
      rw [hbeats node epoch hkey]
      exact h.bytes node epoch
  · intro node epoch
    rw [hlist]
    split
    · rename_i hkey
      have hold := h.count node epoch
      rw [← hkey.1, ← hkey.2] at hold ⊢
      rw [hv.count, hold, List.length_cons]
      unfold wrapAdd
      omega
    · rename_i hkey
      unfold replicaCount
      rw [hbeats node epoch hkey]
      exact h.count node epoch

theorem tallied_step (h : Tallied env hist s) (op : ReplicaOp) :
    Tallied env ((s, op) :: hist) (op.run env s).2 := by
  cases op with
  | commit p =>
    have hafter : Tallied env hist ((applyHiveReplicaCommit env p).run s).2 := by
      rcases commit_cases env p s with ⟨e, t, hrun, hsame⟩ | ⟨t, hrun, hcommit⟩
      · rw [hrun]
        exact h.same hsame
      · rw [hrun]
        exact h.commits hcommit
    exact hafter.cons fun _ _ => rfl
  | verify p =>
    rcases verify_cases env p s with ⟨e, t, hrun, hsame⟩ | ⟨t, hrun, hverifies⟩
    · have hafter : ((ReplicaOp.verify p).run env s) = (.error e, t) := hrun
      rw [hafter]
      refine (h.same hsame).cons fun node epoch => ?_
      unfold verifiedBy
      dsimp only
      rw [hafter, if_neg]
      rintro ⟨-, -, hok⟩
      cases hok
    · have hafter : ((ReplicaOp.verify p).run env s) = (.ok (), t) := hrun
      rw [hafter]
      exact h.verifies (by rw [hafter]) hverifies

theorem tallied_run (h : Run (replicas env) P hist s) : Tallied env hist s := by
  induction h with
  | start hinit =>
    constructor
    · exact fun _ _ _ href => absurd href List.not_mem_nil
    · exact fun _ _ _ href => absurd href List.not_mem_nil
    · exact fun _ _ => List.nodup_nil
    · intro node epoch
      unfold bytesProven
      rw [hinit node epoch]
      rfl
    · intro node epoch
      unfold replicaCount
      rw [hinit node epoch]
      rfl
  | step op _ _ ih => exact tallied_step ih op
  | other _ hsame ih => exact ih.same hsame

/-- The fields of a commit are in their types' ranges. -/
def TypedCall (_ : Chain) : ReplicaOp → Prop
  | .commit p => Typed (commitRef p)
  | .verify _ => True

/-- In every run the beats are right, their counters exactly as long as no node has 2^64
references verified in one epoch; and different references have different ids exactly if no two
that are offered clash. -/
theorem replicas_accounted_iff (h : Run (replicas env) TypedCall hist s) :
    Accounted env hist s ∧
      ((∀ node epoch, replicaCount s node epoch = (verified env hist node epoch).dedup.length) ↔
        ∀ node epoch, (verified env hist node epoch).dedup.length < 2 ^ 64) ∧
      (NoCollision env hist →
        (Distinct env hist ↔ ∀ r r', Offered hist r → Offered hist r' → ¬ Clash r r')) := by
  have htally := tallied_run h
  have hdedup : ∀ node epoch, (verified env hist node epoch).dedup = verified env hist node epoch :=
    fun node epoch => (htally.once node epoch).dedup
  have hacc : Accounted env hist s := by
    refine ⟨htally.committed, fun node epoch => ?_, fun node epoch => ?_⟩
    · rw [hdedup]
      exact htally.bytes node epoch
    · rw [hdedup]
      exact htally.count node epoch
  refine ⟨hacc, forall_congr' fun node => forall_congr' fun epoch => ?_, fun hsha => ?_⟩
  · rw [hacc.count, Nat.mod_eq_iff_lt (Nat.two_pow_pos 64).ne']
  · have htyped : ∀ r, Offered hist r → Typed r := by
      rintro r ⟨-, ⟨t, op⟩, hmem, p, rfl, rfl⟩
      exact (h.of_mem hmem).1
    have hids : ∀ r r', Offered hist r → Offered hist r' →
        (r ≠ r' ∧ refId env r = refId env r' ↔ Clash r r') := fun r r' hr hr' =>
      refId_eq_iff (hsha r r' hr hr') hr.1 hr'.1 (htyped r hr) (htyped r' hr')
    constructor
    · intro hdistinct r r' hr hr' hclash
      obtain ⟨hne, heq⟩ := (hids r r' hr hr').2 hclash
      exact hdistinct r r' hr hr' hne heq
    · intro hclear r r' hr hr' hne heq
      exact hclear r r' hr hr' ((hids r r' hr hr').1 ⟨hne, heq⟩)

end Runs

/-! ### Two references -/

def hex (n : ℕ) : String := String.ofList (List.replicate n 'a')

/-- The hashed bytes of a reference below. -/
def sampleText (texts : String) : String :=
  texts ++ "\x07\x00\x00\x00\x00\x00\x00\x00" ++ hex 40 ++ "\x00\x00\x00\x00" ++ hex 64 ++ hex 64

def challengeText : String := s!"seal:n:hive:b:{hex 40}:1"

/-- The digests of the references and of the challenge below. -/
def replicaNode : Env := .digesting
  [(sampleText "abcdf", "61c63c9db9992dbd63430806b8c367cc820a5d3f4e0285f439a703d2cb2652a5"),
    (sampleText "bbcdf", "a04efbb3b53ffb3cdcb17b60e9953de0b417806aee74c4d5fc79d53e1e58305a"),
    (sampleText "abcdef", "179400f9cae61fb997f1f9d93e163bd143ea5432bd21d9c2ed358c5784294f03"),
    (challengeText, "7f6870a91e6b38ccf3312357caeda0fedf5e9f61e8ae99e9a283ad4f9532708e")]

/-- A commit of a hundred bytes by the node. -/
def sampleCommit (node cid account : String) : HiveReplicaCommit :=
  ⟨node, cid, account, "f", 7, hex 40, 0, hex 64, hex 64, 100, "full", 20, 1, 0, node, none⟩

/-- The verification of the one with content `b` in epoch 1, after a seal `seal`. -/
def sampleVerification : HiveReplicaVerify :=
  ⟨"v", "n", "b", "bcd", "f", 7, hex 40, 0, hex 64, hex 64, 100, "full",
    replicaNode.sha256Hex challengeText, 1, 0, "v", none⟩

def sealedChain : Chain := ({} : Chain).stateSet .epochSealHash "0" "seal"

theorem run_sealedChain {P : Chain → ReplicaOp → Prop} (ops : List ReplicaOp)
    (hops : Legal (replicas replicaNode) P sealedChain ops) :
    Run (replicas replicaNode) P ((replicas replicaNode).record sealedChain ops [])
      ((replicas replicaNode).exec sealedChain ops) :=
  Run.exec (.start (show (replicas replicaNode).init sealedChain from fun _ _ => rfl)) hops

instance (s : Chain) (op : ReplicaOp) : Decidable (TypedCall s op) :=
  match op with
  | .commit _ => inferInstanceAs (Decidable (_ ∧ _))
  | .verify _ => inferInstanceAs (Decidable True)

/-- The references of the commits among the steps are offered, and no others. -/
theorem offered_record {env : Env} {s : Chain} {ops : List ReplicaOp} {r : Ref} :
    Offered ((replicas env).record s ops []) r ↔
      WellFormed r ∧ ∃ p, .commit p ∈ ops ∧ commitRef p = r := by
  have hops : ∀ op, op ∈ ops ↔ ∃ c ∈ (replicas env).record s ops [], c.2 = op := by
    intro op
    have h := (replicas env).record_ops s ops []
    rw [List.reverse_nil, List.map_nil, List.nil_append] at h
    have hmem : op ∈ ops ↔ op ∈ ((replicas env).record s ops []).reverse.map Prod.snd := by rw [h]
    rw [hmem, List.mem_map]
    simp only [List.mem_reverse]
  unfold Offered
  refine and_congr_right fun _ => ?_
  constructor
  · rintro ⟨c, hc, p, hp, hr⟩
    exact ⟨p, (hops _).2 ⟨c, hc, hp⟩, hr⟩
  · rintro ⟨p, hp, hr⟩
    obtain ⟨c, hc, heq⟩ := (hops _).1 hp
    exact ⟨c, hc, p, heq, hr⟩

/-- Two replicas of a node, one of them verified. -/
def twoReplicas : List ReplicaOp :=
  [.commit (sampleCommit "n" "a" "bcd"), .commit (sampleCommit "n" "b" "bcd"),
    .verify sampleVerification]

theorem offered_twoReplicas {r : Ref}
    (h : Offered ((replicas replicaNode).record sealedChain twoReplicas []) r) :
    r = commitRef (sampleCommit "n" "a" "bcd") ∨ r = commitRef (sampleCommit "n" "b" "bcd") := by
  obtain ⟨-, p, hp, rfl⟩ := offered_record.1 h
  unfold twoReplicas at hp
  simp only [List.mem_cons, List.not_mem_nil, or_false, ReplicaOp.commit.injEq, reduceCtorEq] at hp
  exact hp.imp (congrArg commitRef) (congrArg commitRef)

theorem replicas_accounted_two :
    let hist := (replicas replicaNode).record sealedChain twoReplicas []
    let s := (replicas replicaNode).exec sealedChain twoReplicas
    Accounted replicaNode hist s ∧
      (beatOf s "n" 1).map (fun beat => (beat.bytesProven, beat.replicaCount)) = some (75, some 1) ∧
      Distinct replicaNode hist := by
  intro hist s
  have hrun := run_sealedChain (P := TypedCall) twoReplicas (by decide)
  obtain ⟨hacc, -, hdistinct⟩ := replicas_accounted_iff hrun
  refine ⟨hacc, by decide +kernel, (hdistinct ?_).2 ?_⟩
  · intro r r' hr hr' hdigest
    have hdigests : replicaNode.sha256 (hashed (commitRef (sampleCommit "n" "a" "bcd"))) ≠
        replicaNode.sha256 (hashed (commitRef (sampleCommit "n" "b" "bcd"))) := by decide +kernel
    rcases offered_twoReplicas hr with rfl | rfl <;>
      rcases offered_twoReplicas hr' with rfl | rfl
    · rfl
    · exact absurd hdigest hdigests
    · exact absurd hdigest hdigests.symm
    · rfl
  · intro r r' hr hr' hclash
    rcases offered_twoReplicas hr with rfl | rfl <;>
      rcases offered_twoReplicas hr' with rfl | rfl <;> cases hclash with
      | moved hne htexts => first
        | exact hne rfl
        | exact absurd htexts (by decide)
      | overrun hlen => exact hlen rfl

/-- One text in two cuts. -/
def oneText : List ReplicaOp :=
  [.commit (sampleCommit "n" "a" "bcde"), .commit (sampleCommit "m" "ab" "cde")]

/-- The second node's reference differs in two fields, has the same id, and is refused. -/
theorem replicas_confused :
    let hist := (replicas replicaNode).record sealedChain oneText []
    Run (replicas replicaNode) TypedCall hist ((replicas replicaNode).exec sealedChain oneText) ∧
    hist.map (fun c => (c.2.run replicaNode c.1).1) =
      [.error (.err "Hive replica ref already committed by another node"), .ok ()] ∧
    ¬ Distinct replicaNode hist := by
  intro hist
  have htyped : Legal (replicas replicaNode) TypedCall sealedChain oneText :=
    ⟨by decide, by decide, trivial⟩
  refine ⟨run_sealedChain oneText htyped, by decide +kernel, fun hdistinct => ?_⟩
  have hoffered : ∀ p, ReplicaOp.commit p ∈ oneText → Offered hist (commitRef p) := by
    intro p hp
    refine offered_record.2 ⟨?_, p, hp, rfl⟩
    unfold oneText at hp
    simp only [List.mem_cons, List.not_mem_nil, or_false, ReplicaOp.commit.injEq] at hp
    rcases hp with rfl | rfl <;> constructor <;> decide
  have hfirst := hoffered (sampleCommit "n" "a" "bcde") List.mem_cons_self
  have hsecond := hoffered (sampleCommit "m" "ab" "cde") (List.mem_cons_of_mem _ List.mem_cons_self)
  have hne : commitRef (sampleCommit "n" "a" "bcde") ≠ commitRef (sampleCommit "m" "ab" "cde") :=
    fun heq => absurd (congrArg Ref.cid heq) (by decide)
  -- both are hashed from one text
  have hbytes := (hashed_eq_iff (offered_record.1 hfirst).1 (offered_record.1 hsecond).1 htyped.1
    htyped.2.1).2 (.moved hne (by decide) rfl rfl rfl rfl rfl)
  refine hdistinct _ _ hfirst hsecond hne ?_
  rw [refId_eq, refId_eq, hbytes.2]

end HoneNode.Replicas
