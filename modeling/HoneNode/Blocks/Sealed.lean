import HoneNode.Blocks.Header
import HoneNode.Lib.Hex
import HoneNode.Lib.Merkle
import HoneNode.Lib.Trace

/-!
# Blocks.Sealed — the block written at a seal

Applied entries are filed under their epoch and the first eight characters of their
hash; the block of an epoch is made of what is filed.

1. **The index** and the block that is written from it.
2. **What is filed**: a later entry takes the place of an earlier one with the same
   prefix (`mem_filed`).
3. **The root** goes through a hex decoder as raw bytes (`txRoot_eq_self_iff`).
4. **Runs**: when a block commits to its epoch (`committed_iff`).
-/

namespace HoneNode.Blocks

open Entry Trace

/-! ## The index -/

/-- The accounts whose balance an entry touches, each with its role. -/
def touched : LedgerEntry → List (String × String)
  | .transfer p => [(p.from_, "sender"), (p.to_, "recipient")]
  | .genesisAlloc p => [(p.account, "genesis")]
  | .mineReward p => [(p.miner, "mine_reward")]
  | .clockReward p => [(p.nodeId, "clock_reward")]
  | .storageReward p => [(p.nodeId, "storage_reward")]
  | .serviceReward p => [(p.nodeId, "service_reward")]
  | .sensorReward p => [(p.nodeId, "sensor_reward")]
  | .verifierReward p => [(p.nodeId, "verify_reward")]
  | .inferenceJobPay p => (p.worker, "inference_fee") ::
      (p.verifierPayments.map fun v => (v.1, "verifier_fee")) ++
        p.dissenterSlashes.map fun d => (d.1, "dissent_slash")
  | .stake p => [(p.account, "stake")]
  | .unstake p => [(p.account, "unstake")]
  | .nodeRoleStake p => [(p.staker, "role_stake")]
  | .nodeRoleUnstake p => [(p.staker, "role_unstake")]
  | _ => []

/-- The indexes of a node (`txhist:` and `txglobal:`; of a record only the entry is read back), and
its blocks. -/
structure World where
  txhist : Kv String LedgerEntry
  txglobal : Kv String LedgerEntry
  blocks : Kv ℕ Bytes

structure Payload where
  ledgerEntries : List LedgerEntry
  epoch : ℕ
  sealHash : String

section Index

variable (node : Node) (json : PayloadJson Payload)

def keyPrefix (e : LedgerEntry) : String := Text.takeBytes (node.entryHash e) 8

/-- Where an entry is filed. -/
def globalKey (e : LedgerEntry) : String := s!"{Text.hex16 e.epoch}:{keyPrefix node e}"

def indexTxHistory (e : LedgerEntry) (w : World) : World :=
  if touched e = [] then w
  else { w with
    txhist := (touched e).foldl (fun m (account, role) =>
      m.put s!"{account}:{Text.hex16 e.epoch}:{role}:{keyPrefix node e}" e) w.txhist
    txglobal := w.txglobal.put (globalKey node e) e }

/-! ## The block -/

/-- A text of 64 characters is taken for a hash. -/
def leafHash (h : String) : Hash :=
  if h.utf8ByteSize = 64 then ((hexDecode h).bind toHash).getD zeroHash
  else node.digest (Text.bytes h)

def merkleRoot (hashes : List String) : Hash :=
  (Merkle.root (fun left right : Hash => node.digest (left.1 ++ right.1))
    (hashes.map (leafHash node))).getD zeroHash

/-- `hex::decode` of the root's own bytes, into an array of zeros. -/
def txRoot (root : Hash) : Hash :=
  let bytes := (Text.hexPairs (root.1.map fun b => Char.ofNat b.toNat)).getD (List.replicate 32 0)
  ⟨(bytes ++ List.replicate 32 0).take 32, by
    rw [List.length_take, List.length_append, List.length_replicate]
    omega⟩

/-- The entries filed for an epoch. -/
def filed (w : World) (epoch : ℕ) : List LedgerEntry :=
  (w.txglobal.scan (hasPrefix s!"{Text.hex16 epoch}:")).map Prod.snd

def previousHash (w : World) (epoch : ℕ) : Hash :=
  if 0 < epoch then
    (((w.blocks.get (epoch - 1)).bind (headerOf json)).map (·.hash node)).getD zeroHash
  else zeroHash

def sealedBlock (epoch : ℕ) (sealHash : String) (timestampMs : UInt64) (w : World) :
    Block Payload where
  header := { BlockHeader.new (.ofNat epoch) (previousHash node json w epoch)
      (((hexDecode sealHash).bind toHash).getD zeroHash) timestampMs with
    merkleRootTransactions := txRoot (merkleRoot node ((filed w epoch).map node.entryHash)) }
  payload := { ledgerEntries := filed w epoch, epoch, sealHash }

def writeSealedBlock (epoch : ℕ) (sealHash : String) (timestampMs : UInt64) (w : World) : World :=
  { w with blocks :=
      w.blocks.put epoch ((sealedBlock node json epoch sealHash timestampMs w).toBytes json) }

/-! ## The component -/

inductive Op where
  | applyEntry (e : LedgerEntry)
  | writeSealedBlock (epoch : ℕ) (sealHash : String) (timestampMs : UInt64)

/-- Other blocks come from genesis and from peers. -/
def component : Component World Op where
  init := fun w => w.txhist = ∅ ∧ w.txglobal = ∅
  step := fun w op => match op with
    | .applyEntry e => indexTxHistory node e w
    | .writeSealedBlock epoch sealHash timestampMs =>
      writeSealedBlock node json epoch sealHash timestampMs w
  other := fun w w' => ∃ blocks, w' = { w with blocks }

/-- Epochs are 64-bit numbers. -/
def Admitted : World → Op → Prop
  | _, .applyEntry e => e.epoch < 2 ^ 64
  | _, .writeSealedBlock epoch _ _ => epoch < 2 ^ 64

/-- The entries of an epoch that were indexed. -/
def Indexed (hist : List (World × Op)) (epoch : ℕ) (e : LedgerEntry) : Prop :=
  (∃ w, (w, Op.applyEntry e) ∈ hist) ∧ touched e ≠ [] ∧ e.epoch = epoch

/-- A block commits to its epoch. -/
structure Committed (hist : List (World × Op)) (w : World) (epoch : ℕ) (block : Block Payload) :
    Prop where
  contains : ∀ e, Indexed hist epoch e → e ∈ block.payload.ledgerEntries
  only : ∀ e ∈ block.payload.ledgerEntries, Indexed hist epoch e
  root : block.header.merkleRootTransactions =
    merkleRoot node (block.payload.ledgerEntries.map node.entryHash)
  number : block.header.epochNumber.toNat = epoch
  linked : ∀ before : Block Payload, 0 < epoch →
    w.blocks.get (epoch - 1) = some (before.toBytes json) →
      block.header.previousBlockHash = before.header.hash node

/-- No entry of the epoch was indexed, the epoch fits 32 bits, and so does the length of the
payload before. -/
structure Bare (hist : List (World × Op)) (w : World) (epoch : ℕ) : Prop where
  empty : ∀ e, ¬ Indexed hist epoch e
  narrow : epoch < 2 ^ 32
  short : ∀ before : Block Payload, 0 < epoch →
    w.blocks.get (epoch - 1) = some (before.toBytes json) →
      (json.print before.payload).length < 2 ^ 32

/-- The zero hash is neither the root of what is filed nor the hash of the block before. -/
structure NoZero (w : World) (epoch : ℕ) : Prop where
  root : filed w epoch ≠ [] →
    merkleRoot node ((filed w epoch).map node.entryHash) ≠ zeroHash
  linked : ∀ before : Block Payload, 0 < epoch →
    w.blocks.get (epoch - 1) = some (before.toBytes json) → before.header.hash node ≠ zeroHash

end Index

/-! ## What is filed -/

section Filed

variable {node : Node} {json : PayloadJson Payload} {hist : List (World × Op)} {w : World}
  {epoch : ℕ} {e e' : LedgerEntry}

/-- What the index holds, and that nothing indexed lost its place. -/
structure Faithful (node : Node) (hist : List (World × Op)) (w : World) : Prop where
  stored : ∀ key e, w.txglobal.get key = some e →
    key = globalKey node e ∧ e.epoch < 2 ^ 64 ∧ Indexed hist e.epoch e
  placed : ∀ epoch e, Indexed hist epoch e → (w.txglobal.get (globalKey node e)).isSome
  narrow : ∀ epoch e, Indexed hist epoch e → e.epoch < 2 ^ 64

theorem indexed_cons {op : Op} : Indexed ((w, op) :: hist) epoch e ↔
    (op = .applyEntry e ∧ touched e ≠ [] ∧ e.epoch = epoch) ∨ Indexed hist epoch e := by
  unfold Indexed
  constructor
  · rintro ⟨⟨w', hw'⟩, hrest⟩
    rcases List.mem_cons.1 hw' with heq | hw'
    · exact .inl ⟨(Prod.mk.inj heq).2.symm, hrest⟩
    · exact .inr ⟨⟨w', hw'⟩, hrest⟩
  · rintro (⟨rfl, hrest⟩ | ⟨⟨w', hw'⟩, hrest⟩)
    · exact ⟨⟨w, List.mem_cons_self⟩, hrest⟩
    · exact ⟨⟨w', List.mem_cons_of_mem _ hw'⟩, hrest⟩

theorem faithful_index {e₀ : LedgerEntry} (h : Faithful node hist w) (hnarrow : e₀.epoch < 2 ^ 64) :
    Faithful node ((w, .applyEntry e₀) :: hist) (indexTxHistory node e₀ w) := by
  unfold indexTxHistory
  by_cases htouched : touched e₀ = []
  · have hsame : ∀ {epoch e}, Indexed ((w, .applyEntry e₀) :: hist) epoch e ↔
        Indexed hist epoch e := by
      intro epoch e
      rw [indexed_cons]
      refine or_iff_right fun h => ?_
      cases h.1
      exact h.2.1 htouched
    rw [if_pos htouched]
    refine ⟨fun key e he => ?_, fun epoch e he => ?_, fun epoch e he => ?_⟩
    · obtain ⟨hkey, hnarrow, hindexed⟩ := h.stored key e he
      exact ⟨hkey, hnarrow, hsame.2 hindexed⟩
    · exact h.placed epoch e (hsame.1 he)
    · exact h.narrow epoch e (hsame.1 he)
  · rw [if_neg htouched]
    refine ⟨?_, ?_, ?_⟩
    · intro key e he
      rw [Kv.get_put] at he
      split at he
      · next hkey =>
        cases he
        exact ⟨hkey.symm, hnarrow, indexed_cons.2 (.inl ⟨rfl, htouched, rfl⟩)⟩
      · obtain ⟨hkey, hnarrow, hindexed⟩ := h.stored key e he
        exact ⟨hkey, hnarrow, indexed_cons.2 (.inr hindexed)⟩
    · intro epoch e he
      rw [Kv.get_put]
      split
      · rfl
      · next hkey =>
        rcases indexed_cons.1 he with ⟨heq, -, -⟩ | he
        · cases heq
          exact absurd rfl hkey
        · exact h.placed epoch e he
    · intro epoch e he
      rcases indexed_cons.1 he with ⟨heq, -, -⟩ | he
      · cases heq
        exact hnarrow
      · exact h.narrow epoch e he

theorem faithful_of_run (h : Run (component node json) Admitted hist w) : Faithful node hist w := by
  induction h with
  | start h =>
    refine ⟨?_, ?_, ?_⟩
    · intro key e he
      rw [h.2] at he
      cases he
    · rintro epoch e ⟨⟨_, hmem⟩, -⟩
      cases hmem
    · rintro epoch e ⟨⟨_, hmem⟩, -⟩
      cases hmem
  | @step hist w op _ hop ih =>
    cases op with
    | writeSealedBlock epoch sealHash timestampMs =>
      have hsame : ∀ {epoch' e}, Indexed ((w, .writeSealedBlock epoch sealHash timestampMs) :: hist)
          epoch' e ↔ Indexed hist epoch' e := by
        intro epoch' e
        rw [indexed_cons]
        exact or_iff_right fun h => nomatch h.1
      refine ⟨fun key e he => ?_, fun epoch' e he => ?_, fun epoch' e he => ?_⟩
      · obtain ⟨hkey, hnarrow, hindexed⟩ := ih.stored key e he
        exact ⟨hkey, hnarrow, hsame.2 hindexed⟩
      · exact ih.placed epoch' e (hsame.1 he)
      · exact ih.narrow epoch' e (hsame.1 he)
    | applyEntry e₀ => exact faithful_index ih hop
  | other _ hs ih =>
    obtain ⟨blocks, rfl⟩ := hs
    exact ⟨ih.stored, ih.placed, ih.narrow⟩

/-- What the block of an epoch lists. -/
theorem mem_filed (h : Faithful node hist w) (hepoch : epoch < 2 ^ 64) :
    e ∈ filed w epoch ↔ w.txglobal.get (globalKey node e) = some e ∧ e.epoch = epoch := by
  unfold filed
  constructor
  · intro he
    obtain ⟨⟨key, e⟩, hmem, rfl⟩ := List.mem_map.1 he
    obtain ⟨hget, hprefix⟩ := Kv.mem_scan.1 hmem
    obtain ⟨rfl, hnarrow, -⟩ := h.stored key e hget
    exact ⟨hget, (Text.hasPrefix_hex16 hnarrow hepoch).1 hprefix⟩
  · rintro ⟨hget, rfl⟩
    exact List.mem_map.2 ⟨(_, e), Kv.mem_scan.2 ⟨hget, (Text.hasPrefix_hex16 hepoch hepoch).2 rfl⟩,
      rfl⟩

end Filed

/-! ## The root -/

section Root

variable {node : Node} {root : Hash} {entries : List LedgerEntry}

/-- Of all roots only the zero one survives the decoder. -/
theorem txRoot_eq_self_iff : txRoot root = root ↔ root = zeroHash := by
  constructor
  · intro h
    have hval := congrArg Subtype.val h
    unfold txRoot at hval
    dsimp only at hval
    cases hdecode : Text.hexPairs (root.1.map fun b => Char.ofNat b.toNat) with
    | none =>
      rw [hdecode] at hval
      exact Subtype.ext hval.symm
    | some bs =>
      -- what decodes has hex digits only, but the second half would be zeros
      rw [hdecode, Option.getD_some] at hval
      have hlen := Text.length_hexPairs hdecode
      rw [List.length_map, root.2] at hlen
      have hmem : (0 : UInt8) ∈ root.1 := by
        rw [← hval, List.take_append]
        refine List.mem_append_right _ ?_
        rw [List.take_replicate]
        exact List.mem_replicate.2 ⟨by omega, rfl⟩
      exact absurd (Text.isSome_hexVal_of_mem hdecode _ (List.mem_map_of_mem hmem)) (by decide)
  · rintro rfl
    decide

theorem merkleRoot_nil : merkleRoot node [] = zeroHash := by
  rw [merkleRoot, List.map_nil, Merkle.root_nil]
  rfl

end Root

/-! ## Runs -/

section Runs

variable {node : Node} {json : PayloadJson Payload} {hist : List (World × Op)} {w : World}
  {epoch : ℕ} {sealHash : String} {timestampMs : UInt64}

theorem previousHash_eq (hpos : 0 < epoch) {before : Block Payload}
    (hbefore : w.blocks.get (epoch - 1) = some (before.toBytes json)) :
    previousHash node json w epoch =
      if (json.print before.payload).length < 2 ^ 32 then before.header.hash node else zeroHash := by
  unfold previousHash
  rw [if_pos hpos, hbefore, Option.bind_some, headerOf_toBytes]
  split <;> rfl

/-- The block of an epoch without entries commits to it, and where no digest at hand is zero no
other block does. -/
theorem committed_iff (h : Run (component node json) Admitted hist w) (hepoch : epoch < 2 ^ 64) :
    (Bare json hist w epoch →
      Committed node json hist w epoch (sealedBlock node json epoch sealHash timestampMs w)) ∧
    (NoZero node json w epoch →
      (Committed node json hist w epoch (sealedBlock node json epoch sealHash timestampMs w) ↔
        Bare json hist w epoch)) := by
  have hfaithful := faithful_of_run h
  have hcommits : Bare json hist w epoch →
      Committed node json hist w epoch (sealedBlock node json epoch sealHash timestampMs w) := by
    intro hbare
    have hnone : filed w epoch = [] := by
      rw [List.eq_nil_iff_forall_not_mem]
      intro e he
      obtain ⟨hget, heq⟩ := (mem_filed hfaithful hepoch).1 he
      obtain ⟨-, -, hindexed⟩ := hfaithful.stored _ e hget
      rw [heq] at hindexed
      exact hbare.empty e hindexed
    refine ⟨fun e he => absurd he (hbare.empty e), ?_, ?_, ?_, ?_⟩
    · intro e he
      change e ∈ filed w epoch at he
      rw [hnone] at he
      cases he
    · refine txRoot_eq_self_iff.2 ?_
      rw [hnone]
      exact merkleRoot_nil
    · exact (UInt32.toNat_ofNat').trans (Nat.mod_eq_of_lt hbare.narrow)
    · intro before hpos hbefore
      exact (previousHash_eq hpos hbefore).trans (if_pos (hbare.short before hpos hbefore))
  refine ⟨hcommits, fun hzero => ⟨fun hcommitted => ?_, hcommits⟩⟩
  -- of all roots only the zero one comes through the decoder
  have hnone : filed w epoch = [] := by
    by_contra hne
    exact hzero.root hne (txRoot_eq_self_iff.1 hcommitted.root)
  refine ⟨?_, ?_, ?_⟩
  · intro e he
    have hmem : e ∈ filed w epoch := hcommitted.contains e he
    rw [hnone] at hmem
    cases hmem
  · rw [← hcommitted.number]
    exact UInt32.toNat_lt _
  · intro before hpos hbefore
    by_contra hlong
    have hlinked : previousHash node json w epoch = before.header.hash node :=
      hcommitted.linked before hpos hbefore
    rw [previousHash_eq hpos hbefore, if_neg hlong] at hlinked
    exact hzero.linked before hpos hbefore hlinked.symm

/-- `serde_json::to_string` of a stake. -/
def stakeText (p : Stake) : String :=
  "\x7b\"type\":\"STAKE\",\"account\":\"" ++ p.account ++ "\",\"amount\":" ++
    toString p.amount ++ ",\"epoch\":" ++ toString p.epoch ++ ",\"nonce\":" ++ toString p.nonce ++
    ",\"signed_by\":\"" ++ p.signedBy ++ "\"\x7d"

def stakeOf (account : String) : Stake := ⟨account, 1, 1, 1, account⟩

def staking (account : String) : LedgerEntry := .stake (stakeOf account)

/-- The header of epoch 1 without hashes and at time zero, as text. -/
def firstHeader : String :=
  let zeros := fun n => String.ofList (List.replicate n '\x00')
  "\x01" ++ zeros 139 ++ "\x01" ++ zeros 3 ++ "\x01" ++ zeros 35

/-- A node that knows the digests of two stakes, which begin alike, and of that header. -/
def stakeNode : Node := { Env.digesting [
    (stakeText (stakeOf "sdzi"), "292f3cedf1c8f2fdfd7d4a47d19b47b54370869c26d1a00e65eac0a128544b56"),
    (stakeText (stakeOf "wbei"), "292f3ced12853ece5bf361e14c5b2a6cb9dd8e24a817b583416cdcd6cdaedd7d"),
    (firstHeader, "278179ea885765e80875a7e02e34617c73aefaa7ca30e755bec0401abea426de")] with
  entryJson := fun
    | .stake p => stakeText p
    | _ => ""
  length_sha256 := Env.length_sha256_digesting _ }

def fresh : World := ⟨∅, ∅, ∅⟩

def after (ops : List Op) : World := (component stakeNode (.empty Payload)).exec fresh ops

def recorded (ops : List Op) : List (World × Op) :=
  (component stakeNode (.empty Payload)).record fresh ops []

/-- An entry is applied, and the block of its epoch written. -/
def quiet : List Op := [.applyEntry (staking "sdzi"), .writeSealedBlock 1 "" 0]

theorem noZero_quiet : NoZero stakeNode (.empty Payload) (after quiet) 2 := by
  refine ⟨fun hne => absurd (by decide +kernel) hne, fun before _ hget => ?_⟩
  have hblock : (after quiet).blocks.get 1 = some
      ((sealedBlock stakeNode (.empty Payload) 1 "" 0 (after [.applyEntry (staking "sdzi")])).toBytes
        (.empty Payload)) := Kv.get_put_self ..
  have hbytes := congrArg (headerOf (PayloadJson.empty Payload))
    (Option.some.inj (hblock.symm.trans hget))
  have hshort : ∀ p, ((PayloadJson.empty Payload).print p).length < 2 ^ 32 :=
    fun _ => (by decide : 2 < 2 ^ 32)
  rw [headerOf_toBytes, headerOf_toBytes, if_pos (hshort _), if_pos (hshort _)] at hbytes
  rw [← Option.some.inj hbytes]
  decide +kernel

/-- The block behind one with an entry, in an epoch without. -/
theorem committed_iff_quiet :
    Committed stakeNode (.empty Payload) (recorded quiet) (after quiet) 2
      (sealedBlock stakeNode (.empty Payload) 2 "" 0 (after quiet)) := by
  have hrun : Run (component stakeNode (.empty Payload)) Admitted (recorded quiet) (after quiet) :=
    Run.exec (.start ⟨rfl, rfl⟩) ⟨(by decide : 1 < 2 ^ 64), (by decide : 1 < 2 ^ 64), trivial⟩
  refine ((committed_iff hrun (by decide)).2 noZero_quiet).2 ⟨?_, by decide, ?_⟩
  · rintro e ⟨⟨w, hmem⟩, -, hepoch⟩
    rcases List.mem_cons.1 hmem with heq | hmem
    · cases (Prod.mk.inj heq).2
    · cases (Prod.mk.inj (List.mem_singleton.1 hmem)).2
      exact absurd hepoch (by decide)
  · intro before _ _
    exact (by decide : 2 < 2 ^ 32)

/-- The root of one entry, an entry behind another with the same prefix, and an epoch beyond 32
bits. -/
theorem uncommitted :
    ¬ Committed stakeNode (.empty Payload) (recorded [.applyEntry (staking "sdzi")])
      (after [.applyEntry (staking "sdzi")]) 1
      (sealedBlock stakeNode (.empty Payload) 1 "" 0 (after [.applyEntry (staking "sdzi")])) ∧
    (Indexed (recorded [.applyEntry (staking "sdzi"), .applyEntry (staking "wbei")]) 1 (staking "sdzi") ∧
      stakeNode.entryHash (staking "sdzi") ≠ stakeNode.entryHash (staking "wbei") ∧
      staking "sdzi" ∉ filed (after [.applyEntry (staking "sdzi"), .applyEntry (staking "wbei")]) 1) ∧
    (sealedBlock stakeNode (.empty Payload) (2 ^ 32) "" 0 fresh).header.epochNumber = 0 ∧
    ¬ ∀ hist w epoch sealHash timestampMs, Run (component stakeNode (.empty Payload)) Admitted hist w →
      epoch < 2 ^ 64 → Committed stakeNode (.empty Payload) hist w epoch
        (sealedBlock stakeNode (.empty Payload) epoch sealHash timestampMs w) := by
  have hone : ¬ Committed stakeNode (.empty Payload) (recorded [.applyEntry (staking "sdzi")])
      (after [.applyEntry (staking "sdzi")]) 1
      (sealedBlock stakeNode (.empty Payload) 1 "" 0 (after [.applyEntry (staking "sdzi")])) := by
    intro h
    have hroot : merkleRoot stakeNode
        ((filed (after [.applyEntry (staking "sdzi")]) 1).map stakeNode.entryHash) ≠ zeroHash := by
      decide +kernel
    exact hroot (txRoot_eq_self_iff.1 h.root)
  refine ⟨hone, ⟨?_, by decide +kernel, ?_⟩, by decide, ?_⟩
  · exact ⟨⟨_, List.mem_cons_of_mem _ List.mem_cons_self⟩, List.cons_ne_nil _ _, rfl⟩
  · intro hmem
    have hrun : Run (component stakeNode (.empty Payload)) Admitted
        (recorded [.applyEntry (staking "sdzi"), .applyEntry (staking "wbei")])
        (after [.applyEntry (staking "sdzi"), .applyEntry (staking "wbei")]) :=
      Run.exec (.start ⟨rfl, rfl⟩) ⟨(by decide : 1 < 2 ^ 64), (by decide : 1 < 2 ^ 64), trivial⟩
    have hget := ((mem_filed (faithful_of_run hrun) (by decide)).1 hmem).1
    -- both are filed under one key, and the second came last
    have hkey : globalKey stakeNode (staking "wbei") = globalKey stakeNode (staking "sdzi") := by
      decide +kernel
    have hput : (after [.applyEntry (staking "sdzi"), .applyEntry (staking "wbei")]).txglobal.get
        (globalKey stakeNode (staking "wbei")) = some (staking "wbei") := Kv.get_put_self ..
    rw [hkey, hget] at hput
    have hsame := LedgerEntry.stake.inj (Option.some.inj hput)
    exact absurd (congrArg Stake.account hsame) (by decide)
  · intro h
    refine hone (h _ _ 1 "" 0 (Run.exec (.start ⟨rfl, rfl⟩) ?_) (by decide))
    exact ⟨(by decide : 1 < 2 ^ 64), trivial⟩

end Runs

end HoneNode.Blocks
