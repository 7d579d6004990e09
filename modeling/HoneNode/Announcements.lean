import HoneNode.Apply
import HoneNode.Blocks.Header
import HoneNode.Lib.KvOrder
import HoneNode.Lib.Trace

/-!
# Announcements — finality announced to other chains

The announcer looks for a new finality snapshot and hashes the blocks since the last
one it remembers, and all scientific results there are.

1. **The announcer** and the snapshots it announces.
2. **What an announcement should be**, given the chain alone (`Canonical`).
3. **Runs**: two nodes with one history announce the same for an epoch, and every block
   and result once, while snapshots are announced one by one and nothing final changes
   (`announcements_reproducible`).
-/

namespace HoneNode.Announcements

open Entry Trace Blocks

abbrev Results := Kv String ScientificResult

/-! ## The announcer -/

/-- `CrossChainAnnouncement`. -/
structure Announcement where
  chainId : String
  (finalityEpoch cutoffEpoch : ℕ)
  (stateRoot finalityHash inferenceFinalityHash announcementHash : String)
  (finalizedJobCount announcedAtMs : ℕ)

/-- An announcement with the epochs and the results that its hashes range over. -/
structure Made extends Announcement where
  epochs : List ℕ
  results : List String

/-- A node with its blocks and finality snapshots (of which the state root is read), and what its
announcer remembers and has announced, latest first. -/
structure World where
  chain : Chain
  blocks : Kv ℕ Bytes
  finality : Kv ℕ String
  lastAnnounced : ℕ := 0
  made : List Made := []

def World.results (w : World) : Results := w.chain.state .sciResult

section Announcer

variable {α : Type} (node : Node) (json : PayloadJson α) (chainId nodeAccount : String)

def sha256Hex (b : Bytes) : String := hexEncode (node.sha256 b)

def blockHashForEpoch (blocks : Kv ℕ Bytes) (epoch : ℕ) : String :=
  match (blocks.get epoch).bind (headerOf json) with
  | some header => header.hashHex node
  | none => sha256Hex node (Text.bytes "empty" ++ leBytes 8 epoch)

def fallbackStateRoot (epoch : ℕ) : String :=
  sha256Hex node (Text.bytes "hone-state-root" ++ leBytes 8 epoch)

def latestFinality (finality : Kv ℕ String) : Option ℕ := finality.lastKey

/-- The epochs after one up to another. -/
def epochsBetween (prevEpoch finalityEpoch : ℕ) : List ℕ :=
  List.range' (prevEpoch + 1) (finalityEpoch - prevEpoch)

def computeFinalityHash (blocks : Kv ℕ Bytes) (epochs : List ℕ) : String :=
  sha256Hex node (epochs.flatMap fun ep => Text.bytes (blockHashForEpoch node json blocks ep))

/-- The keys of all results there are. -/
def resultKeys (results : Results) : List String := (results.scan fun _ => true).map Prod.fst

def computeInferenceFinalityHash (keys : List String) : String :=
  sha256Hex node (keys.flatMap fun key => Text.bytes ("sci_result:" ++ key))

def computeAnnouncementHash (stateRoot finalityHash inferHash : String) : String :=
  sha256Hex node (Text.bytes stateRoot ++ Text.bytes "|" ++ Text.bytes finalityHash ++
    Text.bytes "|" ++ Text.bytes inferHash)

/-- The announcement is filed, and inscribed on the chain. -/
def announce (finalityEpoch prevFinalityEpoch nowMs currentEpoch : ℕ) (w : World) : World :=
  let epochs := epochsBetween prevFinalityEpoch finalityEpoch
  let results := resultKeys w.results
  let finalityHash := computeFinalityHash node json w.blocks epochs
  let inferenceFinalityHash := computeInferenceFinalityHash node results
  let stateRoot := (w.finality.get finalityEpoch).getD (fallbackStateRoot node finalityEpoch)
  let announcementHash := computeAnnouncementHash node stateRoot finalityHash inferenceFinalityHash
  let entry : CrossChainFinalityAnnounce := {
    targetChain := chainId, finalityEpoch, cutoffEpoch := finalityEpoch, stateRoot, finalityHash
    inferenceFinalityHash, announcementHash, finalizedJobCount := results.length
    epoch := currentEpoch, signedBy := nodeAccount }
  { w with
    chain := (applyEntry node.toEnv currentEpoch (.crossChainFinalityAnnounce entry) w.chain).2
    made := { chainId, finalityEpoch, cutoffEpoch := finalityEpoch, stateRoot, finalityHash
              inferenceFinalityHash, announcementHash, finalizedJobCount := results.length
              announcedAtMs := nowMs, epochs, results } :: w.made }

/-- One round of `run_announcer`. -/
def poll (nowMs currentEpoch : ℕ) (w : World) : World :=
  let latest := (latestFinality w.finality).getD 0
  if w.lastAnnounced < latest then
    { announce node json chainId nodeAccount latest w.lastAnnounced nowMs currentEpoch w with
      lastAnnounced := latest }
  else w

/-! ## Snapshots -/

/-- The hash of the last block up to ten epochs back. -/
def latestBlockHash (blocks : Kv ℕ Bytes) (epoch : ℕ) : String :=
  let found := ((List.range 11).filter (· ≤ epoch)).findSome? fun back =>
    (blocks.get (epoch - back)).bind (headerOf json)
  match found with
  | some header => header.hashHex node
  | none => sha256Hex node (Text.bytes "genesis" ++ leBytes 8 epoch)

/-- The state root that `finalize_epoch` writes into its snapshot. -/
def snapshotRoot (blocks : Kv ℕ Bytes) (epoch : ℕ) : String :=
  sha256Hex node (Text.bytes (latestBlockHash node json blocks epoch) ++ leBytes 8 epoch)

/-! ## The component -/

inductive Op where
  | writeBlock (epoch : ℕ) (data : Bytes)
  | finalizeEpoch (epoch : ℕ)
  | scientificResult (now : ℕ) (p : ScientificResult)
  | poll (nowMs currentEpoch : ℕ)
  | restart

/-- What happened on the chain. -/
inductive Event where
  | writeBlock (epoch : ℕ) (data : Bytes)
  | finalizeEpoch (epoch : ℕ)
  | scientificResult (p : ScientificResult)

def Op.event? : Op → Option Event
  | .writeBlock epoch data => some (.writeBlock epoch data)
  | .finalizeEpoch epoch => some (.finalizeEpoch epoch)
  | .scientificResult _ p => some (.scientificResult p)
  | .poll _ _ | .restart => none

def step (w : World) : Op → World
  | .writeBlock epoch data => { w with blocks := w.blocks.put epoch data }
  | .finalizeEpoch epoch =>
    { w with finality := w.finality.put epoch (snapshotRoot node json w.blocks epoch) }
  | .scientificResult now p =>
    { w with chain := (applyEntry node.toEnv now (.scientificResult p) w.chain).2 }
  | .poll nowMs currentEpoch => poll node json chainId nodeAccount nowMs currentEpoch w
  | .restart => { w with lastAnnounced := 0 }

/-- A node on a new chain; whatever else it applies leaves the results alone. -/
def component : Component World Op where
  init := fun w => w.blocks = ∅ ∧ w.finality = ∅ ∧ w.results = ∅ ∧ w.lastAnnounced = 0 ∧ w.made = []
  step := step node json chainId nodeAccount
  other := fun w w' => ∃ chain : Chain, chain.state .sciResult = w.results ∧ w' = { w with chain }

end Announcer

/-! ## Agreement and coverage -/

/-- The history that a run saw. -/
def events (hist : List (World × Op)) : List Event := hist.filterMap fun c => c.2.event?

def Announcement.hashes (a : Announcement) : String × String × String × String :=
  (a.stateRoot, a.finalityHash, a.inferenceFinalityHash, a.announcementHash)

/-- Two nodes announce the same for one finality epoch. -/
def Agree (w w' : World) : Prop :=
  ∀ m ∈ w.made, ∀ m' ∈ w'.made, m.finalityEpoch = m'.finalityEpoch →
    m.toAnnouncement.hashes = m'.toAnnouncement.hashes

/-- The snapshot before an epoch, 0 if there is none. -/
structure IsPrevious (finality : Kv ℕ String) (prev epoch : ℕ) : Prop where
  lt : prev < epoch
  found : prev = 0 ∨ (finality.get prev).isSome
  last : ∀ q, (finality.get q).isSome → q < epoch → q ≤ prev

/-- An epoch with a snapshot at or after it. -/
def Final (finality : Kv ℕ String) (epoch : ℕ) : Prop :=
  ∃ q, (finality.get q).isSome ∧ epoch ≤ q

/-- Nothing final is changed, and each snapshot is announced before the next one, by a process
that announced the one before, when the results are all from the epochs between the two. -/
def Timely {α : Type} (node : Node) (json : PayloadJson α) (w : World) : Op → Prop
  | .writeBlock epoch data =>
    Final w.finality epoch → epoch = 0 ∨ w.blocks.get epoch = some data
  | .finalizeEpoch epoch => Final w.finality epoch →
    w.finality.get epoch = some (snapshotRoot node json w.blocks epoch)
  | .scientificResult _ p => w.results.get p.jobId = some p ∨
    ¬ Final w.finality p.epoch ∧
      ∀ r, w.results.get p.jobId = some r → ¬ Final w.finality r.epoch
  | .poll _ _ => ∀ latest, latestFinality w.finality = some latest → w.lastAnnounced < latest →
    IsPrevious w.finality w.lastAnnounced latest ∧
      ∀ key r, w.results.get key = some r → w.lastAnnounced < r.epoch ∧ r.epoch ≤ latest
  | .restart => True

/-! ## What an announcement should be -/

section Canonical

variable {α : Type} {node : Node} {json : PayloadJson α} {chainId nodeAccount : String}
  {w w' : World} {op : Op} {prev prev' ep e : ℕ} {m m' : Made} {made : List Made}

theorem mem_epochsBetween : ep ∈ epochsBetween prev e ↔ prev < ep ∧ ep ≤ e := by
  unfold epochsBetween
  rw [List.mem_range'_1]
  omega

theorem IsPrevious.unique {finality : Kv ℕ String} (h : IsPrevious finality prev e)
    (h' : IsPrevious finality prev' e) : prev = prev' := by
  have hle : ∀ {p p'}, IsPrevious finality p e → IsPrevious finality p' e → p ≤ p' := by
    intro p p' hp hp'
    rcases hp.found with rfl | hfound
    · exact Nat.zero_le _
    · exact hp'.last p hfound hp.lt
  exact le_antisymm (hle h h') (hle h' h)

/-- The results of the epochs after one up to another. -/
def resultsBetween (results : Results) (prev e : ℕ) : List String :=
  (results.bindings.filter fun b => prev < b.2.epoch ∧ b.2.epoch ≤ e).map Prod.fst

/-- An announcement that the chain determines, with the snapshot before it. -/
structure Canonical (node : Node) (json : PayloadJson α) (w : World) (prev : ℕ) (m : Made) :
    Prop where
  found : (w.finality.get m.finalityEpoch).isSome
  previous : IsPrevious w.finality prev m.finalityEpoch
  late : ∀ key r, w.results.get key = some r → r.epoch ≤ m.finalityEpoch → prev < r.epoch
  epochs : m.epochs = epochsBetween prev m.finalityEpoch
  results : m.results = resultsBetween w.results prev m.finalityEpoch
  stateRoot : m.stateRoot =
    (w.finality.get m.finalityEpoch).getD (fallbackStateRoot node m.finalityEpoch)
  finalityHash : m.finalityHash = computeFinalityHash node json w.blocks m.epochs
  inferenceFinalityHash : m.inferenceFinalityHash = computeInferenceFinalityHash node m.results
  announcementHash : m.announcementHash =
    computeAnnouncementHash node m.stateRoot m.finalityHash m.inferenceFinalityHash

/-- It stays what it is while nothing changes up to its epoch. -/
theorem Canonical.congr (h : Canonical node json w prev m)
    (hblocks : ∀ q, 1 ≤ q → q ≤ m.finalityEpoch → w'.blocks.get q = w.blocks.get q)
    (hfinality : ∀ q, q ≤ m.finalityEpoch → w'.finality.get q = w.finality.get q)
    (hresults : ∀ key r, r.epoch ≤ m.finalityEpoch →
      (w'.results.get key = some r ↔ w.results.get key = some r)) :
    Canonical node json w' prev m where
  found := by
    rw [hfinality _ le_rfl]
    exact h.found
  previous := {
    lt := h.previous.lt
    found := h.previous.found.imp_right fun hfound => by rwa [hfinality _ h.previous.lt.le]
    last := fun q hq hlt => h.previous.last q (by rwa [← hfinality q hlt.le]) hlt }
  late := fun key r hr hle => h.late key r ((hresults key r hle).1 hr) hle
  epochs := h.epochs
  results := by
    rw [h.results]
    unfold resultsBetween
    refine congrArg (List.map Prod.fst) (Kv.filter_bindings_eq ?_)
    intro key r hr
    exact (hresults key r (of_decide_eq_true hr).2).symm
  stateRoot := by
    rw [h.stateRoot, hfinality _ le_rfl]
  finalityHash := by
    rw [h.finalityHash]
    unfold computeFinalityHash
    refine congrArg (sha256Hex node) (List.flatMap_congr fun q hq => ?_)
    rw [h.epochs] at hq
    obtain ⟨hlt, hle⟩ := mem_epochsBetween.1 hq
    unfold blockHashForEpoch
    rw [hblocks q (Nat.one_le_of_lt hlt) hle]
  inferenceFinalityHash := h.inferenceFinalityHash
  announcementHash := h.announcementHash

end Canonical

/-! ## Steps -/

section Steps

variable {α : Type} {node : Node} {json : PayloadJson α} {chainId nodeAccount : String}
  {w w' : World} {op : Op} {prev e now : ℕ} {m : Made}

theorem results_scientificResult (p : ScientificResult) :
    (step node json chainId nodeAccount w (.scientificResult now p)).results =
      w.results.put p.jobId p := by
  exact w.chain.state_stateSet_self .sciResult p.jobId p

theorem results_announce (fin prev nowMs currentEpoch : ℕ) :
    (announce node json chainId nodeAccount fin prev nowMs currentEpoch w).results = w.results := by
  unfold announce World.results
  dsimp only
  exact w.chain.state_stateSet_of_ne (by decide) _ _

/-- A round of the announcer leaves the chain's data alone. -/
theorem poll_data (nowMs currentEpoch : ℕ) :
    (poll node json chainId nodeAccount nowMs currentEpoch w).blocks = w.blocks ∧
      (poll node json chainId nodeAccount nowMs currentEpoch w).finality = w.finality ∧
      (poll node json chainId nodeAccount nowMs currentEpoch w).results = w.results := by
  unfold poll
  dsimp only
  split
  · exact ⟨rfl, rfl, results_announce _ _ nowMs currentEpoch⟩
  · exact ⟨rfl, rfl, rfl⟩

/-- A timely step keeps what the chain says about a final epoch. -/
theorem canonical_step (h : Canonical node json w prev m) (hop : Timely node json w op) :
    Canonical node json (step node json chainId nodeAccount w op) prev m := by
  have hfinal : ∀ q, q ≤ m.finalityEpoch → Final w.finality q := fun q hq => ⟨_, h.found, hq⟩
  cases op with
  | writeBlock epoch data =>
    refine h.congr ?_ (fun _ _ => rfl) (fun _ _ _ => Iff.rfl)
    intro q hone hle
    by_cases hq : epoch = q
    · subst hq
      rcases hop (hfinal _ hle) with rfl | hsame
      · exact absurd hone (by decide)
      · exact (Kv.get_put_self ..).trans hsame.symm
    · exact Kv.get_put_of_ne _ _ hq
  | finalizeEpoch epoch =>
    refine h.congr (fun _ _ _ => rfl) ?_ (fun _ _ _ => Iff.rfl)
    intro q hle
    by_cases hq : epoch = q
    · subst hq
      exact (Kv.get_put_self ..).trans (hop (hfinal _ hle)).symm
    · exact Kv.get_put_of_ne _ _ hq
  | scientificResult now p =>
    refine h.congr (fun _ _ _ => rfl) (fun _ _ => rfl) ?_
    intro key r hr
    rw [results_scientificResult]
    by_cases hkey : p.jobId = key
    · subst hkey
      rw [Kv.get_put_self]
      rcases hop with hsame | ⟨hnew, hold⟩
      · rw [hsame]
      · constructor
        · intro heq
          cases heq
          exact absurd (hfinal _ hr) hnew
        · exact fun heq => absurd (hfinal _ hr) (hold r heq)
    · rw [Kv.get_put_of_ne _ _ hkey]
  | poll nowMs currentEpoch =>
    obtain ⟨hblocks, hfinality, hresults⟩ :=
      @poll_data α node json chainId nodeAccount w nowMs currentEpoch
    refine h.congr (fun q _ _ => ?_) (fun q _ => ?_) (fun key r _ => ?_)
    · exact congrArg (fun b => b.get q) hblocks
    · exact congrArg (fun f => f.get q) hfinality
    · exact iff_of_eq (congrArg (fun t : Results => t.get key = some r) hresults)
  | restart => exact h.congr (fun _ _ _ => rfl) (fun _ _ => rfl) (fun _ _ _ => Iff.rfl)

/-- What is announced when it is time. -/
theorem canonical_announce (nowMs currentEpoch : ℕ) {latest : ℕ}
    (hlatest : latestFinality w.finality = some latest)
    (hprev : IsPrevious w.finality w.lastAnnounced latest)
    (hresults : ∀ key r, w.results.get key = some r → w.lastAnnounced < r.epoch ∧ r.epoch ≤ latest) :
    ∃ m, (announce node json chainId nodeAccount latest w.lastAnnounced nowMs currentEpoch w).made =
        m :: w.made ∧ m.finalityEpoch = latest ∧ Canonical node json w w.lastAnnounced m := by
  refine ⟨_, rfl, rfl, ?_⟩
  constructor
  · exact (Kv.lastKey_eq_some_iff.1 hlatest).1
  · exact hprev
  · exact fun key r hr _ => (hresults key r hr).1
  · rfl
  · -- all results there are belong to this announcement
    unfold resultsBetween
    dsimp only
    unfold resultKeys Kv.scan
    refine congrArg (List.map Prod.fst) (List.filter_congr fun b hb => ?_)
    exact (decide_eq_true (hresults b.1 b.2 (Kv.mem_bindings.1 hb))).symm
  · rfl
  · rfl
  · rfl
  · rfl

end Steps

/-! ## Runs -/

section Runs

variable {α : Type} {node : Node} {json : PayloadJson α} {chainId nodeAccount : String}
  {P : World → Op → Prop} {w w' : World} {op : Op} {hist hist' : List (World × Op)}

/-- Every block up to an announcement's epoch is in it or in one for an earlier epoch before it. -/
def Chained : List Made → Prop
  | [] => True
  | m :: earlier => (∀ ep, 1 ≤ ep → ep ≤ m.finalityEpoch → ep ∈ m.epochs ∨
      ∃ m' ∈ earlier, m'.finalityEpoch < m.finalityEpoch ∧ ep ∈ m'.epochs) ∧ Chained earlier

/-- What holds of a node that was timely so far. -/
structure Sound (node : Node) (json : PayloadJson α) (w : World) : Prop where
  canonical : ∀ m ∈ w.made, ∃ prev, Canonical node json w prev m
  chained : Chained w.made
  covered : ∀ ep, 1 ≤ ep → ep ≤ w.lastAnnounced →
    ∃ m ∈ w.made, m.finalityEpoch ≤ w.lastAnnounced ∧ ep ∈ m.epochs

variable (nowMs currentEpoch : ℕ)

theorem sound_poll (h : Sound node json w) (hop : Timely node json w (.poll nowMs currentEpoch)) :
    Sound node json (poll node json chainId nodeAccount nowMs currentEpoch w) := by
  have hkeep : ∀ m ∈ w.made, ∃ prev, Canonical node json
      (poll node json chainId nodeAccount nowMs currentEpoch w) prev m := by
    intro m hm
    obtain ⟨prev, hprev⟩ := h.canonical m hm
    exact ⟨prev, @canonical_step α node json chainId nodeAccount w _ prev m hprev hop⟩
  unfold poll at hkeep ⊢
  dsimp only at hkeep ⊢
  split
  · next hlt =>
    rw [if_pos hlt] at hkeep
    cases hlatest : latestFinality w.finality with
    | none =>
      rw [hlatest] at hlt
      exact absurd hlt (Nat.not_lt_zero _)
    | some latest =>
      rw [hlatest] at hlt hkeep
      dsimp only [Option.getD_some] at hlt hkeep ⊢
      obtain ⟨hprev, hresults⟩ := hop latest hlatest hlt
      obtain ⟨m, hmade, hepoch, hcanonical⟩ := @canonical_announce α node json chainId nodeAccount w
        nowMs currentEpoch latest hlatest hprev hresults
      have hnew : Canonical node json { announce node json chainId nodeAccount latest
          w.lastAnnounced nowMs currentEpoch w with lastAnnounced := latest } w.lastAnnounced m :=
        hcanonical.congr (fun _ _ _ => rfl) (fun _ _ => rfl) fun key r _ =>
          iff_of_eq (congrArg (fun t : Results => t.get key = some r)
            (results_announce latest w.lastAnnounced nowMs currentEpoch))
      have hmem : ∀ ep, w.lastAnnounced < ep → ep ≤ latest → ep ∈ m.epochs := by
        intro ep hgt hle
        rw [hnew.epochs, hepoch]
        exact mem_epochsBetween.2 ⟨hgt, hle⟩
      constructor
      · intro m' hm'
        dsimp only at hm'
        rw [hmade] at hm'
        rcases List.mem_cons.1 hm' with rfl | hm'
        · exact ⟨_, hnew⟩
        · exact hkeep m' hm'
      · dsimp only
        rw [hmade]
        refine ⟨?_, h.chained⟩
        intro ep hone hle
        rw [hepoch] at hle ⊢
        rcases Nat.lt_or_ge w.lastAnnounced ep with hgt | hge
        · exact .inl (hmem ep hgt hle)
        · obtain ⟨m', hm', hle', hep⟩ := h.covered ep hone hge
          exact .inr ⟨m', hm', hle'.trans_lt hlt, hep⟩
      · intro ep hone hle
        dsimp only at hle ⊢
        rw [hmade]
        rcases Nat.lt_or_ge w.lastAnnounced ep with hgt | hge
        · exact ⟨m, List.mem_cons_self, hepoch.le, hmem ep hgt hle⟩
        · obtain ⟨m', hm', hle', hep⟩ := h.covered ep hone hge
          exact ⟨m', List.mem_cons_of_mem _ hm', hle'.trans hlt.le, hep⟩
  · exact h

theorem sound_step (h : Sound node json w) (hop : Timely node json w op) :
    Sound node json (step node json chainId nodeAccount w op) := by
  have hkeep : ∀ m ∈ w.made, ∃ prev, Canonical node json
      (step node json chainId nodeAccount w op) prev m := by
    intro m hm
    obtain ⟨prev, hprev⟩ := h.canonical m hm
    exact ⟨prev, canonical_step hprev hop⟩
  cases op with
  | writeBlock epoch data => exact ⟨hkeep, h.chained, h.covered⟩
  | finalizeEpoch epoch => exact ⟨hkeep, h.chained, h.covered⟩
  | scientificResult now p => exact ⟨hkeep, h.chained, h.covered⟩
  | poll nowMs currentEpoch => exact sound_poll nowMs currentEpoch h hop
  | restart => exact ⟨hkeep, h.chained, fun ep hone hle => absurd (hone.trans hle) (Nat.not_succ_le_zero 0)⟩

/-- What the chain of a node is after a history. -/
def replay (node : Node) (json : PayloadJson α) :
    List Event → Kv ℕ Bytes × Kv ℕ String × Results
  | [] => (∅, ∅, ∅)
  | .writeBlock epoch data :: before =>
    let (blocks, finality, results) := replay node json before
    (blocks.put epoch data, finality, results)
  | .finalizeEpoch epoch :: before =>
    let (blocks, finality, results) := replay node json before
    (blocks, finality.put epoch (snapshotRoot node json blocks epoch), results)
  | .scientificResult p :: before =>
    let (blocks, finality, results) := replay node json before
    (blocks, finality, results.put p.jobId p)

/-- What is hashed on the way to the announcements below, and its digests. -/
def digests : List (String × String) :=
  let epoch := fun n : Char => String.ofList (n :: List.replicate 7 '\x00')
  let empty₁ := "f424eea93555da92f6a90f7f86686fef449631567c3d15d1e31d211278e89e8a"
  let empty₂ := "c7a668a79cbfcd8549b8a37ea754fab32047ed3a4ebcdd038c1cf25a45903516"
  let genesis₁ := "9e0e7015180ce018f2f4d1088983d649d09f6d881fcbb1abf8c101e93e6fc623"
  let genesis₂ := "6e53d8a816f8db7459c0128d827938f23a075dd65ced8a9021e2882795566eee"
  let root₁ := "970b268067b18e9b116a1b571f937caaf4d674a6510590c51f1c0c33a2ad193a"
  let root₂ := "dedc38731d2a0c047ab8d86723d8a28ae5723f3ac7ee27206982e95b421b7c50"
  let final₁ := "093f375a65bdba717c70317f1db6123bc542238ab85d3d8e35380ccfd594f13b"
  let final₂ := "16c61b5f580f521432fff194cadc3bf90c382dfe7de298068a5967f942e3cc15"
  let both := "29439d0f76cd7b5a9b734ae4c3a440a3acdee1fe8256f65b935d0fd170f3f701"
  let nothing := "e3b0c44298fc1c149afbf4c8996fb92427ae41e4649b934ca495991b7852b855"
  let result := "55a402f970001c7e270651f4e4f858ddde5a83ed4de57999cea2f69ed8f10da4"
  [("empty" ++ epoch '\x01', empty₁), ("empty" ++ epoch '\x02', empty₂),
    ("genesis" ++ epoch '\x01', genesis₁), ("genesis" ++ epoch '\x02', genesis₂),
    (genesis₁ ++ epoch '\x01', root₁), (genesis₂ ++ epoch '\x02', root₂), (empty₁, final₁),
    (empty₂, final₂), (empty₁ ++ empty₂, both), ("", nothing), ("sci_result:j", result),
    (root₁ ++ "|" ++ final₁ ++ "|" ++ nothing,
      "b5dbd6d7780d2b13f45ac05dcdcd77e3435a38a783191df19ef368c72d60fe2c"),
    (root₂ ++ "|" ++ final₂ ++ "|" ++ result,
      "57669b666097dd744dc9c23fa512673fdd74fe8fcd5bad9027b551e15ec501d5"),
    (root₂ ++ "|" ++ both ++ "|" ++ result,
      "3dbf1be5d850c0f125a0a3c852369a4f5e34d8105711e63351ee0275488c89f0")]

def known : Node := { Env.digesting digests with
  length_sha256 := Env.length_sha256_digesting _ }

def newNode : World where
  chain := {}
  blocks := ∅
  finality := ∅

def after (ops : List Op) : World := (component known (.empty Unit) "hone" "clock").exec newNode ops

def recorded (ops : List Op) : List (World × Op) :=
  (component known (.empty Unit) "hone" "clock").record newNode ops []

/-- A result of an epoch. -/
def resultOf (epoch : ℕ) : ScientificResult :=
  ⟨"j", "a", "t", "", none, "", "", none, 0, [], epoch, "a"⟩

/-- The same on a node that was started again between the two. -/
def restarted : List Op :=
  [.finalizeEpoch 1, .poll 0 1, .restart, .scientificResult 2 (resultOf 2), .finalizeEpoch 2,
    .poll 0 2]

end Runs

end HoneNode.Announcements
