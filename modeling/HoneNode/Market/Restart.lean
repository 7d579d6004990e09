import HoneNode.Market.Requests

/-!
# Market.Restart — what a restart makes of the files

`persist` appends a line to `pending-entries.jsonl` and applies the entry; a
restart applies the entries of the block files and then those lines to an empty
state (`ledger.rs`). Nothing tells an entry that is in both, and a line that is
cut off runs into the one after it.
-/

namespace HoneNode.Market

open Trace

/-! ## Lines -/

/-- The complete lines so far, and the one that is being read. -/
def feed (read : List (List UInt8) × List UInt8) (b : UInt8) : List (List UInt8) × List UInt8 :=
  if b = 10 then (read.1 ++ [read.2], []) else (read.1, read.2 ++ [b])

def scan (bytes : List UInt8) : List (List UInt8) × List UInt8 := bytes.foldl feed ([], [])

/-- `BufRead::lines`: a last line without its newline is one too. -/
def lines (bytes : List UInt8) : List (List UInt8) :=
  if (scan bytes).2 = [] then (scan bytes).1 else (scan bytes).1 ++ [(scan bytes).2]

variable {text : List UInt8}

theorem foldl_feed (h : (10 : UInt8) ∉ text) (read : List (List UInt8) × List UInt8) :
    text.foldl feed read = (read.1, read.2 ++ text) := by
  induction text generalizing read with
  | nil => exact (congrArg (read.1, ·) (List.append_nil _)).symm
  | cons b text ih =>
    have hb : b ≠ 10 := fun heq => h (heq ▸ List.mem_cons_self)
    have htext : (10 : UInt8) ∉ text := fun hmem => h (List.mem_cons_of_mem _ hmem)
    have hfeed : feed read b = (read.1, read.2 ++ [b]) := if_neg hb
    rw [List.foldl_cons, hfeed, ih htext, List.append_assoc]
    rfl

theorem scan_append (bytes : List UInt8) (h : (10 : UInt8) ∉ text) :
    scan (bytes ++ text) = ((scan bytes).1, (scan bytes).2 ++ text) := by
  unfold scan
  rw [List.foldl_append]
  exact foldl_feed h _

theorem scan_append_line (bytes : List UInt8) (h : (10 : UInt8) ∉ text) :
    scan (bytes ++ text ++ [10]) = ((scan bytes).1 ++ [(scan bytes).2 ++ text], []) := by
  have hscan : scan (bytes ++ text ++ [10]) = feed (scan (bytes ++ text)) 10 := by
    unfold scan
    rw [List.foldl_append]
    rfl
  rw [hscan, scan_append _ h]
  rfl

/-! ## Files -/

/-- `serde_json`: the line of an entry, and the value of a text that is one. -/
structure Codec where
  text : LedgerEntry → List UInt8
  parse : List UInt8 → Option Json

structure Disk where
  pending : List UInt8
  blocks : List (String × List UInt8)

variable (codec : Codec)

/-- Apply values in order; the count is what the log shows. -/
def replay (m : MarketState) (values : List Json) : Option (MarketState × ℕ) :=
  (values.foldlM MarketState.applyEntry m).map (·, values.length)

def loadPendingEntries (disk : Disk) (m : MarketState) : Option (MarketState × ℕ) :=
  replay m ((lines disk.pending).filterMap codec.parse)

/-- The extension of the file is `bin`. -/
def isBin (name : String) : Bool := Text.hasSuffix ".bin" name && decide (name ≠ ".bin")

def blockEntries (content : List UInt8) : List Json :=
  match codec.parse content with
  | some block => (((block.index "payload").index "ledger_entries").asArray).getD []
  | none => []

/-- The files are read in the order of their names, as texts. -/
def loadBlockFiles (disk : Disk) (m : MarketState) : Option (MarketState × ℕ) :=
  replay m (((disk.blocks.mergeSort fun a b => decide (a.1 ≤ b.1)).filter (isBin ·.1)).flatMap
    fun file => blockEntries codec file.2)

def restart (disk : Disk) : Option MarketState :=
  (loadBlockFiles codec disk .fresh).bind fun (m, _) =>
    (loadPendingEntries codec disk m).map Prod.fst

/-! ## Runs -/

/-- The files, the state in memory and the entries whose `persist` succeeded. -/
structure Process where
  disk : Disk
  market : MarketState
  accepted : List LedgerEntry

inductive Event where
  | persist (entry : LedgerEntry)
  /-- Only so many bytes of a line are written. -/
  | tear (entry : LedgerEntry) (written : ℕ)
  | block (name : String) (content : List UInt8)
  | restart

/-- An entry that panics is in the file all the same. -/
def Process.step (p : Process) : Event → Process
  | .persist entry =>
    let disk := { p.disk with pending := p.disk.pending ++ codec.text entry ++ [10] }
    match p.market.applyEntry entry.toValue with
    | some m => ⟨disk, m, p.accepted ++ [entry]⟩
    | none => ⟨disk, p.market, p.accepted⟩
  | .tear entry written =>
    let disk := { p.disk with pending := p.disk.pending ++ (codec.text entry).take written }
    ⟨disk, p.market, p.accepted⟩
  | .block name content =>
    ⟨{ p.disk with blocks := p.disk.blocks ++ [(name, content)] }, p.market, p.accepted⟩
  | .restart => ⟨p.disk, (Market.restart codec p.disk).getD p.market, p.accepted⟩

def process : Component Process Event where
  init p := p = ⟨⟨[], []⟩, .fresh, []⟩
  step := Process.step codec

/-- The state that applying each of the entries once, in order, yields. -/
def expected (accepted : List LedgerEntry) : Option MarketState :=
  (accepted.map LedgerEntry.toValue).foldlM MarketState.applyEntry .fresh

/-! ## When a restart loses nothing -/

/-- Nothing is appended to a line that was cut off, no line survives without its newline, an
entry reads back as it was written and does not panic, and no block file has entries. -/
def Replayable (p : Process) : Event → Prop
  | .persist entry => (scan p.disk.pending).2 = [] ∧
    codec.parse (codec.text entry) = some entry.toValue ∧
    (p.market.applyEntry entry.toValue).isSome = true
  | .tear entry written => (scan p.disk.pending).2 = [] ∧ written < (codec.text entry).length
  | .block name content => isBin name = true → blockEntries codec content = []
  | .restart => True

/-- Every complete line is an accepted entry, a last incomplete one is no entry, and the state in
memory is what the entries yield. -/
structure Kept (p : Process) : Prop where
  lines : (scan p.disk.pending).1.filterMap codec.parse = p.accepted.map LedgerEntry.toValue
  tail : (scan p.disk.pending).2 = [] ∨ codec.parse (scan p.disk.pending).2 = none
  blocks : ∀ file ∈ p.disk.blocks, isBin file.1 = true → blockEntries codec file.2 = []
  market : expected p.accepted = some p.market

section Restart

variable {codec} {p : Process}

theorem Kept.restart (h : Kept codec p) : restart codec p.disk = some p.market := by
  have hblocks : ((p.disk.blocks.mergeSort fun a b => decide (a.1 ≤ b.1)).filter (isBin ·.1)).flatMap
      (fun file => blockEntries codec file.2) = [] := by
    rw [List.flatMap_eq_nil_iff]
    intro file hfile
    obtain ⟨hmem, hbin⟩ := List.mem_filter.1 hfile
    exact h.blocks file (List.mem_mergeSort.1 hmem) hbin
  have hpending : (Market.lines p.disk.pending).filterMap codec.parse =
      p.accepted.map LedgerEntry.toValue := by
    unfold Market.lines
    rcases h.tail with htail | htail
    · rw [if_pos htail]
      exact h.lines
    · split
      · exact h.lines
      · rw [List.filterMap_append, h.lines]
        simp [htail]
  have hmarket := h.market
  unfold Market.restart loadBlockFiles loadPendingEntries replay
  unfold expected at hmarket
  rw [hblocks, hpending]
  change ((List.foldlM MarketState.applyEntry MarketState.fresh _).map _).map Prod.fst = _
  rw [hmarket]
  rfl

theorem Kept.step (hline : ∀ entry, (10 : UInt8) ∉ codec.text entry)
    (hpart : ∀ entry written, written < (codec.text entry).length →
      codec.parse ((codec.text entry).take written) = none)
    {event : Event} (h : Kept codec p) (hevent : Replayable codec p event) :
    Kept codec (p.step codec event) := by
  cases event with
  | persist entry =>
    obtain ⟨hclosed, hparse, happly⟩ := hevent
    obtain ⟨m, hm⟩ := Option.isSome_iff_exists.1 happly
    have hstep : p.step codec (.persist entry) =
        ⟨{ p.disk with pending := p.disk.pending ++ codec.text entry ++ [10] }, m,
          p.accepted ++ [entry]⟩ := by
      unfold Process.step
      dsimp only
      rw [hm]
    rw [hstep]
    have hscan := scan_append_line p.disk.pending (hline entry)
    rw [hclosed, List.nil_append] at hscan
    refine ⟨?_, .inl ?_, h.blocks, ?_⟩
    · dsimp only
      rw [hscan, List.filterMap_append, h.lines, List.map_append]
      simp [hparse]
    · exact congrArg Prod.snd hscan
    · have hmarket := h.market
      unfold expected at hmarket ⊢
      rw [List.map_append, List.foldlM_append, hmarket]
      change (List.foldlM MarketState.applyEntry p.market [entry.toValue]) = _
      simp [hm]
  | tear entry written =>
    obtain ⟨hclosed, hwritten⟩ := hevent
    have hnone : (10 : UInt8) ∉ (codec.text entry).take written :=
      fun hmem => hline entry (List.mem_of_mem_take hmem)
    have hscan := scan_append p.disk.pending hnone
    rw [hclosed, List.nil_append] at hscan
    refine ⟨?_, .inr ?_, h.blocks, h.market⟩
    · change (scan (p.disk.pending ++ _)).1.filterMap _ = _
      rw [hscan]
      exact h.lines
    · change codec.parse (scan (p.disk.pending ++ _)).2 = none
      rw [hscan]
      exact hpart entry written hwritten
  | block name content =>
    refine ⟨h.lines, h.tail, ?_, h.market⟩
    intro file hfile
    rcases List.mem_append.1 hfile with hold | hnew
    · exact h.blocks file hold
    · rw [List.mem_singleton.1 hnew]
      exact hevent
  | restart =>
    have hstep : p.step codec .restart = p := by
      unfold Process.step
      dsimp only
      rw [h.restart]
      rfl
    rw [hstep]
    exact h

/-- At any time of a run in which nothing is written twice or runs into a torn line, a restart
yields the state in memory, which is that of every accepted entry applied once. -/
theorem restart_reproduces (hline : ∀ entry, (10 : UInt8) ∉ codec.text entry)
    (hpart : ∀ entry written, written < (codec.text entry).length →
      codec.parse ((codec.text entry).take written) = none)
    {hist : List (Process × Event)} (h : Run (process codec) (Replayable codec) hist p) :
    restart codec p.disk = expected p.accepted ∧ expected p.accepted = some p.market := by
  have hkept : Kept codec p := by
    refine Run.invariant (I := Kept codec) ?_ ?_ ?_ h
    · rintro p rfl
      exact ⟨rfl, .inl rfl, nofun, rfl⟩
    · exact fun p event hevent hp => hp.step hline hpart hevent
    · rintro p p' rfl hp
      exact hp
  exact ⟨hkept.restart.trans hkept.market.symm, hkept.market⟩

end Restart

/-! ## A vote -/

/-- Bob's vote for Ann's store. -/
def vote : LedgerEntry :=
  { LedgerEntry.new "REPUTATION_VOTE" "bob" ⟨20, 1777633800000⟩ with
    reputationData := some (.obj [("voter", .str "bob"), ("target_type", .str "store"),
      ("target_id", .str "ann"), ("vote", .num 1), ("weight", .num 1), ("memo", .null)]) }

@[irreducible] def voteLine : List UInt8 :=
  Text.bytes ("\x7b\"type\":\"REPUTATION_VOTE\",\"from\":\"bob\"," ++
  "\"to\":null,\"token\":\"HONE\",\"amount\":0.0,\"epoch\":20,\"signature\":null," ++
  "\"signed_by\":null,\"memo\":null,\"timestamp\":1777633800000,\"reputation_data\":" ++
  "\x7b\"memo\":null,\"target_id\":\"ann\",\"target_type\":\"store\",\"vote\":1," ++
  "\"voter\":\"bob\",\"weight\":1\x7d\x7d")

def blockText : List UInt8 := Text.bytes "\x7b\"payload\":\x7b\"ledger_entries\":[" ++ voteLine ++
  Text.bytes "]\x7d\x7d"

def blockValue : Json := .obj [("payload", .obj [("ledger_entries", .arr [vote.toValue])])]

/-- What is known of `serde_json` here: how the vote is written and read. -/
def voteCodec : Codec where
  text _ := voteLine
  parse text := if text = voteLine then some vote.toValue
    else if text = blockText then some blockValue else none

theorem voteLine_line : (10 : UInt8) ∉ voteLine := by
  unfold voteLine
  decide

theorem voteLine_length : 20 < voteLine.length := by
  unfold voteLine
  decide +kernel

theorem blockText_length : voteLine.length < blockText.length := by
  unfold blockText
  rw [List.length_append, List.length_append]
  have hopen : 0 < (Text.bytes "]\x7d\x7d").length := by decide
  omega

theorem parse_vote : voteCodec.parse voteLine = some vote.toValue := by
  unfold voteCodec
  exact if_pos rfl

theorem voteCodec_part (entry : LedgerEntry) (written : ℕ)
    (h : written < (voteCodec.text entry).length) :
    voteCodec.parse ((voteCodec.text entry).take written) = none := by
  change written < voteLine.length at h
  have hlength : (voteLine.take written).length = written :=
    List.length_take_of_le (Nat.le_of_lt h)
  have hvote : voteLine.take written ≠ voteLine := by
    intro heq
    rw [heq] at hlength
    omega
  have hblock : voteLine.take written ≠ blockText := by
    intro heq
    have hlt := blockText_length
    rw [heq] at hlength
    omega
  unfold voteCodec
  exact (if_neg hvote).trans (if_neg hblock)

theorem persisted_pending (p : Process) (entry : LedgerEntry) :
    (p.step voteCodec (.persist entry)).disk.pending = p.disk.pending ++ voteLine ++ [10] := by
  unfold Process.step
  dsimp only
  split
  · rfl
  · rfl

def emptyProcess : Process := ⟨⟨[], []⟩, .fresh, []⟩

theorem scan_persisted :
    scan (emptyProcess.step voteCodec (.persist vote)).disk.pending = ([voteLine], []) := by
  rw [persisted_pending]
  exact scan_append_line [] voteLine_line

/-- The second vote is cut off after twenty bytes. -/
def cutOff : List Event := [.persist vote, .tear vote 20, .restart]

theorem restart_reproduces_cutOff :
    restart voteCodec ((process voteCodec).exec emptyProcess cutOff).disk =
        expected ((process voteCodec).exec emptyProcess cutOff).accepted ∧
      expected ((process voteCodec).exec emptyProcess cutOff).accepted =
        some ((process voteCodec).exec emptyProcess cutOff).market := by
  have hlegal : Legal (process voteCodec) (Replayable voteCodec) emptyProcess cutOff :=
    ⟨⟨rfl, parse_vote, rfl⟩, ⟨congrArg Prod.snd scan_persisted, voteLine_length⟩, trivial, trivial⟩
  exact restart_reproduces (fun _ => voteLine_line) voteCodec_part (Run.exec (.start rfl) hlegal)

/-- The vote is also in the first block. -/
def copied : List Event := [.persist vote, .block "1.bin" blockText]

/-- After the restart it counts twice. -/
theorem copied_vote_counts_twice :
    let p := (process voteCodec).exec emptyProcess copied
    Run (process voteCodec) (fun _ _ => True) ((process voteCodec).record emptyProcess copied []) p ∧
    blockEntries voteCodec blockText = p.accepted.map LedgerEntry.toValue ∧
    (expected p.accepted).map (·.reputation.get "ann") = some (some (1, 1)) ∧
    (restart voteCodec p.disk).map (·.reputation.get "ann") = some (some (2, 2)) ∧
    restart voteCodec p.disk ≠ expected p.accepted := by
  intro p
  have hblock : blockEntries voteCodec blockText = [vote.toValue] := by
    have hne : blockText ≠ voteLine := by
      intro heq
      have hlt := blockText_length
      rw [heq] at hlt
      exact Nat.lt_irrefl _ hlt
    have hparse : voteCodec.parse blockText = some blockValue := by
      unfold voteCodec
      exact (if_neg hne).trans (if_pos rfl)
    unfold blockEntries
    rw [hparse]
    rfl
  have hlines : (lines p.disk.pending).filterMap voteCodec.parse = [vote.toValue] := by
    have hscan : scan p.disk.pending = ([voteLine], []) := scan_persisted
    unfold lines
    rw [hscan]
    simp [parse_vote]
  have hrestart : restart voteCodec p.disk =
      (replay .fresh [vote.toValue]).bind fun (m, _) => (replay m [vote.toValue]).map Prod.fst := by
    have hfiles : ((p.disk.blocks.mergeSort fun a b => decide (a.1 ≤ b.1)).filter
        (isBin ·.1)).flatMap (fun file => blockEntries voteCodec file.2) = [vote.toValue] := by
      have hsorted : (p.disk.blocks.mergeSort fun a b => decide (a.1 ≤ b.1)).filter (isBin ·.1) =
          [("1.bin", blockText)] := by
        have hone : p.disk.blocks = [("1.bin", blockText)] := rfl
        rw [hone, List.mergeSort_singleton]
        exact List.filter_cons_of_pos (by decide)
      rw [hsorted, List.flatMap_singleton]
      exact hblock
    unfold restart loadBlockFiles loadPendingEntries
    rw [hfiles, hlines]
  have htwice : (restart voteCodec p.disk).map (·.reputation.get "ann") = some (some (2, 2)) := by
    rw [hrestart]
    rfl
  have honce : (expected p.accepted).map (·.reputation.get "ann") = some (some (1, 1)) := rfl
  refine ⟨Run.exec (.start rfl) (legal_true _ _), hblock, honce, htwice, fun heq => ?_⟩
  rw [heq, honce] at htwice
  exact absurd htwice (by decide)

end HoneNode.Market
