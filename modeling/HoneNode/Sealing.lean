import HoneNode.Clock
import HoneNode.Apply.Epochs

/-!
# Sealing — how an epoch gets sealed

The other half of `clock.rs`: seals of one epoch are collected once per node id
(`receive_seal`), and when their window closes `resolve_epoch` decides: the
bootstrap master alone, nobody, the only seal there is, or the most common hash
among the registered seals that are no timestamp outliers, once these are 51% of
the registered set. A decision drops the buckets more than 20 epochs behind it.

1. **Model**: the handler and the decision over one node's `Inner`.
2. **Quorum** (`sealed_by_quorum`): who stands behind a sealed epoch.
3. **Runs** (`sealed_once`): how often an epoch is sealed, and which seals a
   decision can drop.

`EpochState.winner` is never written, so it is left out.
-/

namespace HoneNode.Sealing

open Tally

/-! ## Model -/

structure EpochSeal where
  (epochNumber : ℕ) (nodeId : String) (timestamp : ℕ) (sealHash : String)
  (signature pubkey : Option String)
deriving DecidableEq, Repr

structure SealedEpoch where
  (epoch : ℕ) (isSealed : Bool) (quorum totalClocks outliers : ℕ)
  (winner : Option EpochSeal) (signingClocks : List String)
deriving DecidableEq, Repr

structure ClockScore where
  (nodeId : String) (score : ℤ) (outlierCount totalSeals lastSeenMs : ℕ)
deriving DecidableEq, Repr

/-- The bucket of an epoch: at most one seal per node. -/
structure EpochState where
  seals : List EpochSeal := []
  resolved : Bool := false
  deadline : ℕ
  peerFallbackDeadline : Option ℕ := none
  distinct : (seals.map (·.nodeId)).Nodup := by simp

structure Inner where
  epochStates : Kv ℕ EpochState := ∅
  clockScores : Kv String ClockScore := ∅
  externalPeerCount : ℕ := 0
  lastExternalPeerEpoch : ℕ := 0
  currentEpoch : ℕ := 0
  observerMode : Bool := false
  registeredClocks : List String := []

/-- What a call finds around it: its clocks, the `HONE_BOOTSTRAP_ISOLATION` switch and
the order of the hash map. -/
structure World where
  (now nowMs : ℕ) (isolation : Bool) (order : HashOrder (String × ℕ))

def sealCollectMs : ℕ := 5000
def peerSealWaitMs : ℕ := 20000
def outlierToleranceMs : ℕ := 2 * 30000
def isolationEpochThreshold : ℕ := 3
def bootstrapMaster : String := "shindevlin"

/-! ### Collecting -/

/-- A signature that comes with a key has to verify; one without, or none, is let in. -/
def signatureHolds (env : Env) (parsed : EpochSeal) : Bool :=
  match parsed.signature with
  | none => true
  | some sig =>
    match parsed.pubkey.or (if parsed.nodeId.utf8ByteSize = 64 then some parsed.nodeId else none) with
    | none => true
    | some key =>
      verifyClockSealSig env parsed.epochNumber parsed.sealHash parsed.nodeId parsed.timestamp key sig

/-- Deduplicate per node id. -/
def EpochState.push (st : EpochState) (parsed : EpochSeal) : EpochState :=
  if h : parsed.nodeId ∈ st.seals.map (·.nodeId) then st
  else
    { st with
      seals := st.seals ++ [parsed]
      distinct := by
        rw [List.map_append, List.map_singleton, List.nodup_append]
        refine ⟨st.distinct, List.nodup_singleton _, ?_⟩
        rintro a ha b hb rfl
        exact h (by rwa [List.mem_singleton.1 hb] at ha) }

/-- The bucket of an epoch, a fresh one if there is none. -/
def bucket (now epoch : ℕ) (c : Inner) : EpochState :=
  (c.epochStates.get epoch).getD { deadline := now + sealCollectMs }

def setBucket (epoch : ℕ) (st : EpochState) (c : Inner) : Inner :=
  { c with epochStates := c.epochStates.put epoch st }

def receiveSeal (env : Env) (now : ℕ) (parsed : EpochSeal) (c : Inner) : Inner :=
  if ¬ signatureHolds env parsed then c
  else
    let st := bucket now parsed.epochNumber c
    let st := if st.resolved then st else st.push parsed
    setBucket parsed.epochNumber st c

/-- An epoch nobody seals is decided too. -/
def ensureEpochTracked (now epoch : ℕ) (c : Inner) : Inner :=
  setBucket epoch (bucket now epoch c) c

def setCurrentEpoch (epoch : ℕ) (c : Inner) : Inner := { c with currentEpoch := epoch }

def setRegisteredClocks (nodes : List String) (c : Inner) : Inner :=
  { c with registeredClocks := nodes }

def updatePeers (count : ℕ) (c : Inner) : Inner :=
  let last := if 0 < count then c.currentEpoch else c.lastExternalPeerEpoch
  { c with
    externalPeerCount := count
    lastExternalPeerEpoch := last
    observerMode := decide (count = 0 ∧ isolationEpochThreshold < c.currentEpoch - last) }

/-! ### Deciding -/

def updateClockScore (nowMs : ℕ) (agreed : Bool) (c : Inner) (nodeId : String) : Inner :=
  let s := (c.clockScores.get nodeId).getD ⟨nodeId, 100, 0, 0, 0⟩
  let s := { s with totalSeals := wrapAdd s.totalSeals 1, lastSeenMs := nowMs }
  let s := if agreed then { s with score := min (s.score + 2) 200 }
    else { s with outlierCount := wrapAdd s.outlierCount 1, score := max (s.score - 10) 0 }
  { c with clockScores := c.clockScores.put nodeId s }

/-- The upper median of the timestamps. -/
def median (seals : List EpochSeal) : ℕ :=
  ((seals.map (·.timestamp)).insertionSort (· ≤ ·)).getD (seals.length / 2) 0

/-- The distance of two timestamps, subtracted as `i64`. -/
def deviation (timestamp median : ℕ) : ℕ := (((timestamp : ℤ) - median).bmod (2 ^ 64)).natAbs

def isInlier (seals : List EpochSeal) (s : EpochSeal) : Bool :=
  deviation s.timestamp (median seals) ≤ outlierToleranceMs

/-- The seals that vote: those of registered nodes, once the set is known, without the
timestamp outliers. -/
def votingInliers (reg : List String) (seals : List EpochSeal) : List EpochSeal :=
  (seals.filter (isInlier seals)).filter fun s => reg.isEmpty || reg.contains s.nodeId

def quorumNeeded (reg : List String) (seals : List EpochSeal) : ℕ :=
  max 1 (Clock.fractionCeil (if reg.isEmpty then seals.length else reg.length))

/-- The most common hash of the voters. -/
def winnerHash (order : HashOrder (String × ℕ)) (voters : List EpochSeal) : String :=
  match maxByKey Prod.snd (order.visit (tally (voters.map (·.sealHash)))) with
  | some (hash, _) => hash
  | none => ""

/-- Mark the epoch decided and drop the buckets more than 20 epochs behind it. -/
def finish (epoch : ℕ) (c : Inner) : Inner :=
  let states := match c.epochStates.get epoch with
    | some st => c.epochStates.put epoch { st with resolved := true }
    | none => c.epochStates
  { c with epochStates := states.retain fun e => epoch ≤ wrapAdd e 20 }

/-- One clock decides. -/
def sealedAlone (epoch totalClocks : ℕ) (s : EpochSeal) : SealedEpoch :=
  ⟨epoch, true, 1, totalClocks, 0, some s, [s.nodeId]⟩

/-- The vote over at least two seals; without a quorum the epoch stays open. -/
def resolveVote (w : World) (epoch : ℕ) (seals : List EpochSeal) (c : Inner) :
    Inner × Option SealedEpoch :=
  let outliers := seals.filter fun s => ! isInlier seals s
  let scored := (outliers.map (·.nodeId)).foldl (updateClockScore w.nowMs false) c
  let voters := votingInliers c.registeredClocks seals
  if voters.length < quorumNeeded c.registeredClocks seals then (scored, none)
  else
    let hash := winnerHash w.order voters
    let winners := voters.filter (·.sealHash = hash)
    let losers := voters.filter (·.sealHash ≠ hash)
    let scored := (winners.map (·.nodeId)).foldl (updateClockScore w.nowMs true) scored
    let scored := (losers.map (·.nodeId)).foldl (updateClockScore w.nowMs false) scored
    let scored := (outliers.map (·.nodeId)).foldl (updateClockScore w.nowMs false) scored
    (finish epoch scored, some ⟨epoch, true, winners.length, seals.length, outliers.length,
      winners.head?, winners.map (·.nodeId)⟩)

def resolveEpoch (w : World) (epoch : ℕ) (c : Inner) : Inner × Option SealedEpoch :=
  match c.epochStates.get epoch with
  | none => (c, none)
  | some st =>
    if st.resolved then (c, none)
    else
      let master :=
        if w.isolation ∨ (c.registeredClocks = [] ∧ c.externalPeerCount = 0) then
          st.seals.find? (·.nodeId = bootstrapMaster)
        else none
      match master, st.seals with
      | some s, seals =>
        (finish epoch (updateClockScore w.nowMs true c bootstrapMaster),
          some (sealedAlone epoch seals.length s))
      | none, [] => (finish epoch c, some ⟨epoch, false, 0, 0, 0, none, []⟩)
      | none, [s] =>
        -- with live peers the only seal has to wait for a second one
        let fallback := st.peerFallbackDeadline.getD (w.now + peerSealWaitMs)
        let waiting := setBucket epoch { st with peerFallbackDeadline := some fallback } c
        if 0 < c.externalPeerCount ∧ w.now < fallback then (waiting, none)
        else
          let c := if 0 < c.externalPeerCount then waiting else c
          (finish epoch (updateClockScore w.nowMs true c s.nodeId),
            some (sealedAlone epoch 1 s))
      | none, seals => resolveVote w epoch seals c

/-! ## What a decision does to the buckets -/

section Decision

variable {w : World} {epoch : ℕ} {c c' : Inner} {ev : SealedEpoch}

/-- The collected seals of an epoch, and whether it is decided. -/
def collected (c : Inner) (epoch : ℕ) : Option (List EpochSeal × Bool) :=
  (c.epochStates.get epoch).map fun st => (st.seals, st.resolved)

theorem collected_setBucket (st : EpochState) (e : ℕ) : collected (setBucket epoch st c) e =
    if e = epoch then some (st.seals, st.resolved) else collected c e := by
  unfold collected setBucket
  split
  · next he => simp [he]
  · next he => simp [Kv.get_put_of_ne _ _ (Ne.symm he)]

@[simp] theorem epochStates_updateClockScore (nowMs : ℕ) (agreed : Bool) (c : Inner)
    (nodeId : String) : (updateClockScore nowMs agreed c nodeId).epochStates = c.epochStates := rfl

@[simp] theorem epochStates_foldl_score (nowMs : ℕ) (agreed : Bool) (l : List String)
    (c : Inner) : (l.foldl (updateClockScore nowMs agreed) c).epochStates = c.epochStates := by
  induction l generalizing c with
  | nil => rfl
  | cons n rest ih => rw [List.foldl_cons, ih, epochStates_updateClockScore]

/-- A decision marks its own bucket and drops those it is more than 20 epochs ahead of. -/
theorem collected_finish {t : Inner} {seals : List EpochSeal}
    (hc : collected t epoch = some (seals, false)) (e : ℕ) :
    collected (finish epoch t) e =
      if epoch ≤ wrapAdd e 20 then
        if e = epoch then some (seals, true) else collected t e
      else none := by
  obtain ⟨st, hst, heq⟩ := Option.map_eq_some_iff.1 hc
  obtain ⟨rfl, -⟩ := Prod.mk.inj heq
  simp only [collected, finish, hst, Kv.get_retain, decide_eq_true_eq]
  by_cases hkeep : epoch ≤ wrapAdd e 20
  · simp only [hkeep, if_true]
    by_cases he : e = epoch
    · simp [he]
    · simp [he, Kv.get_put_of_ne _ _ (Ne.symm he)]
  · simp [hkeep]

/-- A vote decides its epoch or leaves the buckets alone. -/
theorem resolveVote_cases {seals : List EpochSeal} {r : Option SealedEpoch}
    (h : resolveVote w epoch seals c = (c', r)) :
    (r = none ∧ c'.epochStates = c.epochStates) ∨
      ∃ t ev, r = some ev ∧ ev.epoch = epoch ∧ c' = finish epoch t ∧
        t.epochStates = c.epochStates := by
  unfold resolveVote at h
  simp only at h
  split at h
  · cases h
    exact .inl ⟨rfl, by simp⟩
  · cases h
    exact .inr ⟨_, _, rfl, rfl, rfl, by simp⟩

/-- A call decides an open epoch, or every bucket keeps its seals. -/
theorem resolve_cases {r : Option SealedEpoch} (h : resolveEpoch w epoch c = (c', r)) :
    (r = none ∧ ∀ e, collected c' e = collected c e) ∨
      ∃ t ev seals, r = some ev ∧ ev.epoch = epoch ∧ c' = finish epoch t ∧
        collected c epoch = some (seals, false) ∧ ∀ e, collected t e = collected c e := by
  unfold resolveEpoch at h
  split at h
  · cases h
    exact .inl ⟨rfl, fun _ => rfl⟩
  · rename_i st hst
    split at h
    · cases h
      exact .inl ⟨rfl, fun _ => rfl⟩
    · rename_i hopen
      have hcol : collected c epoch = some (st.seals, false) := by
        simp [collected, hst, hopen]
      have hwait : ∀ d e, collected (setBucket epoch { st with peerFallbackDeadline := d } c) e =
          collected c e := by
        intro d e
        rw [collected_setBucket]
        split
        · next he => rw [he, hcol]; simp [hopen]
        · rfl
      simp only at h
      split at h
      · cases h
        exact .inr ⟨_, _, _, rfl, rfl, rfl, hcol, fun _ => rfl⟩
      · cases h
        exact .inr ⟨_, _, _, rfl, rfl, rfl, hcol, fun _ => rfl⟩
      · split at h
        · cases h
          exact .inl ⟨rfl, hwait _⟩
        · cases h
          refine .inr ⟨_, _, _, rfl, rfl, rfl, hcol, fun e => ?_⟩
          split
          · exact hwait _ e
          · rfl
      · rcases resolveVote_cases h with ⟨rfl, hstates⟩ | ⟨t, ev, rfl, hev, rfl, hstates⟩
        · exact .inl ⟨rfl, fun e => by simp [collected, hstates]⟩
        · exact .inr ⟨t, ev, _, rfl, hev, rfl, hcol, fun e => by simp [collected, hstates]⟩

end Decision

/-! ## Who stands behind a sealed epoch -/

section Quorum

variable {w : World} {epoch : ℕ} {c c' : Inner} {ev : SealedEpoch}

/-- The nodes that vote on an epoch. -/
def voterIds (reg : List String) (seals : List EpochSeal) : Finset String :=
  ((votingInliers reg seals).map (·.nodeId)).toFinset

/-- A node votes with one seal, a timestamp inlier, and is registered. -/
theorem mem_voterIds {reg : List String} {seals : List EpochSeal} {n : String} :
    n ∈ voterIds reg seals ↔ ∃ s ∈ seals, s.nodeId = n ∧ isInlier seals s = true ∧
      (reg = [] ∨ n ∈ reg) := by
  simp only [voterIds, votingInliers, List.mem_toFinset, List.mem_map, List.mem_filter,
    Bool.or_eq_true, List.isEmpty_iff, List.contains_iff_mem]
  constructor
  · rintro ⟨s, ⟨⟨hs, hin⟩, hreg⟩, rfl⟩
    exact ⟨s, hs, rfl, hin, hreg⟩
  · rintro ⟨s, hs, rfl, hin, hreg⟩
    exact ⟨s, ⟨⟨hs, hin⟩, hreg⟩, rfl⟩

/-- One seal per node: the voters are as many as their seals. -/
theorem card_voterIds (reg : List String) {seals : List EpochSeal}
    (h : (seals.map (·.nodeId)).Nodup) :
    (voterIds reg seals).card = (votingInliers reg seals).length := by
  unfold voterIds
  rw [List.toFinset_card_of_nodup, List.length_map]
  have hsub : (votingInliers reg seals).Sublist seals :=
    List.filter_sublist.trans List.filter_sublist
  exact h.sublist (hsub.map _)

/-- The vote names a most common hash of the voters, through the seal of one of them. -/
theorem winner_of_vote {order : HashOrder (String × ℕ)} {voters : List EpochSeal}
    (h : voters ≠ []) : ∃ s ∈ voters, (voters.filter (·.sealHash = winnerHash order voters)).head? =
      some s ∧ ∀ hash, (voters.map (·.sealHash)).count hash ≤
        (voters.map (·.sealHash)).count s.sealHash := by
  cases hbest : maxByKey Prod.snd (order.visit (tally (voters.map (·.sealHash)))) with
  | none =>
    -- only an empty tally has no maximum
    have hnil : order.visit (tally (voters.map (·.sealHash))) = [] := by
      cases hv : order.visit (tally (voters.map (·.sealHash))) with
      | nil => rfl
      | cons x xs => simp [hv, maxByKey] at hbest
    have htally : tally (voters.map (·.sealHash)) = [] := by
      have hlen := (order.perm (tally (voters.map (·.sealHash)))).length_eq
      rw [hnil] at hlen
      exact List.length_eq_zero_iff.1 hlen.symm
    obtain ⟨s, rest, rfl⟩ := List.exists_cons_of_ne_nil h
    have hkey := ((counts_tally ((s :: rest).map (·.sealHash))).keys s.sealHash).2 (by simp)
    rw [htally] at hkey
    cases hkey
  | some best =>
    have hwinner : winnerHash order voters = best.1 := by
      obtain ⟨hash, n⟩ := best
      simp [winnerHash, hbest]
    have hmem : best.1 ∈ voters.map (·.sealHash) :=
      ((counts_tally _).keys best.1).1
        (List.mem_map_of_mem ((order.perm _).mem_iff.1 (maxByKey_mem hbest)))
    obtain ⟨s, hs, hhash⟩ := List.mem_map.1 hmem
    have hne : voters.filter (·.sealHash = winnerHash order voters) ≠ [] :=
      List.ne_nil_of_mem (List.mem_filter.2 ⟨hs, by simp [hwinner, hhash]⟩)
    obtain ⟨s₀, rest, hcons⟩ := List.exists_cons_of_ne_nil hne
    have hs₀ : s₀ ∈ voters ∧ s₀.sealHash = winnerHash order voters := by
      have := List.mem_filter.1 (hcons ▸ List.mem_cons_self :
        s₀ ∈ voters.filter (·.sealHash = winnerHash order voters))
      simpa using this
    refine ⟨s₀, hs₀.1, by rw [hcons]; rfl, fun hash => ?_⟩
    rw [hs₀.2, hwinner]
    exact count_le_of_maxByKey_tally hbest hash

/-- When an epoch is sealed against a registered set, the bootstrap master sealed it
under the isolation switch, or it had one seal only and no peer to wait for, or 51% of the
registered nodes sealed it in time and the winner is a most common seal of theirs. -/
theorem sealed_by_quorum (hR : c.registeredClocks ≠ [])
    (h : resolveEpoch w epoch c = (c', some ev)) (hsealed : ev.isSealed = true) :
    ∃ st, c.epochStates.get epoch = some st ∧
      ((w.isolation = true ∧ ∃ s ∈ st.seals, s.nodeId = bootstrapMaster ∧ ev.winner = some s) ∨
      (∃ s, st.seals = [s] ∧ ev.winner = some s ∧
        (c.externalPeerCount = 0 ∨ ∃ d ∈ st.peerFallbackDeadline, d ≤ w.now)) ∨
      (voterIds c.registeredClocks st.seals ⊆ c.registeredClocks.toFinset ∧
        Clock.fractionCeil c.registeredClocks.length ≤
          (voterIds c.registeredClocks st.seals).card ∧
        (c.registeredClocks.length < 2 ^ 46 → 51 * c.registeredClocks.length ≤
          100 * (voterIds c.registeredClocks st.seals).card) ∧
        ∃ s ∈ votingInliers c.registeredClocks st.seals, ev.winner = some s ∧
          ∀ hash, ((votingInliers c.registeredClocks st.seals).map (·.sealHash)).count hash ≤
            ((votingInliers c.registeredClocks st.seals).map (·.sealHash)).count s.sealHash)) := by
  unfold resolveEpoch at h
  split at h
  · cases h
  · rename_i st hst
    refine ⟨st, hst, ?_⟩
    split at h
    · cases h
    · simp only at h
      split at h
      · -- the bootstrap master
        rename_i s hmaster
        cases h
        split at hmaster
        · rename_i hcond
          have hfound := List.find?_some hmaster
          refine .inl ⟨?_, s, List.mem_of_find?_eq_some hmaster, by simpa using hfound, rfl⟩
          rcases hcond with hiso | ⟨hnil, -⟩
          · exact hiso
          · exact absurd hnil hR
        · cases hmaster
      · cases h
        cases hsealed
      · -- a single seal
        rename_i s _ hone
        refine .inr (.inl ⟨s, hone, ?_⟩)
        split at h
        · cases h
        · rename_i hwait
          cases h
          refine ⟨rfl, ?_⟩
          by_cases hpeers : c.externalPeerCount = 0
          · exact .inl hpeers
          · right
            have hlate : ¬ w.now < st.peerFallbackDeadline.getD (w.now + peerSealWaitMs) :=
              fun hlt => hwait ⟨Nat.pos_of_ne_zero hpeers, hlt⟩
            cases hd : st.peerFallbackDeadline with
            | none =>
              rw [hd, Option.getD_none] at hlate
              exact absurd (Nat.lt_add_of_pos_right (by decide)) hlate
            | some d =>
              rw [hd, Option.getD_some, not_lt] at hlate
              exact ⟨d, rfl, hlate⟩
      · -- the vote
        refine .inr (.inr ?_)
        unfold resolveVote at h
        simp only at h
        split at h
        · cases h
        · rename_i hquorum
          cases h
          have hreg : c.registeredClocks.isEmpty = false := by simpa using hR
          have hcard := card_voterIds c.registeredClocks st.distinct
          have hneed : Clock.fractionCeil c.registeredClocks.length ≤
              (voterIds c.registeredClocks st.seals).card := by
            rw [hcard]
            simp only [quorumNeeded, hreg, not_lt] at hquorum
            exact le_trans (le_max_right _ _) hquorum
          have hne : votingInliers c.registeredClocks st.seals ≠ [] := by
            intro hnil
            simp [hnil, quorumNeeded] at hquorum
          obtain ⟨s, hs, hhead, hmost⟩ := @winner_of_vote w.order _ hne
          refine ⟨?_, hneed, fun hsmall => ?_, s, hs, hhead, hmost⟩
          · intro n hn
            obtain ⟨-, -, -, -, hnil | hmem⟩ := mem_voterIds.1 hn
            · exact absurd hnil hR
            · exact List.mem_toFinset.2 hmem
          · have hfrac := Clock.fraction_le_fractionCeil hsmall
            omega

end Quorum

/-- A seal as the nodes below send it: unsigned, for epoch `e`. -/
def sampleSeal (e : ℕ) (node hash : String) : EpochSeal := ⟨e, node, 1000, hash, none, none⟩

def sampleWorld : World := ⟨0, 0, false, .stored⟩

/-- Three registered clocks, and two of them seal epoch 1. -/
def twoOfThree : Inner :=
  let c : Inner := { registeredClocks := ["a", "b", "c"] }
  receiveSeal .bare 0 (sampleSeal 1 "b" "h") (receiveSeal .bare 0 (sampleSeal 1 "a" "h") c)

theorem sealed_by_quorum_two_of_three : ∃ st, twoOfThree.epochStates.get 1 = some st ∧
    voterIds ["a", "b", "c"] st.seals ⊆ ["a", "b", "c"].toFinset ∧
      Clock.fractionCeil 3 ≤ (voterIds ["a", "b", "c"] st.seals).card := by
  have hev : (resolveEpoch sampleWorld 1 twoOfThree).2 =
      some ⟨1, true, 2, 2, 0, some (sampleSeal 1 "a" "h"), ["a", "b"]⟩ := by decide
  obtain ⟨st, hst, hwhy⟩ := sealed_by_quorum (w := sampleWorld) (c := twoOfThree)
    (by decide) (Prod.ext rfl hev) rfl
  refine ⟨st, hst, ?_⟩
  rcases hwhy with ⟨hiso, -⟩ | ⟨s, hone, -⟩ | ⟨hsub, hcard, -⟩
  · cases hiso
  · have hlen : (twoOfThree.epochStates.get 1).map (·.seals.length) = some 2 := by
      decide
    rw [hst, Option.map_some, hone] at hlen
    cases hlen
  · exact ⟨hsub, hcard⟩

/-- Three registered clocks, and the only seal of epoch 1 is that of a stranger. -/
def strangerSealed : Inner :=
  receiveSeal .bare 0 (sampleSeal 1 "mallory" "h") { registeredClocks := ["a", "b", "c"] }

/-- The stranger decides, with no registered node behind the winning hash; and among two
registered nodes that disagree, one does. -/
theorem sealed_without_quorum :
    ((resolveEpoch sampleWorld 1 strangerSealed).2 =
        some ⟨1, true, 1, 1, 0, some (sampleSeal 1 "mallory" "h"), ["mallory"]⟩ ∧
      "mallory" ∉ strangerSealed.registeredClocks) ∧
    (resolveEpoch sampleWorld 1
        (receiveSeal .bare 0 (sampleSeal 1 "b" "g") (receiveSeal .bare 0 (sampleSeal 1 "a" "h")
          { registeredClocks := ["a", "b", "c"] }))).2.map (·.quorum) = some 1 := by
  decide

/-! ## Runs -/

inductive Op where
  | receive (now : ℕ) (parsed : EpochSeal)
  | track (now epoch : ℕ)
  | resolve (w : World) (epoch : ℕ)
  | current (epoch : ℕ)
  | registered (nodes : List String)
  | peers (count : ℕ)

def Op.step (env : Env) (c : Inner) : Op → Inner × Option SealedEpoch
  | .receive now parsed => (receiveSeal env now parsed c, none)
  | .track now epoch => (ensureEpochTracked now epoch c, none)
  | .resolve w epoch => resolveEpoch w epoch c
  | .current epoch => (setCurrentEpoch epoch c, none)
  | .registered nodes => (setRegisteredClocks nodes c, none)
  | .peers count => (updatePeers count c, none)

/-- The epoch an event seals. -/
def sealedEpoch (r : Option SealedEpoch) : List ℕ :=
  ((r.filter (·.isSealed)).map (·.epoch)).toList

/-- The runs of a node whose steps all meet `P`, with the epochs it sealed, latest first. -/
inductive Run (env : Env) (P : List ℕ → Inner → Op → Prop) : List ℕ → Inner → Prop where
  | new : Run env P [] {}
  | step {log : List ℕ} {c : Inner} (op : Op) (h : Run env P log c) (hop : P log c op) :
      Run env P (sealedEpoch (op.step env c).2 ++ log) (op.step env c).1

/-- No seal comes for an epoch that was sealed and dropped since, and no epoch more than 20
ahead of the current one is decided while the current one is open. -/
def InOrder (log : List ℕ) (c : Inner) : Op → Prop
  | .receive _ parsed => parsed.epochNumber ∈ log → collected c parsed.epochNumber ≠ none
  | .track _ epoch => epoch ∈ log → collected c epoch ≠ none
  | .resolve _ epoch => (∃ seals, collected c c.currentEpoch = some (seals, false)) →
      epoch ≤ wrapAdd c.currentEpoch 20
  | _ => True

section Runs

variable {env : Env} {log : List ℕ} {c c' : Inner} {e : ℕ}

/-- A sealed epoch is never open again. -/
def Closed (log : List ℕ) (c : Inner) : Prop :=
  ∀ e ∈ log, ∀ seals, collected c e ≠ some (seals, false)

/-- What reaches an open bucket is added behind what it holds. -/
def Adds (before after : Option (List EpochSeal × Bool)) : Prop :=
  after = before ∨ ∃ seals more, before.getD ([], false) = (seals, false) ∧
    after = some (seals ++ more, false)

theorem collected_receive (now : ℕ) (parsed : EpochSeal) (e : ℕ) :
    Adds (collected c e) (collected (receiveSeal env now parsed c) e) ∧
      (e ≠ parsed.epochNumber → collected (receiveSeal env now parsed c) e = collected c e) := by
  unfold receiveSeal
  split
  · exact ⟨.inl rfl, fun _ => rfl⟩
  · rw [collected_setBucket]
    refine ⟨?_, fun he => if_neg he⟩
    split
    · next he =>
      subst he
      have hbucket : (collected c parsed.epochNumber).getD ([], false) =
          ((bucket now parsed.epochNumber c).seals, (bucket now parsed.epochNumber c).resolved) := by
        unfold collected bucket
        cases c.epochStates.get parsed.epochNumber <;> rfl
      split
      · -- decided: the bucket was there, and stays
        next hres =>
        left
        rw [hres] at hbucket
        cases hcol : collected c parsed.epochNumber with
        | none => rw [hcol] at hbucket; exact absurd (congrArg Prod.snd hbucket) Bool.false_ne_true
        | some b => rw [hcol] at hbucket; rw [hres, ← hbucket]; rfl
      · next hopen =>
        rw [Bool.not_eq_true] at hopen
        rw [hopen] at hbucket
        right
        unfold EpochState.push
        split
        · exact ⟨_, [], hbucket, by simp [hopen]⟩
        · exact ⟨_, [parsed], hbucket, by simp [hopen]⟩
    · exact .inl rfl

theorem collected_track (now n : ℕ) (e : ℕ) :
    Adds (collected c e) (collected (ensureEpochTracked now n c) e) ∧
      (e ≠ n → collected (ensureEpochTracked now n c) e = collected c e) := by
  unfold ensureEpochTracked
  rw [collected_setBucket]
  refine ⟨?_, fun he => if_neg he⟩
  split
  · next he =>
    subst he
    unfold collected bucket
    cases c.epochStates.get e with
    | none => exact .inr ⟨[], [], rfl, rfl⟩
    | some st => exact .inl rfl
  · exact .inl rfl

/-- Adding to a closed epoch is only possible where its bucket was dropped. -/
theorem closed_of_adds {n : ℕ} (hclosed : Closed log c) (hn : n ∈ log → collected c n ≠ none)
    (h : ∀ e, Adds (collected c e) (collected c' e) ∧ (e ≠ n → collected c' e = collected c e)) :
    Closed log c' := by
  intro e he seals hopen
  by_cases hen : e = n
  · subst hen
    rcases (h e).1 with hsame | ⟨l, more, hbefore, -⟩
    · exact hclosed e he seals (hsame ▸ hopen)
    · cases hcol : collected c e with
      | none => exact hn he hcol
      | some b =>
        rw [hcol, Option.getD_some] at hbefore
        exact hclosed e he l (hbefore ▸ hcol)
  · rw [(h e).2 hen] at hopen
    exact hclosed e he seals hopen

/-- One step keeps the sealed epochs closed, and seals only an epoch it has not sealed. -/
theorem closed_step (hclosed : Closed log c) (op : Op) (hop : InOrder log c op) :
    Closed (sealedEpoch (op.step env c).2 ++ log) (op.step env c).1 ∧
      ∀ e ∈ sealedEpoch (op.step env c).2, e ∉ log := by
  cases op with
  | receive now parsed =>
    exact ⟨closed_of_adds hclosed hop (collected_receive now parsed),
      fun e he => absurd he List.not_mem_nil⟩
  | track now n =>
    exact ⟨closed_of_adds hclosed hop (collected_track now n),
      fun e he => absurd he List.not_mem_nil⟩
  | current n => exact ⟨hclosed, fun e he => absurd he List.not_mem_nil⟩
  | registered nodes => exact ⟨hclosed, fun e he => absurd he List.not_mem_nil⟩
  | peers count => exact ⟨hclosed, fun e he => absurd he List.not_mem_nil⟩
  | resolve w n =>
    rcases hres : resolveEpoch w n c with ⟨c', r⟩
    simp only [Op.step, hres]
    rcases resolve_cases hres with ⟨rfl, hsame⟩ | ⟨t, ev, seals, rfl, hev, rfl, hopen, hsame⟩
    · refine ⟨fun e he l hl => ?_, fun e he => absurd he List.not_mem_nil⟩
      rw [hsame] at hl
      exact hclosed e he l hl
    · have hfin := collected_finish (t := t) (by rw [hsame]; exact hopen)
      have hsub : ∀ e ∈ sealedEpoch (some ev), e = n := by
        intro e he
        simp only [sealedEpoch, Option.mem_toList, Option.map_eq_some_iff] at he
        obtain ⟨ev', hfil, rfl⟩ := he
        rw [← Option.some.inj (Option.filter_eq_some_iff.1 hfil).1]
        exact hev
      refine ⟨fun e he l hl => ?_, fun e he hlog => ?_⟩
      · rw [hfin, hsame] at hl
        split at hl
        · split at hl
          · cases hl
          · next hne =>
            rcases List.mem_append.1 he with he | he
            · exact hne (hsub e he)
            · exact hclosed e he l hl
        · cases hl
      · rw [hsub e he] at hlog
        exact hclosed n hlog seals hopen

/-- In every run in order an epoch is sealed at most once, and no next step in order drops
a seal collected for the current epoch while that is open. -/
theorem sealed_once (h : Run env InOrder log c) : log.Nodup ∧
    ∀ op, InOrder log c op → ∀ seals, collected c c.currentEpoch = some (seals, false) →
      ∃ more resolved,
        collected (op.step env c).1 c.currentEpoch = some (seals ++ more, resolved) := by
  have hinv : log.Nodup ∧ Closed log c := by
    induction h with
    | new => exact ⟨List.nodup_nil, fun e he => absurd he List.not_mem_nil⟩
    | step op _ hop ih =>
      obtain ⟨hnodup, hclosed⟩ := ih
      obtain ⟨hclosed', hnew⟩ := @closed_step env _ _ hclosed op hop
      refine ⟨List.nodup_append.2 ⟨?_, hnodup, ?_⟩, hclosed'⟩
      · unfold sealedEpoch
        cases Option.map _ _ <;> simp
      · rintro a ha b hb rfl
        exact hnew a ha hb
  refine ⟨hinv.1, fun op hop seals hopen => ?_⟩
  have hadds : ∀ {after}, Adds (collected c c.currentEpoch) after →
      ∃ more resolved, after = some (seals ++ more, resolved) := by
    rintro after (rfl | ⟨l, more, hbefore, rfl⟩)
    · exact ⟨[], false, by simp [hopen]⟩
    · rw [hopen, Option.getD_some] at hbefore
      cases hbefore
      exact ⟨more, false, rfl⟩
  cases op with
  | receive now parsed => exact hadds (collected_receive now parsed _).1
  | track now n => exact hadds (collected_track now n _).1
  | current n => exact hadds (.inl rfl)
  | registered nodes => exact hadds (.inl rfl)
  | peers count => exact hadds (.inl rfl)
  | resolve w n =>
    have hnear : n ≤ wrapAdd c.currentEpoch 20 := hop ⟨seals, hopen⟩
    rcases hres : resolveEpoch w n c with ⟨c', r⟩
    simp only [Op.step, hres]
    rcases resolve_cases hres with ⟨rfl, hsame⟩ | ⟨t, ev, l, rfl, -, rfl, hn, hsame⟩
    · exact hadds (.inl (hsame _))
    · rw [collected_finish (t := t) (by rw [hsame]; exact hn), if_pos hnear, hsame]
      split
      · next heq =>
        rw [← heq, hopen] at hn
        cases hn
        exact ⟨[], true, by simp⟩
      · exact ⟨[], false, by simp [hopen]⟩

end Runs

/-- The node after a list of steps, with the epochs it sealed, latest first. -/
def exec (env : Env) (ops : List Op) : Inner × List ℕ :=
  ops.foldl (fun n op => ((op.step env n.1).1, sealedEpoch (op.step env n.1).2 ++ n.2)) ({}, [])

theorem run_exec (env : Env) (ops : List Op) :
    Run env (fun _ _ _ => True) (exec env ops).2 (exec env ops).1 := by
  induction ops using List.reverseRecOn with
  | nil => exact .new
  | append_singleton ops op ih =>
    unfold exec
    rw [List.foldl_append]
    exact .step op ih trivial

/-- Epochs 1 and 2, each collected and decided. -/
def twoEpochs : List Op :=
  [.receive 0 (sampleSeal 1 "a" "h"), .resolve sampleWorld 1,
    .receive 0 (sampleSeal 2 "a" "h"), .resolve sampleWorld 2]

theorem sealed_once_one_two : ∃ c, Run .bare InOrder [2, 1] c ∧ [2, 1].Nodup := by
  have h₁ := (@Run.new .bare InOrder).step (.receive 0 (sampleSeal 1 "a" "h"))
    (fun he => absurd he List.not_mem_nil)
  have h₂ := h₁.step (.resolve sampleWorld 1) (fun _ => by decide)
  have h₃ := h₂.step (.receive 0 (sampleSeal 2 "a" "h")) (fun he => absurd he (by decide))
  have h₄ : Run .bare InOrder (exec .bare twoEpochs).2 (exec .bare twoEpochs).1 :=
    h₃.step (.resolve sampleWorld 2) (fun _ => by decide)
  rw [show (exec .bare twoEpochs).2 = [2, 1] by decide] at h₄
  exact ⟨_, h₄, (sealed_once h₄).1⟩

/-- Epoch 1 sealed, its bucket dropped by the decision of epoch 30, and a late seal that
opens it again. -/
def lateSeal : List Op :=
  [.receive 0 (sampleSeal 1 "a" "h"), .resolve sampleWorld 1,
    .receive 0 (sampleSeal 30 "a" "h"), .resolve sampleWorld 30,
    .receive 0 (sampleSeal 1 "b" "g"), .resolve sampleWorld 1]

/-- Epoch 5 is the current one and holds a seal when a stranger's seal of epoch 100 comes. -/
def farSeal : List Op :=
  [.current 5, .receive 0 (sampleSeal 5 "a" "h"), .receive 0 (sampleSeal 100 "mallory" "g")]

/-- Epoch 1 is sealed twice, and deciding epoch 100 on the stranger's seal drops what the
current epoch has collected. -/
theorem sealed_twice :
    (∃ c, Run .bare (fun _ _ _ => True) [1, 30, 1] c) ∧
    ∃ log c, Run .bare (fun _ _ _ => True) log c ∧ c.currentEpoch = 5 ∧
      collected c 5 = some ([sampleSeal 5 "a" "h"], false) ∧
      collected ((Op.resolve sampleWorld 100).step .bare c).1 5 = none := by
  have hlate : (exec .bare lateSeal).2 = [1, 30, 1] := by decide
  exact ⟨⟨_, hlate ▸ run_exec .bare lateSeal⟩, _, _, run_exec .bare farSeal,
    by decide⟩

end HoneNode.Sealing
