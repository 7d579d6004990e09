import Mathlib.Data.List.Fold
import Mathlib.Data.List.MinMax
import HoneNode.Rewards.Driver

/-!
# Rewards.Progress — every epoch is paid once, in order

The driver keeps its progress in memory and rebuilds it at start-up from the
markers. `Tracks` says what holds between the two: the epochs paid so far are
consecutive, all of them but one in flight have a marker, and the driver stands
at the last marked one.

Three things break this, and `Node.Sound` excludes them: a crash between the
rewards of an epoch and its marker, a restart on markers that do not begin at
epoch 1, which loses the floor of the cold start, and a walk into an epoch that
was finalized after the scan of its tick, which leaves the skip-forward armed
when payment has begun.
-/

namespace HoneNode

open Prog Within

/-! ## The markers -/

/-- The markers are those of the epochs above `floor` up to `floor + marked`. -/
def Marked (s : Chain) (floor marked : ℕ) : Prop :=
  ∀ key, (s.stateGet .epochFinalizedDone key).isSome ↔
    ∃ e, floor < e ∧ e ≤ floor + marked ∧ key = doneKey e

section Markers

variable {s t : Chain} {floor marked : ℕ}

theorem Marked.congr (h : Marked s floor marked)
    (ht : t.state .epochFinalizedDone = s.state .epochFinalizedDone) : Marked t floor marked := by
  intro key
  rw [← h key]
  unfold Chain.stateGet
  rw [ht]

theorem Marked.rewarded_iff (h : Marked s floor marked) (hb : floor + marked < 2 ^ 64) {e : ℕ}
    (he : e < 2 ^ 64) : rewarded s e = true ↔ floor < e ∧ e ≤ floor + marked := by
  unfold rewarded
  rw [h]
  constructor
  · rintro ⟨e', h₁, h₂, hkey⟩
    have heq := Text.toString_inj he (lt_of_le_of_lt h₂ hb) hkey
    exact heq ▸ ⟨h₁, h₂⟩
  · rintro ⟨h₁, h₂⟩
    exact ⟨e, h₁, h₂, rfl⟩

/-- The start-up scan reads back exactly the marked epochs. -/
theorem Marked.mem_doneEpochs (h : Marked s floor marked) (hb : floor + marked < 2 ^ 64) (e : ℕ) :
    e ∈ doneEpochs s ↔ floor < e ∧ e ≤ floor + marked := by
  unfold doneEpochs
  rw [List.mem_filterMap]
  constructor
  · rintro ⟨⟨key, v⟩, hmem, hparse⟩
    have hget := (Kv.mem_scan.1 hmem).1
    obtain ⟨e', h₁, h₂, rfl⟩ := (h key).1 (by
      unfold Chain.stateGet
      rw [hget]
      rfl)
    unfold doneKey at hparse
    rw [Text.lastPiece_toString, Text.parseU64_toString (lt_of_le_of_lt h₂ hb)] at hparse
    cases hparse
    exact ⟨h₁, h₂⟩
  · rintro ⟨h₁, h₂⟩
    have hsome := (h (doneKey e)).2 ⟨e, h₁, h₂, rfl⟩
    obtain ⟨v, hv⟩ := Option.isSome_iff_exists.1 hsome
    refine ⟨(doneKey e, v), Kv.mem_scan.2 ⟨hv, rfl⟩, ?_⟩
    unfold doneKey
    rw [Text.lastPiece_toString, Text.parseU64_toString (lt_of_le_of_lt h₂ hb)]

/-- Writing the next marker. -/
theorem Marked.mark (h : Marked s floor marked) :
    Marked (s.stateSet .epochFinalizedDone (doneKey (floor + marked + 1)) ()) floor
      (marked + 1) := by
  intro key
  rw [stateGet_stateSet]
  by_cases hkey : doneKey (floor + marked + 1) = key
  · rw [if_pos hkey]
    exact iff_of_true rfl ⟨floor + marked + 1, by omega, by omega, hkey.symm⟩
  · rw [if_neg hkey, h key]
    constructor
    · rintro ⟨e, h₁, h₂, rfl⟩
      exact ⟨e, h₁, by omega, rfl⟩
    · rintro ⟨e, h₁, h₂, rfl⟩
      have hne : e ≠ floor + marked + 1 := by
        rintro rfl
        exact hkey rfl
      exact ⟨e, h₁, by omega, rfl⟩

end Markers

/-! ## Recovery -/

/-- With fuel enough, the climb ends below the first epoch that is missing. -/
theorem climb_eq {done : List ℕ} {last : ℕ} :
    ∀ {fuel e : ℕ}, (∀ x, e < x → (x ∈ done ↔ x ≤ last)) → e ≤ last → last - e ≤ fuel →
      climb done fuel e = last := by
  intro fuel
  induction fuel with
  | zero =>
    intro e _ hle hfuel
    unfold climb
    omega
  | succ fuel ih =>
    intro e hdone hle hfuel
    unfold climb
    have hnext := hdone (e + 1) (by omega)
    by_cases h : e + 1 ≤ last
    · rw [if_pos (hnext.2 h)]
      exact ih (fun x hx => hdone x (by omega)) h (by omega)
    · rw [if_neg (hnext.not.2 h)]
      omega

theorem highestContiguousRewarded_of_none {s : Chain} (h : doneEpochs s = []) :
    highestContiguousRewarded s = 0 := by
  unfold highestContiguousRewarded
  rw [h]
  rfl

/-- Markers that begin at epoch 1 are climbed to their end. -/
theorem Marked.highestContiguousRewarded_eq {s : Chain} {marked : ℕ} (h : Marked s 0 marked)
    (hb : marked < 2 ^ 64) : highestContiguousRewarded s = marked := by
  have hmem : ∀ e, e ∈ doneEpochs s ↔ 0 < e ∧ e ≤ marked := by
    intro e
    rw [h.mem_doneEpochs (by omega) e, Nat.zero_add]
  refine climb_eq (fun x hx => (hmem x).trans (and_iff_right hx)) (Nat.zero_le _) ?_
  rcases Nat.eq_zero_or_pos marked with hz | hpos
  · omega
  · rw [List.foldl_eq_foldr, Nat.sub_zero]
    exact List.le_max_of_le' 0 ((hmem marked).2 ⟨hpos, le_refl _⟩) (le_refl _)

/-! ## Arrivals -/

/-- What an entry of consensus can do to what the driver reads: raise the epoch to `b`, and
store finalized epochs. -/
structure Arrives (b : ℕ) (s t : Chain) : Prop where
  markers : t.state .epochFinalizedDone = s.state .epochFinalizedDone
  currentEpoch : t.currentEpoch ≤ max s.currentEpoch b

instance (b : ℕ) : IsPreorder Chain (Arrives b) where
  refl := fun _ => ⟨rfl, le_max_left _ _⟩
  trans := by
    intro s t u h h'
    refine ⟨h'.markers.trans h.markers, ?_⟩
    have := h.currentEpoch
    have := h'.currentEpoch
    omega

section Arrivals

variable {b : ℕ} {F : Footprint}

theorem arrives_stateSet {f : Family} (hf : f ≠ .epochFinalizedDone) (key : String) (v : f.Val)
    (h : f.guarded = false ∨ f ∈ F.grants) : Along (Arrives b) (Prog.stateSet f key v h) :=
  fun s => ⟨s.state_stateSet_of_ne hf.symm key v, le_max_left _ _⟩

theorem arrives_setEpochMeta (epoch : ℕ) (m : EpochMeta) :
    Along (Arrives b) (Prog.setEpochMeta epoch m : Prog F Unit) :=
  fun _ => ⟨rfl, le_max_left _ _⟩

theorem arrives_setCurrentEpoch : Along (Arrives b) (Prog.setCurrentEpoch b : Prog F Unit) :=
  fun _ => ⟨rfl, le_max_right _ _⟩

theorem arrives_logSlice (enabled : Bool) (text : String) (n : ℕ) :
    Along (Arrives b) (logSlice enabled text n : Prog F Unit) := along_fail.ite (along_pure ())

theorem arrives_storeEraDurations (env : Env) (base first n : ℕ) :
    Along (Arrives b) (storeEraDurations env base first n : Prog F Unit) := by
  induction n with
  | zero => exact along_pure ()
  | succ n ih => exact ih.bind fun _ => arrives_stateSet (by decide) _ _ _

theorem arrives_applyEpochSeal (env : Env) (p : Entry.EpochSeal) :
    Along (Arrives p.epoch) (applyEpochSeal env p) := by
  refine along_inspect.bind fun prior => ?_
  cases prior with
  | some h => exact (along_pure ()).ite along_fail
  | none =>
    exact (arrives_stateSet (by decide) _ _ _).bind fun _ => along_inspect.bind fun _ =>
      (arrives_setCurrentEpoch.ite (along_pure ())).bind fun _ =>
      (arrives_stateSet (by decide) _ _ _).bind fun _ => along_inspect.bind fun _ =>
      (arrives_storeEraDurations env _ _ _).ite (along_pure ())

theorem arrives_applyEpochFinalize (env : Env) (p : Entry.EpochFinalize) :
    Along (Arrives 0) (applyEpochFinalize env p) := by
  refine along_inspect.bind fun existing => ?_
  cases existing with
  | none => exact arrives_setEpochMeta _ _
  | some prev =>
    refine (arrives_setEpochMeta _ _).ite ?_
    exact (arrives_logSlice _ _ _).bind fun _ => (arrives_logSlice _ _ _).bind fun _ =>
      (arrives_stateSet (by decide) _ _ _).bind fun _ =>
      (arrives_setEpochMeta _ _).ite (along_pure ())

end Arrivals

/-! ## What the payment of an epoch leaves alone -/

theorem touches_applyEntropyDecay (epoch : ℕ) : Along (Touch ∅) (applyEntropyDecay epoch) := by
  have hrow : ∀ (account : String) (r : String × ℕ), Along (Touch ∅) (when (r.2 ≠ 0) (do
      ignoreErr (debit account r.1 (bleedOf r.2) (Set.mem_univ _))
      ignoreErr (credit recycleFund r.1 (bleedOf r.2))) : Prog { pays := Set.univ } Unit) :=
    fun account r => touches_when
      ((touches_debit _).ignoreErr.bind fun _ => touches_credit.ignoreErr)
  have haccount : ∀ account, Along (Touch ∅) (decayAccount account) := fun account =>
    along_inspect.bind fun rows => along_forM (hrow account) rows
  exact along_inspect.bind fun ids => along_forM (fun account =>
    along_inspect.bind fun _ => touches_when (haccount account)) ids

theorem touches_payEpoch (env : Env) (orders : RewardOrders) (epoch : ℕ) (sealers : List String) :
    Along (Touch emissionWrites) (payEpoch env orders epoch sealers) :=
  (touches_emitEpochRewards env orders epoch sealers).ite touches_creditIfAny

/-! ## The invariant -/

/-- What the loop relies on where it stands. -/
def Phase.Agrees (d : Driver) : Phase → Prop
  | .idle => True
  | .scanning epoch tip =>
    d.floorAligned = true ∧ d.skipDone = false ∧ d.lastRewarded < epoch ∧ epoch ≤ tip ∧ tip < 2 ^ 64
  | .walking epoch stop | .paid epoch stop | .decayed epoch stop =>
    epoch = d.lastRewarded + 1 ∧ epoch ≤ stop ∧ stop < 2 ^ 64
  | .stopped => True

/-- The node has paid the epochs above `floor` one after the other and marked the first
`marked` of them; at most one more is in flight. -/
structure Tracks (n : Node) (floor marked : ℕ) : Prop where
  epochs : n.epochs = List.range' (floor + 1) (marked + n.inFlight.toNat)
  last : n.driver.lastRewarded = floor + marked
  markers : Marked n.chain floor marked
  bound : floor + marked < 2 ^ 64
  current : n.chain.currentEpoch < 2 ^ 64
  settled : n.paidOut ≠ [] → n.driver.floorAligned = true → n.driver.skipDone = true
  stands : n.phase.Agrees n.driver

namespace Tracks

variable {n : Node} {floor marked : ℕ} (h : Tracks n floor marked)
include h

theorem paidOut_eq_nil_iff : n.paidOut = [] ↔ marked = 0 ∧ n.inFlight = false := by
  have hlen : n.paidOut.length = marked + n.inFlight.toNat := by
    have := congrArg List.length h.epochs
    simpa [Node.epochs] using this
  rw [← List.length_eq_zero_iff, hlen]
  cases n.inFlight <;> simp

/-- A store that differs in nothing the driver goes by. -/
theorem onChain {t : Chain}
    (hm : t.state .epochFinalizedDone = n.chain.state .epochFinalizedDone)
    (hc : t.currentEpoch < 2 ^ 64) : Tracks { n with chain := t } floor marked :=
  ⟨h.epochs, h.last, h.markers.congr hm, h.bound, hc, h.settled, h.stands⟩

theorem arrive {t : Chain} {b : ℕ} (ht : Arrives b n.chain t)
    (hb : b < 2 ^ 64) : Tracks { n with chain := t } floor marked := by
  have := ht.currentEpoch
  have := h.current
  exact h.onChain ht.markers (by omega)

/-- Going to another place of the loop, no epoch being in flight before or after. -/
theorem goTo (hn : n.inFlight = false) {phase : Phase}
    (hphase : { n with phase := phase }.inFlight = false) (hag : phase.Agrees n.driver) :
    Tracks { n with phase := phase } floor marked := by
  refine ⟨?_, h.last, h.markers, h.bound, h.current, h.settled, hag⟩
  rw [hphase, ← hn]
  exact h.epochs

/-- Before the first payment the floor is where the driver puts it. -/
theorem refloor (hnil : n.paidOut = []) {d : Driver}
    (hd : d.lastRewarded < 2 ^ 64) :
    Tracks { n with driver := d, phase := .idle } d.lastRewarded 0 := by
  obtain ⟨hm, -⟩ := h.paidOut_eq_nil_iff.1 hnil
  subst hm
  refine ⟨?_, rfl, ?_, hd, h.current, fun hne => absurd hnil hne, trivial⟩
  · unfold Node.epochs
    rw [hnil]
    rfl
  · intro key
    rw [h.markers key]
    constructor <;> rintro ⟨e, h₁, h₂, -⟩ <;> omega

/-! ### Steps of the loop -/

theorem beginWalk (hn : n.inFlight = false) {tip : ℕ}
    (htip : tip < 2 ^ 64) : Tracks (n.beginWalk tip) floor marked := by
  unfold Node.beginWalk
  split
  · refine h.goTo hn rfl ⟨rfl, ?_, ?_⟩ <;> omega
  · exact h.goTo hn rfl trivial

/-- The floor of a cold start is set before anything is paid. -/
theorem alignFloor (hidle : n.phase = .idle) :
    ∃ floor', Tracks { n with driver := alignFloor n.chain.currentEpoch n.driver } floor' marked := by
  have hn : n.inFlight = false := by
    unfold Node.inFlight
    rw [hidle]
  unfold HoneNode.alignFloor
  split
  case isFalse => exact ⟨floor, h⟩
  case isTrue hcold =>
    have hlast := h.last
    have hmarked : marked = 0 := by omega
    have hnew := h.refloor (d := { n.driver with
        lastRewarded := n.chain.currentEpoch - 64 - 1, floorAligned := true })
      (h.paidOut_eq_nil_iff.2 ⟨hmarked, hn⟩) (by have := h.current; simp only; omega)
    rw [← hidle, ← hmarked] at hnew
    exact ⟨_, hnew⟩

theorem tick (hidle : n.phase = .idle) (depth : ℕ) :
    ∃ floor', Tracks (n.tick depth) floor' marked := by
  obtain ⟨floor', h'⟩ := h.alignFloor hidle
  have hn : { n with driver := HoneNode.alignFloor n.chain.currentEpoch n.driver }.inFlight =
      false := by
    unfold Node.inFlight
    rw [hidle]
  have htip : n.chain.currentEpoch - depth < 2 ^ 64 := by
    have := h.current
    omega
  refine ⟨floor', ?_⟩
  unfold Node.tick
  dsimp only
  split
  case isTrue hscan =>
    obtain ⟨haligned, hskip, hlt⟩ := hscan
    exact h'.goTo hn rfl ⟨haligned, hskip, Nat.lt_succ_self _, hlt, htip⟩
  case isFalse => exact h'.beginWalk hn htip

/-- A hit moves the floor below the epoch found; nothing is paid while the scan runs. -/
theorem scan {epoch tip : ℕ} (hphase : n.phase = .scanning epoch tip) :
    ∃ floor', Tracks (n.scan epoch tip) floor' marked := by
  have hstands := h.stands
  rw [hphase] at hstands
  obtain ⟨haligned, hskip, hlt, hle, htip⟩ := hstands
  have hn : n.inFlight = false := by
    unfold Node.inFlight
    rw [hphase]
  unfold Node.scan
  split
  case isTrue =>
    have hnil : n.paidOut = [] := by
      by_contra hne
      rw [h.settled hne haligned] at hskip
      cases hskip
    obtain ⟨rfl, -⟩ := h.paidOut_eq_nil_iff.1 hnil
    have hnew := h.refloor (d := { n.driver with lastRewarded := epoch - 1, skipDone := true })
      hnil (by simp only; omega)
    exact ⟨_, hnew.beginWalk rfl htip⟩
  case isFalse =>
    refine ⟨floor, ?_⟩
    split
    · exact h.goTo hn rfl ⟨haligned, hskip, by omega, by omega, htip⟩
    · exact h.beginWalk hn htip

/-- An epoch is paid: the next one after those that were, and without its marker yet. -/
theorem pay (hn : n.inFlight = false) {t : Chain}
    (ht : Touch emissionWrites n.chain t) (sealers : List String) {phase : Phase}
    (hflight : { n with phase := phase }.inFlight = true) (hag : phase.Agrees n.driver)
    (hseen : n.driver.floorAligned = true → n.driver.skipDone = true) :
    Tracks { n with chain := t, phase := phase,
                    paidOut := n.paidOut ++ [⟨floor + marked + 1, sealers⟩] } floor marked := by
  refine ⟨?_, h.last, h.markers.congr (ht.family _ (by decide)), h.bound,
    ht.currentEpoch ▸ h.current, fun _ => hseen, hag⟩
  have hbefore := h.epochs
  unfold Node.epochs at hbefore ⊢
  rw [show Node.inFlight { n with
    chain := t, phase := phase, paidOut := n.paidOut ++ [⟨floor + marked + 1, sealers⟩] } = true
    from hflight, List.map_append, hbefore, hn]
  simp only [Bool.toNat_false, Bool.toNat_true, Nat.add_zero, List.range'_concat, List.map_cons,
    List.map_nil]
  congr 2
  omega

/-- The walk pays the next epoch if it is finalized; its marker cannot be there. -/
theorem walk (env : Env) (orders : RewardOrders) {epoch stop : ℕ}
    (hphase : n.phase = .walking epoch stop)
    (hseen : finalized n.chain epoch = true → n.driver.floorAligned = true →
      n.driver.skipDone = true) :
    Tracks (n.walk env orders epoch stop) floor marked := by
  have hstands := h.stands
  rw [hphase] at hstands
  obtain ⟨hepoch, hle, hstop⟩ := hstands
  have hn : n.inFlight = false := by
    unfold Node.inFlight
    rw [hphase]
  have hnext : epoch = floor + marked + 1 := by rw [hepoch, h.last]
  have hnew : rewarded n.chain epoch = false := by
    rw [Bool.eq_false_iff, ne_eq, h.markers.rewarded_iff h.bound (by omega)]
    omega
  unfold Node.walk
  rw [hnew, if_neg Bool.false_ne_true]
  cases hmeta : n.chain.epochs.get epoch with
  | none =>
    dsimp only
    exact h.goTo hn rfl trivial
  | some m =>
    have htouch := touches_payEpoch env orders epoch m.sealedBy n.chain
    have hfin : finalized n.chain epoch = true := by
      unfold finalized
      rw [hmeta]
      rfl
    subst hnext
    dsimp only
    split
    · exact h.pay hn htouch m.sealedBy rfl ⟨hepoch, hle, hstop⟩ (hseen hfin)
    · exact h.pay hn htouch m.sealedBy rfl trivial (hseen hfin)

theorem decay {epoch stop : ℕ} (hphase : n.phase = .paid epoch stop) :
    Tracks { n with chain := ((applyEntropyDecay epoch).run n.chain).2,
                    phase := .decayed epoch stop } floor marked := by
  have htouch := touches_applyEntropyDecay epoch n.chain
  have hchain := h.onChain (htouch.family _ (by simp)) (htouch.currentEpoch ▸ h.current)
  have hstands := h.stands
  rw [hphase] at hstands
  refine ⟨?_, h.last, hchain.markers, h.bound, hchain.current, h.settled, hstands⟩
  have hepochs := h.epochs
  unfold Node.inFlight at hepochs
  rw [hphase] at hepochs
  exact hepochs

/-- The marker settles the epoch in flight. -/
theorem mark {epoch stop : ℕ} (hphase : n.phase = .decayed epoch stop) :
    Tracks ({ n with chain := n.chain.stateSet .epochFinalizedDone (doneKey epoch) () }.through
      epoch stop) floor (marked + 1) := by
  have hstands := h.stands
  rw [hphase] at hstands
  obtain ⟨hepoch, hle, hstop⟩ := hstands
  rw [h.last] at hepoch
  have hepochs := h.epochs
  unfold Node.inFlight at hepochs
  rw [hphase] at hepochs
  subst hepoch
  unfold Node.through
  refine ⟨?_, rfl, h.markers.mark, by omega, h.current, h.settled, ?_⟩
  · unfold Node.inFlight
    split <;> simp_all [Node.epochs]
  · dsimp only
    split
    · exact ⟨rfl, by omega, hstop⟩
    · trivial

end Tracks

/-! ## Runs -/

namespace Node

/-- The walk has reached an epoch that was finalized after the scan of its tick. -/
def overtaken (n : Node) : Bool :=
  match n.phase with
  | .walking epoch _ => n.driver.floorAligned && !n.driver.skipDone && finalized n.chain epoch
  | _ => false

/-- A step that none of the three defects is in: it does not pay an epoch the scan has missed,
and a crash falls between two epochs, with no marker or with that of epoch 1 in the store. -/
def Sound (n : Node) : Event → Prop
  | .drive _ => n.overtaken = false
  | .crash => n.inFlight = false ∧ (doneEpochs n.chain = [] ∨ rewarded n.chain 1 = true)
  | .cut _ => False
  | _ => True

end Node

section Runs

variable {env : Env} {orders : RewardOrders} {n : Node} {floor marked : ℕ}

/-- Step lemma: the driver. -/
theorem Tracks.drive (h : Tracks n floor marked) (hsound : n.overtaken = false) (depth : ℕ) :
    ∃ floor' marked', Tracks (n.drive env orders depth) floor' marked' := by
  unfold Node.drive
  cases hphase : n.phase with
  | idle =>
    obtain ⟨floor', h'⟩ := h.tick hphase depth
    exact ⟨floor', marked, h'⟩
  | scanning epoch tip =>
    obtain ⟨floor', h'⟩ := h.scan hphase
    exact ⟨floor', marked, h'⟩
  | walking epoch stop =>
    refine ⟨floor, marked, h.walk env orders hphase ?_⟩
    intro hfin haligned
    unfold Node.overtaken at hsound
    simpa [hphase, hfin, haligned] using hsound
  | paid epoch stop => exact ⟨floor, marked, h.decay hphase⟩
  | decayed epoch stop => exact ⟨floor, marked + 1, h.mark hphase⟩
  | stopped => exact ⟨floor, marked, h⟩

/-- Step lemma: a restart between two epochs recovers what the process knew, or starts over
when nothing was paid. -/
theorem Tracks.restart (h : Tracks n floor marked) (hn : n.inFlight = false)
    (hmarks : doneEpochs n.chain = [] ∨ rewarded n.chain 1 = true) :
    ∃ floor' marked', Tracks n.restarted floor' marked' := by
  rcases hmarks with hnone | hone
  · have hmarked : marked = 0 := by
      by_contra hpos
      have hmem := (h.markers.mem_doneEpochs h.bound (floor + 1)).2 (by omega)
      rw [hnone] at hmem
      cases hmem
    have hlast : (Driver.start n.chain).lastRewarded = 0 :=
      highestContiguousRewarded_of_none hnone
    exact ⟨_, _, h.refloor (h.paidOut_eq_nil_iff.2 ⟨hmarked, hn⟩) (by omega)⟩
  · have hfloor : floor = 0 := by
      have := (h.markers.rewarded_iff h.bound (by omega)).1 hone
      omega
    subst hfloor
    have hlast : (Driver.start n.chain).lastRewarded = 0 + marked := by
      rw [Nat.zero_add]
      exact h.markers.highestContiguousRewarded_eq (by have := h.bound; omega)
    refine ⟨0, marked, ?_, hlast, h.markers, h.bound, h.current, ?_, trivial⟩
    · have hepochs := h.epochs
      rw [hn] at hepochs
      exact hepochs
    · intro _ haligned
      cases haligned

/-- Step lemma. -/
theorem Tracks.after (h : Tracks n floor marked) {ev : Event} (hev : n.Possible ev)
    (hsound : n.Sound ev) : ∃ floor' marked', Tracks (n.after env orders ev) floor' marked' := by
  cases ev with
  | finalize p =>
    exact ⟨floor, marked, h.arrive (arrives_applyEpochFinalize env p n.chain) (by decide)⟩
  | sealed p => exact ⟨floor, marked, h.arrive (arrives_applyEpochSeal env p n.chain) hev⟩
  | drive depth => exact h.drive hsound depth
  | crash => exact h.restart hsound.1 hsound.2
  | cut left => exact hsound.elim

end Runs

/-! ## Sample runs -/

namespace Node

/-- The events happen one after the other. -/
def play (env : Env) (orders : RewardOrders) : List Event → Node → Node
  | [], n => n
  | ev :: evs, n => play env orders evs (n.after env orders ev)

/-- No event is a cut, the seals are of 64-bit epochs, and each event meets `P` where it
happens. -/
def Fits (env : Env) (orders : RewardOrders) (P : Node → Event → Prop) : List Event → Node → Prop
  | [], _ => True
  | ev :: evs, n =>
    (match ev with
      | .sealed p => p.epoch < 2 ^ 64
      | .cut _ => False
      | _ => True) ∧ P n ev ∧ Fits env orders P evs (n.after env orders ev)

instance (n : Node) (ev : Event) : Decidable (n.Sound ev) :=
  match ev with
  | .drive _ => inferInstanceAs (Decidable (_ = _))
  | .crash => inferInstanceAs (Decidable (_ ∧ _))
  | .cut _ => inferInstanceAs (Decidable False)
  | .finalize _ | .sealed _ => inferInstanceAs (Decidable True)

instance decidableFits (env : Env) (orders : RewardOrders) (P : Node → Event → Prop)
    [∀ n ev, Decidable (P n ev)] : ∀ evs n, Decidable (Fits env orders P evs n)
  | [], _ => inferInstanceAs (Decidable True)
  | ev :: evs, n =>
    have := decidableFits env orders P evs (n.after env orders ev)
    match ev with
    | .sealed _ => inferInstanceAs (Decidable (_ ∧ _))
    | .cut _ => inferInstanceAs (Decidable (False ∧ _))
    | .finalize _ | .drive _ | .crash => inferInstanceAs (Decidable (True ∧ _))

theorem Run.play {env : Env} {orders : RewardOrders} {P : Node → Event → Prop} :
    ∀ {evs : List Event} {n : Node}, Run env orders P n → Fits env orders P evs n →
      Run env orders P (n.play env orders evs) := by
  intro evs
  induction evs with
  | nil => exact fun h _ => h
  | cons ev evs ih =>
    rintro n h ⟨hev, hP, hrest⟩
    refine ih (h.step ?_ hP) hrest
    cases ev with
    | sealed p => exact hev
    | cut left => exact hev.elim
    | finalize p => trivial
    | drive depth => trivial
    | crash => trivial

end Node

def sampleSeal (epoch : ℕ) : Event := .sealed ⟨"clock", epoch, 0, "hash", none, none⟩

end HoneNode
