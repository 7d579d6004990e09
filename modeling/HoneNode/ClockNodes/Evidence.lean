import HoneNode.ClockNodes.Stake
import HoneNode.Lib.Decimal
import HoneNode.Lib.Trace

/-!
# ClockNodes.Evidence — evidence of a double signature

A node that signed two seals for one epoch can be slashed for as long as the key
it signed with is on file and it has a stake. Both can go: a registration puts
another key in the place of the old one, at no cost, and evidence about another
epoch takes the whole stake.
-/

namespace HoneNode.ClockNodes

open Entry Prog Within Trace

/-! ## The offence -/

/-- Two seals of one node for one epoch. -/
structure Offence where
  (offender : String) (epoch : ℕ) (first second : Seal)
  differ : first.hash ≠ second.hash

/-- Both seals verify under the key. -/
def Offence.ProvedBy (env : Env) (o : Offence) (pk : String) : Prop :=
  o.first.Verifies env o.offender o.epoch pk ∧ o.second.Verifies env o.offender o.epoch pk

/-- The evidence consists of the two seals, in either order. -/
structure Carries (o : Offence) (q : ClockDoubleSignEvidence) : Prop where
  offender : q.offender = o.offender
  epoch : q.epoch = o.epoch
  seals : sealA q = o.first ∧ sealB q = o.second ∨ sealA q = o.second ∧ sealB q = o.first

/-- No evidence against the offender for the epoch has been applied. -/
def Open (o : Offence) (s : Chain) : Prop := slashMark s o.offender o.epoch = none

/-- The offender has a stake and is on file with a key that proves the offence. -/
structure Exposed (env : Env) (o : Offence) (s : Chain) : Prop where
  staked : 0 < stakeOf s o.offender
  proved : ∃ pk, keyOf s o.offender = some pk ∧ o.ProvedBy env pk

section Offence

variable {env : Env} {o : Offence} {s t : Chain} {q : ClockDoubleSignEvidence}

theorem Carries.differ (h : Carries o q) : q.sealHashA ≠ q.sealHashB := by
  have hA : (sealA q).hash = q.sealHashA := rfl
  have hB : (sealB q).hash = q.sealHashB := rfl
  rw [← hA, ← hB]
  rcases h.seals with ⟨hfirst, hsecond⟩ | ⟨hsecond, hfirst⟩
  · rw [hfirst, hsecond]
    exact o.differ
  · rw [hfirst, hsecond]
    exact o.differ.symm

/-- While the offender is exposed, the two seals convict it. -/
theorem Exposed.convicts (h : Exposed env o s) (hopen : Open o s) (hq : Carries o q) :
    Convicts env s q where
  differ := hq.differ
  fresh := by
    rw [hq.offender, hq.epoch]
    exact hopen
  staked := by
    rw [hq.offender]
    exact h.staked
  proved := by
    obtain ⟨pk, hkey, hfirst, hsecond⟩ := h.proved
    refine ⟨pk, by rw [hq.offender]; exact hkey, ?_⟩
    rw [hq.offender, hq.epoch]
    rcases hq.seals with ⟨hA, hB⟩ | ⟨hA, hB⟩
    · rw [hA, hB]
      exact ⟨hfirst, hsecond⟩
    · rw [hA, hB]
      exact ⟨hsecond, hfirst⟩

theorem Exposed.of_state (h : Exposed env o s) (ht : t.state .clockReg = s.state .clockReg) :
    Exposed env o t where
  staked := by
    rw [stakeOf_congr ht]
    exact h.staked
  proved := by
    rw [keyOf_congr ht]
    exact h.proved

end Offence

/-! ## What happens in the meantime -/

inductive Op where
  | register (p : ClockNodeRegister)
  | reward (p : ClockReward)
  | evidence (q : ClockDoubleSignEvidence)

/-- What the arm of the entry does to the chain, whether it succeeds or not. -/
def Op.step (env : Env) (s : Chain) : Op → Chain
  | .register p => ((applyClockNodeRegister env p).run s).2
  | .reward p => ((applyClockReward env p).run s).2
  | .evidence q => ((applyClockDoubleSignEvidence env q).run s).2

/-- From the state the offender signed in: registrations, rewards and evidence in any order,
and anything that leaves both families alone. -/
def prosecution (env : Env) (o : Offence) : Component Chain Op where
  init := fun s => Open o s ∧ Exposed env o s
  step := Op.step env
  other := fun s t => t.state .clockReg = s.state .clockReg ∧ t.state .dblSlash = s.state .dblSlash

/-- Evidence takes the stake of its offender. -/
def Upheld (env : Env) (s : Chain) (q : ClockDoubleSignEvidence) : Prop :=
  Convicts env s q ∧ Payable s q

/-- As long as the offence is unpunished, the offender registers no key that does not prove it,
and loses its stake for no other epoch. -/
def Harmless (env : Env) (o : Offence) (s : Chain) : Op → Prop
  | .register p => Open o s → p.nodeId = o.offender → ∀ pk, p.pubkey = some pk → o.ProvedBy env pk
  | .reward _ => True
  | .evidence q => Open o s → q.offender = o.offender → q.epoch ≠ o.epoch → ¬ Upheld env s q

section Steps

variable {env : Env} {o : Offence} {s : Chain}

theorem Exposed.reward (h : Exposed env o s) (p : ClockReward) :
    Exposed env o ((applyClockReward env p).run s).2 := by
  obtain ⟨left, hrewarded⟩ := @rewarded env s p
  constructor
  · rw [hrewarded.stake]
    exact Nat.add_pos_left h.staked _
  · rw [hrewarded.key]
    exact h.proved

theorem Exposed.register (h : Exposed env o s) (hopen : Open o s) {p : ClockNodeRegister}
    (hp : Harmless env o s (.register p)) :
    Exposed env o ((applyClockNodeRegister env p).run s).2 := by
  rcases @run_register env s p with ⟨msg, hrun⟩ | ⟨u, stake, hrun, hposted⟩
  · rw [hrun]
    exact h
  · have hreg := Chain.state_touched
      (u.stateSet .clockReg p.nodeId (registration s p stake)) p.nodeId p.epoch
      (show Family.clockReg ≠ .alive by decide)
    rw [hrun]
    refine Exposed.of_state (s := u.stateSet .clockReg p.nodeId (registration s p stake)) ?_ hreg
    have hu := h.of_state (congrFun hposted.state .clockReg)
    by_cases hself : p.nodeId = o.offender
    · constructor
      · rw [stakeOf_stateSet, if_pos hself]
        have hold : stakeOf s p.nodeId ≠ 0 := by
          rw [hself]
          exact h.staked.ne'
        exact (Nat.pos_of_ne_zero hold).trans_eq (hposted.kept hold).symm
      · -- the new key proves the offence, or the old one stays
        rw [keyOf_stateSet, if_pos hself]
        change ∃ pk, p.pubkey.or (keyOf s p.nodeId) = some pk ∧ _
        cases hpk : p.pubkey with
        | none =>
          rw [hself]
          exact h.proved
        | some pk => exact ⟨pk, rfl, hp hopen hself pk hpk⟩
    · constructor
      · rw [stakeOf_stateSet, if_neg hself]
        exact hu.staked
      · rw [keyOf_stateSet, if_neg hself]
        exact hu.proved

theorem state_register (p : ClockNodeRegister) :
    ((applyClockNodeRegister env p).run s).2.state .dblSlash = s.state .dblSlash := by
  rcases @run_register env s p with ⟨msg, hrun⟩ | ⟨u, stake, hrun, hposted⟩
  · rw [hrun]
  · rw [hrun, Chain.state_touched _ _ _ (by decide), state_stateSet_of_ne _ (by decide),
      hposted.state]

theorem slashMark_stateSet {node a : String} {epoch m : ℕ} :
    slashMark (s.stateSet .dblSlash s!"{node}:{epoch}" ()) a m = none →
      slashMark s a m = none := by
  unfold slashMark
  rw [stateGet_stateSet]
  split
  · exact nofun
  · exact id

/-- Evidence leaves the offender exposed unless it is upheld against it. -/
theorem Exposed.evidence (h : Open o s → Exposed env o s) {q : ClockDoubleSignEvidence}
    (hq : Harmless env o s (.evidence q))
    (hopen : Open o ((applyClockDoubleSignEvidence env q).run s).2) :
    Exposed env o ((applyClockDoubleSignEvidence env q).run s).2 := by
  rcases @run_evidence env s q with ⟨-, -, hstate, -⟩ |
    ⟨hconvicts, hpayable, hrun, -⟩
  · have hwas : Open o s := by
      unfold Open slashMark at hopen
      rwa [stateGet_of_state (congrFun hstate _)] at hopen
    exact (h hwas).of_state (congrFun hstate _)
  · rw [hrun] at hopen ⊢
    have hwas : Open o s := slashMark_stateSet hopen
    have hexposed := h hwas
    have hother : q.offender ≠ o.offender := by
      intro heq
      by_cases hepoch : q.epoch = o.epoch
      · -- the mark of this very epoch is set
        unfold Open slashedBy slashMark at hopen
        rw [stateGet_stateSet, if_pos (by rw [heq, hepoch])] at hopen
        cases hopen
      · exact hq hwas heq hepoch ⟨hconvicts, hpayable⟩
    refine Exposed.of_state (s := (shared s q).stateSet .clockReg q.offender _) ?_
      (state_stateSet_of_ne _ (by decide) _ _)
    constructor
    · rw [stakeOf_stateSet, if_neg hother]
      exact hexposed.staked
    · rw [keyOf_stateSet, if_neg hother]
      exact hexposed.proved

end Steps

/-! ## Over a run -/

section Runs

variable {env : Env} {o : Offence} {hist : List (Chain × Op)} {s : Chain}

/-- Until it is punished, the offender stays exposed. -/
theorem exposed_of_run (h : Trace.Run (prosecution env o) (Harmless env o) hist s)
    (hopen : Open o s) : Exposed env o s := by
  refine h.invariant (I := fun s => Open o s → Exposed env o s) ?_ ?_ ?_ hopen
  · exact fun s hinit _ => hinit.2
  · intro s op hop hs hopen
    cases op with
    | register p =>
      have hwas : Open o s := by
        have hsame : slashMark (Op.step env s (.register p)) o.offender o.epoch =
            slashMark s o.offender o.epoch := stateGet_of_state (state_register p) _
        exact hsame.symm.trans hopen
      exact (hs hwas).register hwas hop
    | reward p =>
      have hwas : Open o s := by
        obtain ⟨left, hrewarded⟩ := @rewarded env s p
        have hsame : slashMark (Op.step env s (.reward p)) o.offender o.epoch =
            slashMark s o.offender o.epoch :=
          stateGet_of_state (hrewarded.others _ (by decide)) _
        exact hsame.symm.trans hopen
      exact (hs hwas).reward p
    | evidence q => exact Exposed.evidence hs hop hopen
  · intro s t ⟨hreg, hmark⟩ hs hopen
    have hwas : Open o s := (stateGet_of_state hmark _).symm.trans hopen
    exact (hs hwas).of_state hreg

/-- Evidence that is upheld leaves its mark, and nothing else does. -/
theorem open_of_run {P : Chain → Op → Prop} (h : Trace.Run (prosecution env o) P hist s)
    (hnone : ∀ t q, (t, Op.evidence q) ∈ hist → q.offender = o.offender → q.epoch = o.epoch →
      ¬ Upheld env t q) : Open o s := by
  induction h with
  | start h => exact h.1
  | @step hist s op hrun hop ih =>
    have hopen := ih fun t q hmem => hnone t q (List.mem_cons_of_mem _ hmem)
    cases op with
    | register p => exact (stateGet_of_state (state_register p) _).trans hopen
    | reward p =>
      obtain ⟨left, hrewarded⟩ := @rewarded env s p
      exact (stateGet_of_state (hrewarded.others _ (by decide)) _).trans hopen
    | evidence q =>
      change Open o ((applyClockDoubleSignEvidence env q).run s).2
      rcases @run_evidence env s q with ⟨-, -, hstate, -⟩ |
        ⟨hconvicts, hpayable, hrun, -⟩
      · exact (stateGet_of_state (congrFun hstate _) _).trans hopen
      · rw [hrun]
        have hkey : q.offender ++ ":" ++ toString q.epoch ≠
            o.offender ++ ":" ++ toString o.epoch := by
          intro heq
          obtain ⟨hoffender, hepoch⟩ := Text.labelled_inj.1 heq
          exact hnone s q List.mem_cons_self hoffender hepoch ⟨hconvicts, hpayable⟩
        unfold Open slashMark slashedBy
        rw [stateGet_stateSet]
        refine (if_neg hkey).trans ?_
        rw [stateGet_stateSet_of_ne _ (by decide)]
        exact hopen
  | other _ hs ih => exact (stateGet_of_state hs.2 _).trans (ih hnone)

/-- Where every step in between is harmless and no evidence of the offence has been upheld, the
two seals are accepted from anybody, if only the shares fit and the log line can be cut. -/
theorem evidence_accepted (h : Trace.Run (prosecution env o) (Harmless env o) hist s)
    (hnone : ∀ t q, (t, Op.evidence q) ∈ hist → q.offender = o.offender → q.epoch = o.epoch →
      ¬ Upheld env t q) (now : ℕ) {q : ClockDoubleSignEvidence} (hq : Carries o q) :
    (applyEntry env now (.clockDoubleSignEvidence q) s).1 = .ok () ↔
      Payable s q ∧ Printable env q := by
  have hopen := open_of_run h hnone
  have hconvicts := (exposed_of_run h hopen).convicts hopen hq
  have hrun : applyEntry env now (.clockDoubleSignEvidence q) s =
    (applyClockDoubleSignEvidence env q).run s := rfl
  rw [hrun]
  rcases @run_evidence env s q with ⟨hnot, hfails, -⟩ |
    ⟨-, hpayable, -, hok⟩
  · refine iff_of_false hfails ?_
    rintro ⟨hpayable, -⟩
    exact hnot ⟨hconvicts, hpayable⟩
  · rw [hok]
    exact (and_iff_right hpayable).symm

end Runs

/-! ### Two keys -/

section Samples

def sealingKey : String := "03a107bff3ce10be1d70dd18e74bc09967e4d6309ba50d5f1ddc8664125531b8"

def freshKey : String := "79b5562e8fe654f94078b112e8a98ba7901f853ae695bed7e0e3910bad049664"

def sealFirst : Seal :=
  ⟨"aa11", 1700000000, "59c7e3d72221ba3231b988054955ddb73260911d868ad09792fd4192fd455694"
    ++ "a1d8c8d1494a91717b4eacf0e4b4f9b94b3c6faaf4295c9eb5225df07784830b"⟩

def sealSecond : Seal :=
  ⟨"bb22", 1700000060, "63feb7a2ba19305a3e4510d45b81e8fc9dfc38a8cefd21dd2397fd39038006d8"
    ++ "d6d548865f5f0aff3c42ad72351169f7d382db28608e756d2b3d7bbff5e47c0c"⟩

/-- Both keys are keys; the two seals were signed with the first. -/
def sealedNode : Env :=
  { Env.bare with
    keyError := fun k =>
      if some k = hexDecode sealingKey ∨ some k = hexDecode freshKey then none
      else Env.bare.keyError k
    verifyLax := fun k msg sig => decide (some k = hexDecode sealingKey) &&
      (decide (msg = Text.bytes "seal:7:aa11:mal:1700000000" ∧
          some sig = hexDecode sealFirst.sig) ||
        decide (msg = Text.bytes "seal:7:bb22:mal:1700000060" ∧
          some sig = hexDecode sealSecond.sig)) }

def malSealsTwice : Offence := ⟨"mal", 7, sealFirst, sealSecond, by decide⟩

/-- `mal` is staked, under the key it signs its seals with. -/
def malsChain : Chain :=
  ({} : Chain).stateSet .clockReg "mal"
    ⟨"mal", 5 * hunitsPerHone, some 1, none, some sealingKey⟩

def malRegisters (key : Option String) : ClockNodeRegister :=
  { nodeId := "mal", stake := 0, epoch := 7, pubkey := key, signature := none }

/-- `bob` has seen both seals. -/
def bobReports : ClockDoubleSignEvidence :=
  { submitter := "bob", offender := "mal", epoch := 7,
    sealHashA := sealFirst.hash, timestampA := sealFirst.timestamp, sigA := sealFirst.sig,
    sealHashB := sealSecond.hash, timestampB := sealSecond.timestamp, sigB := sealSecond.sig,
    signature := none }

theorem malsChain_exposed :
    Open malSealsTwice malsChain ∧ Exposed sealedNode malSealsTwice malsChain := by
  refine ⟨rfl, by decide, sealingKey, by decide, ?_, ?_⟩
  · unfold Seal.Verifies
    decide +kernel
  · unfold Seal.Verifies
    decide +kernel

theorem bobReports_carries : Carries malSealsTwice bobReports :=
  ⟨rfl, rfl, .inl ⟨rfl, rfl⟩⟩

/-- Registering again without a key changes nothing for the evidence. -/
theorem evidence_accepted_after_renewal : (applyEntry sealedNode 0
    (.clockDoubleSignEvidence bobReports)
      (Op.step sealedNode malsChain (.register (malRegisters none)))).1 = .ok () := by
  have hrun : Trace.Run (prosecution sealedNode malSealsTwice) (Harmless sealedNode malSealsTwice)
      [(malsChain, .register (malRegisters none))]
      (Op.step sealedNode malsChain (.register (malRegisters none))) :=
    .step _ (.start malsChain_exposed) fun _ _ _ hpk => nomatch hpk
  refine (evidence_accepted hrun ?_ 0 bobReports_carries).2 ⟨?_, nofun⟩
  · rintro t q hmem
    cases List.mem_singleton.1 hmem
  · exact ⟨by decide, by decide, by decide⟩

/-- Registering a fresh key is enough to get away. -/
theorem evidence_evaded : ∃ hist s,
    Trace.Run (prosecution sealedNode malSealsTwice) (fun _ _ => True) hist s ∧
      (∀ t q, (t, Op.evidence q) ∈ hist → ¬ Upheld sealedNode t q) ∧
      Carries malSealsTwice bobReports ∧ Payable s bobReports ∧ Printable sealedNode bobReports ∧
      (applyEntry sealedNode 0 (.clockDoubleSignEvidence bobReports) s).1 ≠ .ok () := by
  refine ⟨_, _, .step (.register (malRegisters (some freshKey))) (.start malsChain_exposed)
    trivial, ?_, bobReports_carries, ?_, nofun, ?_⟩
  · rintro t q hmem
    cases List.mem_singleton.1 hmem
  · exact ⟨by decide, by decide, by decide⟩
  · decide +kernel

end Samples

end HoneNode.ClockNodes
