import HoneNode.Rewards.Bound

/-!
# Rewards.Payouts — what the contributors to a pool are paid

1. **Payouts.** The entries that one pool produces, and the program that applies them.
2. **Scores.** How the reported numbers become scores, in unbounded arithmetic beside
   the machine's.
3. **Bounds.** A pool is paid out by score, within its size and whatever the order,
   and its scores are what was reported, exactly while no sum and no product leaves
   a word (`payouts_sound_iff`).
-/

namespace HoneNode

open Prog Within Shares

/-! ## Payouts -/

/-- The amounts a pool is paid out in. -/
def payouts (nodes : List (String × ℕ)) (pool : ℕ) : List (String × ℕ) :=
  if nodes = [] ∨ pool = 0 then []
  else (nodes.map fun n => (n.1, shareOf pool n.2 nodes)).filter fun x => 0 < x.2

def scoreSum (nodes : List (String × ℕ)) : ℕ := (nodes.map (·.2)).sum

/-- Nothing beyond the pool is paid, each contributor its part by score, in any order. -/
structure Fair (nodes : List (String × ℕ)) (pool : ℕ) : Prop where
  bounded : ((payouts nodes pool).map (·.2)).sum ≤ pool
  byScore : 0 < scoreSum nodes →
    ∀ n ∈ nodes, shareOf pool n.2 nodes = pool * n.2 / scoreSum nodes
  anyOrder : ∀ nodes', nodes.Perm nodes' →
    ∀ a, dueTo a (payouts nodes pool) = dueTo a (payouts nodes' pool)

section Lists

variable {nodes nodes' : List (String × ℕ)} {pool : ℕ}

theorem run_forM_payouts (f : String × ℕ → ℕ) (pay : String → ℕ → RewardProg Unit)
    (l : List (String × ℕ)) (s : Chain) :
    (l.forM fun n => when (0 < f n) (ignoreErr (pay n.1 (f n)))).run s =
      (((l.map fun n => (n.1, f n)).filter fun x => 0 < x.2).forM fun x =>
        ignoreErr (pay x.1 x.2)).run s := by
  induction l generalizing s with
  | nil => rfl
  | cons n rest ih =>
    rw [List.map_cons, List.filter_cons]
    by_cases hpos : 0 < f n
    · have hpaid : (when (0 < f n) (ignoreErr (pay n.1 (f n)))).run s =
          (.ok (), ((pay n.1 (f n)).run s).2) := by
        rw [run_when, if_pos hpos, run_ignoreErr]
      rw [if_pos (decide_eq_true hpos)]
      have hhead : (ignoreErr (pay n.1 (f n))).run s = (.ok (), ((pay n.1 (f n)).run s).2) :=
        run_ignoreErr _ _
      refine (run_bind_ok hpaid).trans ((ih _).trans ?_)
      rw [List.forM_eq_forM, List.forM_cons, run_bind_ok hhead]
    · have hskipped : (when (0 < f n) (ignoreErr (pay n.1 (f n)))).run s = (.ok (), s) := by
        rw [run_when, if_neg hpos]
      rw [if_neg (by simpa using hpos)]
      exact (run_bind_ok hskipped).trans (ih s)

/-- The pool is paid out entry by entry. -/
theorem run_distributeRewards (pay : String → ℕ → RewardProg Unit) (s : Chain) :
    (distributeRewards nodes pool pay).run s =
      ((payouts nodes pool).forM fun x => ignoreErr (pay x.1 x.2)).run s := by
  unfold distributeRewards payouts
  rw [run_ite]
  split
  · rfl
  · exact run_forM_payouts (fun n => shareOf pool n.2 nodes) pay nodes s

theorem shareOf_perm (h : nodes.Perm nodes') (score : ℕ) :
    shareOf pool score nodes = shareOf pool score nodes' := by
  have htotal : totalScore nodes = totalScore nodes' :=
    congrArg (· % 2 ^ 64) (h.map (·.2)).sum_eq
  unfold shareOf
  rw [htotal, h.length_eq]

theorem payouts_perm (h : nodes.Perm nodes') :
    (payouts nodes pool).Perm (payouts nodes' pool) := by
  have hnil : nodes = [] ↔ nodes' = [] :=
    ⟨fun he => (he ▸ h).nil_eq.symm, fun he => (he ▸ h).eq_nil⟩
  unfold payouts
  simp only [hnil, shareOf_perm h]
  split
  · exact List.Perm.refl _
  · exact (h.map _).filter _

/-- Scores that add up within a word are paid fairly. -/
theorem fair_of_lt (h : scoreSum nodes < 2 ^ 64) (hpool : pool < 2 ^ 64) : Fair nodes pool := by
  constructor
  · unfold payouts
    split
    · exact Nat.zero_le _
    · have hsub := (List.filter_sublist (l := nodes.map fun n => (n.1, shareOf pool n.2 nodes))
        (p := fun x => 0 < x.2)).map (·.2)
      have hsum : (nodes.map fun n => shareOf pool n.2 nodes).sum ≤ pool := sum_shareOf_le h
      refine (hsub.sum_le_sum fun _ _ => Nat.zero_le _).trans (le_of_eq_of_le ?_ hsum)
      rw [List.map_map]
      rfl
  · intro hpos n hn
    have hle : n.2 ≤ scoreSum nodes :=
      List.le_sum_of_mem (List.mem_map_of_mem hn)
    have htotal : totalScore nodes = scoreSum nodes := totalScore_eq h
    unfold shareOf
    rw [htotal, if_neg hpos.ne', Nat.mod_eq_of_lt]
    · refine (Nat.div_le_of_le_mul ?_).trans_lt hpool
      rw [Nat.mul_comm]
      exact Nat.mul_le_mul_right _ hle
  · exact fun nodes' hperm a => dueTo_perm (payouts_perm hperm)

end Lists

/-! ## Scores -/

/-- The score of a miner before it is cut to a fifth. -/
def mineRaw (s : Chain) (m : MineRecord) : ℕ :=
  satMul (inferenceScore m.outputTokens (m.hwTier % 256) m.model) (stakeWeight (s.getStake m.miner))

/-- Work within the grace period that is not linked to an approved job. -/
def MineReduced (epoch : ℕ) (s : Chain) (m : MineRecord) : Prop :=
  epoch < mineGracePeriodEpochs ∧ ∀ jobId ∈ m.jobId.filter (· ≠ ""), jobVerified s jobId = false

/-- `mineScore` without a word size. -/
def exactMineScore (epoch : ℕ) (s : Chain) (m : MineRecord) : ℕ :=
  let unlinked := if epoch < mineGracePeriodEpochs then mineRaw s m * mineGraceRewardBps / 10000
    else 0
  match m.jobId.filter (· ≠ "") with
  | some jobId => if jobVerified s jobId then mineRaw s m else unlinked
  | none => unlinked

def storageRaw (b : StorageBeat) : ℕ :=
  satAdd b.bytesProven (b.bytesProven * min b.queryCount 100 / 100)

/-- `storageScore` without a word size. -/
def exactStorageScore (b : StorageBeat) : ℕ :=
  if b.proofValid then storageRaw b else storageRaw b * storageProofNoProofBps / 10000

/-- `sightingCount` without a word size. -/
def exactSightingCount (t : TrackerSighting) : ℕ :=
  t.airtagCount + t.androidFmdCount + t.tileCount + t.samsungCount + t.otherCount

/-- The sightings of an epoch that count, each with its score. -/
def sightings (epoch : ℕ) (s : Chain) : List (String × ℕ) :=
  ((s.records .trackerSighting s!"{epoch}:").filter fun t =>
    sightingCount t ≠ 0 && hasVerifiedClaim s t.observerId).map fun t =>
      (t.observerId, if isAcousticWitness s t.observerId then
        sensorScore (sightingCount t) "event" * 3 / 2 else sensorScore (sightingCount t) "event")

/-- The scores of a pool are those of the reports. -/
def ExactScores (orders : RewardOrders) (epoch : ℕ) (s : Chain) : WorkPool → Prop
  | .inference => ∀ m ∈ s.records .mine s!"{epoch}:", mineScore epoch s m = exactMineScore epoch s m
  | .storage => ∀ b ∈ s.records .storageBeat s!"{epoch}:", storageScore b = exactStorageScore b
  | .tracker => (∀ t ∈ s.records .trackerSighting s!"{epoch}:",
        sightingCount t = exactSightingCount t) ∧
      ∀ n ∈ trackerNodes orders.trackers epoch s, n.2 = dueTo n.1 (sightings epoch s)
  | _ => True

/-- What is reported to a pool is small enough. -/
def SmallReports (epoch : ℕ) (s : Chain) : WorkPool → Prop
  | .inference => ∀ m ∈ s.records .mine s!"{epoch}:", MineReduced epoch s m →
      mineRaw s m * mineGraceRewardBps < 2 ^ 64
  | .storage => ∀ b ∈ s.records .storageBeat s!"{epoch}:", b.proofValid = false →
      storageRaw b * storageProofNoProofBps < 2 ^ 64
  | .tracker => (∀ t ∈ s.records .trackerSighting s!"{epoch}:", exactSightingCount t < 2 ^ 64) ∧
      ∀ a, dueTo a (sightings epoch s) < 2 ^ 64
  | _ => True

section Scores

variable {epoch : ℕ} {s : Chain}

/-- A product that wraps around is seen in the quotient. -/
theorem wrapMul_div_eq_iff {a b : ℕ} :
    wrapMul a b / 10000 = a * b / 10000 ↔ a * b < 2 ^ 64 := by
  unfold wrapMul
  constructor
  · intro h
    by_contra hge
    have hdiv := Nat.div_add_mod (a * b) (2 ^ 64)
    have hlt := Nat.mod_lt (a * b) (Nat.two_pow_pos 64)
    have hone : 1 ≤ a * b / 2 ^ 64 := (Nat.one_le_div_iff (by decide)).2 (Nat.not_lt.1 hge)
    omega
  · intro h
    rw [Nat.mod_eq_of_lt h]

theorem mineScore_eq_iff (m : MineRecord) : mineScore epoch s m = exactMineScore epoch s m ↔
    (MineReduced epoch s m → mineRaw s m * mineGraceRewardBps < 2 ^ 64) := by
  unfold mineScore exactMineScore MineReduced
  dsimp only
  by_cases hgrace : epoch < mineGracePeriodEpochs
  · simp only [if_pos hgrace]
    cases m.jobId.filter (· ≠ "") with
    | none =>
      dsimp only
      rw [← wrapMul_div_eq_iff]
      exact ⟨fun h _ => h, fun h => h ⟨hgrace, fun _ hj => by cases hj⟩⟩
    | some jobId =>
      dsimp only
      cases hverified : jobVerified s jobId with
      | true =>
        refine iff_of_true rfl fun h => ?_
        rw [h.2 jobId rfl] at hverified
        cases hverified
      | false =>
        rw [← wrapMul_div_eq_iff]
        refine ⟨fun h _ => h, fun h => h ⟨hgrace, fun j hj => ?_⟩⟩
        cases hj
        exact hverified
  · simp only [if_neg hgrace]
    exact iff_of_true rfl fun h => absurd h.1 hgrace

theorem storageScore_eq_iff (b : StorageBeat) : storageScore b = exactStorageScore b ↔
    (b.proofValid = false → storageRaw b * storageProofNoProofBps < 2 ^ 64) := by
  unfold storageScore exactStorageScore
  cases b.proofValid with
  | true => exact iff_of_true rfl fun h => by cases h
  | false => exact wrapMul_div_eq_iff.trans ⟨fun h _ => h, fun h => h rfl⟩

theorem sightingCount_eq_mod (t : TrackerSighting) :
    sightingCount t = exactSightingCount t % 2 ^ 64 := by
  unfold sightingCount exactSightingCount wrapAdd
  omega

theorem sightingCount_eq_iff (t : TrackerSighting) :
    sightingCount t = exactSightingCount t ↔ exactSightingCount t < 2 ^ 64 := by
  rw [sightingCount_eq_mod]
  exact ⟨fun h => h ▸ Nat.mod_lt _ (Nat.two_pow_pos 64), Nat.mod_eq_of_lt⟩

end Scores

/-! ### Scores that accrue -/

/-- The scores of a hash map: one for each name, each within a word. -/
structure Scored (m : List (String × ℕ)) : Prop where
  nodup : (m.map (·.1)).Nodup
  words : ∀ x ∈ m, x.2 < 2 ^ 64

section Accrue

variable {m : List (String × ℕ)} {a k : String} {n : ℕ}

theorem Scored.tail {x : String × ℕ} (h : Scored (x :: m)) : Scored m :=
  ⟨(List.nodup_cons.1 h.nodup).2, fun y hy => h.words y (List.mem_cons_of_mem _ hy)⟩

theorem Scored.dueTo_head {x : String × ℕ} (h : Scored (x :: m)) : dueTo x.1 m = 0 :=
  dueTo_eq_zero fun y hy heq => (List.nodup_cons.1 h.nodup).1 (List.mem_map.2 ⟨y, hy, heq⟩)

/-- A name is due the one score it has. -/
theorem Scored.dueTo_eq (h : Scored m) {x : String × ℕ} (hx : x ∈ m) : dueTo x.1 m = x.2 := by
  induction m with
  | nil => cases hx
  | cons y rest ih =>
    rw [dueTo_cons]
    rcases List.mem_cons.1 hx with rfl | hx
    · rw [if_pos rfl, h.dueTo_head, Nat.add_zero]
    · have hne : y.1 ≠ x.1 := fun heq =>
        (List.nodup_cons.1 h.nodup).1 (List.mem_map.2 ⟨x, hx, heq.symm⟩)
      rw [if_neg hne, Nat.zero_add, ih h.tail hx]

theorem Scored.dueTo_lt (h : Scored m) (a : String) : dueTo a m < 2 ^ 64 := by
  by_cases hin : ∃ x ∈ m, x.1 = a
  · obtain ⟨x, hx, rfl⟩ := hin
    rw [h.dueTo_eq hx]
    exact h.words x hx
  · rw [dueTo_eq_zero fun x hx heq => hin ⟨x, hx, heq⟩]
    decide

theorem mem_keys_accrue : a ∈ (accrue k n m).map (·.1) ↔ a = k ∨ a ∈ m.map (·.1) := by
  induction m with
  | nil => simp [accrue]
  | cons x rest ih =>
    unfold accrue
    split
    · next heq => simp [heq]
    · rw [List.map_cons, List.mem_cons, ih, List.map_cons, List.mem_cons]
      exact or_left_comm

theorem Scored.accrue (h : Scored m) (k : String) (n : ℕ) : Scored (accrue k n m) := by
  induction m with
  | nil =>
    refine ⟨List.nodup_singleton _, fun x hx => ?_⟩
    rw [List.mem_singleton.1 hx]
    exact Nat.mod_lt _ (Nat.two_pow_pos 64)
  | cons y rest ih =>
    have hy := (List.nodup_cons.1 h.nodup).1
    unfold HoneNode.accrue
    split
    · refine ⟨h.nodup, fun x hx => ?_⟩
      rcases List.mem_cons.1 hx with rfl | hx
      · exact Nat.mod_lt _ (Nat.two_pow_pos 64)
      · exact h.words x (List.mem_cons_of_mem _ hx)
    · next hne =>
      have hrest := ih h.tail
      refine ⟨List.nodup_cons.2 ⟨fun hin => ?_, hrest.nodup⟩, fun x hx => ?_⟩
      · rcases mem_keys_accrue.1 hin with heq | hin
        · exact hne heq
        · exact hy hin
      · rcases List.mem_cons.1 hx with rfl | hx
        · exact h.words _ List.mem_cons_self
        · exact hrest.words x hx

/-- What is added to one name is added within a word, and the others keep theirs. -/
theorem Scored.dueTo_accrue (h : Scored m) (a k : String) (n : ℕ) :
    dueTo a (HoneNode.accrue k n m) = (dueTo a m + if k = a then n else 0) % 2 ^ 64 := by
  induction m with
  | nil =>
    unfold HoneNode.accrue
    rw [dueTo_cons]
    have hnil : dueTo a ([] : List (String × ℕ)) = 0 := rfl
    rw [hnil]
    split
    · rw [Nat.add_zero, Nat.zero_add]
    · rfl
  | cons y rest ih =>
    have hy := h.words y List.mem_cons_self
    have hrest := h.tail.dueTo_lt a
    unfold HoneNode.accrue
    split
    · next heq =>
      subst heq
      rw [dueTo_cons, dueTo_cons]
      by_cases hya : y.1 = a
      · subst hya
        rw [if_pos rfl, if_pos rfl, h.dueTo_head, Nat.add_zero, Nat.add_zero, if_pos rfl]
        rfl
      · rw [if_neg hya, if_neg hya, if_neg hya, Nat.zero_add, Nat.add_zero, Nat.mod_eq_of_lt hrest]
    · next hne =>
      rw [dueTo_cons, dueTo_cons, ih h.tail]
      by_cases hya : y.1 = a
      · subst hya
        rw [if_pos rfl, if_neg (Ne.symm hne), h.dueTo_head, Nat.add_zero, Nat.add_zero,
          Nat.mod_eq_of_lt hy]
        rfl
      · rw [if_neg hya, Nat.zero_add, Nat.zero_add]

/-- The scores that a list of contributions adds up to. -/
def accrued (contributions : List (String × ℕ)) (m : List (String × ℕ)) : List (String × ℕ) :=
  contributions.foldl (fun m x => accrue x.1 x.2 m) m

theorem accrued_spec (l : List (String × ℕ)) (h : Scored m) : Scored (accrued l m) ∧
    (∀ a, dueTo a (accrued l m) = (dueTo a m + dueTo a l) % 2 ^ 64) ∧
    ∀ a, a ∈ (accrued l m).map (·.1) ↔ a ∈ m.map (·.1) ∨ a ∈ l.map (·.1) := by
  induction l generalizing m with
  | nil =>
    refine ⟨h, fun a => (Nat.mod_eq_of_lt (h.dueTo_lt a)).symm, fun a => ?_⟩
    exact (or_iff_left List.not_mem_nil).symm
  | cons x rest ih =>
    obtain ⟨hscored, hdue, hkeys⟩ := ih (h.accrue x.1 x.2)
    refine ⟨hscored, fun a => ?_, fun a => ?_⟩
    · have hhead := hdue a
      rw [h.dueTo_accrue, Nat.mod_add_mod, Nat.add_assoc, ← dueTo_cons] at hhead
      exact hhead
    · rw [List.map_cons, List.mem_cons, or_left_comm, ← or_assoc, ← mem_keys_accrue]
      exact hkeys a

end Accrue

section Trackers

variable {epoch : ℕ} {s : Chain} (order : Tally.HashOrder (String × ℕ))

theorem trackerNodes_eq :
    trackerNodes order epoch s = order.visit (accrued (sightings epoch s) []) := by
  unfold trackerNodes accrued sightings
  rw [List.foldl_map]

/-- An observer is scored what its sightings come to while that fits a word. -/
theorem trackerNodes_exact_iff :
    (∀ n ∈ trackerNodes order epoch s, n.2 = dueTo n.1 (sightings epoch s)) ↔
      ∀ a, dueTo a (sightings epoch s) < 2 ^ 64 := by
  have hempty : Scored [] := ⟨List.nodup_nil, fun _ hx => by cases hx⟩
  obtain ⟨hscored, hdue, hkeys⟩ := accrued_spec (sightings epoch s) hempty
  have hzero : ∀ a, dueTo a (accrued (sightings epoch s) []) =
      dueTo a (sightings epoch s) % 2 ^ 64 := by
    intro a
    have ha := hdue a
    have hnil : dueTo a ([] : List (String × ℕ)) = 0 := rfl
    rwa [hnil, Nat.zero_add] at ha
  have hmem : ∀ n, n ∈ trackerNodes order epoch s ↔ n ∈ accrued (sightings epoch s) [] := by
    intro n
    rw [trackerNodes_eq]
    exact (order.perm _).mem_iff
  constructor
  · intro h a
    by_cases hin : a ∈ (sightings epoch s).map (·.1)
    · obtain ⟨n, hn, rfl⟩ := List.mem_map.1 ((hkeys a).2 (.inr hin))
      rw [← h n ((hmem n).2 hn)]
      exact hscored.words n hn
    · rw [dueTo_eq_zero fun x hx heq => hin (List.mem_map.2 ⟨x, hx, heq⟩)]
      decide
  · intro h n hn
    have hn := (hmem n).1 hn
    rw [← hscored.dueTo_eq hn, hzero, Nat.mod_eq_of_lt (h n.1)]

end Trackers

/-! ## Bounds -/

/-- A pool of an epoch is paid out fairly, and nothing on the way has wrapped around. -/
structure Sound (orders : RewardOrders) (epoch : ℕ) (s : Chain) (p : WorkPool) (pool : ℕ) :
    Prop where
  fair : Fair ((workOf orders epoch s).contributors p) pool
  total : totalScore ((workOf orders epoch s).contributors p) =
    scoreSum ((workOf orders epoch s).contributors p)
  scores : ExactScores orders epoch s p

theorem exactScores_iff (orders : RewardOrders) (epoch : ℕ) (s : Chain) (p : WorkPool) :
    ExactScores orders epoch s p ↔ SmallReports epoch s p := by
  cases p with
  | inference => exact forall₂_congr fun m _ => mineScore_eq_iff m
  | storage => exact forall₂_congr fun b _ => storageScore_eq_iff b
  | tracker =>
    exact and_congr (forall₂_congr fun t _ => sightingCount_eq_iff t)
      (trackerNodes_exact_iff orders.trackers)
  | _ => exact Iff.rfl

/-- A pool is paid out entry by entry, and as reported exactly where its scores add up within a
word and no report is cut after its product has left one. -/
theorem payouts_sound_iff (orders : RewardOrders) (epoch : ℕ) (s : Chain) (p : WorkPool)
    {pool : ℕ} (hpool : pool < 2 ^ 64) :
    (∀ pay t, (distributeRewards ((workOf orders epoch s).contributors p) pool pay).run t =
      ((payouts ((workOf orders epoch s).contributors p) pool).forM fun x =>
        ignoreErr (pay x.1 x.2)).run t) ∧
    (Sound orders epoch s p pool ↔
      scoreSum ((workOf orders epoch s).contributors p) < 2 ^ 64 ∧ SmallReports epoch s p) := by
  refine ⟨run_distributeRewards, ?_, ?_⟩
  · intro h
    refine ⟨?_, (exactScores_iff orders epoch s p).1 h.scores⟩
    rw [← h.total]
    exact Nat.mod_lt _ (Nat.two_pow_pos 64)
  · rintro ⟨hsum, hreports⟩
    exact ⟨fair_of_lt hsum hpool, totalScore_eq hsum, (exactScores_iff orders epoch s p).2 hreports⟩

theorem payouts_sound_iff_of_sample :
    Sound .stored 1 sampleEmission.before .storage 3920000000 ∧
      payouts ((workOf .stored 1 sampleEmission.before).contributors .storage) 3920000000 =
        [("node", 3920000000)] := by
  refine ⟨(payouts_sound_iff _ _ _ _ (by decide)).2.2 ⟨by decide, fun b hb hproof => ?_⟩, by decide⟩
  have hall : ∀ b ∈ sampleEmission.before.records .storageBeat "1:", b.proofValid = true := by
    decide
  rw [hall b hb] at hproof
  cases hproof

/-- Two verifiers report scores that add up to one beyond a word. -/
def overScored : Chain :=
  (({} : Chain).stateSet .inferVerify "5:a" ⟨"a", 5, 1, 2 ^ 63⟩).stateSet .inferVerify "5:b"
    ⟨"b", 5, 1, 2 ^ 63 + 1⟩

/-- A storage node reports more bytes than can be cut to a fifth, and no proof. -/
def unproven : Chain :=
  ({} : Chain).stateSet .storageBeat "5:node"
    { nodeId := "node", epoch := 5, bytesProven := 2 ^ 63, queryCount := 0, proofValid := false,
      tier := 1 }

/-- Of a pool of one hunit both verifiers are paid their scores in full; and the storage node has
no score at all. -/
theorem wrapped_scores_mispay :
    payouts ((workOf .stored 5 overScored).contributors .verifier) 1 =
        [("a", 2 ^ 63), ("b", 2 ^ 63 + 1)] ∧
      ¬ Sound .stored 5 overScored .verifier 1 ∧
      (workOf .stored 5 unproven).contributors .storage = [] ∧
      (unproven.records .storageBeat "5:").map exactStorageScore = [1844674407370955161] ∧
      ¬ Sound .stored 5 unproven .storage 1 := by
  refine ⟨by decide, fun h => ?_, by decide, by decide, fun h => ?_⟩
  · exact absurd h.fair.bounded (by decide)
  · have hscores : ∀ b ∈ unproven.records .storageBeat "5:", storageScore b = exactStorageScore b :=
      h.scores
    exact absurd hscores (by decide)

end HoneNode
