import Mathlib.Algebra.Order.Ring.GeomSum
import Mathlib.Tactic.IntervalCases
import HoneNode.Lib.Eras
import HoneNode.SealOrder

/-!
# Timeline — when epochs start

An epoch starts where the one before it ends: by the pure schedule, which doubles the
duration from era to era, and by the durations that the era boundaries have stored.
A boundary seal fits what is left of the minting eras into the time to the target.
-/

namespace HoneNode.Timeline

open SealOrder

/-! ## The schedules -/

/-- Epoch duration at a given epoch, the pure path. -/
def epochDurationMs (epoch : ℕ) : ℕ := initialEpochMs * 2 ^ min (era epoch) recycleEra

/-- Offset from genesis of the start of an epoch, in unchecked arithmetic. -/
def epochStartMsFromGenesis (epoch : ℕ) : ℕ :=
  if epoch = 0 then 0
  else
    let e := era epoch
    let fullEraMs := ((List.range e).map fun k =>
      wrapMul doublingInterval (initialEpochMs * 2 ^ min k recycleEra)).foldl wrapAdd 0
    let epochInEra := epoch - e * doublingInterval
    let curEpochMs := initialEpochMs * 2 ^ min e recycleEra
    wrapAdd fullEraMs (wrapMul epochInEra curEpochMs)

/-- The calibrated duration of an era. -/
def storedEpochMs (env : Env) (s : Chain) (k : ℕ) : Option ℕ :=
  (s.param (eraKey k)).bind env.decodeU64

def epochDurationMsDynamic (env : Env) (s : Chain) (epoch : ℕ) : ℕ :=
  (storedEpochMs env s (era epoch)).getD (epochDurationMs epoch)

def epochStartMsDynamic (env : Env) (s : Chain) (epoch genesisMs : ℕ) : ℕ :=
  if epoch = 0 then genesisMs
  else
    let e := era epoch
    let ms := (List.range e).foldl (fun ms k => satAdd ms (satMul doublingInterval
      ((storedEpochMs env s k).getD (epochDurationMs (k * doublingInterval))))) genesisMs
    let epochInEra := epoch - e * doublingInterval
    let curEpochMs := (storedEpochMs env s e).getD (epochDurationMs epoch)
    satAdd ms (satMul epochInEra curEpochMs)

/-! ## The pace of every era -/

/-- The duration that the pure path gives an era. -/
def pureMs (k : ℕ) : ℕ := initialEpochMs * 2 ^ min k recycleEra

/-- The duration that a chain gives an era. -/
def dynamicMs (env : Env) (s : Chain) (k : ℕ) : ℕ := (storedEpochMs env s k).getD (pureMs k)

theorem doublingInterval_pos : 0 < doublingInterval := by decide

section Pace

variable {env : Env} {s : Chain}

theorem epochDurationMs_eq (epoch : ℕ) :
    epochDurationMs epoch = pureMs (epoch / doublingInterval) :=
  rfl

theorem epochDurationMs_era (k : ℕ) : epochDurationMs (k * doublingInterval) = pureMs k := by
  rw [epochDurationMs_eq, Nat.mul_div_cancel k doublingInterval_pos]

theorem epochDurationMsDynamic_eq (epoch : ℕ) :
    epochDurationMsDynamic env s epoch = dynamicMs env s (epoch / doublingInterval) := rfl

theorem sum_map_range (f : ℕ → ℕ) (n : ℕ) :
    ((List.range n).map f).sum = ∑ k ∈ Finset.range n, f k := by
  induction n with
  | zero => rfl
  | succ n ih =>
    rw [List.range_succ, List.map_append, List.sum_append, ih, Finset.sum_range_succ,
      List.map_singleton, List.sum_singleton]

/-- Wrapping sums are the exact sum, as far as a word holds it. -/
theorem foldl_wrapAdd (l : List ℕ) (acc : ℕ) :
    (l.map (· % 2 ^ 64)).foldl wrapAdd (acc % 2 ^ 64) = (acc + l.sum) % 2 ^ 64 := by
  induction l generalizing acc with
  | nil => rfl
  | cons n l ih =>
    have hhead : wrapAdd (acc % 2 ^ 64) (n % 2 ^ 64) = (acc + n) % 2 ^ 64 :=
      (Nat.add_mod acc n _).symm
    rw [List.map_cons, List.foldl_cons, hhead, ih, List.sum_cons, Nat.add_assoc]

theorem epochStartMsFromGenesis_eq (epoch : ℕ) :
    epochStartMsFromGenesis epoch = Eras.start doublingInterval pureMs epoch % 2 ^ 64 := by
  rw [epochStartMsFromGenesis]
  split_ifs with hzero
  · rw [hzero, Eras.start_zero, Nat.zero_mod]
  · have hsum : ((List.range (era epoch)).map fun k =>
        wrapMul doublingInterval (initialEpochMs * 2 ^ min k recycleEra)).foldl wrapAdd 0 =
        (∑ k ∈ Finset.range (era epoch), doublingInterval * pureMs k) % 2 ^ 64 := by
      have hfold := foldl_wrapAdd ((List.range (era epoch)).map (doublingInterval * pureMs ·)) 0
      rw [List.map_map, Nat.zero_add] at hfold
      rw [← sum_map_range]
      exact hfold
    dsimp only
    rw [hsum, Eras.start]
    exact (Nat.add_mod _ _ _).symm

theorem satAdd_satMul (a b n m : ℕ) :
    satAdd (min (a + b) u64Max) (satMul n m) = min (a + (b + n * m)) u64Max := by
  rw [satAdd, satMul]
  generalize n * m = product
  omega

/-- Saturating sums are the exact sum, cut at the largest word. -/
theorem foldl_satAdd (f : ℕ → ℕ) (l : List ℕ) (acc : ℕ) :
    l.foldl (fun ms k => satAdd ms (satMul doublingInterval (f k))) (min acc u64Max) =
      min (acc + (l.map fun k => doublingInterval * f k).sum) u64Max := by
  induction l generalizing acc with
  | nil => rfl
  | cons k l ih =>
    have hhead : satAdd (min acc u64Max) (satMul doublingInterval (f k)) =
        min (acc + doublingInterval * f k) u64Max := by
      have hsum := satAdd_satMul acc 0 doublingInterval (f k)
      rwa [Nat.add_zero, Nat.zero_add] at hsum
    rw [List.foldl_cons, hhead, ih, List.map_cons, List.sum_cons, Nat.add_assoc]

theorem epochStartMsDynamic_eq (epoch : ℕ) {genesisMs : ℕ} (h : genesisMs < 2 ^ 64) :
    epochStartMsDynamic env s epoch genesisMs =
      min (genesisMs + Eras.start doublingInterval (dynamicMs env s) epoch) u64Max := by
  have hgenesis : min genesisMs u64Max = genesisMs := by
    rw [u64Max]
    omega
  rw [epochStartMsDynamic]
  split_ifs with hzero
  · rw [hzero, Eras.start_zero, Nat.add_zero, hgenesis]
  · have hrate : ∀ k, (storedEpochMs env s k).getD (epochDurationMs (k * doublingInterval)) =
        dynamicMs env s k := by
      intro k
      rw [epochDurationMs_era, dynamicMs]
    have hcur : (storedEpochMs env s (era epoch)).getD (epochDurationMs epoch) =
        dynamicMs env s (epoch / doublingInterval) := rfl
    have hfold := foldl_satAdd (dynamicMs env s) (List.range (era epoch)) genesisMs
    rw [hgenesis] at hfold
    simp only [hrate, hcur, hfold, sum_map_range]
    rw [Eras.start]
    exact satAdd_satMul _ _ _ _

/-! ## One epoch after the other -/

theorem epochStart_succ {e : ℕ}
    (h : epochStartMsFromGenesis e + epochDurationMs e < 2 ^ 64) :
    epochStartMsFromGenesis (e + 1) = epochStartMsFromGenesis e + epochDurationMs e := by
  rw [epochStartMsFromGenesis_eq] at h ⊢
  rw [epochStartMsFromGenesis_eq, Eras.start_succ doublingInterval_pos, ← epochDurationMs_eq,
    ← Nat.mod_add_mod, Nat.mod_eq_of_lt h]

theorem epochStartDynamic_succ {e genesisMs : ℕ} (hgenesis : genesisMs < 2 ^ 64)
    (h : epochStartMsDynamic env s e genesisMs + epochDurationMsDynamic env s e < 2 ^ 64) :
    epochStartMsDynamic env s (e + 1) genesisMs =
      epochStartMsDynamic env s e genesisMs + epochDurationMsDynamic env s e := by
  rw [epochStartMsDynamic_eq _ hgenesis] at h ⊢
  rw [epochStartMsDynamic_eq _ hgenesis, Eras.start_succ doublingInterval_pos,
    ← epochDurationMsDynamic_eq]
  rw [u64Max] at h ⊢
  omega

/-- Without a calibration both schedules are the same. -/
theorem dynamicMs_eq_pureMs (h : ∀ k, s.param (eraKey k) = none) : dynamicMs env s = pureMs := by
  funext k
  rw [dynamicMs, storedEpochMs, h, Option.bind_none, Option.getD_none]

theorem epochStartDynamic_eq_pure {e genesisMs : ℕ} (h : ∀ k, s.param (eraKey k) = none)
    (hrange : genesisMs + ∑ i ∈ Finset.range e, epochDurationMs i < 2 ^ 64) :
    epochStartMsDynamic env s e genesisMs = genesisMs + epochStartMsFromGenesis e := by
  have hsum : ∑ i ∈ Finset.range e, epochDurationMs i = Eras.start doublingInterval pureMs e :=
    (Eras.start_eq_sum doublingInterval_pos pureMs e).symm
  rw [hsum] at hrange
  rw [epochStartMsDynamic_eq _ (by omega), epochStartMsFromGenesis_eq, dynamicMs_eq_pureMs h,
    Nat.mod_eq_of_lt (by omega), u64Max]
  omega

end Pace

/-! ## A calibration -/

section Calibration

variable {env : Env} {s : Chain} {p : Entry.EpochSeal}

/-- A boundary is the first epoch of its era. -/
theorem epoch_eq_of_atBoundary {epoch : ℕ} (h : AtBoundary epoch) :
    epoch = era epoch * doublingInterval := by
  have hlt : (epoch - 1) / doublingInterval < epoch / doublingInterval := h.1
  have hmul : era epoch * doublingInterval ≤ epoch := Nat.div_mul_le_self _ _
  by_contra hne
  have hle : era epoch * doublingInterval ≤ epoch - 1 := by omega
  have hdiv : era epoch ≤ (epoch - 1) / doublingInterval :=
    (Nat.le_div_iff_mul_le doublingInterval_pos).2 hle
  exact absurd hlt (Nat.not_lt_of_le hdiv)

/-- The epochs of the minting eras from `e` on, at durations of one unit, two units and
so on. -/
def unitsFrom (e : ℕ) : ℕ := doublingInterval * (2 ^ (recycleEra - e) - 1)

theorem calibrateEraEpochMs_eq {e : ℕ} (h : e < recycleEra) (now target : ℕ) :
    calibrateEraEpochMs e now target = max ((target - now) / unitsFrom e) 1000 := by
  have hlt : e < 5 := h
  rw [calibrateEraEpochMs, if_neg (Nat.not_le_of_lt h)]
  interval_cases e <;> rfl

theorem unitsFrom_pos {e : ℕ} (h : e < recycleEra) : 0 < unitsFrom e := by
  have hlt : e < 5 := h
  interval_cases e <;> decide

theorem sum_two_pow (n : ℕ) : ∑ j ∈ Finset.range n, 2 ^ j = 2 ^ n - 1 := by
  rw [Nat.geomSum_eq le_rfl, Nat.div_one]

/-- Doubling durations from a base on fill the units. -/
theorem sum_doubling (e base : ℕ) :
    ∑ k ∈ Finset.Ico e recycleEra, doublingInterval * (base * 2 ^ (k - e)) =
      base * unitsFrom e := by
  have hterm : ∀ j, doublingInterval * (base * 2 ^ (e + j - e)) =
      base * doublingInterval * 2 ^ j := by
    intro j
    rw [Nat.add_sub_cancel_left, ← Nat.mul_assoc, Nat.mul_comm base]
  rw [Finset.sum_Ico_eq_sum_range]
  simp only [hterm]
  rw [← Finset.mul_sum, sum_two_pow, unitsFrom, Nat.mul_assoc]

theorem min_add_le (a b m : ℕ) : min (a + b) m ≤ min a m + b := by
  omega

section Counted

variable (hserde : ∀ n : ℕ, n < 2 ^ 64 → env.decodeU64 (env.encodeU64 n) = some n)

include hserde

/-- What a counting boundary seal stores for the eras that still mint. -/
theorem dynamicMs_counted (hboundary : AtBoundary p.epoch) {k : ℕ} (hlow : era p.epoch ≤ k)
    (hhigh : k < recycleEra) :
    dynamicMs env (SealOrder.counted env p s) k =
      calibrateEraEpochMs (era p.epoch) p.timestamp (targetEnd env s) * 2 ^ (k - era p.epoch) %
        2 ^ 64 := by
  rw [dynamicMs, storedEpochMs, duration_counted, durationFor, if_pos ⟨hboundary, hlow, hhigh⟩,
    Option.some_or, Option.bind_some, hserde _ (Nat.mod_lt _ (Nat.two_pow_pos 64)),
    Option.getD_some]

theorem sum_counted (hboundary : AtBoundary p.epoch) :
    ∑ i ∈ Finset.Ico p.epoch (recycleEra * doublingInterval),
        epochDurationMsDynamic env (SealOrder.counted env p s) i =
      ∑ k ∈ Finset.Ico (era p.epoch) recycleEra, doublingInterval *
        (calibrateEraEpochMs (era p.epoch) p.timestamp (targetEnd env s) *
          2 ^ (k - era p.epoch) % 2 ^ 64) := by
  have hsum := Eras.sum_eras doublingInterval_pos (dynamicMs env (SealOrder.counted env p s))
    hboundary.2.le
  rw [← epoch_eq_of_atBoundary hboundary] at hsum
  refine hsum.trans (Finset.sum_congr rfl fun k hk => ?_)
  obtain ⟨hlow, hhigh⟩ := Finset.mem_Ico.1 hk
  rw [dynamicMs_counted hserde hboundary hlow hhigh]

/-- The minting eras end in time if the target leaves the epochs a second at least. -/
theorem sum_counted_le (hboundary : AtBoundary p.epoch)
    (hroom : p.timestamp + 1000 * unitsFrom (era p.epoch) ≤ targetEnd env s) :
    p.timestamp + ∑ i ∈ Finset.Ico p.epoch (recycleEra * doublingInterval),
      epochDurationMsDynamic env (SealOrder.counted env p s) i ≤ targetEnd env s := by
  have hunits := unitsFrom_pos hboundary.2
  have hbase : calibrateEraEpochMs (era p.epoch) p.timestamp (targetEnd env s) =
      (targetEnd env s - p.timestamp) / unitsFrom (era p.epoch) := by
    rw [calibrateEraEpochMs_eq hboundary.2]
    exact max_eq_left ((Nat.le_div_iff_mul_le hunits).2 (Nat.le_sub_of_add_le' hroom))
  have hterm : ∀ k ∈ Finset.Ico (era p.epoch) recycleEra, doublingInterval *
      (calibrateEraEpochMs (era p.epoch) p.timestamp (targetEnd env s) *
        2 ^ (k - era p.epoch) % 2 ^ 64) ≤ doublingInterval *
      (calibrateEraEpochMs (era p.epoch) p.timestamp (targetEnd env s) * 2 ^ (k - era p.epoch)) :=
    fun k _ => Nat.mul_le_mul_left _ (Nat.mod_le _ _)
  have hsum := Finset.sum_le_sum hterm
  rw [sum_doubling, hbase] at hsum
  have hfill := Nat.div_mul_le_self (targetEnd env s - p.timestamp) (unitsFrom (era p.epoch))
  rw [sum_counted hserde hboundary, hbase]
  omega

/-- Otherwise the epochs take a second, and the eras end too late. -/
theorem lt_sum_counted (hboundary : AtBoundary p.epoch)
    (hroom : targetEnd env s < p.timestamp + 1000 * unitsFrom (era p.epoch)) :
    targetEnd env s < p.timestamp + ∑ i ∈ Finset.Ico p.epoch (recycleEra * doublingInterval),
      epochDurationMsDynamic env (SealOrder.counted env p s) i := by
  have hunits := unitsFrom_pos hboundary.2
  have hbase : calibrateEraEpochMs (era p.epoch) p.timestamp (targetEnd env s) = 1000 := by
    rw [calibrateEraEpochMs_eq hboundary.2]
    refine max_eq_right (Nat.le_of_lt_succ (Nat.lt_succ_of_lt ?_))
    exact (Nat.div_lt_iff_lt_mul hunits).2 (by omega)
  have hterm : ∀ k ∈ Finset.Ico (era p.epoch) recycleEra, doublingInterval *
      (1000 * 2 ^ (k - era p.epoch) % 2 ^ 64) =
      doublingInterval * (1000 * 2 ^ (k - era p.epoch)) := by
    intro k hk
    have hlt : k - era p.epoch < 5 := lt_of_le_of_lt (Nat.sub_le _ _) (Finset.mem_Ico.1 hk).2
    have hpow : 2 ^ (k - era p.epoch) ≤ 2 ^ 5 := Nat.pow_le_pow_right Nat.two_pos hlt.le
    rw [Nat.mod_eq_of_lt (by omega)]
  rw [sum_counted hserde hboundary, hbase, Finset.sum_congr rfl hterm, sum_doubling]
  omega

/-- The start of the recycle era, counted from a schedule that has not run late. -/
theorem epochStartDynamic_counted_le (hboundary : AtBoundary p.epoch)
    (hroom : p.timestamp + 1000 * unitsFrom (era p.epoch) ≤ targetEnd env s) {genesisMs : ℕ}
    (hgenesis : genesisMs < 2 ^ 64)
    (hstart : epochStartMsDynamic env (SealOrder.counted env p s) p.epoch genesisMs ≤
      p.timestamp) :
    epochStartMsDynamic env (SealOrder.counted env p s) (recycleEra * doublingInterval)
      genesisMs ≤ targetEnd env s := by
  have hend := sum_counted_le hserde hboundary hroom
  have hle : p.epoch ≤ recycleEra * doublingInterval := by
    rw [epoch_eq_of_atBoundary hboundary]
    exact Nat.mul_le_mul_right _ hboundary.2.le
  have hslots := Eras.start_add_sum doublingInterval_pos
    (d := dynamicMs env (SealOrder.counted env p s)) hle
  rw [epochStartMsDynamic_eq _ hgenesis] at hstart ⊢
  rw [hslots]
  have hsum : ∑ i ∈ Finset.Ico p.epoch (recycleEra * doublingInterval),
      dynamicMs env (SealOrder.counted env p s) (i / doublingInterval) =
      ∑ i ∈ Finset.Ico p.epoch (recycleEra * doublingInterval),
        epochDurationMsDynamic env (SealOrder.counted env p s) i := rfl
  rw [hsum, ← Nat.add_assoc]
  exact (min_add_le _ _ _).trans ((Nat.add_le_add_right hstart _).trans hend)

/-- Epochs follow one another on both schedules, the schedules agree until the first
calibration, and a calibration at the start of an era meets the target exactly if that
leaves the epochs a second at least. -/
theorem timeline_consistent :
    (∀ e, epochStartMsFromGenesis e + epochDurationMs e < 2 ^ 64 →
      epochStartMsFromGenesis (e + 1) = epochStartMsFromGenesis e + epochDurationMs e) ∧
    (∀ (s : Chain) (genesisMs : UInt64) (e : ℕ),
      epochStartMsDynamic env s e genesisMs.toNat + epochDurationMsDynamic env s e < 2 ^ 64 →
      epochStartMsDynamic env s (e + 1) genesisMs.toNat =
        epochStartMsDynamic env s e genesisMs.toNat + epochDurationMsDynamic env s e) ∧
    (∀ (s : Chain) (genesisMs : UInt64) (e : ℕ), (∀ k, s.param (eraKey k) = none) →
      epochDurationMsDynamic env s e = epochDurationMs e ∧
      (genesisMs.toNat + ∑ i ∈ Finset.range e, epochDurationMs i < 2 ^ 64 →
        epochStartMsDynamic env s e genesisMs.toNat =
          genesisMs.toNat + epochStartMsFromGenesis e)) ∧
    ∀ (s t : Chain) (p : Entry.EpochSeal), AtBoundary p.epoch →
      s.stateGet .epochNodeSeal (nodeSealKey p.epoch p.nodeId) = none →
      ((applyEpochSeal env p).run s).2 = t →
      (p.timestamp + ∑ i ∈ Finset.Ico p.epoch (recycleEra * doublingInterval),
          epochDurationMsDynamic env t i ≤ targetEnd env s ↔
        p.timestamp + 1000 * unitsFrom (era p.epoch) ≤ targetEnd env s) ∧
      (p.timestamp + 1000 * unitsFrom (era p.epoch) ≤ targetEnd env s →
        ∀ genesisMs : UInt64, epochStartMsDynamic env t p.epoch genesisMs.toNat ≤ p.timestamp →
          epochStartMsDynamic env t (recycleEra * doublingInterval) genesisMs.toNat ≤
            targetEnd env s) := by
  refine ⟨fun e h => epochStart_succ h, fun s g e h => epochStartDynamic_succ g.toNat_lt h, ?_, ?_⟩
  · intro s genesisMs e hnone
    refine ⟨?_, fun hrange => epochStartDynamic_eq_pure hnone hrange⟩
    rw [epochDurationMsDynamic_eq, dynamicMs_eq_pureMs hnone, epochDurationMs_eq]
  · rintro s t p hboundary hfirst rfl
    have hcounted : ((applyEpochSeal env p).run s).2 = SealOrder.counted env p s := by
      rw [run_applyEpochSeal, hfirst]
      rfl
    rw [hcounted]
    refine ⟨⟨fun hend => ?_, sum_counted_le hserde hboundary⟩, fun hroom genesisMs hstart =>
      epochStartDynamic_counted_le hserde hboundary hroom genesisMs.toNat_lt hstart⟩
    by_contra hshort
    exact absurd hend (Nat.not_le_of_lt (lt_sum_counted hserde hboundary (Nat.lt_of_not_le hshort)))

end Counted

end Calibration

/-! ### Two boundary seals -/

/-- `serde_json` on a `u64`, up to blanks and leading zeros. -/
def decimalEnv : Env := { Env.bare with decodeU64 := parseU64 }

theorem decimalEnv_reads {n : ℕ} (h : n < 2 ^ 64) :
    decimalEnv.decodeU64 (decimalEnv.encodeU64 n) = some n := by
  have hdecode : decimalEnv.decodeU64 = parseU64 := rfl
  have hencode : decimalEnv.encodeU64 n = toString n := rfl
  rw [hdecode, hencode, Text.parseU64_toString h]

/-- A chain in the last epoch before an era. -/
def chainBefore (era : ℕ) : Chain := { currentEpoch := era * doublingInterval - 1 }

/-- The seal of the first epoch of an era. -/
def boundarySeal (era timestamp : ℕ) : Entry.EpochSeal :=
  { nodeId := "ann", epoch := era * doublingInterval, timestamp := timestamp, sealHash := "00"
    signature := none, nodeVersion := none }

/-- The second era, long before the target. -/
def earlySeal : Entry.EpochSeal := boundarySeal 1 2000000000000

/-- The fourth era, and 1190 milliseconds to the target for each epoch that still mints. -/
def lateSeal : Entry.EpochSeal := boundarySeal 3 (btcProjectedEndMs - 1190 * (2 * doublingInterval))

/-- The chain after such a seal. -/
def calibrated (p : Entry.EpochSeal) : Chain :=
  ((applyEpochSeal decimalEnv p).run (chainBefore (era p.epoch))).2

/-- The second era finds its durations calibrated, and all later ones end in time. -/
theorem timeline_consistent_early :
    earlySeal.timestamp + ∑ i ∈ Finset.Ico earlySeal.epoch (recycleEra * doublingInterval),
        epochDurationMsDynamic decimalEnv (calibrated earlySeal) i ≤
      targetEnd decimalEnv (chainBefore (era earlySeal.epoch)) ∧
    epochStartMsDynamic decimalEnv (calibrated earlySeal) (earlySeal.epoch + 1)
        (1700000000000 : UInt64).toNat =
      epochStartMsDynamic decimalEnv (calibrated earlySeal) earlySeal.epoch
          (1700000000000 : UInt64).toNat +
        epochDurationMsDynamic decimalEnv (calibrated earlySeal) earlySeal.epoch := by
  have hreads : ∀ n : ℕ, n < 2 ^ 64 → decimalEnv.decodeU64 (decimalEnv.encodeU64 n) = some n :=
    fun _ h => decimalEnv_reads h
  have htimeline := timeline_consistent hreads
  have hfits := htimeline.2.2.2 (chainBefore (era earlySeal.epoch)) (calibrated earlySeal)
    earlySeal (by decide) rfl rfl
  exact ⟨hfits.1.2 (by decide +kernel), htimeline.2.1 _ _ _ (by decide +kernel)⟩

/-- The second of the two eras that are left has epochs of two seconds, and ends too late. -/
theorem timeline_late : AtBoundary lateSeal.epoch ∧
    lateSeal.timestamp + 1190 * (recycleEra * doublingInterval - lateSeal.epoch) =
      targetEnd decimalEnv (chainBefore (era lateSeal.epoch)) ∧
    targetEnd decimalEnv (chainBefore (era lateSeal.epoch)) < lateSeal.timestamp +
      ∑ i ∈ Finset.Ico lateSeal.epoch (recycleEra * doublingInterval),
        epochDurationMsDynamic decimalEnv (calibrated lateSeal) i := by
  refine ⟨by decide, by decide +kernel, ?_⟩
  have hcounted : calibrated lateSeal =
      SealOrder.counted decimalEnv lateSeal (chainBefore (era lateSeal.epoch)) :=
    run_applyEpochSeal
  rw [hcounted]
  exact lt_sum_counted (fun n h => decimalEnv_reads h) (by decide) (by decide +kernel)

end HoneNode.Timeline
