import Mathlib.Data.Rat.Floor
import HoneNode.Lib.Decimal
import HoneNode.Lib.Trace
import HoneNode.Tx.Fees

/-!
# Tx.BaseFee — the fee follows the weight of the epochs

After every epoch the base fee moves towards the target weight, by a tenth at most.
The ratio is cut to whole basis points before the fee is multiplied with it.
-/

namespace HoneNode.Tx

/-! ## The controller -/

def epochTargetWeightUnits : ℕ := 1000
def baseFeeMinHunits : ℕ := 1000
def baseFeeMaxHunits : ℕ := 100 * 10000000000

def computeNextBaseFee (current actualWeight targetWeight : ℕ) : ℕ :=
  if targetWeight = 0 then current
  else
    let (above, under) :=
      if targetWeight ≤ actualWeight then (actualWeight - targetWeight, 0)
      else (0, targetWeight - actualWeight)
    let ratioBps :=
      if 0 < above then min (above * 10000 / targetWeight) 10000
      else min (under * 10000 / targetWeight) 10000
    let change := current * ratioBps / 100000 % 2 ^ 64
    let newFee := if targetWeight ≤ actualWeight then satAdd current change else current - change
    min (max newFee baseFeeMinHunits) baseFeeMaxHunits

/-- `serde_json::to_vec` of the record that the seal handler stores. -/
def feeText (fee : ℕ) : String := "\x7b\"fee\":" ++ toString fee ++ "\x7d"

/-- The update in the seal handler, after the entries of the epoch. -/
def updateBaseFee (env : Env) (epochTotalWeight : ℕ) (s : Chain) : Chain :=
  s.stateSet .chainParam "base_fee"
    (feeText (computeNextBaseFee (readBaseFee env s) epochTotalWeight epochTargetWeightUnits))

/-! ## What one update does -/

/-- A fee between the absolute minimum and the absolute maximum. -/
structure InRange (fee : ℕ) : Prop where
  low : baseFeeMinHunits ≤ fee
  high : fee ≤ baseFeeMaxHunits

/-- How far the weight is off, in basis points of the target. -/
def ratioBps (actual target : ℕ) : ℕ :=
  min ((if target ≤ actual then actual - target else target - actual) * 10000 / target) 10000

def feeStep (current actual target : ℕ) : ℕ := current * ratioBps actual target / 100000

def clampFee (fee : ℕ) : ℕ := min (max fee baseFeeMinHunits) baseFeeMaxHunits

section Step

variable {current actual target : ℕ}

theorem ratioBps_le (actual target : ℕ) : ratioBps actual target ≤ 10000 := Nat.min_le_right _ _

theorem feeStep_le (current actual target : ℕ) : feeStep current actual target ≤ current / 10 := by
  have hmul : current * ratioBps actual target ≤ current * 10000 :=
    Nat.mul_le_mul_left current (ratioBps_le actual target)
  calc feeStep current actual target ≤ current * 10000 / 100000 := Nat.div_le_div_right hmul
    _ = current / 10 := by omega

theorem inRange_clampFee (fee : ℕ) : InRange (clampFee fee) := by
  constructor
  · exact le_min (le_max_right _ _) (by decide)
  · exact Nat.min_le_right _ _

theorem clampFee_of_inRange {fee : ℕ} (h : InRange fee) : clampFee fee = fee := by
  rw [clampFee, max_eq_left h.low, min_eq_left h.high]

theorem clampFee_mono {a b : ℕ} (h : a ≤ b) : clampFee a ≤ clampFee b :=
  min_le_min_right _ (max_le_max_right _ h)

/-- The controller without its machine arithmetic. -/
theorem computeNextBaseFee_eq (hfee : current ≤ baseFeeMaxHunits) (htarget : 0 < target) :
    computeNextBaseFee current actual target =
      clampFee (if target ≤ actual then current + feeStep current actual target
        else current - feeStep current actual target) := by
  have hstep := feeStep_le current actual target
  have hmax : baseFeeMaxHunits = 1000000000000 := rfl
  have hword : feeStep current actual target % 2 ^ 64 = feeStep current actual target :=
    Nat.mod_eq_of_lt (by omega)
  have hsat : satAdd current (feeStep current actual target) =
      current + feeStep current actual target := by
    rw [satAdd, u64Max]
    exact Nat.min_eq_left (by omega)
  rw [computeNextBaseFee, if_neg (Nat.ne_of_gt htarget), ← hsat]
  by_cases hover : target ≤ actual
  · have hratio : (if 0 < actual - target then min ((actual - target) * 10000 / target) 10000
        else min (0 * 10000 / target) 10000) = ratioBps actual target := by
      rw [ratioBps, if_pos hover]
      by_cases hpos : 0 < actual - target
      · rw [if_pos hpos]
      · rw [if_neg hpos, Nat.eq_zero_of_not_pos hpos]
    simp only [if_pos hover, hratio]
    rw [← feeStep, hword, clampFee]
  · have hratio : min ((target - actual) * 10000 / target) 10000 = ratioBps actual target := by
      rw [ratioBps, if_neg hover]
    simp only [if_neg hover, Nat.lt_irrefl, if_false, hratio]
    rw [← feeStep, hword, clampFee]

theorem inRange_computeNextBaseFee (htarget : 0 < target) :
    InRange (computeNextBaseFee current actual target) := by
  rw [computeNextBaseFee, if_neg (Nat.ne_of_gt htarget)]
  exact inRange_clampFee _

/-- Towards the target, and by a tenth at most. -/
theorem computeNextBaseFee_of_le (h : InRange current) (htarget : 0 < target)
    (hover : target ≤ actual) :
    current ≤ computeNextBaseFee current actual target ∧
      computeNextBaseFee current actual target ≤ current + current / 10 := by
  have hstep := feeStep_le current actual target
  rw [computeNextBaseFee_eq h.high htarget, if_pos hover]
  constructor
  · calc current = clampFee current := (clampFee_of_inRange h).symm
      _ ≤ clampFee (current + feeStep current actual target) :=
        clampFee_mono (Nat.le_add_right _ _)
  · refine (Nat.min_le_left _ _).trans (max_le ?_ ?_)
    · omega
    · exact h.low.trans (Nat.le_add_right _ _)

theorem computeNextBaseFee_of_ge (h : InRange current) (htarget : 0 < target)
    (hunder : actual ≤ target) :
    computeNextBaseFee current actual target ≤ current ∧
      current - current / 10 ≤ computeNextBaseFee current actual target := by
  have hstep := feeStep_le current actual target
  rw [computeNextBaseFee_eq h.high htarget]
  rcases Nat.lt_or_eq_of_le hunder with hlt | rfl
  · rw [if_neg (Nat.not_le_of_lt hlt)]
    constructor
    · calc clampFee (current - feeStep current actual target) ≤ clampFee current :=
          clampFee_mono (Nat.sub_le _ _)
        _ = current := clampFee_of_inRange h
    · refine le_min ((by omega : _ ≤ current - feeStep current actual target).trans
        (le_max_left _ _)) ?_
      exact (Nat.sub_le _ _).trans h.high
  · have hzero : feeStep current actual actual = 0 := by
      rw [feeStep, ratioBps, if_pos le_rfl, Nat.sub_self, Nat.zero_mul, Nat.zero_div, Nat.zero_min,
        Nat.mul_zero, Nat.zero_div]
    rw [if_pos le_rfl, hzero, Nat.add_zero, clampFee_of_inRange h]
    exact ⟨le_rfl, Nat.sub_le _ _⟩

theorem computeNextBaseFee_mono_weight {more : ℕ} (h : InRange current) (htarget : 0 < target)
    (hle : actual ≤ more) :
    computeNextBaseFee current actual target ≤ computeNextBaseFee current more target := by
  have hratio : ∀ {a b : ℕ}, a ≤ b → min (a * 10000 / target) 10000 ≤ min (b * 10000 / target) 10000 :=
    fun hab => min_le_min_right _ (Nat.div_le_div_right (Nat.mul_le_mul_right _ hab))
  by_cases hover : target ≤ actual
  · rw [computeNextBaseFee_eq h.high htarget, computeNextBaseFee_eq h.high htarget, if_pos hover,
      if_pos (hover.trans hle)]
    refine clampFee_mono (Nat.add_le_add_left (Nat.div_le_div_right (Nat.mul_le_mul_left _ ?_)) _)
    rw [ratioBps, ratioBps, if_pos hover, if_pos (hover.trans hle)]
    exact hratio (Nat.sub_le_sub_right hle target)
  · by_cases hover' : target ≤ more
    · have hbelow := (computeNextBaseFee_of_ge h htarget (Nat.le_of_not_le hover)).1
      have habove := (computeNextBaseFee_of_le h htarget hover').1
      exact hbelow.trans habove
    · rw [computeNextBaseFee_eq h.high htarget, computeNextBaseFee_eq h.high htarget, if_neg hover,
        if_neg hover']
      refine clampFee_mono (Nat.sub_le_sub_left (Nat.div_le_div_right (Nat.mul_le_mul_left _ ?_)) _)
      rw [ratioBps, ratioBps, if_neg hover, if_neg hover']
      exact hratio (Nat.sub_le_sub_left hle target)

/-- A rate below one takes no more from an increment than the increment. -/
theorem sub_feeStep_mono {other : ℕ} (hle : current ≤ other) :
    current - feeStep current actual target ≤ other - feeStep other actual target := by
  obtain ⟨more, rfl⟩ := Nat.exists_eq_add_of_le hle
  have hstep := feeStep_le current actual target
  have hmul : (current + more) * ratioBps actual target ≤
      current * ratioBps actual target + more * 100000 := by
    rw [Nat.add_mul]
    refine Nat.add_le_add_left (Nat.mul_le_mul_left _ ?_) _
    exact (ratioBps_le actual target).trans (by decide)
  have hincr : feeStep (current + more) actual target ≤ feeStep current actual target + more :=
    (Nat.div_le_div_right hmul).trans_eq (Nat.add_mul_div_right _ _ (by decide))
  omega

theorem computeNextBaseFee_mono_current {other : ℕ} (h : InRange current) (h' : InRange other)
    (htarget : 0 < target) (hle : current ≤ other) :
    computeNextBaseFee current actual target ≤ computeNextBaseFee other actual target := by
  rw [computeNextBaseFee_eq h.high htarget, computeNextBaseFee_eq h'.high htarget]
  by_cases hover : target ≤ actual
  · rw [if_pos hover, if_pos hover]
    refine clampFee_mono (Nat.add_le_add hle (Nat.div_le_div_right ?_))
    exact Nat.mul_le_mul_right _ hle
  · rw [if_neg hover, if_neg hover]
    exact clampFee_mono (sub_feeStep_mono hle)

end Step

/-! ## The formula over the rationals -/

/-- `|actual - target| / target`. -/
def exactRatio (actual target : ℕ) : ℚ := |(actual : ℚ) - target| / target

/-- A ratio cut to whole basis points. -/
def wholeBps (ratio : ℚ) : ℚ := ⌊ratio * 10000⌋ / 10000

/-- `old × (1 ± 0.1 × min(|ratio|, 1))`. -/
def formulaFee (current actual target : ℕ) (ratio : ℚ) : ℚ :=
  if target ≤ actual then current * (1 + 1 / 10 * min ratio 1)
  else current * (1 - 1 / 10 * min ratio 1)

/-- The whole number next to a value on the side of the current fee. -/
def roundTowards (current : ℕ) (value : ℚ) : ℤ := if (current : ℚ) ≤ value then ⌊value⌋ else ⌈value⌉

section Formula

variable {current actual target : ℕ}

theorem abs_sub_cast (actual target : ℕ) : |(actual : ℚ) - target| =
    ((if target ≤ actual then actual - target else target - actual : ℕ) : ℚ) := by
  split_ifs with h
  · rw [Nat.cast_sub h, abs_of_nonneg (sub_nonneg.2 (Nat.cast_le.2 h))]
  · have hle : actual ≤ target := Nat.le_of_not_le h
    rw [Nat.cast_sub hle, abs_sub_comm, abs_of_nonneg (sub_nonneg.2 (Nat.cast_le.2 hle))]

theorem min_wholeBps (actual target : ℕ) :
    min (wholeBps (exactRatio actual target)) 1 = (ratioBps actual target : ℚ) / 10000 := by
  have hfloor : ∀ dist : ℕ, ⌊(dist : ℚ) / target * 10000⌋ = ((dist * 10000 / target : ℕ) : ℤ) := by
    intro dist
    rw [div_mul_eq_mul_div, show (dist : ℚ) * 10000 = ((dist * 10000 : ℕ) : ℚ) by push_cast; rfl,
      Rat.floor_natCast_div_natCast, Int.natCast_div]
  rw [wholeBps, exactRatio, abs_sub_cast, hfloor, ratioBps, Nat.cast_min, Int.cast_natCast,
    ← min_div_div_right (by norm_num)]
  norm_num

theorem roundTowards_add (current : ℕ) {change : ℚ} (h : 0 ≤ change) :
    roundTowards current (current + change) = current + ⌊change⌋ := by
  rw [roundTowards, if_pos (le_add_of_nonneg_right h)]
  exact Int.floor_natCast_add current change

theorem roundTowards_sub (current : ℕ) {change : ℚ} (h : 0 ≤ change) :
    roundTowards current (current - change) = current - ⌊change⌋ := by
  rw [roundTowards]
  split_ifs with hle
  · have hzero : change = 0 := le_antisymm (by linarith) h
    rw [hzero, sub_zero, Int.floor_natCast, Int.floor_zero, sub_zero]
  · rw [sub_eq_add_neg, Int.ceil_natCast_add, Int.ceil_neg, ← sub_eq_add_neg]

/-- The controller is the formula at the ratio in basis points. -/
theorem computeNextBaseFee_eq_formula (h : InRange current) (htarget : 0 < target) :
    (computeNextBaseFee current actual target : ℤ) =
      min (max (roundTowards current
        (formulaFee current actual target (wholeBps (exactRatio actual target))))
        baseFeeMinHunits) baseFeeMaxHunits := by
  have hchange : (current : ℚ) * (1 / 10 * ((ratioBps actual target : ℚ) / 10000)) =
      ((current * ratioBps actual target : ℕ) : ℚ) / ((100000 : ℕ) : ℚ) := by
    push_cast
    ring
  have hnonneg : (0 : ℚ) ≤ ((current * ratioBps actual target : ℕ) : ℚ) / ((100000 : ℕ) : ℚ) :=
    div_nonneg (Nat.cast_nonneg _) (Nat.cast_nonneg _)
  have hfloor : ⌊((current * ratioBps actual target : ℕ) : ℚ) / ((100000 : ℕ) : ℚ)⌋ =
      ((feeStep current actual target : ℕ) : ℤ) := by
    rw [Rat.floor_natCast_div_natCast, feeStep, Int.natCast_div]
  have hstep := feeStep_le current actual target
  rw [computeNextBaseFee_eq h.high htarget, formulaFee, min_wholeBps, clampFee]
  by_cases hover : target ≤ actual
  · rw [if_pos hover, if_pos hover, mul_add, mul_one, hchange, roundTowards_add _ hnonneg, hfloor]
    push_cast
    rfl
  · rw [if_neg hover, if_neg hover, mul_sub, mul_one, hchange, roundTowards_sub _ hnonneg, hfloor,
      ← Nat.cast_sub (by omega)]
    push_cast
    rfl

/-- A third above the target: the formula would add 3333333333, whole basis points
add 3333000000. -/
theorem computeNextBaseFee_third :
    InRange 100000000000 ∧ (computeNextBaseFee 100000000000 4 3 : ℤ) ≠
      min (max (roundTowards 100000000000 (formulaFee 100000000000 4 3 (exactRatio 4 3)))
        baseFeeMinHunits) baseFeeMaxHunits := by
  have hratio : exactRatio 4 3 = 1 / 3 := by
    rw [exactRatio, abs_of_nonneg (by norm_num)]
    norm_num
  have hfee : formulaFee 100000000000 4 3 (1 / 3) = 310000000000 / 3 := by
    rw [formulaFee, if_pos (by decide), min_eq_left (by norm_num)]
    norm_num
  have hround : roundTowards 100000000000 (310000000000 / 3) = 103333333333 := by
    rw [roundTowards, if_pos (by norm_num), Int.floor_eq_iff]
    norm_num
  refine ⟨⟨by decide, by decide⟩, ?_⟩
  rw [hratio, hfee, hround]
  decide

end Formula

/-! ## Over the epochs -/

/-- What an epoch brings: entries that may do anything to the chain, and their weight. -/
structure Epoch where
  apply : Chain → Chain
  totalWeight : ℕ

/-- The stored base fee: epochs end with the update, and what happens besides leaves it alone. -/
def feeMarket (env : Env) : Trace.Component Chain Epoch where
  init s := s.param "base_fee" = none ∨ InRange (readBaseFee env s)
  step s e := updateBaseFee env e.totalWeight (e.apply s)
  other s s' := s'.param "base_fee" = s.param "base_fee"

section Market

variable {env : Env}
  (hdecode : ∀ fee : ℕ, fee < 2 ^ 64 → env.decodeFee (feeText fee) = some fee)

include hdecode

theorem readBaseFee_updateBaseFee (weight : ℕ) (s : Chain) :
    readBaseFee env (updateBaseFee env weight s) =
      computeNextBaseFee (readBaseFee env s) weight epochTargetWeightUnits := by
  have hrange : InRange (computeNextBaseFee (readBaseFee env s) weight epochTargetWeightUnits) :=
    inRange_computeNextBaseFee (by decide)
  have hword : baseFeeMaxHunits < 2 ^ 64 := by decide
  rw [readBaseFee, Chain.param, updateBaseFee, stateGet_stateSet, if_pos rfl,
    Option.bind_some, hdecode _ (hrange.high.trans_lt hword), Option.getD_some]

/-- Whatever an epoch does to the stored fee, the update brings it back into range. -/
theorem inRange_of_run {hist : List (Chain × Epoch)} {s : Chain}
    (h : Trace.Run (feeMarket env) (fun _ _ => True) hist s) : InRange (readBaseFee env s) := by
  refine Trace.Run.invariant (I := fun s => InRange (readBaseFee env s)) ?_ ?_ ?_ h
  · rintro s (hnone | hrange)
    · have hinitial : readBaseFee env s = baseFeeInitialHunits := by
        rw [readBaseFee, hnone, Option.bind_none, Option.getD_none]
      rw [hinitial]
      exact ⟨by decide, by decide⟩
    · exact hrange
  · intro s e _ _
    change InRange (readBaseFee env (updateBaseFee env e.totalWeight (e.apply s)))
    rw [readBaseFee_updateBaseFee hdecode]
    exact inRange_computeNextBaseFee (by decide)
  · intro s s' hsame hrange
    have hread : readBaseFee env s' = readBaseFee env s := by
      rw [readBaseFee, hsame, ← readBaseFee]
    rw [hread]
    exact hrange

/-- The controller: in range, a tenth at most, towards the target, monotone, and the
formula at whole basis points; so the stored fee is in range after every epoch. -/
theorem baseFee_controlled :
    (∀ current actual target, InRange current → 0 < target →
      InRange (computeNextBaseFee current actual target) ∧
      10 * |(computeNextBaseFee current actual target : ℤ) - current| ≤ current ∧
      (target ≤ actual → current ≤ computeNextBaseFee current actual target) ∧
      (actual ≤ target → computeNextBaseFee current actual target ≤ current) ∧
      (∀ more, actual ≤ more →
        computeNextBaseFee current actual target ≤ computeNextBaseFee current more target) ∧
      (∀ other, InRange other → current ≤ other →
        computeNextBaseFee current actual target ≤ computeNextBaseFee other actual target) ∧
      (computeNextBaseFee current actual target : ℤ) =
        min (max (roundTowards current
          (formulaFee current actual target (wholeBps (exactRatio actual target))))
          baseFeeMinHunits) baseFeeMaxHunits) ∧
    ∀ hist s, Trace.Run (feeMarket env) (fun _ _ => True) hist s → InRange (readBaseFee env s) := by
  refine ⟨?_, fun hist s hrun => inRange_of_run hdecode hrun⟩
  intro current actual target hcurrent htarget
  refine ⟨inRange_computeNextBaseFee htarget, ?_,
    fun hover => (computeNextBaseFee_of_le hcurrent htarget hover).1,
    fun hunder => (computeNextBaseFee_of_ge hcurrent htarget hunder).1,
    fun more hle => computeNextBaseFee_mono_weight hcurrent htarget hle,
    fun other hother hle => computeNextBaseFee_mono_current hcurrent hother htarget hle,
    computeNextBaseFee_eq_formula hcurrent htarget⟩
  rcases Nat.le_total target actual with hover | hunder
  · obtain ⟨hlow, hhigh⟩ := computeNextBaseFee_of_le hcurrent htarget hover
    rw [abs_of_nonneg (by omega)]
    omega
  · obtain ⟨hhigh, hlow⟩ := computeNextBaseFee_of_ge hcurrent htarget hunder
    rw [abs_of_nonpos (by omega)]
    omega

end Market

/-- A reader of the record, with the digits between its frame. -/
def readFeeText (text : String) : Option ℕ :=
  parseU64 (String.ofList ((text.toList.drop 7).dropLast))

theorem readFeeText_feeText {fee : ℕ} (h : fee < 2 ^ 64) : readFeeText (feeText fee) = some fee := by
  have hlist : (feeText fee).toList = "\x7b\"fee\":".toList ++ ((toString fee).toList ++ ['\x7d']) := by
    rw [feeText, String.toList_append, String.toList_append, List.append_assoc]
    rfl
  have hdrop : (feeText fee).toList.drop 7 = (toString fee).toList ++ ['\x7d'] := by
    rw [hlist]
    rfl
  rw [readFeeText, hdrop, List.dropLast_concat, String.ofList_toList]
  exact Text.parseU64_toString h

def plainEnv : Env := { Env.bare with decodeFee := readFeeText }

theorem baseFee_controlled_initial :
    InRange (computeNextBaseFee baseFeeInitialHunits 1500 epochTargetWeightUnits) := by
  have hinitial : InRange baseFeeInitialHunits := ⟨by decide, by decide⟩
  have htarget : 0 < epochTargetWeightUnits := by decide
  have hread : ∀ fee : ℕ, fee < 2 ^ 64 → plainEnv.decodeFee (feeText fee) = some fee := by
    intro fee h
    have hfun : plainEnv.decodeFee = readFeeText := rfl
    rw [hfun, readFeeText_feeText h]
  exact ((baseFee_controlled hread).1 baseFeeInitialHunits 1500 epochTargetWeightUnits hinitial
    htarget).1

end HoneNode.Tx
