import HoneNode.Env

/-!
# Rewards.Emission — the emission schedule

What an epoch may emit, what its clock and testnet nodes are paid, and how the
work reported in it is scored (`emission.rs`). All arithmetic is that of `u64`
in a release build.
-/

namespace HoneNode

/-! ## The schedule -/

def blockRewardHunits : ℕ := 2 * hunitsPerHone
def supplyCapHunits : ℕ := 42000000 * hunitsPerHone
def clockRewardHunits : ℕ := 10000000
def testnetRewardBaseHunits : ℕ := 5000000
def recycleRewardRate : ℕ := 10
def recycleRewardDenom : ℕ := 1000000

/-- New supply of an epoch: none from the recycle era on, or once the cap is reached. -/
def blockRewardAt (epoch : ℕ) : ℕ :=
  if recycleEra ≤ era epoch then 0
  else
    let emitted := satMul epoch blockRewardHunits
    if supplyCapHunits ≤ emitted then 0 else min blockRewardHunits (supplyCapHunits - emitted)

/-- Doubles each era, up to the recycle era. -/
def clockRewardAt (epoch : ℕ) : ℕ := clockRewardHunits * 2 ^ min (era epoch) recycleEra

def testnetRewardAt (epoch : ℕ) : ℕ := testnetRewardBaseHunits * 2 ^ min (era epoch) recycleEra

/-! ## Layer A -/

def layerAScalarDenom : ℕ := 10000
def layerAScalarMin : ℕ := 7000
def layerAScalarMax : ℕ := 10000
def layerASlowAlphaNum : ℕ := 2
def layerASlowAlphaDenom : ℕ := 259201
def layerAPoolCount : ℕ := 9
def emaAlphaNum : ℕ := 2
def emaAlphaDenom : ℕ := 20161

/-- The health scalar: the worse of the two averages, mapped to 70%–100%. -/
def layerAScalar (fastEma slowEma : ℕ) : ℕ :=
  layerAScalarMin + (layerAScalarMax - layerAScalarMin) *
    min (min fastEma slowEma) layerAScalarDenom / layerAScalarDenom

/-- One step of an average with weight `num / denom` on the new value. -/
def emaStep (num denom current prev : ℕ) : ℕ :=
  wrapAdd (wrapMul num current) (wrapMul (denom - num) prev) / denom

/-! ## Scores -/

def minStake : ℕ := 100 * hunitsPerHone

/-- Newton's method from above: stop when the next guess is not smaller. -/
def isqrtLoop (n x y : ℕ) : ℕ := if y < x then isqrtLoop n y (satAdd y (n / y) / 2) else x
termination_by x

def isqrt (n : ℕ) : ℕ := if n = 0 then 0 else isqrtLoop n n (satAdd n 1 / 2)

def stakeWeight (stake : ℕ) : ℕ :=
  if stake < minStake then 1 else max (min (isqrt (stake / minStake)) 10) 1

def sensorScore (readingCount : ℕ) (sensorType : String) : ℕ :=
  match sensorType with
  | "continuous" => isqrt (satMul readingCount 100)
  | "event" => min readingCount 20 * 100
  | "sampled" => min readingCount 60 * 30 + min (readingCount - 60) 940 * 5
  | "pulse" => if readingCount = 0 then 0 else 200 + min (readingCount - 1) 10 * 10
  | _ => isqrt (satMul readingCount 10)

def mempoolRelayScore (entriesRelayed latencyMs : ℕ) : ℕ :=
  satMul entriesRelayed 1000 / max latencyMs 1

def hwTierWeight : ℕ → ℕ
  | 0 => 1
  | 1 => 4
  | 2 => 8
  | 3 => 16
  | 4 => 32
  | _ => 1

/-- Whether the text occurs in the other. -/
def containsText (s pat : String) : Bool := s.toList.tails.any (pat.toList.isPrefixOf ·)

/-- By the parameter count in the model's name. -/
def modelWeight (model : String) : ℕ :=
  let has (pat : String) : Bool := containsText (model.map Char.toLower) pat
  if has "0.5b" then 1
  else if has "1.5b" || has "1b" then 2
  else if has "3b" || has "3.8b" || has "4b" then 3
  else if has "7b" || has "8b" then 6
  else if has "13b" || has "14b" then 10
  else if has "30b" || has "32b" || has "33b" || has "mixtral" then 20
  else if has "70b" || has "72b" then 40
  else 2

def inferenceScore (outputTokens hwTier : ℕ) (model : String) : ℕ :=
  satMul (satMul outputTokens (hwTierWeight hwTier)) (modelWeight model)

/-! ## What the schedule emits -/

theorem blockRewardAt_le (epoch : ℕ) : blockRewardAt epoch ≤ blockRewardHunits := by
  unfold blockRewardAt
  split
  · exact Nat.zero_le _
  · dsimp only
    split
    · exact Nat.zero_le _
    · exact min_le_left _ _

/-- Only the epochs before the recycle era emit. -/
theorem blockRewardAt_eq_zero {epoch : ℕ} (h : recycleEra * doublingInterval ≤ epoch) :
    blockRewardAt epoch = 0 := by
  have hera : recycleEra ≤ era epoch := by
    unfold era
    exact (Nat.le_div_iff_mul_le (by decide)).2 h
  rw [blockRewardAt, if_pos hera]

/-- The epochs that emit are few enough for the cap. -/
theorem supplyCapHunits_eq :
    supplyCapHunits = recycleEra * doublingInterval * blockRewardHunits := by decide

/-- However the epochs are chosen, each of them once, they emit no more than the cap. -/
theorem sum_blockRewardAt_le {epochs : List ℕ} (h : epochs.Nodup) :
    (epochs.map blockRewardAt).sum ≤ supplyCapHunits := by
  have hemit : (epochs.map blockRewardAt).sum =
      ((epochs.filter (· < recycleEra * doublingInterval)).map blockRewardAt).sum := by
    induction epochs with
    | nil => rfl
    | cons e rest ih =>
      have ih := ih (List.nodup_cons.1 h).2
      by_cases he : e < recycleEra * doublingInterval
      · simp [he, ih]
      · simp [he, ih, blockRewardAt_eq_zero (Nat.le_of_not_lt he)]
  have hlen : (epochs.filter (· < recycleEra * doublingInterval)).length ≤
      recycleEra * doublingInterval := by
    have hsub : epochs.filter (· < recycleEra * doublingInterval) ⊆
        List.range (recycleEra * doublingInterval) := by
      intro e he
      have := (List.mem_filter.1 he).2
      simpa using this
    have := (List.subperm_of_subset (h.filter _) hsub).length_le
    simpa using this
  have hsum : ∀ l : List ℕ, (l.map blockRewardAt).sum ≤ l.length * blockRewardHunits := by
    intro l
    induction l with
    | nil => simp
    | cons e rest ih =>
      rw [List.map_cons, List.sum_cons, List.length_cons, Nat.succ_mul]
      have := blockRewardAt_le e
      omega
  rw [hemit, supplyCapHunits_eq]
  exact (hsum _).trans (Nat.mul_le_mul_right _ hlen)

end HoneNode
