import HoneNode.Lib.FloorMean
import HoneNode.Rewards.Bound

/-!
# Rewards.Averages — the moving averages of an emission

1. **Averages.** Two health averages and a critical mass for each work pool; every
   emission that has a pool writes their next values.
2. **Steps.** Above its signal an average falls; below it, it stands still, as the
   signals are less than half a denominator.
3. **Recovery.** An average that is below a constant signal never meets it, so
   that the health scalar never comes back to its maximum (`averages_recover_iff`).
-/

namespace HoneNode

open Prog Within

/-! ## Averages -/

inductive Average where
  | fast
  | slow
  | mass (p : WorkPool)
deriving DecidableEq, Repr

namespace Average

/-- The stored value, what an unset one stands for where there is none. -/
def stored (s : Chain) : Average → ℕ
  | .fast => layerAEma "fast_ema" s
  | .slow => layerAEma "slow_ema" s
  | .mass p => (s.stateGet .emaCriticalMass p.key).getD 0

/-- The value an emission works with: a critical mass of zero is read as its seed. -/
def read (x : ℕ) : Average → ℕ
  | .mass p => if 0 < x then x else p.criticalMass
  | _ => x

def num : Average → ℕ
  | .slow => layerASlowAlphaNum
  | _ => emaAlphaNum

def denom : Average → ℕ
  | .slow => layerASlowAlphaDenom
  | _ => emaAlphaDenom

/-- What an epoch adds to the average. -/
def signal (w : Work) : Average → ℕ
  | .mass p => (w.contributors p).length
  | _ => w.totalUtil * layerAScalarDenom / (layerAPoolCount * activityRatioDenom)

/-- The value an emission with this signal stores. -/
def next (avg : Average) (signal x : ℕ) : ℕ := emaStep avg.num avg.denom signal (avg.read x)

/-- The value after some epochs with one signal. -/
def after (avg : Average) (signal x n : ℕ) : ℕ := (avg.next signal)^[n] x

theorem key_injective : Function.Injective WorkPool.key := by
  intro p q h
  cases p <;> cases q <;> first | rfl | exact absurd h (by decide)

theorem run_storeMasses {W : Footprint} (v : WorkPool → ℕ) (ps : List WorkPool) (s : Chain) :
    ∃ t, (ps.forM fun p => stateSet .emaCriticalMass p.key (v p) : Prog W Unit).run s =
        (.ok (), t) ∧
      (∀ p, t.stateGet .emaCriticalMass p.key =
        if p ∈ ps then some (v p) else s.stateGet .emaCriticalMass p.key) := by
  induction ps generalizing s with
  | nil => exact ⟨s, rfl, fun p => (if_neg List.not_mem_nil).symm⟩
  | cons q rest ih =>
    obtain ⟨t, hrun, hget⟩ := ih (s.stateSet .emaCriticalMass q.key (v q))
    refine ⟨t, (run_stateSet_bind _ _ _ _ _).trans hrun, fun p => ?_⟩
    rw [hget, stateGet_stateSet]
    by_cases hp : p ∈ rest
    · rw [if_pos hp, if_pos (List.mem_cons_of_mem _ hp)]
    · rw [if_neg hp]
      by_cases heq : q = p
      · subst heq
        rw [if_pos rfl, if_pos List.mem_cons_self]
      · rw [if_neg fun h => heq (key_injective h), if_neg fun h => ?_]
        rcases List.mem_cons.1 h with rfl | h
        · exact heq rfl
        · exact hp h

theorem run_updateAverages (w : Work) (cm : WorkPool → ℕ) (f l : ℕ) (s : Chain) :
    ∃ t : Chain, (updateAverages w cm f l).run s = (.ok (), (t.stateSet .layerA "fast_ema"
        (emaStep emaAlphaNum emaAlphaDenom (fast.signal w) f)).stateSet .layerA "slow_ema"
        (emaStep layerASlowAlphaNum layerASlowAlphaDenom (slow.signal w) l)) ∧
      ∀ p, t.stateGet .emaCriticalMass p.key =
        if p ∈ WorkPool.all then some (emaStep emaAlphaNum emaAlphaDenom ((mass p).signal w) (cm p))
        else s.stateGet .emaCriticalMass p.key := by
  obtain ⟨t, hrun, hget⟩ := run_storeMasses (W := { pays := rewardFunds })
    (fun p => emaStep emaAlphaNum emaAlphaDenom (w.contributors p).length (cm p)) WorkPool.all s
  exact ⟨t, run_bind_ok hrun, hget⟩

/-- An emission stores the next value of each average. -/
theorem stored_updateAverages (avg : Average) (w : Work) (s s₀ : Chain) :
    avg.stored ((updateAverages w (fun p => readEmaCm p s₀) (layerAEma "fast_ema" s₀)
        (layerAEma "slow_ema" s₀)).run s).2 = avg.next (avg.signal w) (avg.stored s₀) := by
  obtain ⟨t, hrun, hget⟩ := run_updateAverages w (fun p => readEmaCm p s₀)
    (layerAEma "fast_ema" s₀) (layerAEma "slow_ema" s₀) s
  rw [hrun]
  cases avg with
  | fast =>
    have hne : "slow_ema" ≠ "fast_ema" := by simp
    unfold stored layerAEma
    dsimp only
    unfold next num denom read
    rw [stateGet_stateSet, if_neg hne, stateGet_stateSet, if_pos rfl, Option.getD_some]
  | slow =>
    unfold stored layerAEma
    dsimp only
    unfold next num denom read
    rw [stateGet_stateSet, if_pos rfl, Option.getD_some]
  | mass p =>
    have hall : p ∈ WorkPool.all := by cases p <;> decide
    have hread : readEmaCm p s₀ =
        (mass p).read ((s₀.stateGet .emaCriticalMass p.key).getD 0) := by
      unfold readEmaCm read
      cases s₀.stateGet .emaCriticalMass p.key with
      | none => rfl
      | some x =>
        by_cases hx : 0 < x
        · have hkept : Option.filter (fun x : ℕ => decide (0 < x)) (some x) = some x :=
            Option.filter_some_pos (decide_eq_true hx)
          exact (congrArg (·.getD p.criticalMass) hkept).trans (if_pos hx).symm
        · have hdropped : Option.filter (fun x : ℕ => decide (0 < x)) (some x) = none :=
            Option.filter_some_neg (decide_eq_false hx)
          exact (congrArg (·.getD p.criticalMass) hdropped).trans (if_neg hx).symm
    unfold stored
    dsimp only
    rw [stateGet_stateSet_of_ne _ (by decide), stateGet_stateSet_of_ne _ (by decide),
      hget, if_pos hall, hread, Option.getD_some]
    unfold next num denom
    exact congrArg (emaStep _ _ _) rfl

/-! ## Steps -/

section Steps

variable (avg : Average) {signal x : ℕ}

/-- The sum of the weighted values, before it is divided. -/
def weighed (signal r : ℕ) : ℕ := avg.num * signal + (avg.denom - avg.num) * r

theorem next_eq (signal x : ℕ) :
    avg.next signal x = avg.weighed signal (avg.read x) % 2 ^ 64 / avg.denom := by
  unfold next emaStep wrapAdd wrapMul weighed
  rw [← Nat.add_mod]

/-- The values are words as long as nothing wraps. -/
theorem next_of_lt (h : avg.weighed signal (avg.read x) < 2 ^ 64) :
    avg.next signal x = FloorMean.mean avg.num avg.denom signal (avg.read x) := by
  rw [next_eq, Nat.mod_eq_of_lt h]
  rfl

theorem num_eq : avg.num = 2 := by cases avg <;> rfl

theorem denom_eq : avg.denom = 20161 ∨ avg.denom = 259201 := by
  cases avg with
  | slow => exact .inr rfl
  | _ => exact .inl rfl

theorem num_le_denom : avg.num ≤ avg.denom := by
  have hdenom := avg.denom_eq
  rw [num_eq]
  omega

theorem denom_pos : 0 < avg.denom := by
  have hdenom := avg.denom_eq
  omega

/-- No signal is as far from any value below it as half the denominator. -/
theorem close (h : signal ≤ layerAScalarDenom) (r : ℕ) :
    avg.num * (signal - r) < avg.denom := by
  have hdenom := avg.denom_eq
  have hfull : layerAScalarDenom = 10000 := rfl
  rw [num_eq]
  omega

theorem le_read (x : ℕ) : x ≤ avg.read x := by
  cases avg with
  | mass p =>
    unfold read
    dsimp only
    split
    · exact le_rfl
    · omega
  | _ => exact le_rfl

theorem read_of_pos (h : 0 < x) : avg.read x = x := by
  cases avg with
  | mass p => exact if_pos h
  | _ => rfl

theorem read_read (x : ℕ) : avg.read (avg.read x) = avg.read x := by
  cases avg with
  | mass p =>
    refine read_of_pos _ ?_
    unfold read
    dsimp only
    split
    · assumption
    · cases p <;> decide
  | _ => rfl

theorem read_le (x : ℕ) : avg.read x ≤ max x 20 := by
  cases avg with
  | mass p =>
    unfold read
    dsimp only
    split
    · exact le_max_left _ _
    · exact le_max_of_le_right (by cases p <;> decide)
  | _ => exact le_max_left _ _

/-- Values in the range of the signals do not wrap around. -/
theorem weighed_small (hs : signal ≤ layerAScalarDenom) {r : ℕ} (hr : r ≤ layerAScalarDenom) :
    avg.weighed signal r < 2 ^ 64 := by
  have hfull : layerAScalarDenom = 10000 := rfl
  unfold weighed
  rw [num_eq]
  rcases avg.denom_eq with hdenom | hdenom
  · rw [hdenom]
    omega
  · rw [hdenom]
    omega

/-- What was divided once does not wrap around again. -/
theorem weighed_lt (hs : signal ≤ layerAScalarDenom) {w : ℕ} (hw : w < 2 ^ 64) :
    avg.weighed signal (avg.read (w / avg.denom)) < 2 ^ 64 := by
  have hdiv := Nat.div_mul_le_self w avg.denom
  generalize w / avg.denom = q at hdiv
  have hread := avg.read_le q
  have hfull : layerAScalarDenom = 10000 := rfl
  unfold weighed
  rw [num_eq]
  generalize avg.read q = r at hread
  rcases avg.denom_eq with hdenom | hdenom
  · rw [hdenom] at hdiv ⊢
    omega
  · rw [hdenom] at hdiv ⊢
    omega

/-- Below its signal an average stays as it was read. -/
theorem next_of_below (hs : signal ≤ layerAScalarDenom) (h : avg.read x < signal) :
    avg.next signal x = avg.read x := by
  have hsmall := avg.weighed_small hs (h.le.trans hs)
  rw [avg.next_of_lt hsmall, FloorMean.mean_eq_self avg.num_le_denom h.le (avg.close hs _)]

theorem after_succ (n : ℕ) : avg.after signal x (n + 1) = avg.after signal (avg.next signal x) n :=
  Function.iterate_succ_apply _ _ _

/-- From below it never meets the signal. -/
theorem after_of_below (hs : signal ≤ layerAScalarDenom) (h : avg.read x < signal) (n : ℕ) :
    avg.after signal x (n + 1) = avg.read x := by
  induction n generalizing x with
  | zero => exact avg.next_of_below hs h
  | succ n ih =>
    have hnext := avg.next_of_below hs h
    rw [after_succ, hnext, ih (by rwa [read_read]), read_read]

/-- From above it meets the signal. -/
theorem exists_after (hword : avg.weighed signal (avg.read x) < 2 ^ 64)
    (h : signal ≤ avg.read x) : ∃ n, avg.after signal x (n + 1) = signal := by
  generalize hr : avg.read x = r at hword h
  induction r using Nat.strong_induction_on generalizing x with
  | _ r ih =>
    subst hr
    have hnext := avg.next_of_lt hword
    rcases h.eq_or_lt with heq | hlt
    · refine ⟨0, ?_⟩
      rw [← heq, FloorMean.mean_self avg.denom_pos avg.num_le_denom] at hnext
      exact hnext
    · have hpos : 0 < avg.num := by
        rw [num_eq]
        decide
      have hfalls : avg.next signal x < avg.read x := by
        rw [hnext]
        exact FloorMean.mean_lt hpos avg.num_le_denom hlt
      have hstays : signal ≤ avg.next signal x := by
        rw [hnext]
        exact FloorMean.le_mean avg.denom_pos avg.num_le_denom h
      rcases Nat.eq_zero_or_pos (avg.next signal x) with hzero | hpositive
      · exact ⟨0, hzero.trans (Nat.le_zero.1 (hzero ▸ hstays)).symm⟩
      · have hread := avg.read_of_pos hpositive
        have hless : avg.weighed signal (avg.next signal x) < 2 ^ 64 :=
          (Nat.add_le_add_left (Nat.mul_le_mul_left _ hfalls.le) _).trans_lt hword
        obtain ⟨n, hn⟩ := ih _ hfalls hread hless hstays
        exact ⟨n + 1, (avg.after_succ _).trans hn⟩

/-- A signal that is read back as it was stored is kept. -/
theorem after_self (hs : signal ≤ layerAScalarDenom) (hkept : avg.read signal = signal) (n : ℕ) :
    avg.after signal signal n = signal := by
  induction n with
  | zero => rfl
  | succ n ih =>
    have hword : avg.weighed signal (avg.read signal) < 2 ^ 64 := by
      rw [hkept]
      exact avg.weighed_small hs hs
    have hnext := avg.next_of_lt hword
    rw [hkept, FloorMean.mean_self avg.denom_pos avg.num_le_denom] at hnext
    rw [after_succ, hnext, ih]

end Steps

/-! ## Recovery -/

/-- The average meets the signal and keeps it; a critical mass of zero is not kept, as it stands
for the seed. -/
def Converges (avg : Average) (signal x : ℕ) : Prop :=
  ∃ n₀, avg.after signal x n₀ = signal ∧
    (avg.read signal = signal → ∀ n ≥ n₀, avg.after signal x n = signal)

/-- The average is not below the signal, or what is left of it once the weighted sum has wrapped
around is not. -/
def NotBelow (avg : Average) (signal x : ℕ) : Prop :=
  if avg.weighed signal (avg.read x) < 2 ^ 64 then signal ≤ avg.read x
  else signal ≤ avg.read (avg.weighed signal (avg.read x) % 2 ^ 64 / avg.denom)

instance (avg : Average) (signal x : ℕ) : Decidable (avg.NotBelow signal x) :=
  inferInstanceAs (Decidable (if avg.weighed signal (avg.read x) < 2 ^ 64 then
    signal ≤ avg.read x
    else signal ≤ avg.read (avg.weighed signal (avg.read x) % 2 ^ 64 / avg.denom)))

section Recovery

variable (avg : Average) {signal x : ℕ}

/-- An average that is below its signal stays below it. -/
theorem after_lt (hs : signal ≤ layerAScalarDenom) (h : ¬ avg.NotBelow signal x) (n : ℕ) :
    avg.after signal x (n + 1) < signal := by
  unfold NotBelow at h
  split at h
  · have hbelow := Nat.lt_of_not_le h
    rw [avg.after_of_below hs hbelow]
    exact hbelow
  · have hbelow := Nat.lt_of_not_le h
    rw [← next_eq] at hbelow
    rw [after_succ]
    cases n with
    | zero => exact (avg.le_read _).trans_lt hbelow
    | succ n =>
      rw [avg.after_of_below hs hbelow]
      exact hbelow

theorem notBelow_self (hs : signal ≤ layerAScalarDenom) : avg.NotBelow signal signal := by
  have hread : avg.read signal ≤ layerAScalarDenom :=
    (avg.read_le signal).trans (max_le hs (by decide))
  unfold NotBelow
  rw [if_pos (avg.weighed_small hs hread)]
  exact avg.le_read signal

theorem converges_iff (hs : signal ≤ layerAScalarDenom) :
    avg.Converges signal x ↔ avg.NotBelow signal x := by
  constructor
  · rintro ⟨n₀, hmet, -⟩
    by_contra h
    cases n₀ with
    | zero =>
      have heq : x = signal := hmet
      rw [heq] at h
      exact h (avg.notBelow_self hs)
    | succ n => exact absurd hmet (avg.after_lt hs h n).ne
  · intro h
    have hmeets : ∃ n, avg.after signal x n = signal := by
      unfold NotBelow at h
      split at h
      · next hword =>
        obtain ⟨n, hn⟩ := avg.exists_after hword h
        exact ⟨n + 1, hn⟩
      · rw [← next_eq] at h
        have hword : avg.weighed signal (avg.read (avg.next signal x)) < 2 ^ 64 := by
          rw [next_eq]
          exact avg.weighed_lt hs (Nat.mod_lt _ (Nat.two_pow_pos 64))
        obtain ⟨n, hn⟩ := avg.exists_after hword h
        exact ⟨n + 2, (avg.after_succ _).trans hn⟩
    obtain ⟨n₀, hmet⟩ := hmeets
    refine ⟨n₀, hmet, fun hkept n hn => ?_⟩
    obtain ⟨k, rfl⟩ := Nat.exists_eq_add_of_le' hn
    have hsplit : avg.after signal x (k + n₀) = avg.after signal (avg.after signal x n₀) k :=
      Function.iterate_add_apply _ _ _ _
    rw [hsplit, hmet, avg.after_self hs hkept]

/-- The scalar is at its maximum where both averages are full. -/
theorem layerAScalar_eq_max_iff (fast slow : ℕ) : layerAScalar fast slow = layerAScalarMax ↔
    layerAScalarDenom ≤ fast ∧ layerAScalarDenom ≤ slow := by
  unfold layerAScalar layerAScalarMin layerAScalarMax layerAScalarDenom
  omega

/-- Each emission stores the next value of an average. It meets a constant signal exactly where it is
not below it; so full utilisation brings the scalar back to its maximum exactly where neither average
was ever less than full. -/
theorem averages_recover_iff (hs : signal ≤ layerAScalarDenom) :
    (∀ x, avg.Converges signal x ↔ avg.NotBelow signal x) ∧
    (∀ f l, (∃ n₀, ∀ n ≥ n₀, layerAScalar (fast.after layerAScalarDenom f n)
        (slow.after layerAScalarDenom l n) = layerAScalarMax) ↔
      fast.NotBelow layerAScalarDenom f ∧ slow.NotBelow layerAScalarDenom l) ∧
    ∀ w s s₀, avg.stored ((updateAverages w (fun p => readEmaCm p s₀) (layerAEma "fast_ema" s₀)
      (layerAEma "slow_ema" s₀)).run s).2 = avg.next (avg.signal w) (avg.stored s₀) := by
  refine ⟨fun x => avg.converges_iff hs, fun f l => ⟨?_, ?_⟩, stored_updateAverages avg⟩
  · rintro ⟨n₀, hfull⟩
    have hboth := (layerAScalar_eq_max_iff _ _).1 (hfull (n₀ + 1) (Nat.le_succ _))
    constructor
    · by_contra h
      exact absurd (fast.after_lt le_rfl h n₀) (Nat.not_lt.2 hboth.1)
    · by_contra h
      exact absurd (slow.after_lt le_rfl h n₀) (Nat.not_lt.2 hboth.2)
  · rintro ⟨hf, hl⟩
    obtain ⟨n₁, -, hfast⟩ := (fast.converges_iff le_rfl).2 hf
    obtain ⟨n₂, -, hslow⟩ := (slow.converges_iff le_rfl).2 hl
    refine ⟨max n₁ n₂, fun n hn => (layerAScalar_eq_max_iff _ _).2 ?_⟩
    rw [hfast rfl n ((le_max_left _ _).trans hn), hslow rfl n ((le_max_right _ _).trans hn)]
    exact ⟨le_rfl, le_rfl⟩

end Recovery

/-- From a value above it an average comes down to five thousand. -/
theorem averages_recover_iff_of_full : fast.Converges 5000 10000 :=
  (averages_recover_iff fast (by decide)).1 10000 |>.2 (by decide)

/-- After an idle time the averages stand still under full utilisation, and the scalar stays at
its minimum. -/
theorem averages_never_rise :
    (∀ n, fast.after layerAScalarDenom 0 n = 0 ∧ slow.after layerAScalarDenom 0 n = 0 ∧
      layerAScalar (fast.after layerAScalarDenom 0 n) (slow.after layerAScalarDenom 0 n) =
        layerAScalarMin) ∧
    ¬ fast.Converges layerAScalarDenom 0 ∧ ¬ (mass .sensor).Converges 30 20 := by
  have hstuck : ∀ avg : Average, avg.read 0 = 0 → ∀ n, avg.after layerAScalarDenom 0 n = 0 := by
    intro avg hread n
    cases n with
    | zero => rfl
    | succ n => rw [avg.after_of_below le_rfl (by rw [hread]; decide), hread]
  refine ⟨fun n => ?_, fun h => ?_, fun h => ?_⟩
  · rw [hstuck fast rfl, hstuck slow rfl]
    exact ⟨rfl, rfl, rfl⟩
  · obtain ⟨n, hmet, -⟩ := h
    rw [hstuck fast rfl] at hmet
    exact absurd hmet (by decide)
  · exact absurd (((mass .sensor).converges_iff (by decide)).1 h) (by decide)

end Average

end HoneNode
