import HoneNode.Lib.Latest
import HoneNode.Lib.Decimal
import HoneNode.Apply

/-!
# SealOrder — seals in any order

A seal counts once per node and epoch. What counts raises the current epoch, so
that one comes out as the maximum. The seal hash of the epoch and, at an era
boundary, the durations of the eras to come are overwritten by whichever node's
seal arrives last: they are registers in the sense of `Latest`.
-/

namespace HoneNode.SealOrder

open Prog Within Latest

/-! ## Keys -/

def nodeSealKey (epoch : ℕ) (node : String) : String := s!"{epoch}:{node}"

def eraKey (era : ℕ) : String := s!"era_epoch_ms:{era}"

section Keys

variable {n m : ℕ} {a b : String}

theorem nodeSealKey_inj : nodeSealKey n a = nodeSealKey m b ↔ n = m ∧ a = b := Text.numbered_inj

theorem toList_eraKey (k : ℕ) :
    (eraKey k).toList = "era_epoch_ms:".toList ++ (toString k).toList := by
  change ("era_epoch_ms:" ++ toString k).toList = _
  rw [String.toList_append]

theorem eraKey_inj : eraKey n = eraKey m ↔ n = m := by
  constructor
  · intro h
    have h := congrArg String.toList h
    rw [toList_eraKey, toList_eraKey] at h
    exact Text.toString_nat_inj.1 (String.toList_inj.1 (List.append_cancel_left h))
  · rintro rfl
    rfl

theorem eraKey_ne_target : eraKey n ≠ "btc_end_ms" := by
  intro h
  have h := congrArg (fun text : String => text.toList.head?) h
  simp only [toList_eraKey] at h
  have h : some 'e' = some 'b' := h
  cases h

end Keys

/-! ## What one seal writes -/

/-- The end of the schedule that the durations are calibrated to. -/
def targetEnd (env : Env) (s : Chain) : ℕ :=
  ((s.param "btc_end_ms").bind env.decodeU64).getD btcProjectedEndMs

/-- The first epoch of an era that still mints. -/
def AtBoundary (epoch : ℕ) : Prop := era (epoch - 1) < era epoch ∧ era epoch < recycleEra

instance (epoch : ℕ) : Decidable (AtBoundary epoch) := inferInstanceAs (Decidable (_ ∧ _))

/-- What the seal writes as the hash of an epoch. -/
def hashFor (epoch : ℕ) (p : Entry.EpochSeal) : Option String :=
  if p.epoch = epoch then some p.sealHash else none

/-- What the seal writes as the duration of an era. -/
def durationFor (env : Env) (target k : ℕ) (p : Entry.EpochSeal) : Option String :=
  if AtBoundary p.epoch ∧ era p.epoch ≤ k ∧ k < recycleEra then
    some (env.encodeU64
      (calibrateEraEpochMs (era p.epoch) p.timestamp target * 2 ^ (k - era p.epoch) % 2 ^ 64))
  else none

/-- The durations of `n` eras from `first` on. -/
def withDurations (env : Env) (base first : ℕ) (s : Chain) : ℕ → Chain
  | 0 => s
  | n + 1 => (withDurations env base first s n).stateSet .chainParam (eraKey (first + n))
      (env.encodeU64 (base * 2 ^ n % 2 ^ 64))

/-- The chain after a seal that counts. -/
def counted (env : Env) (p : Entry.EpochSeal) (s : Chain) : Chain :=
  let s₁ := s.stateSet .epochNodeSeal (nodeSealKey p.epoch p.nodeId) p.sealHash
  let s₂ := ({ s₁ with currentEpoch := max s.currentEpoch p.epoch } : Chain).stateSet
    .epochSealHash (toString p.epoch) p.sealHash
  if AtBoundary p.epoch then
    withDurations env (calibrateEraEpochMs (era p.epoch) p.timestamp (targetEnd env s))
      (era p.epoch) s₂ (recycleEra - era p.epoch)
  else s₂

section OneSeal

variable {env : Env} {s : Chain} {p : Entry.EpochSeal}

theorem run_storeEraDurations (base first n : ℕ) :
    (storeEraDurations env base first n : Prog {} Unit).run s =
      (.ok (), withDurations env base first s n) := by
  induction n with
  | zero => rfl
  | succ n ih =>
    rw [storeEraDurations, run_bind_ok ih]
    rfl

/-- A seal counts, or leaves the chain as it is. -/
theorem run_applyEpochSeal : ((applyEpochSeal env p).run s).2 =
    if (s.stateGet .epochNodeSeal (nodeSealKey p.epoch p.nodeId)).isSome then s
    else counted env p s := by
  unfold applyEpochSeal
  rw [run_stateGet_bind]
  cases hprior : s.stateGet .epochNodeSeal (nodeSealKey p.epoch p.nodeId) with
  | some h =>
    have hkey : s.stateGet .epochNodeSeal s!"{p.epoch}:{p.nodeId}" = some h := hprior
    simp only [hkey, Option.isSome_some, if_true]
    rw [run_ensure]
    split <;> rfl
  | none =>
    have hkey : s.stateGet .epochNodeSeal s!"{p.epoch}:{p.nodeId}" = none := hprior
    simp only [hkey, Option.isSome_none, Bool.false_eq_true, if_false]
    have hraise : ∀ t : Chain, (when (t.currentEpoch < p.epoch) (setCurrentEpoch p.epoch) :
        Prog {} Unit).run t = (.ok (), { t with currentEpoch := max t.currentEpoch p.epoch }) := by
      intro t
      rw [run_when]
      split
      · next hlt =>
        rw [max_eq_right hlt.le]
        rfl
      · next hge => rw [max_eq_left (Nat.le_of_not_lt hge)]
    rw [run_stateSet_bind, run_inspect_bind,
      run_bind_ok (hraise _), run_stateSet_bind, run_inspect_bind,
      run_when, run_storeEraDurations]
    unfold counted
    by_cases hbound : AtBoundary p.epoch
    · have hbound' : era (p.epoch - 1) < era p.epoch ∧ era p.epoch < recycleEra := hbound
      simp only [if_pos hbound, if_pos hbound']
      rfl
    · have hbound' : ¬ (era (p.epoch - 1) < era p.epoch ∧ era p.epoch < recycleEra) := hbound
      simp only [if_neg hbound, if_neg hbound']
      rfl

@[simp] theorem currentEpoch_withDurations (base first n : ℕ) (s : Chain) :
    (withDurations env base first s n).currentEpoch = s.currentEpoch := by
  induction n with
  | zero => rfl
  | succ n ih => exact ih

theorem state_withDurations {f : Family} (hf : f ≠ .chainParam) (base first n : ℕ) (s : Chain) :
    (withDurations env base first s n).state f = s.state f := by
  induction n with
  | zero => rfl
  | succ n ih => rw [withDurations, state_stateSet_of_ne _ hf, ih]

/-- The parameters that name no era in range stay. -/
theorem param_withDurations {key : String} (base first n : ℕ) (s : Chain)
    (hkey : ∀ k, first ≤ k → k < first + n → eraKey k ≠ key) :
    (withDurations env base first s n).param key = s.param key := by
  induction n with
  | zero => rfl
  | succ n ih =>
    have hne : eraKey (first + n) ≠ key := hkey _ (by omega) (by omega)
    rw [withDurations, Chain.param, stateGet_stateSet, if_neg hne]
    exact ih fun k hle hlt => hkey k hle (by omega)

theorem param_eraKey_withDurations (base first n k : ℕ) (s : Chain) :
    (withDurations env base first s n).param (eraKey k) =
      if first ≤ k ∧ k < first + n then some (env.encodeU64 (base * 2 ^ (k - first) % 2 ^ 64))
      else s.param (eraKey k) := by
  induction n with
  | zero =>
    rw [if_neg (by omega)]
    rfl
  | succ n ih =>
    rw [withDurations, Chain.param, stateGet_stateSet]
    by_cases hk : k = first + n
    · subst hk
      rw [if_pos rfl, if_pos (by omega), Nat.add_sub_cancel_left]
    · rw [if_neg (fun h => hk (eraKey_inj.1 h).symm)]
      have hrange : (first ≤ k ∧ k < first + (n + 1)) ↔ first ≤ k ∧ k < first + n := by omega
      simp only [hrange]
      exact ih

/-! ### The registers after a seal that counts -/

@[simp] theorem currentEpoch_counted :
    (counted env p s).currentEpoch = max s.currentEpoch p.epoch := by
  unfold counted
  split
  · rw [currentEpoch_withDurations]
    rfl
  · rfl

theorem nodeSeal_counted (key : String) : (counted env p s).stateGet .epochNodeSeal key =
    if nodeSealKey p.epoch p.nodeId = key then some p.sealHash
    else s.stateGet .epochNodeSeal key := by
  have hstate : (counted env p s).state .epochNodeSeal =
      (s.state .epochNodeSeal).put (nodeSealKey p.epoch p.nodeId) p.sealHash := by
    unfold counted
    split
    · rw [state_withDurations (by decide), state_stateSet_of_ne _ (by decide)]
      exact s.state_stateSet_self _ _ _
    · rw [state_stateSet_of_ne _ (by decide)]
      exact s.state_stateSet_self _ _ _
  rw [Chain.stateGet, hstate, Kv.get_put]
  rfl

theorem sealHash_counted (epoch : ℕ) :
    (counted env p s).stateGet .epochSealHash (toString epoch) =
      (hashFor epoch p).or (s.stateGet .epochSealHash (toString epoch)) := by
  have hstate : (counted env p s).state .epochSealHash =
      (s.state .epochSealHash).put (toString p.epoch) p.sealHash := by
    have hfirst : ((s.stateSet .epochNodeSeal (nodeSealKey p.epoch p.nodeId) p.sealHash).state
        .epochSealHash) = s.state .epochSealHash := s.state_stateSet_of_ne (by decide) _ _
    unfold counted
    split
    · rw [state_withDurations (by decide), state_stateSet_self]
      rw [← hfirst]
    · rw [state_stateSet_self, ← hfirst]
  rw [Chain.stateGet, hstate, Kv.get_put]
  unfold hashFor
  by_cases he : p.epoch = epoch
  · rw [if_pos (Text.toString_nat_inj.2 he), if_pos he]
    rfl
  · rw [if_neg (fun h => he (Text.toString_nat_inj.1 h)), if_neg he]
    rfl

theorem duration_counted (k : ℕ) : (counted env p s).param (eraKey k) =
    (durationFor env (targetEnd env s) k p).or (s.param (eraKey k)) := by
  unfold counted durationFor
  split
  · next hbound =>
    rw [param_eraKey_withDurations]
    have hrange : (era p.epoch ≤ k ∧ k < era p.epoch + (recycleEra - era p.epoch)) ↔
        (AtBoundary p.epoch ∧ era p.epoch ≤ k ∧ k < recycleEra) := by
      have hera := hbound.2
      simp only [hbound, true_and]
      omega
    simp only [hrange]
    split <;> rfl
  · next hbound =>
    rw [if_neg (fun h => hbound h.1)]
    rfl

theorem targetEnd_counted : targetEnd env (counted env p s) = targetEnd env s := by
  have hparam : (counted env p s).param "btc_end_ms" = s.param "btc_end_ms" := by
    unfold counted
    split
    · exact param_withDurations _ _ _ _ fun _ _ _ => eraKey_ne_target
    · rfl
  unfold targetEnd
  rw [hparam]

end OneSeal

/-! ## Runs of seals -/

/-- The chain after the seals, one after the other; a refused seal is passed over. -/
def sealed (env : Env) (now : ℕ) (s : Chain) (l : List Entry.EpochSeal) : Chain :=
  l.foldl (fun s p => (applyEntry env now (.epochSeal p) s).2) s

/-- A seal counts once for its epoch and node. -/
def name (p : Entry.EpochSeal) : ℕ × String := (p.epoch, p.nodeId)

/-- Whether a seal of the node for the epoch is recorded. -/
def taken (s : Chain) (i : ℕ × String) : Bool :=
  (s.stateGet .epochNodeSeal (nodeSealKey i.1 i.2)).isSome

/-- The recorded seals are behind the current epoch. -/
def Behind (s : Chain) : Prop := ∀ i, taken s i = true → i.1 ≤ s.currentEpoch

section Runs

variable {env : Env} {now : ℕ} {s : Chain} {p : Entry.EpochSeal} {l l' ss : List Entry.EpochSeal}

theorem sealed_cons : sealed env now s (p :: l) =
    sealed env now (if taken s (name p) then s else counted env p s) l := by
  have hstep : (applyEntry env now (.epochSeal p) s).2 =
      if taken s (name p) then s else counted env p s := run_applyEpochSeal
  rw [sealed, List.foldl_cons, hstep]
  rfl

theorem sealed_append : sealed env now s (l ++ l') = sealed env now (sealed env now s l) l' :=
  List.foldl_append

theorem taken_counted : taken (counted env p s) = Function.update (taken s) (name p) true := by
  funext i
  unfold taken
  rw [nodeSeal_counted]
  by_cases hi : i = name p
  · have hkey : nodeSealKey p.epoch p.nodeId = nodeSealKey i.1 i.2 := by
      rw [hi]
      rfl
    rw [hi, Function.update_self, ← hi, if_pos hkey]
    rfl
  · have hne : nodeSealKey p.epoch p.nodeId ≠ nodeSealKey i.1 i.2 := by
      intro h
      obtain ⟨he, hn⟩ := nodeSealKey_inj.1 h
      exact hi (Prod.ext he.symm hn.symm)
    rw [Function.update_of_ne hi, if_neg hne]

/-- The hash of an epoch is a register that the seals overwrite. -/
theorem hash_sealed (epoch : ℕ) : (sealed env now s l).stateGet .epochSealHash (toString epoch) =
    settle name (hashFor epoch) (taken s) (s.stateGet .epochSealHash (toString epoch)) l := by
  induction l generalizing s with
  | nil => rfl
  | cons p rest ih =>
    rw [sealed_cons, settle, ih]
    split
    · rfl
    · rw [taken_counted, sealHash_counted]

/-- So is the duration of an era. -/
theorem duration_sealed (k : ℕ) : (sealed env now s l).param (eraKey k) =
    settle name (durationFor env (targetEnd env s) k) (taken s) (s.param (eraKey k)) l := by
  induction l generalizing s with
  | nil => rfl
  | cons p rest ih =>
    rw [sealed_cons, settle, ih]
    split
    · rfl
    · rw [taken_counted, targetEnd_counted, duration_counted]

theorem shaped_hashFor (epoch : ℕ) : Shaped name (hashFor epoch) := by
  intro p q h
  have he : p.epoch = q.epoch := congrArg Prod.fst h
  unfold hashFor
  rw [he]
  split <;> rfl

theorem shaped_durationFor (target k : ℕ) : Shaped name (durationFor env target k) := by
  intro p q h
  have he : p.epoch = q.epoch := congrArg Prod.fst h
  unfold durationFor
  rw [he]
  split <;> rfl

theorem Behind.counted (h : Behind s) : Behind (counted env p s) := by
  intro i hi
  rw [currentEpoch_counted]
  rw [taken_counted] at hi
  by_cases hname : i = name p
  · rw [hname]
    exact le_max_right _ _
  · rw [Function.update_of_ne hname] at hi
    exact (h i hi).trans (le_max_left _ _)

/-- The current epoch is the maximum of what it was and the sealed epochs. -/
theorem currentEpoch_sealed (h : Behind s) :
    (sealed env now s l).currentEpoch = (l.map (·.epoch)).foldl max s.currentEpoch := by
  induction l generalizing s with
  | nil => rfl
  | cons p rest ih =>
    rw [sealed_cons, List.map_cons, List.foldl_cons]
    split
    · next htaken =>
      have hle : p.epoch ≤ s.currentEpoch := h (name p) htaken
      rw [ih h, max_eq_left hle]
    · rw [ih h.counted, currentEpoch_counted]

theorem currentEpoch_le_sealed : s.currentEpoch ≤ (sealed env now s l).currentEpoch := by
  induction l generalizing s with
  | nil => exact le_rfl
  | cons p rest ih =>
    rw [sealed_cons]
    split
    · exact ih
    · refine le_trans ?_ ih
      rw [currentEpoch_counted]
      exact le_max_left _ _

/-- A recorded seal is never replaced. -/
theorem nodeSeal_sealed {epoch : ℕ} {node h : String}
    (hget : s.stateGet .epochNodeSeal (nodeSealKey epoch node) = some h) :
    (sealed env now s l).stateGet .epochNodeSeal (nodeSealKey epoch node) = some h := by
  induction l generalizing s with
  | nil => exact hget
  | cons p rest ih =>
    rw [sealed_cons]
    split
    · exact ih hget
    · next hfree =>
      refine ih ?_
      rw [nodeSeal_counted, if_neg, hget]
      intro hkey
      have htaken : taken s (name p) = true := by
        unfold taken name
        rw [hkey, hget]
        rfl
      exact hfree htaken

end Runs

/-! ## Any order -/

/-- The order in which the seals are applied does not show. -/
structure OrderFree (env : Env) (now : ℕ) (s : Chain) (ss : List Entry.EpochSeal) : Prop where
  current : ∀ l, l.Perm ss → (sealed env now s l).currentEpoch =
    (ss.map (·.epoch)).foldl max s.currentEpoch
  grows : ∀ l p, (sealed env now s l).currentEpoch ≤ (sealed env now s (l ++ [p])).currentEpoch
  hash : ∀ l, l.Perm ss → ∀ epoch : ℕ,
    (sealed env now s l).stateGet .epochSealHash (toString epoch) =
      (sealed env now s ss).stateGet .epochSealHash (toString epoch)
  duration : ∀ l, l.Perm ss → ∀ k,
    (sealed env now s l).param (eraKey k) = (sealed env now s ss).param (eraKey k)
  once : ∀ l l' epoch node h,
    (sealed env now s l).stateGet .epochNodeSeal (nodeSealKey epoch node) = some h →
      (sealed env now s (l ++ l')).stateGet .epochNodeSeal (nodeSealKey epoch node) = some h

/-- Seals of nodes that have not sealed the epoch yet agree on the hash of the epoch, and
where two of them write the duration of an era, on that. -/
structure Agree (env : Env) (s : Chain) (ss : List Entry.EpochSeal) : Prop where
  hash : ∀ p ∈ ss, ∀ q ∈ ss, taken s (name p) = false → taken s (name q) = false →
    p.epoch = q.epoch → p.sealHash = q.sealHash
  duration : ∀ k, ∀ p ∈ ss, ∀ q ∈ ss, taken s (name p) = false → taken s (name q) = false →
    ∀ v w, durationFor env (targetEnd env s) k p = some v →
      durationFor env (targetEnd env s) k q = some w → v = w

section Order

variable {env : Env} {now : ℕ} {s : Chain} {ss : List Entry.EpochSeal}

theorem hash_perm_iff (epoch : ℕ) :
    (∀ l, l.Perm ss → (sealed env now s l).stateGet .epochSealHash (toString epoch) =
      (sealed env now s ss).stateGet .epochSealHash (toString epoch)) ↔
      ∀ p ∈ ss, ∀ q ∈ ss, taken s (name p) = false → taken s (name q) = false →
        ∀ v w, hashFor epoch p = some v → hashFor epoch q = some w → v = w := by
  simp only [hash_sealed]
  exact settle_perm_iff (shaped_hashFor epoch)

theorem duration_perm_iff (k : ℕ) :
    (∀ l, l.Perm ss →
      (sealed env now s l).param (eraKey k) = (sealed env now s ss).param (eraKey k)) ↔
      ∀ p ∈ ss, ∀ q ∈ ss, taken s (name p) = false → taken s (name q) = false →
        ∀ v w, durationFor env (targetEnd env s) k p = some v →
          durationFor env (targetEnd env s) k q = some w → v = w := by
  simp only [duration_sealed]
  exact settle_perm_iff (shaped_durationFor _ k)

/-- Nodes that get the seals in different orders agree exactly when the seals do. -/
theorem seals_commute_iff (hbehind : Behind s) : OrderFree env now s ss ↔ Agree env s ss := by
  constructor
  · intro h
    constructor
    · intro p hp q hq hfp hfq he
      refine (@hash_perm_iff _ now _ _ p.epoch).1 (fun l hl => h.hash l hl p.epoch) p hp q hq
        hfp hfq _ _ (if_pos rfl) (if_pos he.symm)
    · intro k
      exact (@duration_perm_iff _ now _ _ k).1 fun l hl => h.duration l hl k
  · intro h
    constructor
    · intro l hl
      rw [currentEpoch_sealed hbehind]
      exact (hl.map _).foldl_eq _
    · intro l p
      rw [sealed_append]
      exact currentEpoch_le_sealed
    · intro l hl epoch
      refine (hash_perm_iff epoch).2 ?_ l hl
      intro p hp q hq hfp hfq v w hv hw
      obtain ⟨hpe, rfl⟩ := Option.ite_some_none_eq_some.1 hv
      obtain ⟨hqe, rfl⟩ := Option.ite_some_none_eq_some.1 hw
      exact h.hash p hp q hq hfp hfq (hpe.trans hqe.symm)
    · intro l hl k
      exact (duration_perm_iff k).2 (h.duration k) l hl
    · intro l l' epoch node hash hget
      rw [sealed_append]
      exact nodeSeal_sealed hget

end Order

/-! ### Two nodes seal one epoch -/

/-- A seal of epoch 7. -/
def sealOf (node hash : String) : Entry.EpochSeal :=
  { nodeId := node, epoch := 7, timestamp := 0, sealHash := hash, signature := none,
    nodeVersion := none }

/-- Two nodes that agree on the hash. -/
theorem seals_commute_agreed :
    OrderFree .bare 0 {} [sealOf "ann" "c0ffee", sealOf "bob" "c0ffee"] := by
  have hbehind : Behind {} := by
    intro i hi
    cases hi
  refine (seals_commute_iff hbehind).2 ⟨?_, ?_⟩
  · intro p hp q hq _ _ _
    rw [List.mem_pair] at hp hq
    rcases hp with rfl | rfl <;> rcases hq with rfl | rfl <;> rfl
  · intro k p hp q _ _ _ v w hv _
    -- epoch 7 is no era boundary
    rw [List.mem_pair] at hp
    rcases hp with rfl | rfl
    all_goals
      rw [durationFor, if_neg (fun h => absurd h.1 (by decide))] at hv
      cases hv

/-- The last of two seals decides the hash of the epoch. -/
theorem last_seal_decides :
    ¬ OrderFree .bare 0 {} [sealOf "ann" "c0ffee", sealOf "bob" "decade"] := by
  intro h
  have hswap := h.hash [sealOf "bob" "decade", sealOf "ann" "c0ffee"] (List.Perm.swap _ _ _) 7
  exact absurd hswap (by decide)

end HoneNode.SealOrder
