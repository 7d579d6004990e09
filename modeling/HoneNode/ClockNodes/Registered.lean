import HoneNode.Apply

/-!
# ClockNodes.Registered — `registered_clock_nodes`

Who counts for the clock quorum: a node whose role stakes for `clock` add up to
the minimum, and a registration with a stake of its own or, up to the end of the
bootstrap grace, with none. Membership is read off two families of keys.
-/

namespace HoneNode.ClockNodes

/-! ## The list -/

/-- The text before the last `c`. -/
def beforeLast (c : Char) (s : String) : Option String :=
  if c ∈ s.toList then
    some (String.ofList ((s.toList.reverse.dropWhile (· ≠ c)).drop 1).reverse)
  else none

/-- Stake and first epoch of a node, with one more role stake added. -/
def pooled (perNode : Kv String (ℕ × ℕ)) (row : String × RoleStake) : Kv String (ℕ × ℕ) :=
  match beforeLast ':' (dropPrefix "clock:" row.1) with
  | none => perNode
  | some node =>
    let entry := (perNode.get node).getD (0, u64Max)
    perNode.put node
      (wrapAdd entry.1 row.2.amount, min entry.2 (row.2.stakedEpoch.getD u64Max))

/-- What is staked for each node's clock, by anybody. -/
def clockPool (s : Chain) : Kv String (ℕ × ℕ) :=
  ((s.state .roleStake).scan (hasPrefix "clock:")).foldl pooled ∅

def inGrace (currentEpoch : ℕ) : Bool := currentEpoch ≤ clockBootstrapGraceEndEpoch

/-- The nodes whose pool reaches the minimum, those that staked earlier first. -/
def eligibleNodes (env : Env) (s : Chain) : List String :=
  (((clockPool s).bindings.filter fun b => clockMinStake env s ≤ b.2.1).mergeSort
    fun a b => a.2.2 ≤ b.2.2).map (·.1)

/-- The order of the pool is lost in the final sort. -/
def registeredClockNodes (env : Env) (s : Chain) (currentEpoch : ℕ) : List String :=
  let nodes := eligibleNodes env s
  let legacy := (s.state .clockReg).bindings.filter fun b =>
    b.1 ∉ nodes && (0 < b.2.stake || inGrace currentEpoch)
  ((nodes ++ legacy.map (·.1)).mergeSort fun a b => a ≤ b).dedup

/-! ## Who is on it -/

section Members

variable {env : Env} {s : Chain} {a : String} {epoch : ℕ}

/-- The pool of the node reaches the minimum. -/
def Backed (env : Env) (s : Chain) (a : String) : Prop :=
  ∃ total first, (clockPool s).get a = some (total, first) ∧ clockMinStake env s ≤ total

/-- The node has a registration that counts in the epoch. -/
def Enrolled (s : Chain) (epoch : ℕ) (a : String) : Prop :=
  ∃ reg, s.stateGet .clockReg a = some reg ∧ (0 < reg.stake ∨ inGrace epoch = true)

theorem mem_eligibleNodes : a ∈ eligibleNodes env s ↔ Backed env s a := by
  unfold eligibleNodes Backed
  rw [List.mem_map]
  constructor
  · rintro ⟨⟨node, total, first⟩, hmem, rfl⟩
    rw [(List.mergeSort_perm _ _).mem_iff, List.mem_filter] at hmem
    obtain ⟨hbound, hle⟩ := hmem
    exact ⟨total, first, (Kv.lookup_eq_some_iff (clockPool s).sorted).2 hbound,
      of_decide_eq_true hle⟩
  · rintro ⟨total, first, hget, hle⟩
    have hbound := (Kv.lookup_eq_some_iff (clockPool s).sorted).1 hget
    refine ⟨(a, total, first), ?_, rfl⟩
    rw [(List.mergeSort_perm _ _).mem_iff, List.mem_filter]
    exact ⟨hbound, decide_eq_true hle⟩

theorem mem_registeredClockNodes :
    a ∈ registeredClockNodes env s epoch ↔ Backed env s a ∨ Enrolled s epoch a := by
  unfold registeredClockNodes
  simp only [List.mem_dedup, (List.mergeSort_perm _ _).mem_iff, List.mem_append,
    mem_eligibleNodes, List.mem_map, List.mem_filter, Bool.and_eq_true, Bool.or_eq_true,
    decide_eq_true_eq]
  constructor
  · rintro (h | ⟨⟨node, reg⟩, ⟨hbound, -, hcounts⟩, rfl⟩)
    · exact .inl h
    · exact .inr ⟨reg, (Kv.lookup_eq_some_iff (s.state .clockReg).sorted).2 hbound, hcounts⟩
  · rintro (h | ⟨reg, hget, hcounts⟩)
    · exact .inl h
    · by_cases hbacked : Backed env s a
      · exact .inl hbacked
      · have hbound := (Kv.lookup_eq_some_iff (s.state .clockReg).sorted).1 hget
        exact .inr ⟨(a, reg), ⟨hbound, hbacked, hcounts⟩, rfl⟩

end Members

end HoneNode.ClockNodes
