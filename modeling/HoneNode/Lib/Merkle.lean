import Mathlib.Data.List.Induction
import Mathlib.Data.Nat.Log

/-!
# Lib.Merkle — a tree of hashes folded level by level

Two neighbours are joined into one; a last one without a neighbour is joined with
itself. What holds of every leaf and of every joined node holds of the root.

Where no two joins collide, roots tell levels apart up to the repeated last nodes
(`root_eq_iff`), and a path that climbs to the root from a leaf starts at a leaf
of the tree (`mem_of_climb_root`), as the path of every leaf does (`climb_proofPath`).
-/

universe u

namespace Merkle

variable {α : Type*} (node : α → α → α)

/-- The level above. -/
def nextLevel : List α → List α
  | [] => []
  | [a] => [node a a]
  | a :: b :: rest => node a b :: nextLevel rest

variable {node}

theorem length_nextLevel (l : List α) : (nextLevel node l).length = (l.length + 1) / 2 := by
  fun_induction nextLevel node l with
  | case1 => simp
  | case2 a => simp
  | case3 a b rest ih =>
    rw [List.length_cons, ih, List.length_cons, List.length_cons]
    omega

/-- The root over leaves, from the first one on. -/
def root (node : α → α → α) : List α → Option α
  | [] => none
  | [a] => some a
  | a :: b :: rest => root node (nextLevel node (a :: b :: rest))
termination_by l => l.length
decreasing_by
  rw [length_nextLevel]
  simp only [List.length_cons]
  omega

theorem root_nil : root node ([] : List α) = none := by
  rw [root]

theorem root_singleton (a : α) : root node [a] = some a := by
  rw [root]

/-! ## Levels -/

/-- The neighbours of a level. -/
def pairs {β : Type*} : List β → List (β × β)
  | [] => []
  | [a] => [(a, a)]
  | a :: b :: rest => (a, b) :: pairs rest

section Levels

variable {β γ : Type*}

theorem pairs_map (f : β → γ) (l : List β) : pairs (l.map f) = (pairs l).map (Prod.map f f) := by
  fun_induction pairs l with
  | case1 => rfl
  | case2 a => rfl
  | case3 a b rest ih =>
    rw [List.map_cons, List.map_cons, pairs, ih]
    rfl

theorem mem_of_mem_pairs {l : List β} {p : β × β} (h : p ∈ pairs l) : p.1 ∈ l ∧ p.2 ∈ l := by
  fun_induction pairs l with
  | case1 => cases h
  | case2 a =>
    rw [List.mem_singleton.1 h]
    exact ⟨List.mem_cons_self, List.mem_cons_self⟩
  | case3 a b rest ih =>
    rcases List.mem_cons.1 h with rfl | h
    · exact ⟨List.mem_cons_self, List.mem_cons_of_mem _ List.mem_cons_self⟩
    · obtain ⟨hleft, hright⟩ := ih h
      exact ⟨List.mem_cons_of_mem _ (List.mem_cons_of_mem _ hleft),
        List.mem_cons_of_mem _ (List.mem_cons_of_mem _ hright)⟩

/-- A level is the beginning of its neighbours in a row. -/
theorem prefix_flatMap_pairs (l : List β) : l <+: (pairs l).flatMap fun p => [p.1, p.2] := by
  fun_induction pairs l with
  | case1 => exact List.prefix_rfl
  | case2 a => exact ⟨[a], rfl⟩
  | case3 a b rest ih =>
    obtain ⟨tail, htail⟩ := ih
    refine ⟨tail, ?_⟩
    rw [List.flatMap_cons, ← htail]
    rfl

end Levels

theorem nextLevel_eq (l : List α) : nextLevel node l = (pairs l).map fun p => node p.1 p.2 := by
  fun_induction nextLevel node l with
  | case1 => rfl
  | case2 a => rfl
  | case3 a b rest ih =>
    rw [ih]
    rfl

variable (node) in
/-- The levels end in the root. -/
theorem iterate_nextLevel {l : List α} (hne : l ≠ []) :
    ∃ r, (nextLevel node)^[Nat.clog 2 l.length] l = [r] ∧ root node l = some r := by
  fun_induction root node l with
  | case1 => exact absurd rfl hne
  | case2 a => exact ⟨a, rfl, rfl⟩
  | case3 a b rest ih =>
    have hlen : 2 ≤ (a :: b :: rest).length := by
      simp only [List.length_cons]
      omega
    obtain ⟨r, hlast, hroot⟩ := ih (by
      rw [nextLevel]
      exact List.cons_ne_nil _ _)
    refine ⟨r, ?_, hroot⟩
    rw [length_nextLevel] at hlast
    rw [Nat.clog_of_two_le Nat.one_lt_two hlen, Function.iterate_succ_apply]
    exact hlast

/-- What is joined on the way up through so many levels. -/
def joins (node : α → α → α) : ℕ → List α → List (α × α)
  | 0, _ => []
  | k + 1, l => pairs l ++ joins node k (nextLevel node l)

theorem mem_joins_of_lt {k i : ℕ} (h : i < k) {l : List α} {p : α × α}
    (hp : p ∈ pairs ((nextLevel node)^[i] l)) : p ∈ joins node k l := by
  induction i generalizing k l with
  | zero =>
    obtain ⟨k, rfl⟩ := Nat.exists_eq_add_of_lt h
    rw [Nat.zero_add, joins]
    exact List.mem_append_left _ hp
  | succ i ih =>
    obtain ⟨k, rfl⟩ : ∃ k', k = k' + 1 := ⟨k - 1, by omega⟩
    rw [joins]
    exact List.mem_append_right _ (ih (by omega) hp)

/-- The upper joins are joins of an upper level. -/
theorem joins_iterate_subset (i k : ℕ) (l : List α) :
    joins node k ((nextLevel node)^[i] l) ⊆ joins node (i + k) l := by
  induction i generalizing l with
  | zero =>
    rw [Nat.zero_add]
    exact List.Subset.refl _
  | succ i ih =>
    rw [Function.iterate_succ_apply, Nat.succ_add, joins]
    exact List.Subset.trans (ih (nextLevel node l)) (List.subset_append_right _ _)

/-! ## Roots -/

/-- A level with the last node repeated wherever a neighbour is missing, down through so many
levels of pairs. -/
def fill : (k : ℕ) → {β : Type u} → List β → List β
  | 0, _, l => l
  | k + 1, _, l => (fill k (pairs l)).flatMap fun p => [p.1, p.2]

section Fill

variable {β γ : Type u}

theorem fill_map (f : β → γ) (k : ℕ) (l : List β) : fill k (l.map f) = (fill k l).map f := by
  induction k generalizing β γ with
  | zero => rfl
  | succ k ih =>
    rw [fill, fill, pairs_map, ih, List.flatMap_map, List.map_flatMap]
    rfl

theorem mem_of_mem_fill {k : ℕ} {l : List β} {a : β} (h : a ∈ fill k l) : a ∈ l := by
  induction k generalizing β with
  | zero => exact h
  | succ k ih =>
    rw [fill] at h
    obtain ⟨p, hp, ha⟩ := List.mem_flatMap.1 h
    obtain ⟨hleft, hright⟩ := mem_of_mem_pairs (ih hp)
    rcases List.mem_cons.1 ha with rfl | ha
    · exact hleft
    · rw [List.mem_singleton.1 ha]
      exact hright

theorem prefix_fill (k : ℕ) (l : List β) : l <+: fill k l := by
  induction k generalizing β with
  | zero => exact List.prefix_rfl
  | succ k ih =>
    obtain ⟨tail, htail⟩ := ih (pairs l)
    rw [fill, ← htail, List.flatMap_append]
    exact (prefix_flatMap_pairs l).trans (List.prefix_append _ _)

/-- Lists of one length are told apart. -/
theorem fill_inj_of_length {k : ℕ} {l l' : List β} (hlen : l.length = l'.length)
    (h : fill k l = fill k l') : l = l' := by
  have hprefix : l <+: fill k l' := h ▸ prefix_fill k l
  exact (List.prefix_of_prefix_length_le hprefix (prefix_fill k l') hlen.le).eq_of_length hlen

/-- The pairs can be read off the row. -/
theorem flatMap_pair_inj {l l' : List (β × β)}
    (h : (l.flatMap fun p => [p.1, p.2]) = l'.flatMap fun p => [p.1, p.2]) : l = l' := by
  induction l generalizing l' with
  | nil =>
    cases l' with
    | nil => rfl
    | cons p rest => cases h
  | cons p rest ih =>
    cases l' with
    | nil => cases h
    | cons q rest' =>
      rw [List.flatMap_cons, List.flatMap_cons] at h
      obtain ⟨hleft, h⟩ := List.cons.inj h
      obtain ⟨hright, h⟩ := List.cons.inj h
      rw [Prod.ext hleft hright, ih h]

end Fill

/-- No two of the joins collide. -/
def Apart {α : Type*} (node : α → α → α) (ps qs : List (α × α)) : Prop :=
  ∀ p ∈ ps, ∀ q ∈ qs, node p.1 p.2 = node q.1 q.2 → p = q

theorem Apart.mono {ps ps' qs qs' : List (α × α)} (h : Apart node ps qs) (hp : ps' ⊆ ps)
    (hq : qs' ⊆ qs) : Apart node ps' qs' := fun p hp' q hq' => h p (hp hp') q (hq hq')

theorem Apart.symm {ps qs : List (α × α)} (h : Apart node ps qs) : Apart node qs ps :=
  fun q hq p hp heq => (h p hp q hq heq.symm).symm

/-- Where joins do not collide, they can be taken back. -/
theorem map_node_inj {ps qs : List (α × α)} (h : Apart node ps qs) :
    (ps.map fun p => node p.1 p.2) = (qs.map fun q => node q.1 q.2) ↔ ps = qs := by
  constructor
  · intro heq
    induction ps generalizing qs with
    | nil =>
      cases qs with
      | nil => rfl
      | cons q rest => cases heq
    | cons p rest ih =>
      cases qs with
      | nil => cases heq
      | cons q rest' =>
        obtain ⟨hhead, htail⟩ := List.cons.inj heq
        rw [h p List.mem_cons_self q List.mem_cons_self hhead,
          ih (h.mono (List.subset_cons_self _ _) (List.subset_cons_self _ _)) htail]
  · rintro rfl
    rfl

section Roots

variable {α : Type u} {node : α → α → α} {l l' : List α}

/-- Two levels agree so many levels further up exactly if they agree once filled. -/
theorem iterate_eq_iff {k : ℕ} (h : Apart node (joins node k l) (joins node k l')) :
    (nextLevel node)^[k] l = (nextLevel node)^[k] l' ↔ fill k l = fill k l' := by
  induction k generalizing l l' with
  | zero => exact Iff.rfl
  | succ k ih =>
    rw [joins, joins] at h
    have hupper := h.mono (List.subset_append_right _ _) (List.subset_append_right _ _)
    have hlower : Apart node (fill k (pairs l)) (fill k (pairs l')) :=
      h.mono (fun p hp => List.mem_append_left _ (mem_of_mem_fill hp))
        fun p hp => List.mem_append_left _ (mem_of_mem_fill hp)
    rw [Function.iterate_succ_apply, Function.iterate_succ_apply, ih hupper, nextLevel_eq,
      nextLevel_eq, fill_map, fill_map, map_node_inj hlower, fill, fill]
    exact ⟨fun heq => by rw [heq], flatMap_pair_inj⟩

/-- All joins of a tree. -/
def joinsOf (node : α → α → α) (l : List α) : List (α × α) := joins node (Nat.clog 2 l.length) l

/-- The lower tree is the upper part of the other one, up to repeated last nodes. -/
def Alike (node : α → α → α) (l l' : List α) : Prop :=
  fill (Nat.clog 2 l.length) l = fill (Nat.clog 2 l.length)
    ((nextLevel node)^[Nat.clog 2 l'.length - Nat.clog 2 l.length] l')

/-- Trees of which the first is not higher have one root exactly if they are alike. -/
theorem root_eq_iff (hne : l ≠ []) (hne' : l' ≠ [])
    (hheight : Nat.clog 2 l.length ≤ Nat.clog 2 l'.length)
    (h : Apart node (joinsOf node l) (joinsOf node l')) :
    root node l = root node l' ↔ Alike node l l' := by
  obtain ⟨r, hlast, hroot⟩ := iterate_nextLevel node hne
  obtain ⟨r', hlast', hroot'⟩ := iterate_nextLevel node hne'
  obtain ⟨d, hd⟩ := Nat.exists_eq_add_of_le hheight
  have hsub : Nat.clog 2 l'.length - Nat.clog 2 l.length = d := by omega
  have hupper : joins node (Nat.clog 2 l.length) ((nextLevel node)^[d] l') ⊆ joinsOf node l' := by
    unfold joinsOf
    rw [hd, Nat.add_comm]
    exact joins_iterate_subset d _ l'
  have hiff := iterate_eq_iff (h.mono (List.Subset.refl _) hupper)
  rw [hd, Function.iterate_add_apply] at hlast'
  unfold Alike
  rw [hsub, ← hiff, hroot, hroot', hlast, hlast', Option.some_inj, List.cons.injEq]
  exact (and_iff_left rfl).symm

/-- Trees over lists of one length. -/
theorem root_inj_of_length (hlen : l.length = l'.length)
    (h : Apart node (joinsOf node l) (joinsOf node l')) (hroot : root node l = root node l') :
    l = l' := by
  by_cases hne : l = []
  · subst hne
    exact (List.length_eq_zero_iff.1 hlen.symm).symm
  · have hne' : l' ≠ [] := fun heq => hne (List.length_eq_zero_iff.1 (by rw [hlen, heq]; rfl))
    have halike := (root_eq_iff hne hne' (by rw [hlen]) h).1 hroot
    unfold Alike at halike
    rw [hlen, Nat.sub_self] at halike
    exact fill_inj_of_length hlen halike

end Roots

/-! ## Paths -/

section Paths

variable {α : Type*} {node : α → α → α}

/-- The levels over leaves, the root last. -/
def levels (node : α → α → α) : List α → List (List α)
  | [] => []
  | [a] => [[a]]
  | a :: b :: rest => (a :: b :: rest) :: levels node (nextLevel node (a :: b :: rest))
termination_by l => l.length
decreasing_by
  rw [length_nextLevel]
  simp only [List.length_cons]
  omega

/-- The neighbour of a node in a level of so many. -/
def sibling (n i : ℕ) : ℕ := if i % 2 = 0 then (if i + 1 < n then i + 1 else i) else i - 1

/-- The neighbours on the way up, each with whether it comes second. -/
def pathThrough : List (List α) → ℕ → Option (List (α × Bool))
  | [], _ => some []
  | level :: rest, i => do
    let neighbour ← level[sibling level.length i]?
    let path ← pathThrough rest (i / 2)
    return (neighbour, i % 2 = 0) :: path

/-- The path of a leaf below the root. -/
def proofPath (levels : List (List α)) (i : ℕ) : Option (List (α × Bool)) :=
  pathThrough levels.dropLast i

/-- What a node is joined with, in order. -/
def beside (a : α) (step : α × Bool) : α × α := if step.2 then (a, step.1) else (step.1, a)

/-- Where a path leads. -/
def climb (node : α → α → α) (a : α) (path : List (α × Bool)) : α :=
  path.foldl (fun a step => node (beside a step).1 (beside a step).2) a

/-- What is joined along a path. -/
def climbed (node : α → α → α) : α → List (α × Bool) → List (α × α)
  | _, [] => []
  | a, step :: path =>
    beside a step :: climbed node (node (beside a step).1 (beside a step).2) path

theorem climb_append (a : α) (path : List (α × Bool)) (step : α × Bool) :
    climb node a (path ++ [step]) =
      node (beside (climb node a path) step).1 (beside (climb node a path) step).2 :=
  List.foldl_append

theorem climbed_append (a : α) (path : List (α × Bool)) (step : α × Bool) :
    climbed node a (path ++ [step]) = climbed node a path ++ [beside (climb node a path) step] := by
  induction path generalizing a with
  | nil => rfl
  | cons first path ih => exact congrArg (_ :: ·) (ih _)

theorem levels_ne_nil {l : List α} (hne : l ≠ []) : levels node l ≠ [] := by
  fun_cases levels node l with
  | case1 => exact absurd rfl hne
  | case2 a => exact List.cons_ne_nil _ _
  | case3 a b rest => exact List.cons_ne_nil _ _

variable (node) in
/-- The last level is the root. -/
theorem getLast?_levels {l : List α} (hne : l ≠ []) :
    ∃ r, (levels node l).getLast? = some [r] ∧ root node l = some r := by
  fun_induction root node l with
  | case1 => exact absurd rfl hne
  | case2 a =>
    rw [levels]
    exact ⟨a, rfl, rfl⟩
  | case3 a b rest ih =>
    have hnext : nextLevel node (a :: b :: rest) ≠ [] := List.cons_ne_nil _ _
    obtain ⟨r, hlast, hroot⟩ := ih hnext
    refine ⟨r, ?_, hroot⟩
    rw [levels, List.getLast?_cons, hlast]
    rfl

variable (node) in
/-- A node, its neighbour and what they are joined to. -/
theorem getElem?_nextLevel {l : List α} {i : ℕ} {a : α} (h : l[i]? = some a) :
    ∃ s, l[sibling l.length i]? = some s ∧ (nextLevel node l)[i / 2]? =
      some (node (beside a (s, i % 2 = 0)).1 (beside a (s, i % 2 = 0)).2) := by
  fun_induction nextLevel node l generalizing i with
  | case1 => cases h
  | case2 b =>
    obtain ⟨hi, rfl⟩ := List.getElem?_eq_some_iff.1 h
    obtain rfl : i = 0 := Nat.lt_one_iff.1 hi
    exact ⟨b, rfl, rfl⟩
  | case3 b c rest ih =>
    match i with
    | 0 =>
      cases h
      refine ⟨c, ?_, rfl⟩
      have hlt : 0 + 1 < (a :: c :: rest).length := by
        simp only [List.length_cons]
        omega
      unfold sibling
      rw [if_pos rfl, if_pos hlt]
      rfl
    | 1 =>
      cases h
      exact ⟨b, rfl, rfl⟩
    | i + 2 =>
      obtain ⟨s, hs, hnext⟩ := ih h
      have hsibling : sibling (b :: c :: rest).length (i + 2) = sibling rest.length i + 2 := by
        unfold sibling
        simp only [List.length_cons]
        split_ifs <;> omega
      have hhalf : (i + 2) / 2 = i / 2 + 1 := by omega
      have hparity : (i + 2) % 2 = i % 2 := by omega
      refine ⟨s, ?_, ?_⟩
      · rw [hsibling]
        exact hs
      · rw [hhalf, hparity]
        exact hnext

variable (node) in
/-- Every leaf has a path, and it leads to the root. -/
theorem climb_proofPath {l : List α} {i : ℕ} {a : α} (h : l[i]? = some a) :
    ∃ path, proofPath (levels node l) i = some path ∧ root node l = some (climb node a path) := by
  fun_induction root node l generalizing i a with
  | case1 => cases h
  | case2 b =>
    obtain ⟨hi, rfl⟩ := List.getElem?_eq_some_iff.1 h
    obtain rfl : i = 0 := Nat.lt_one_iff.1 hi
    rw [levels]
    exact ⟨[], rfl, rfl⟩
  | case3 b c rest ih =>
    obtain ⟨s, hs, hnext⟩ := getElem?_nextLevel node h
    obtain ⟨path, hpath, hroot⟩ := ih hnext
    have hne : levels node (nextLevel node (b :: c :: rest)) ≠ [] :=
      levels_ne_nil (List.cons_ne_nil _ _)
    refine ⟨(s, i % 2 = 0) :: path, ?_, hroot⟩
    unfold proofPath at hpath ⊢
    rw [levels, List.dropLast_cons_of_ne_nil hne, pathThrough, hs, Option.bind_eq_bind,
      Option.bind_some, hpath]
    rfl

/-- A path from a node that is not joined, to a level over leaves that are not joined either,
starts at a leaf, whatever it says. -/
theorem mem_of_climb {l : List α} {a : α} {path : List (α × Bool)} {k n : ℕ} (hk : k ≤ n)
    (h : Apart node (climbed node a path) (joins node n l))
    (hstart : ∀ p ∈ joins node n l, node p.1 p.2 ≠ a)
    (hleaf : ∀ p ∈ climbed node a path, node p.1 p.2 ∉ l)
    (hclimb : climb node a path ∈ (nextLevel node)^[k] l) : a ∈ l := by
  induction path using List.reverseRecOn generalizing k with
  | nil =>
    cases k with
    | zero => exact hclimb
    | succ k =>
      rw [Function.iterate_succ_apply', nextLevel_eq] at hclimb
      obtain ⟨p, hp, heq⟩ := List.mem_map.1 hclimb
      exact absurd heq (hstart p (mem_joins_of_lt hk hp))
  | append_singleton path step ih =>
    rw [climbed_append] at h hleaf
    have hlast : beside (climb node a path) step ∈
        climbed node a path ++ [beside (climb node a path) step] :=
      List.mem_append_right _ List.mem_cons_self
    rw [climb_append] at hclimb
    cases k with
    | zero => exact absurd hclimb (hleaf _ hlast)
    | succ k =>
      rw [Function.iterate_succ_apply', nextLevel_eq] at hclimb
      obtain ⟨p, hp, heq⟩ := List.mem_map.1 hclimb
      -- the joins agree, so the node below is in the level below
      have hsame := h _ hlast p (mem_joins_of_lt hk hp) heq.symm
      obtain ⟨hleft, hright⟩ := mem_of_mem_pairs hp
      refine ih (Nat.le_of_succ_le hk) (h.mono (List.subset_append_left _ _) (List.Subset.refl _))
        (fun q hq => hleaf q (List.mem_append_left _ hq)) ?_
      rw [← hsame] at hleft hright
      unfold beside at hleft hright
      cases hstep : step.2 with
      | true =>
        rw [hstep] at hleft
        exact hleft
      | false =>
        rw [hstep] at hright
        exact hright

theorem mem_of_climb_root {l : List α} {a : α} {path : List (α × Bool)}
    (h : Apart node (climbed node a path) (joinsOf node l))
    (hstart : ∀ p ∈ joinsOf node l, node p.1 p.2 ≠ a)
    (hleaf : ∀ p ∈ climbed node a path, node p.1 p.2 ∉ l)
    (hroot : root node l = some (climb node a path)) : a ∈ l := by
  have hne : l ≠ [] := by
    rintro rfl
    rw [root_nil] at hroot
    cases hroot
  obtain ⟨r, hlast, hr⟩ := iterate_nextLevel node hne
  refine mem_of_climb (Nat.le_refl _) h hstart hleaf ?_
  rw [hlast, Option.some.inj (hr.symm.trans hroot)]
  exact List.mem_cons_self

end Paths

end Merkle
