import Mathlib.Data.List.Sort
import HoneNode.Lib.Kv

/-!
# Lib.KvOrder — what the order of a store gives

A part of a store is determined by its lookups, as a list, and the last key is the
greatest one.
-/

namespace Kv

variable {κ ν : Type*} [LinearOrder κ] {m m' : Kv κ ν} {k : κ}

theorem mem_bindings {v : ν} : (k, v) ∈ m.bindings ↔ m.get k = some v :=
  (lookup_eq_some_iff m.sorted).symm

/-- Two stores that agree on what satisfies `q` list it in the same way. -/
theorem filter_bindings_eq {q : κ × ν → Bool}
    (h : ∀ k v, q (k, v) = true → (m.get k = some v ↔ m'.get k = some v)) :
    m.bindings.filter q = m'.bindings.filter q := by
  have hnodup : ∀ s : Kv κ ν, s.bindings.Nodup := fun s =>
    s.sorted.imp fun hlt heq => absurd (heq ▸ hlt) (lt_irrefl _)
  have hperm : (m.bindings.filter q).Perm (m'.bindings.filter q) := by
    refine (List.perm_ext_iff_of_nodup ((hnodup m).filter q) ((hnodup m').filter q)).2 ?_
    rintro ⟨k, v⟩
    rw [List.mem_filter, List.mem_filter, mem_bindings, mem_bindings]
    exact and_congr_left (h k v)
  refine hperm.eq_of_pairwise ?_ (m.sorted.filter q) (m'.sorted.filter q)
  exact fun a b _ _ hab hba => absurd (hab.trans hba) (lt_irrefl _)

/-! ## The last key -/

def lastKey (m : Kv κ ν) : Option κ := m.bindings.getLast?.map Prod.fst

theorem isSome_get_iff : (m.get k).isSome ↔ ∃ v, (k, v) ∈ m.bindings := by
  rw [Option.isSome_iff_exists]
  exact exists_congr fun _ => mem_bindings.symm

theorem le_lastKey (h : m.lastKey = some k) : (m.get k).isSome ∧ ∀ j, (m.get j).isSome → j ≤ k := by
  obtain ⟨⟨k, v⟩, hlast, rfl⟩ := Option.map_eq_some_iff.1 h
  obtain ⟨front, hfront⟩ := List.getLast?_eq_some_iff.1 hlast
  refine ⟨isSome_get_iff.2 ⟨v, List.mem_of_getLast? hlast⟩, ?_⟩
  intro j hj
  obtain ⟨u, hu⟩ := isSome_get_iff.1 hj
  have hsorted := m.sorted
  rw [hfront] at hu hsorted
  rcases List.mem_append.1 hu with hu | hu
  · exact ((List.pairwise_append.1 hsorted).2.2 _ hu _ (List.mem_singleton_self _)).le
  · cases List.mem_singleton.1 hu
    exact le_rfl

theorem get_eq_none_of_lastKey (h : m.lastKey = none) (k : κ) : m.get k = none := by
  unfold lastKey at h
  rw [Option.map_eq_none_iff, List.getLast?_eq_none_iff] at h
  unfold get
  rw [h]
  rfl

theorem lastKey_eq_some_iff :
    m.lastKey = some k ↔ (m.get k).isSome ∧ ∀ j, (m.get j).isSome → j ≤ k := by
  refine ⟨le_lastKey, ?_⟩
  rintro ⟨hfound, hmax⟩
  cases hlast : m.lastKey with
  | none =>
    rw [get_eq_none_of_lastKey hlast] at hfound
    cases hfound
  | some k' =>
    obtain ⟨hfound', hmax'⟩ := le_lastKey hlast
    exact congrArg some (le_antisymm (hmax _ hfound') (hmax' _ hfound))

end Kv
