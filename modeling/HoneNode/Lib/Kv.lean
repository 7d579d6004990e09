import Mathlib.Data.List.Basic
import Mathlib.Data.List.Pairwise
import Mathlib.Tactic.Linarith

/-!
# Lib.Kv — an ordered key-value store

The bindings are kept in strictly increasing key order, so a scan visits them
in the order an ordered store iterates, and two stores with the same lookups
are equal. `sumBy` adds up a quantity over all bindings.
-/

/-- A finite map: bindings in strictly increasing key order. -/
structure Kv (κ ν : Type*) [LinearOrder κ] where
  bindings : List (κ × ν)
  sorted : bindings.Pairwise (fun a b => a.1 < b.1)

namespace Kv

variable {κ ν : Type*} [LinearOrder κ]

/-! ## Lists of bindings -/

/-- The value of the first binding of a key. -/
def lookup (k : κ) : List (κ × ν) → Option ν
  | [] => none
  | (k', v) :: rest => if k' = k then some v else lookup k rest

/-- A binding of the key is replaced, and else put in its place. -/
def insertSorted (k : κ) (v : ν) : List (κ × ν) → List (κ × ν)
  | [] => [(k, v)]
  | (k', v') :: rest =>
    if k < k' then (k, v) :: (k', v') :: rest
    else if k' = k then (k, v) :: rest
    else (k', v') :: insertSorted k v rest

def removeKey (k : κ) : List (κ × ν) → List (κ × ν)
  | [] => []
  | (k', v) :: rest => if k' = k then rest else (k', v) :: removeKey k rest

/-- The quantity `f` added up over a list of bindings. -/
def sumList (f : κ → ν → ℕ) : List (κ × ν) → ℕ
  | [] => 0
  | (k, v) :: rest => f k v + sumList f rest

/-- What is read back after an insertion. -/
theorem lookup_insertSorted (k j : κ) (v : ν) (l : List (κ × ν)) :
    lookup j (insertSorted k v l) = if k = j then some v else lookup j l := by
  induction l with
  | nil => simp [insertSorted, lookup]
  | cons p rest ih =>
    obtain ⟨k', v'⟩ := p
    unfold insertSorted
    by_cases hlt : k < k'
    · simp [hlt, lookup]
    · by_cases heq : k' = k
      · subst heq
        by_cases hj : k' = j
        · simp [lookup, hj]
        · simp [lookup, hj]
      · by_cases hj : k' = j
        · subst hj
          simp [hlt, heq, lookup, Ne.symm heq]
        · simp [hlt, heq, lookup, hj, ih]

variable {k : κ} {v : ν} {l : List (κ × ν)} (m : Kv κ ν) (f : κ → ν → ℕ)

theorem mem_insertSorted {p : κ × ν} (h : p ∈ insertSorted k v l) : p = (k, v) ∨ p ∈ l := by
  induction l with
  | nil => simpa [insertSorted] using h
  | cons q rest ih =>
    obtain ⟨k', v'⟩ := q
    unfold insertSorted at h
    split at h
    · simpa using h
    · split at h
      · rw [List.mem_cons] at h
        rcases h with h | h
        · exact .inl h
        · exact .inr (List.mem_cons_of_mem _ h)
      · rw [List.mem_cons] at h
        rcases h with h | h
        · exact .inr (by simp [h])
        · rcases ih h with h | h
          · exact .inl h
          · exact .inr (List.mem_cons_of_mem _ h)

/-- The keys stay in order. -/
theorem pairwise_insertSorted (k : κ) (v : ν) (h : l.Pairwise (fun a b => a.1 < b.1)) :
    (insertSorted k v l).Pairwise (fun a b => a.1 < b.1) := by
  induction l with
  | nil => simp [insertSorted]
  | cons p rest ih =>
    obtain ⟨k', v'⟩ := p
    rw [List.pairwise_cons] at h
    unfold insertSorted
    split
    · -- the new key stands in front of the head
      rename_i hlt
      refine List.pairwise_cons.2 ⟨?_, List.pairwise_cons.2 h⟩
      intro q hq
      rw [List.mem_cons] at hq
      rcases hq with rfl | hq
      · exact hlt
      · exact lt_trans hlt (h.1 q hq)
    · split
      · rename_i heq
        subst heq
        exact List.pairwise_cons.2 h
      · rename_i hnlt hne
        refine List.pairwise_cons.2 ⟨?_, ih h.2⟩
        intro q hq
        rcases mem_insertSorted hq with rfl | hq
        · exact lt_of_le_of_ne (not_lt.1 hnlt) hne
        · exact h.1 q hq

theorem mem_of_mem_removeKey {p : κ × ν} (h : p ∈ removeKey k l) : p ∈ l := by
  induction l with
  | nil => simp [removeKey] at h
  | cons q rest ih =>
    obtain ⟨k', v'⟩ := q
    unfold removeKey at h
    split at h
    · exact List.mem_cons_of_mem _ h
    · rw [List.mem_cons] at h
      rcases h with h | h
      · simp [h]
      · exact List.mem_cons_of_mem _ (ih h)

theorem pairwise_removeKey (k : κ) (h : l.Pairwise (fun a b => a.1 < b.1)) :
    (removeKey k l).Pairwise (fun a b => a.1 < b.1) := by
  induction l with
  | nil => simp [removeKey]
  | cons p rest ih =>
    obtain ⟨k', v'⟩ := p
    rw [List.pairwise_cons] at h
    unfold removeKey
    split
    · exact h.2
    · refine List.pairwise_cons.2 ⟨?_, ih h.2⟩
      intro q hq
      exact h.1 q (mem_of_mem_removeKey hq)

/-- A key below every key of the list is not bound in it. -/
theorem lookup_eq_none_of_lt (h : ∀ p ∈ l, k < p.1) :
    lookup k l = none := by
  induction l with
  | nil => rfl
  | cons p rest ih =>
    obtain ⟨k', v'⟩ := p
    have hlt : k < k' := h (k', v') (by simp)
    have hrest := ih fun q hq => h q (List.mem_cons_of_mem _ hq)
    simp [lookup, ne_of_gt hlt, hrest]

theorem lookup_removeKey (k j : κ) (h : l.Pairwise (fun a b => a.1 < b.1)) :
    lookup j (removeKey k l) = if k = j then none else lookup j l := by
  induction l with
  | nil => simp [removeKey, lookup]
  | cons p rest ih =>
    obtain ⟨k', v'⟩ := p
    rw [List.pairwise_cons] at h
    unfold removeKey
    by_cases heq : k' = k
    · subst heq
      by_cases hj : k' = j
      · subst hj
        simpa [lookup] using lookup_eq_none_of_lt h.1
      · simp [lookup, hj]
    · by_cases hj : k' = j
      · subst hj
        simp [heq, lookup, Ne.symm heq]
      · simp [heq, lookup, hj, ih h.2]

/-- In an ordered list a key is looked up to its only binding. -/
theorem lookup_eq_some_iff
    (h : l.Pairwise (fun a b => a.1 < b.1)) : lookup k l = some v ↔ (k, v) ∈ l := by
  induction l with
  | nil => simp [lookup]
  | cons p rest ih =>
    obtain ⟨k', v'⟩ := p
    rw [List.pairwise_cons] at h
    by_cases heq : k' = k
    · subst heq
      have hnot : (k', v) ∉ rest := fun hmem => absurd (h.1 (k', v) hmem) (lt_irrefl _)
      simp [lookup, hnot, eq_comm]
    · simp [lookup, heq, ih h.2, Ne.symm heq]

/-- An insertion exchanges what one key counts for. -/
theorem sumList_insertSorted (k : κ) (v : ν) (h : l.Pairwise (fun a b => a.1 < b.1)) :
    sumList f (insertSorted k v l) + (lookup k l).elim 0 (f k) = sumList f l + f k v := by
  induction l with
  | nil => simp [insertSorted, sumList, lookup]
  | cons p rest ih =>
    obtain ⟨k', v'⟩ := p
    rw [List.pairwise_cons] at h
    unfold insertSorted
    by_cases hlt : k < k'
    · have hnone : lookup k ((k', v') :: rest) = none := by
        apply lookup_eq_none_of_lt
        intro q hq
        rw [List.mem_cons] at hq
        rcases hq with rfl | hq
        · exact hlt
        · exact lt_trans hlt (h.1 q hq)
      rw [if_pos hlt, hnone]
      simp [sumList]
      omega
    · by_cases heq : k' = k
      · subst heq
        simp [sumList, lookup]
        omega
      · have := ih h.2
        simp [hlt, heq, sumList, lookup]
        omega

theorem sumList_removeKey (k : κ) (l : List (κ × ν)) :
    sumList f (removeKey k l) + (lookup k l).elim 0 (f k) = sumList f l := by
  induction l with
  | nil => simp [removeKey, sumList, lookup]
  | cons p rest ih =>
    obtain ⟨k', v'⟩ := p
    by_cases heq : k' = k
    · subst heq
      simp [removeKey, sumList, lookup]
      omega
    · simp [removeKey, heq, sumList, lookup]
      omega

theorem le_sumList (h : lookup k l = some v) : f k v ≤ sumList f l := by
  induction l with
  | nil => simp [lookup] at h
  | cons p rest ih =>
    obtain ⟨k', v'⟩ := p
    unfold lookup at h
    simp only [sumList]
    split at h
    · rename_i heq
      subst heq
      cases h
      omega
    · have := ih h
      omega

/-! ## The store -/

def empty : Kv κ ν := ⟨[], List.Pairwise.nil⟩

def get (m : Kv κ ν) (k : κ) : Option ν := lookup k m.bindings

def put (m : Kv κ ν) (k : κ) (v : ν) : Kv κ ν :=
  ⟨insertSorted k v m.bindings, pairwise_insertSorted k v m.sorted⟩

def del (m : Kv κ ν) (k : κ) : Kv κ ν :=
  ⟨removeKey k m.bindings, pairwise_removeKey k m.sorted⟩

/-- The bindings whose key satisfies `p`, in key order. -/
def scan (m : Kv κ ν) (p : κ → Bool) : List (κ × ν) := m.bindings.filter fun b => p b.1

/-- Only the bindings whose key satisfies `p`. -/
def retain (m : Kv κ ν) (p : κ → Bool) : Kv κ ν := ⟨m.scan p, m.sorted.filter _⟩

def sumBy (f : κ → ν → ℕ) (m : Kv κ ν) : ℕ := sumList f m.bindings

instance : EmptyCollection (Kv κ ν) := ⟨empty⟩

instance [DecidableEq ν] : DecidableEq (Kv κ ν) := fun a b =>
  decidable_of_iff (a.bindings = b.bindings)
    ⟨fun h => by cases a; cases b; cases h; rfl, fun h => by rw [h]⟩

@[simp] theorem get_empty (k : κ) : (∅ : Kv κ ν).get k = none := rfl

theorem get_put (k j : κ) (v : ν) : (m.put k v).get j = if k = j then some v else m.get j :=
  lookup_insertSorted k j v m.bindings

@[simp] theorem get_put_self (k : κ) (v : ν) : (m.put k v).get k = some v := by
  rw [get_put, if_pos rfl]

theorem get_put_of_ne {k j : κ} (v : ν) (h : k ≠ j) : (m.put k v).get j = m.get j := by
  rw [get_put, if_neg h]

theorem get_del (k j : κ) : (m.del k).get j = if k = j then none else m.get j :=
  lookup_removeKey k j m.sorted

@[simp] theorem get_del_self (k : κ) : (m.del k).get k = none := by
  rw [get_del, if_pos rfl]

theorem get_del_of_ne {k j : κ} (h : k ≠ j) : (m.del k).get j = m.get j := by
  rw [get_del, if_neg h]

/-- A scan finds what can be read and matches. -/
theorem mem_scan {m : Kv κ ν} {p : κ → Bool} :
    (k, v) ∈ m.scan p ↔ m.get k = some v ∧ p k = true := by
  unfold scan get
  rw [List.mem_filter, lookup_eq_some_iff m.sorted]

theorem get_retain (p : κ → Bool) (k : κ) : (m.retain p).get k = if p k then m.get k else none := by
  ext v
  rw [get, lookup_eq_some_iff (m.retain p).sorted]
  refine mem_scan.trans ?_
  cases p k <;> simp

/-- A sum changes by what the one key counts for. -/
theorem sumBy_put (m : Kv κ ν) (k : κ) (v : ν) :
    sumBy f (m.put k v) + (m.get k).elim 0 (f k) = sumBy f m + f k v :=
  sumList_insertSorted f k v m.sorted

theorem sumBy_del (m : Kv κ ν) (k : κ) :
    sumBy f (m.del k) + (m.get k).elim 0 (f k) = sumBy f m :=
  sumList_removeKey f k m.bindings

/-- No binding counts for more than the sum. -/
theorem le_sumBy {m : Kv κ ν} (h : m.get k = some v) :
    f k v ≤ sumBy f m :=
  le_sumList f h

theorem sumBy_congr {f g : κ → ν → ℕ} {m : Kv κ ν} (h : ∀ k v, m.get k = some v → f k v = g k v) :
    sumBy f m = sumBy g m := by
  have hlist : ∀ l : List (κ × ν), (∀ b ∈ l, f b.1 b.2 = g b.1 b.2) →
      sumList f l = sumList g l := by
    intro l
    induction l with
    | nil => exact fun _ => rfl
    | cons b rest ih =>
      intro hall
      have hrest := ih fun c hc => hall c (List.mem_cons_of_mem _ hc)
      rw [sumList, sumList, hall b List.mem_cons_self, hrest]
  exact hlist _ fun b hb => h b.1 b.2 ((lookup_eq_some_iff m.sorted).2 hb)

theorem sumBy_eq_zero {f : κ → ν → ℕ} {m : Kv κ ν} (h : ∀ k v, m.get k = some v → f k v = 0) :
    sumBy f m = 0 := by
  have hzero : ∀ l : List (κ × ν), sumList (fun _ _ => 0) l = 0 := by
    intro l
    induction l with
    | nil => rfl
    | cons b rest ih => rw [sumList, ih]
  exact (sumBy_congr h).trans (hzero _)

/-- Where one binding counts, the sum is what it counts for. -/
theorem sumBy_eq_of_get {f : κ → ν → ℕ} {m : Kv κ ν} (hget : m.get k = some v)
    (h : ∀ j w, j ≠ k → f j w = 0) : sumBy f m = f k v := by
  have hdel := sumBy_del f m k
  have hzero : sumBy f (m.del k) = 0 := by
    refine sumBy_eq_zero fun j w hj => h j w ?_
    rintro rfl
    rw [get_del_self] at hj
    cases hj
  rw [hget, hzero, Nat.zero_add] at hdel
  exact hdel.symm

end Kv
