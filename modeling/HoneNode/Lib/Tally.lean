import Mathlib.Data.Finset.Card
import Mathlib.Tactic.Linarith

/-!
# Lib.Tally — counting votes in a hash map, and majorities

A tally is built by incrementing one counter per vote. Iterating a hash map
visits its pairs in an order the program does not control, so a reader of the
tally is given a `HashOrder`: any permutation.
-/

namespace Tally

variable {α : Type*} [DecidableEq α]

/-- Increment the counter of `k`, starting it at one. -/
def bump : List (α × ℕ) → α → List (α × ℕ)
  | [], k => [(k, 1)]
  | (k', c) :: rest, k => if k' = k then (k', c + 1) :: rest else (k', c) :: bump rest k

/-- Count every vote of the list. -/
def tally (votes : List α) : List (α × ℕ) := votes.foldl bump []

/-- An iteration order of a hash map: some permutation of its pairs. -/
structure HashOrder (β : Type*) where
  visit : List β → List β
  perm : ∀ l, (visit l).Perm l

/-- Visit the pairs as they are stored. -/
def HashOrder.stored {β : Type*} : HashOrder β := ⟨id, fun _ => List.Perm.refl _⟩

/-- The last of the elements with the largest key, as `Iterator::max_by_key`. -/
def maxByKey {β : Type*} (key : β → ℕ) : List β → Option β
  | [] => none
  | x :: xs => some (xs.foldl (fun best y => if key best ≤ key y then y else best) x)

/-! ## Counting -/

theorem bump_fst (m : List (α × ℕ)) (k : α) :
    (bump m k).map Prod.fst = if k ∈ m.map Prod.fst then m.map Prod.fst
      else m.map Prod.fst ++ [k] := by
  induction m with
  | nil => simp [bump]
  | cons p rest ih =>
    obtain ⟨k', c⟩ := p
    by_cases h : k' = k
    · simp [bump, h]
    · have hne : ¬ k = k' := fun he => h he.symm
      by_cases hk : k ∈ rest.map Prod.fst
      · simp [bump, h, hne, ih, hk]
      · simp only [hk, if_false] at ih
        simp [bump, h, hne, ih, hk]

variable {m : List (α × ℕ)} {votes : List α} {β : Type*} {order : HashOrder (α × ℕ)}

theorem bump_nodup (hm : (m.map Prod.fst).Nodup) (k : α) : ((bump m k).map Prod.fst).Nodup := by
  rw [bump_fst]
  split
  · exact hm
  · rename_i hk
    rw [List.nodup_append]
    refine ⟨hm, List.nodup_singleton k, ?_⟩
    intro a ha b hb hab
    rw [List.mem_singleton] at hb
    exact hk (hb ▸ hab ▸ ha)

/-- A pair after a `bump` is an old pair of another key, or the incremented
counter of `k`. -/
theorem mem_bump (hm : (m.map Prod.fst).Nodup) {k a : α} {c : ℕ} (h : (a, c) ∈ bump m k) :
    (a ≠ k ∧ (a, c) ∈ m) ∨ (a = k ∧ ∃ c₀, (k, c₀) ∈ m ∧ c = c₀ + 1) ∨
      (a = k ∧ k ∉ m.map Prod.fst ∧ c = 1) := by
  induction m with
  | nil =>
    simp only [bump, List.mem_singleton, Prod.mk.injEq] at h
    exact .inr (.inr ⟨h.1, by simp, h.2⟩)
  | cons p rest ih =>
    obtain ⟨k', c'⟩ := p
    rw [List.map_cons, List.nodup_cons] at hm
    by_cases hk : k' = k
    · -- the counter of `k` stands at the head
      subst hk
      simp only [bump, if_true, List.mem_cons, Prod.mk.injEq] at h
      rcases h with ⟨rfl, rfl⟩ | h
      · exact .inr (.inl ⟨rfl, c', by simp, rfl⟩)
      · have hne : a ≠ k' := by
          rintro rfl
          exact hm.1 (List.mem_map.2 ⟨_, h, rfl⟩)
        exact .inl ⟨hne, List.mem_cons_of_mem _ h⟩
    · simp only [bump, hk, if_false, List.mem_cons, Prod.mk.injEq] at h
      rcases h with ⟨rfl, rfl⟩ | h
      · exact .inl ⟨hk, by simp⟩
      · rcases ih hm.2 h with ⟨hne, hmem⟩ | ⟨rfl, c₀, hmem, rfl⟩ | ⟨rfl, hnot, rfl⟩
        · exact .inl ⟨hne, List.mem_cons_of_mem _ hmem⟩
        · exact .inr (.inl ⟨rfl, c₀, List.mem_cons_of_mem _ hmem, rfl⟩)
        · refine .inr (.inr ⟨rfl, ?_, rfl⟩)
          simpa [Ne.symm hk] using hnot

/-- What a partly built tally `m` says about the votes counted so far. -/
structure Counts (votes : List α) (m : List (α × ℕ)) : Prop where
  nodup : (m.map Prod.fst).Nodup
  keys : ∀ a, a ∈ m.map Prod.fst ↔ a ∈ votes
  count : ∀ a c, (a, c) ∈ m → c = votes.count a

theorem Counts.bump (h : Counts votes m) (k : α) :
    Counts (votes ++ [k]) (bump m k) where
  nodup := bump_nodup h.nodup k
  keys := by
    intro a
    rw [bump_fst]
    split
    · rename_i hk
      rw [h.keys, List.mem_append, List.mem_singleton]
      constructor
      · exact .inl
      · rintro (ha | rfl)
        · exact ha
        · exact (h.keys a).1 hk
    · rw [List.mem_append, List.mem_append, h.keys]
  count := by
    intro a c hac
    rcases mem_bump h.nodup hac with ⟨hne, hmem⟩ | ⟨rfl, c₀, hmem, rfl⟩ | ⟨rfl, hnot, rfl⟩
    · rw [List.count_append, List.count_singleton, h.count a c hmem]
      simp [Ne.symm hne]
    · rw [List.count_append, List.count_singleton, h.count a c₀ hmem]
      simp
    · rw [List.count_append, List.count_singleton,
        List.count_eq_zero_of_not_mem (fun hmem => hnot ((h.keys a).2 hmem))]
      simp

theorem Counts.foldl (h : Counts votes m) (more : List α) :
    Counts (votes ++ more) (more.foldl Tally.bump m) := by
  induction more generalizing votes m with
  | nil => simpa using h
  | cons k rest ih =>
    have := ih (h.bump k)
    simpa using this

theorem counts_tally (votes : List α) : Counts votes (tally votes) := by
  have h0 : Counts ([] : List α) [] := ⟨by simp, by simp, by simp⟩
  have h := h0.foldl votes
  rwa [List.nil_append] at h

/-! ## The largest counter -/

theorem foldl_max_mem (key : β → ℕ) (xs : List β) (x : β) :
    xs.foldl (fun best y => if key best ≤ key y then y else best) x ∈ x :: xs := by
  induction xs generalizing x with
  | nil => simp
  | cons y ys ih =>
    rw [List.foldl_cons]
    have hmem := ih (if key x ≤ key y then y else x)
    rw [List.mem_cons] at hmem
    rcases hmem with h | h
    · rw [h]
      split <;> simp
    · exact List.mem_cons_of_mem _ (List.mem_cons_of_mem _ h)

theorem maxByKey_mem {key : β → ℕ} {l : List β} {b : β} (h : maxByKey key l = some b) : b ∈ l := by
  cases l with
  | nil => simp [maxByKey] at h
  | cons x xs =>
    simp only [maxByKey, Option.some.injEq] at h
    exact h ▸ foldl_max_mem key xs x

theorem le_foldl_max (key : β → ℕ) (xs : List β) (x : β) :
    ∀ y ∈ x :: xs, key y ≤ key (xs.foldl (fun best y => if key best ≤ key y then y else best) x) := by
  induction xs generalizing x with
  | nil => simp
  | cons z zs ih =>
    intro y hy
    rw [List.foldl_cons]
    have hbest := ih (if key x ≤ key z then z else x)
    have hhead := hbest _ List.mem_cons_self
    rcases List.mem_cons.1 hy with rfl | hy
    · refine le_trans ?_ hhead
      split <;> simp_all
    · rcases List.mem_cons.1 hy with rfl | hy
      · refine le_trans ?_ hhead
        split <;> simp_all [le_of_lt]
      · exact hbest y (List.mem_cons_of_mem _ hy)

theorem le_of_maxByKey {key : β → ℕ} {l : List β} {b x : β}
    (h : maxByKey key l = some b) (hx : x ∈ l) : key x ≤ key b := by
  cases l with
  | nil => cases hx
  | cons y ys =>
    simp only [maxByKey, Option.some.injEq] at h
    exact h ▸ le_foldl_max key ys y x hx

/-- No element has more votes than the winner. -/
theorem count_le_of_maxByKey_tally {best : α × ℕ}
    (h : maxByKey Prod.snd (order.visit (tally votes)) = some best) (a : α) :
    votes.count a ≤ votes.count best.1 := by
  have hcounts := counts_tally votes
  have hbest : best.2 = votes.count best.1 :=
    hcounts.count best.1 best.2 ((order.perm _).mem_iff.1 (maxByKey_mem h))
  by_cases ha : a ∈ votes
  · obtain ⟨⟨a', c⟩, hmem, rfl⟩ := List.mem_map.1 ((hcounts.keys a).2 ha)
    have hle := le_of_maxByKey h ((order.perm _).mem_iff.2 hmem)
    rw [hbest] at hle
    rwa [hcounts.count _ c hmem] at hle
  · simp [List.count_eq_zero_of_not_mem ha]

/-- Whatever the iteration order, the winner of a tally carries its count. -/
theorem maxByKey_tally {best : α × ℕ}
    (h : maxByKey Prod.snd (order.visit (tally votes)) = some best) :
    best.2 = votes.count best.1 := by
  have hmem : best ∈ tally votes := (order.perm _).mem_iff.1 (maxByKey_mem h)
  exact (counts_tally votes).count best.1 best.2 hmem

theorem maxByKey_eq_none_iff {key : β → ℕ} {l : List β} :
    maxByKey key l = none ↔ l = [] := by
  cases l <;> simp [maxByKey]

/-- Nobody wins only if nobody voted. -/
theorem maxByKey_tally_eq_none_iff :
    maxByKey Prod.snd (order.visit (tally votes)) = none ↔ votes = [] := by
  rw [maxByKey_eq_none_iff]
  constructor
  · intro h
    have hempty : tally votes = [] := by
      have := (order.perm (tally votes)).symm
      rwa [h, List.perm_nil] at this
    refine List.eq_nil_iff_forall_not_mem.2 fun a ha => ?_
    have hkey := ((counts_tally votes).keys a).2 ha
    rw [hempty] at hkey
    cases hkey
  · rintro rfl
    exact List.perm_nil.1 (order.perm _)

/-- With strictly most votes an element wins in every order. -/
theorem maxByKey_tally_of_strict {best : α × ℕ}
    {a : α} (h : maxByKey Prod.snd (order.visit (tally votes)) = some best)
    (ha : ∀ b, b ≠ a → votes.count b < votes.count a) : best.1 = a := by
  by_contra hne
  have hle := count_le_of_maxByKey_tally h a
  have hlt := ha best.1 hne
  omega

/-! ## Majorities -/

/-- Two sets of members of `R` that are each more than half of it meet. -/
theorem majority_inter {R A B : Finset α} (hA : A ⊆ R) (hB : B ⊆ R)
    (hA2 : R.card < 2 * A.card) (hB2 : R.card < 2 * B.card) : ∃ v, v ∈ A ∧ v ∈ B := by
  have hunion : (A ∪ B).card ≤ R.card := Finset.card_le_card (Finset.union_subset hA hB)
  have hinter := Finset.card_union_add_card_inter A B
  have hpos : 0 < (A ∩ B).card := by omega
  obtain ⟨v, hv⟩ := Finset.card_pos.mp hpos
  obtain ⟨hvA, hvB⟩ := Finset.mem_inter.mp hv
  exact ⟨v, hvA, hvB⟩

end Tally
