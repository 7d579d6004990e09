import Mathlib.Data.List.Sort

/-!
# Lib.FirstByKey — one value per key, the first to arrive

Values arrive in some order, with repetitions; under each key the first one is
kept, and the kept ones are listed in key order. What is listed depends only on
the set of values that arrived exactly when no two of them share a key
(`sorted_agree_iff`).
-/

namespace FirstByKey

variable {α κ : Type} [LinearOrder κ] (key : α → κ)

/-- Keep a value unless its key is taken. -/
def offer (kept : List α) (a : α) : List α :=
  if key a ∈ kept.map key then kept else kept ++ [a]

def offerAll (kept : List α) (as : List α) : List α := as.foldl (offer key) kept

/-- The kept values in key order. -/
def sorted (as : List α) : List α :=
  (offerAll key [] as).mergeSort fun a b => key a ≤ key b

/-- No two values share a key. -/
def KeysApart (as : List α) : Prop := ∀ a ∈ as, ∀ b ∈ as, key a = key b → a = b

variable {key} {as bs kept : List α} {a b : α}

/-! ## What is kept -/

theorem mem_offer (h : b ∈ offer key kept a) : b ∈ kept ∨ b = a := by
  unfold offer at h
  split at h
  · exact .inl h
  · simpa using h

theorem mem_offerAll (h : b ∈ offerAll key kept as) : b ∈ kept ∨ b ∈ as := by
  induction as generalizing kept with
  | nil => exact .inl h
  | cons a as ih =>
    rcases ih h with h | h
    · rcases mem_offer h with h | rfl
      · exact .inl h
      · exact .inr (by simp)
    · exact .inr (by simp [h])

theorem subset_offer : kept ⊆ offer key kept a := by
  unfold offer
  split
  · exact List.Subset.refl _
  · exact List.subset_append_left _ _

theorem subset_offerAll : kept ⊆ offerAll key kept as := by
  induction as generalizing kept with
  | nil => exact List.Subset.refl _
  | cons a as ih => exact List.Subset.trans subset_offer ih

theorem nodup_offerAll (h : (kept.map key).Nodup) : ((offerAll key kept as).map key).Nodup := by
  induction as generalizing kept with
  | nil => exact h
  | cons a as ih =>
    apply ih
    unfold offer
    split
    · exact h
    · next hnot =>
      rw [List.map_append, List.nodup_append]
      refine ⟨h, by simp, ?_⟩
      rintro _ hk _ hk' rfl
      rw [List.map_singleton, List.mem_singleton] at hk'
      exact hnot (hk' ▸ hk)

/-- Every key that arrived is kept under some value. -/
theorem key_mem_offerAll (h : a ∈ as) : ∃ b ∈ offerAll key kept as, key b = key a := by
  induction as generalizing kept with
  | nil => cases h
  | cons c as ih =>
    rcases List.mem_cons.1 h with rfl | h
    · have hadmit : ∃ b ∈ offer key kept a, key b = key a := by
        unfold offer
        split
        · next hin => exact List.mem_map.1 hin
        · exact ⟨a, by simp, rfl⟩
      obtain ⟨b, hb, hk⟩ := hadmit
      exact ⟨b, (subset_offerAll : _ ⊆ offerAll key _ as) hb, hk⟩
    · exact ih h

/-- Where keys are apart, everything is kept. -/
theorem mem_offerAll_iff (h : KeysApart key as) : b ∈ offerAll key [] as ↔ b ∈ as := by
  constructor
  · intro hb
    rcases mem_offerAll hb with hb | hb
    · cases hb
    · exact hb
  · intro hb
    obtain ⟨c, hc, hk⟩ : ∃ c ∈ offerAll key [] as, key c = key b := key_mem_offerAll hb
    have hc' : c ∈ as := (mem_offerAll hc).resolve_left List.not_mem_nil
    rwa [← h c hc' b hb hk]

theorem nodup_keys : ((offerAll key [] as).map key).Nodup := nodup_offerAll List.nodup_nil

/-- The value that arrives first is kept. -/
theorem first_mem : a ∈ offerAll key [] (a :: as) := by
  have h : [a] ⊆ offerAll key [a] as := subset_offerAll
  exact h (by simp)

/-- And no other one under its key. -/
theorem first_only (h : b ∈ offerAll key [] (a :: as)) (hk : key b = key a) : b = a :=
  List.inj_on_of_nodup_map nodup_keys h first_mem hk

/-! ## The list -/

theorem mem_sorted : b ∈ sorted key as ↔ b ∈ offerAll key [] as :=
  (List.mergeSort_perm _ _).mem_iff

theorem pairwise_sorted : (sorted key as).Pairwise fun a b => key a ≤ key b := by
  have h := @List.pairwise_mergeSort _ (fun a b => decide (key a ≤ key b))
    (by
      intro a b c hab hbc
      simp only [decide_eq_true_eq] at *
      exact hab.trans hbc)
    (by
      intro a b
      simpa using le_total (key a) (key b)) (offerAll key [] as)
  simpa [sorted] using h

/-- Two orders of arrival of the same values give one list, where keys are apart. -/
theorem sorted_congr (h : KeysApart key as) (hsame : ∀ a, a ∈ bs ↔ a ∈ as) :
    sorted key bs = sorted key as := by
  have hb : KeysApart key bs := fun a ha b hb =>
    h a ((hsame a).1 ha) b ((hsame b).1 hb)
  have hperm : (offerAll key [] bs).Perm (offerAll key [] as) := by
    rw [List.perm_ext_iff_of_nodup nodup_keys.of_map nodup_keys.of_map]
    intro a
    rw [mem_offerAll_iff hb, mem_offerAll_iff h, hsame]
  refine List.Perm.eq_of_pairwise ?_ pairwise_sorted pairwise_sorted
    ((List.mergeSort_perm _ _).trans (hperm.trans (List.mergeSort_perm _ _).symm))
  intro a b ha hb' hab hba
  have ha' := (mem_offerAll_iff hb).1 (mem_sorted.1 ha)
  have hb'' := (mem_offerAll_iff h).1 (mem_sorted.1 hb')
  exact h a ((hsame a).1 ha') b hb'' (le_antisymm hab hba)

/-- What is listed is fixed by the set of arrivals exactly when no two share a key. -/
theorem sorted_agree_iff (as : List α) :
    (∀ bs cs : List α, (∀ a, a ∈ bs ↔ a ∈ as) → (∀ a, a ∈ cs ↔ a ∈ as) →
      sorted key bs = sorted key cs) ↔ KeysApart key as := by
  constructor
  · intro h a ha b hb hk
    -- let either of the two arrive first
    have hsame : ∀ x ∈ as, ∀ c, c ∈ x :: as ↔ c ∈ as := by
      intro x hx c
      simp only [List.mem_cons, or_iff_right_iff_imp]
      rintro rfl
      exact hx
    have heq := h (a :: as) (b :: as) (hsame a ha) (hsame b hb)
    have ha' : a ∈ sorted key (a :: as) :=
      mem_sorted.2 first_mem
    rw [heq, mem_sorted] at ha'
    exact first_only ha' hk
  · intro h bs cs hbs hcs
    rw [sorted_congr h hbs, sorted_congr h hcs]

end FirstByKey
