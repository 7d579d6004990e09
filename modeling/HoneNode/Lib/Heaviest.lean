import Mathlib.Order.MinMax
import Mathlib.Data.List.Perm.Basic

/-!
# Lib.Heaviest — choosing the heaviest of what arrives

A register sees values one at a time. A value under the register's own key
replaces it, whatever its weight; a value under another key replaces it when it
is heavier, provided the two keys can be compared at all. The register ends at
the maximum in every order of arrival exactly when the maximum is alone under
its key and no two of the keys are incomparable (`settles_iff`).
-/

namespace Heaviest

variable {α κ : Type} [LinearOrder α] [DecidableEq κ] (key : α → κ) (legible : κ → Bool)

/-- One arrival. -/
def choose (cur : Option α) (a : α) : Option α :=
  match cur with
  | none => some a
  | some c =>
    if key c = key a then some a
    else if legible (key c) ∧ legible (key a) then some (max c a)
    else some c

/-- The maximum carries its key alone. -/
def MaxAlone (l : List α) : Prop :=
  ∀ m ∈ l, (∀ a ∈ l, a ≤ m) → ∀ a ∈ l, key a = key m → a = m

/-- Any two keys that occur are equal or can be compared. -/
def AllComparable (l : List α) : Prop :=
  (∀ a ∈ l, legible (key a)) ∨ ∀ a ∈ l, ∀ b ∈ l, key a = key b

variable {key legible} {l l' : List α} {a b m : α}

/-! ## Enough -/

/-- A register that is empty, or below the maximum and not under its key, still
reaches it, and one that is there stays. -/
theorem foldl_choose_eq_max (hle : ∀ a ∈ l, a ≤ m) (hal : ∀ a ∈ l, key a = key m → a = m)
    (hleg : ∀ a ∈ l, legible (key a)) (hm : legible (key m)) :
    ∀ cur : Option α, (∀ c ∈ cur, c ≤ m ∧ legible (key c) ∧ (key c = key m → c = m)) →
      (cur = some m ∨ m ∈ l) → l.foldl (choose key legible) cur = some m := by
  induction l with
  | nil =>
    intro cur _ h
    simpa using h
  | cons a l ih =>
    intro cur hcur h
    have ha := hle a (by simp)
    have hal' := hal a (by simp)
    have hga := hleg a (by simp)
    rw [List.foldl_cons]
    apply ih (fun b hb => hle b (by simp [hb])) (fun b hb => hal b (by simp [hb]))
      (fun b hb => hleg b (by simp [hb]))
    · intro c hc
      cases cur with
      | none =>
        obtain rfl : a = c := by simpa [choose] using hc
        exact ⟨ha, hga, hal'⟩
      | some d =>
        obtain ⟨hd, hgd, hkd⟩ := hcur d rfl
        simp only [choose, hgd, hga, and_self, if_true, Option.mem_def] at hc
        split at hc
        · obtain rfl : a = c := by simpa using hc
          exact ⟨ha, hga, hal'⟩
        · obtain rfl : max d a = c := by simpa using hc
          rcases max_choice d a with h' | h' <;> rw [h']
          · exact ⟨hd, hgd, hkd⟩
          · exact ⟨ha, hga, hal'⟩
    · rcases h with rfl | h
      · left
        simp only [choose, hm, hga, and_self, if_true]
        split
        · next hk => rw [hal' hk.symm]
        · rw [max_eq_left ha]
      · rcases List.mem_cons.1 h with rfl | h
        · left
          cases cur with
          | none => rfl
          | some d =>
            obtain ⟨hd, hgd, -⟩ := hcur d rfl
            simp [choose, hgd, hga, max_eq_right hd]
        · exact .inr h

/-- Where all values are one, that one stands. -/
theorem foldl_choose_const (h : ∀ a ∈ l, a = m) :
    ∀ cur : Option α, (cur = some m ∨ (cur = none ∧ l ≠ [])) →
      l.foldl (choose key legible) cur = some m := by
  induction l with
  | nil =>
    intro cur hcur
    simpa using hcur
  | cons a l ih =>
    intro cur hcur
    obtain rfl : a = m := h a (by simp)
    refine ih (fun b hb => h b (by simp [hb])) _ (.inl ?_)
    rcases hcur with rfl | ⟨rfl, -⟩ <;> simp [choose]

theorem settles_of (hal : MaxAlone key l) (hcmp : AllComparable key legible l)
    (hp : l'.Perm l) : l'.foldl (choose key legible) none = l.max? := by
  rcases hmax : l.max? with _ | m
  · rw [List.max?_eq_none_iff] at hmax
    subst hmax
    simp [hp.eq_nil]
  · obtain ⟨hm, hle⟩ := List.max?_eq_some_iff.1 hmax
    have hsub : ∀ a ∈ l', a ∈ l := fun a ha => hp.mem_iff.1 ha
    rcases hcmp with hleg | hkeys
    · exact foldl_choose_eq_max (fun a ha => hle a (hsub a ha))
        (fun a ha => hal m hm hle a (hsub a ha)) (fun a ha => hleg a (hsub a ha)) (hleg m hm) none
        (by simp) (.inr (hp.mem_iff.2 hm))
    · refine foldl_choose_const (fun a ha => hal m hm hle a (hsub a ha)
        (hkeys a (hsub a ha) m hm)) none (.inr ⟨rfl, ?_⟩)
      rintro rfl
      rw [← hp.nil_eq] at hm
      cases hm

/-! ## Needed -/

/-- The register only ever holds what arrived. -/
theorem mem_foldl_choose :
    ∀ cur : Option α, ∀ c ∈ l.foldl (choose key legible) cur, c ∈ cur ∨ c ∈ l := by
  induction l with
  | nil =>
    intro cur c hc
    exact .inl hc
  | cons a l ih =>
    intro cur c hc
    rcases ih _ c hc with h | h
    · have : c ∈ cur ∨ c = a := by
        cases cur with
        | none => exact .inr (by simpa [choose] using h.symm)
        | some d =>
          simp only [choose, Option.mem_def] at h
          split at h
          · exact .inr (by simpa using h.symm)
          · split at h
            · rcases max_choice d a with h' | h' <;> rw [h'] at h
              · exact .inl h
              · exact .inr (by simpa using h.symm)
            · exact .inl h
      rcases this with h | rfl
      · exact .inl h
      · exact .inr (by simp)
    · exact .inr (by simp [h])

/-- After the maximum, a second value under its key does not leave the maximum. -/
theorem choose_last_ne {cur : Option α} (hle : ∀ c ∈ cur, c ≤ m) (hk : key a = key m)
    (hne : a ≠ m) : choose key legible (choose key legible cur m) a ≠ some m := by
  cases cur with
  | none => simpa [choose, hk] using hne
  | some c =>
    by_cases hc : key c = key m
    · simpa [choose, hc, hk] using hne
    · by_cases hg : legible (key c) ∧ legible (key m)
      · have hmax : max c m = m := max_eq_right (hle c rfl)
        simpa [choose, hc, hg, hmax, hk] using hne
      · simp only [choose, hc, hg, if_false, hk, ne_eq, Option.some.injEq]
        rintro rfl
        exact hc rfl

/-- A register under a key that cannot be compared keeps that key. -/
theorem key_foldl_choose (hg : legible (key a) = false) :
    ∀ c : α, key c = key a → ∃ d, l.foldl (choose key legible) (some c) = some d ∧ key d = key a := by
  induction l with
  | nil =>
    intro c hc
    exact ⟨c, rfl, hc⟩
  | cons b l ih =>
    intro c hc
    rw [List.foldl_cons]
    by_cases hb : key b = key a
    · obtain ⟨d, hd, hkd⟩ := ih b hb
      exact ⟨d, by simpa [choose, hc, hb] using hd, hkd⟩
    · obtain ⟨d, hd, hkd⟩ := ih c hc
      exact ⟨d, by simpa [choose, hc, hg, Ne.symm hb] using hd, hkd⟩

/-- A register under another key never comes under it. -/
theorem key_foldl_choose_ne (hg : legible (key a) = false) :
    ∀ c : α, key c ≠ key a → ∃ d, l.foldl (choose key legible) (some c) = some d ∧ key d ≠ key a := by
  induction l with
  | nil =>
    intro c hc
    exact ⟨c, rfl, hc⟩
  | cons b l ih =>
    intro c hc
    rw [List.foldl_cons]
    have hstep : ∃ d, choose key legible (some c) b = some d ∧ key d ≠ key a := by
      simp only [choose]
      split
      · next hk => exact ⟨b, rfl, hk ▸ hc⟩
      · split
        · next hcb =>
          have hb : key b ≠ key a := fun h => by simp [h, hg] at hcb
          rcases max_choice c b with h' | h' <;> rw [h']
          · exact ⟨c, rfl, hc⟩
          · exact ⟨b, rfl, hb⟩
        · exact ⟨c, rfl, hc⟩
    obtain ⟨d, hd, hkd⟩ := hstep
    rw [hd]
    exact ih d hkd

theorem maxAlone_of_settles
    (h : ∀ l' : List α, l'.Perm l → l'.foldl (choose key legible) none = l.max?) :
    MaxAlone key l := by
  intro m hm hle a ha hk
  by_contra hne
  -- arrival order: the rest, then the maximum, then the second value under its key
  set rest := (l.erase m).erase a with hrest
  have hperm : (rest ++ [m, a]).Perm l := by
    have ha' : a ∈ l.erase m := (List.mem_erase_of_ne hne).2 ha
    have h₁ := List.perm_cons_erase hm
    have h₂ := (List.perm_cons_erase ha').cons m
    exact List.perm_append_comm.trans (h₁.trans h₂).symm
  have hfold := h _ hperm
  rw [List.foldl_append, List.max?_eq_some_iff.2 ⟨hm, hle⟩] at hfold
  refine choose_last_ne ?_ hk hne hfold
  intro c hc
  rcases mem_foldl_choose _ c hc with h' | h'
  · cases h'
  · exact hle c (hperm.mem_iff.1 (List.mem_append_left _ h'))

theorem allComparable_of_settles
    (h : ∀ l' : List α, l'.Perm l → l'.foldl (choose key legible) none = l.max?) :
    AllComparable key legible l := by
  by_contra hcmp
  simp only [AllComparable, not_or, not_forall] at hcmp
  obtain ⟨⟨a, ha, hg⟩, c, hc, d, hd, hcd⟩ := hcmp
  -- one of the two differing keys differs from the one that cannot be compared
  obtain ⟨b, hb, hkb⟩ : ∃ b ∈ l, key b ≠ key a := by
    by_cases hca : key c = key a
    · exact ⟨d, hd, fun hda => hcd (hca.trans hda.symm)⟩
    · exact ⟨c, hc, hca⟩
  have hg' : legible (key a) = false := by simpa using hg
  obtain ⟨x, hx, hkx⟩ := key_foldl_choose (l := l.erase a) hg' a rfl
  obtain ⟨y, hy, hky⟩ := key_foldl_choose_ne (l := l.erase b) hg' b hkb
  have h₁ := h _ (List.perm_cons_erase ha).symm
  have h₂ := h _ (List.perm_cons_erase hb).symm
  rw [List.foldl_cons] at h₁ h₂
  have hxy : x = y := by
    rw [← h₂, show choose key legible none a = some a from rfl,
      show choose key legible none b = some b from rfl, hx, hy] at h₁
    exact Option.some.inj h₁
  exact hky (hxy ▸ hkx)

/-- The register ends at the maximum in every order of arrival exactly when the
maximum is alone under its key and all keys can be compared. -/
theorem settles_iff :
    (∀ l' : List α, l'.Perm l → l'.foldl (choose key legible) none = l.max?) ↔
      MaxAlone key l ∧ AllComparable key legible l :=
  ⟨fun h => ⟨maxAlone_of_settles h, allComparable_of_settles h⟩,
    fun h _ hp => settles_of h.1 h.2 hp⟩

/-- The same for messages that carry a value each. -/
theorem settles_map_iff {β : Type} (f : β → α) {ms : List β} :
    (∀ ms' : List β, ms'.Perm ms →
      (ms'.map f).foldl (choose key legible) none = (ms.map f).max?) ↔
      MaxAlone key (ms.map f) ∧ AllComparable key legible (ms.map f) := by
  rw [← settles_iff]
  constructor
  · intro h l' hp
    -- an order of the values comes from an order of the messages
    have hrel : List.Forall₂ (fun a b => a = f b) (ms.map f) ms := by
      rw [List.forall₂_map_left_iff]
      exact List.forall₂_same.2 fun _ _ => rfl
    obtain ⟨ms', hms', hperm⟩ := List.perm_comp_forall₂ hp hrel
    have hmap : l' = ms'.map f := by
      rw [← List.forall₂_eq_eq_eq, List.forall₂_map_right_iff]
      exact hms'
    rw [hmap]
    exact h ms' hperm
  · intro h ms' hp
    exact h _ (hp.map f)

end Heaviest
