import Mathlib.Data.List.Perm.Basic

/-!
# Lib.Latest — a register overwritten by operations that count once

Operations carry a name. The first operation under a name counts, later ones
under it do not, and an operation that counts may overwrite the register. What
the register holds in the end is independent of the order of the operations
exactly when no two that can count write different values (`settle_perm_iff`).
-/

namespace Latest

variable {α ι β : Type*} [DecidableEq ι] (ident : α → ι) (write : α → Option β)

/-- The register after the operations, where `taken` names have come up before. -/
def settle : (ι → Bool) → Option β → List α → Option β
  | _, cur, [] => cur
  | taken, cur, a :: rest =>
    if taken (ident a) then settle taken cur rest
    else settle (Function.update taken (ident a) true) ((write a).or cur) rest

/-- The names that have come up after the operations. -/
def marked (taken : ι → Bool) (l : List α) : ι → Bool := fun i =>
  taken i || l.any fun a => ident a = i

/-- Whether an operation writes is a matter of its name. -/
def Shaped : Prop := ∀ a b, ident a = ident b → (write a).isSome = (write b).isSome

variable {ident write} {taken : ι → Bool} {cur : Option β} {l l' : List α} {a : α} {v : β}

/-! ## Runs -/

theorem settle_append :
    settle ident write taken cur (l ++ l') =
      settle ident write (marked ident taken l) (settle ident write taken cur l) l' := by
  induction l generalizing taken cur with
  | nil =>
    have hmark : marked ident taken [] = taken := by
      funext i
      simp [marked]
    rw [hmark]
    rfl
  | cons a rest ih =>
    rw [List.cons_append, settle, settle]
    have hmark : ∀ t : ι → Bool, (∀ i, t i = (taken i || decide (ident a = i))) →
        marked ident t rest = marked ident taken (a :: rest) := by
      intro t ht
      funext i
      simp [marked, ht, Bool.or_assoc]
    split
    · next htaken =>
      rw [ih, hmark taken]
      intro i
      by_cases hi : ident a = i
      · rw [← hi, htaken, Bool.true_or]
      · simp [hi]
    · next htaken =>
      rw [ih, hmark]
      intro i
      by_cases hi : ident a = i
      · simp [← hi]
      · simp [Function.update_of_ne (Ne.symm hi), hi]

/-- Operations whose names have come up do nothing. -/
theorem settle_of_taken (h : ∀ a ∈ l, taken (ident a) = true) :
    settle ident write taken cur l = cur := by
  induction l with
  | nil => rfl
  | cons a rest ih =>
    rw [settle, if_pos (h a List.mem_cons_self)]
    exact ih fun b hb => h b (List.mem_cons_of_mem a hb)

theorem settle_of_silent (h : ∀ a ∈ l, taken (ident a) = false → write a = none) :
    settle ident write taken cur l = cur := by
  induction l generalizing taken with
  | nil => rfl
  | cons a rest ih =>
    rw [settle]
    split
    · exact ih fun b hb => h b (List.mem_cons_of_mem a hb)
    · next htaken =>
      rw [h a List.mem_cons_self (Bool.eq_false_iff.2 htaken), Option.none_or]
      refine ih fun b hb hb' => h b (List.mem_cons_of_mem a hb) ?_
      by_cases hab : ident b = ident a
      · rw [hab, Function.update_self] at hb'
        cases hb'
      · rwa [Function.update_of_ne hab] at hb'

/-- Where all that can count write `v` or nothing, the order does not matter. -/
theorem settle_of_agree (hshape : Shaped ident write)
    (h : ∀ a ∈ l, taken (ident a) = false → ∀ w, write a = some w → w = v) :
    settle ident write taken cur l =
      if ∃ a ∈ l, taken (ident a) = false ∧ (write a).isSome then some v else cur := by
  induction l generalizing taken cur with
  | nil => simp [settle]
  | cons a rest ih =>
    rw [settle]
    cases htaken : taken (ident a) with
    | true =>
      rw [if_pos rfl, ih fun b hb => h b (List.mem_cons_of_mem a hb)]
      simp [htaken]
    | false =>
      have hfresh : ∀ i, Function.update taken (ident a) true i = false ↔
          ident a ≠ i ∧ taken i = false := by
        intro i
        by_cases hi : ident a = i
        · simp [← hi]
        · simp [Function.update_of_ne (Ne.symm hi), hi]
      rw [if_neg (by decide), ih fun b hb hb' =>
        h b (List.mem_cons_of_mem a hb) ((hfresh _).1 hb').2]
      simp only [hfresh, List.mem_cons, exists_eq_or_imp, htaken, true_and]
      cases hwrite : write a with
      | some w =>
        obtain rfl : w = v := h a List.mem_cons_self htaken w hwrite
        simp
      | none =>
        -- another operation under the same name writes nothing either
        have hne : ∀ b, (write b).isSome = true → ident a ≠ ident b := by
          intro b hb hab
          have := hshape a b hab
          rw [hwrite, hb] at this
          cases this
        have hsame : (∃ b ∈ rest, (ident a ≠ ident b ∧ taken (ident b) = false) ∧
            (write b).isSome = true) ↔
            ∃ b ∈ rest, taken (ident b) = false ∧ (write b).isSome = true := by
          constructor
          · rintro ⟨b, hb, ⟨-, hb'⟩, hsome⟩
            exact ⟨b, hb, hb', hsome⟩
          · rintro ⟨b, hb, hb', hsome⟩
            exact ⟨b, hb, ⟨hne b hsome, hb'⟩, hsome⟩
        simp [hsame]

/-! ## The order of the operations -/

/-- What an operation writes that can count is the last word in some order. -/
theorem exists_perm_settle (ha : a ∈ l) (hfresh : taken (ident a) = false)
    (hwrite : write a = some v) :
    ∃ l', l'.Perm l ∧ settle ident write taken cur l' = some v := by
  obtain ⟨front, back, hsplit⟩ := List.append_of_mem
    (List.mem_filter (p := fun b => decide (ident b = ident a)).2 ⟨ha, decide_eq_true rfl⟩)
  let others := l.filter fun b => ! decide (ident b = ident a)
  -- those under other names first, then `a`, then those that come too late
  refine ⟨others ++ a :: (front ++ back), ?_, ?_⟩
  · have hperm := List.filter_append_perm (fun b => decide (ident b = ident a)) l
    rw [hsplit] at hperm
    have hmiddle : (a :: (front ++ back)).Perm (front ++ a :: back) := List.perm_middle.symm
    exact (hmiddle.append_left others).trans (List.perm_append_comm.trans hperm)
  · have hlate : ∀ b ∈ front ++ back, ident b = ident a := by
      intro b hb
      have hmem : b ∈ l.filter fun b => decide (ident b = ident a) := by
        rw [hsplit]
        rcases List.mem_append.1 hb with hb | hb
        · exact List.mem_append_left _ hb
        · exact List.mem_append_right _ (List.mem_cons_of_mem a hb)
      exact of_decide_eq_true (List.mem_filter.1 hmem).2
    have hstill : marked ident taken others (ident a) = false := by
      simp [marked, hfresh, others]
    rw [settle_append, settle, if_neg (by rw [hstill]; decide), settle_of_taken, hwrite]
    · rfl
    · intro b hb
      rw [hlate b hb, Function.update_self]

theorem settle_perm_iff (hshape : Shaped ident write) :
    (∀ l', l'.Perm l → settle ident write taken cur l' = settle ident write taken cur l) ↔
      ∀ a ∈ l, ∀ b ∈ l, taken (ident a) = false → taken (ident b) = false →
        ∀ v w, write a = some v → write b = some w → v = w := by
  constructor
  · intro h a ha b hb hfa hfb v w hv hw
    obtain ⟨la, hla, hsa⟩ := @exists_perm_settle _ _ _ _ ident write taken cur _ _ _ ha hfa hv
    obtain ⟨lb, hlb, hsb⟩ := @exists_perm_settle _ _ _ _ ident write taken cur _ _ _ hb hfb hw
    rw [h la hla, ← h lb hlb, hsb] at hsa
    exact (Option.some.inj hsa).symm
  · intro h l' hl'
    by_cases hwrites : ∃ a ∈ l, taken (ident a) = false ∧ (write a).isSome = true
    · obtain ⟨a, ha, hfa, hsome⟩ := hwrites
      obtain ⟨v, hv⟩ := Option.isSome_iff_exists.1 hsome
      have hall : ∀ b ∈ l, taken (ident b) = false → ∀ w, write b = some w → w = v :=
        fun b hb hfb w hw => h b hb a ha hfb hfa w v hw hv
      rw [settle_of_agree hshape hall, settle_of_agree hshape fun b hb => hall b (hl'.subset hb)]
      simp only [hl'.mem_iff]
    · have hsilent : ∀ b ∈ l, taken (ident b) = false → write b = none := by
        intro b hb hfb
        by_contra hw
        exact hwrites ⟨b, hb, hfb, Option.isSome_iff_ne_none.2 hw⟩
      rw [settle_of_silent hsilent, settle_of_silent fun b hb => hsilent b (hl'.subset hb)]

end Latest
