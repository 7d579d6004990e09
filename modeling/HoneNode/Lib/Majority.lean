import Mathlib.Data.List.Infix
import Mathlib.Data.List.Perm.Basic

/-!
# Lib.Majority — deciding a poll before it is over

A poll may be closed after any ballot from the `quorum`-th on, for the choice
that more than half of the ballots so far agree on. `early` is the first such
moment. Counting ballots against a quorum and agreement against the ballots
cast are two different roundings: which polls come out the same in every order,
and with how many ballots for the winner at least, is worked out here.
-/

namespace Majority

variable {α : Type*} [DecidableEq α]

/-- The choice of more than half of the ballots. -/
def majority (ballots : List α) : Option α :=
  ballots.find? fun a => ballots.length / 2 + 1 ≤ ballots.count a

/-- The first ballots of a poll that decide it, and for whom. -/
def early (quorum : ℕ) (ballots : List α) : Option (List α × α) :=
  ballots.inits.findSome? fun cast =>
    if quorum ≤ cast.length then (majority cast).map (cast, ·) else none

variable {quorum n : ℕ} {xs ys cast : List α} {a b : α}

/-! ## Majorities -/

theorem majority_eq_some_iff : majority xs = some a ↔ xs.length < 2 * xs.count a := by
  constructor
  · intro h
    have := List.find?_some h
    simp only [decide_eq_true_eq] at this
    omega
  · intro h
    have hmem : a ∈ xs := List.count_pos_iff.1 (by omega)
    cases hb : majority xs with
    | none =>
      have := List.find?_eq_none.1 hb a hmem
      simp only [decide_eq_true_eq] at this
      omega
    | some b =>
      have hb' := List.find?_some hb
      simp only [decide_eq_true_eq] at hb'
      by_contra hne
      have hne : a ≠ b := fun he => hne (by rw [he])
      -- two choices together have at most all ballots
      have hboth : xs.count a + xs.count b ≤ xs.length := by
        have hsplit := List.length_eq_countP_add_countP (· == a) (l := xs)
        have hle : xs.count b ≤ xs.countP fun x => decide ¬(x == a) = true := by
          refine List.countP_mono_left ?_
          intro x _ hx
          simp only [beq_iff_eq] at hx ⊢
          simp [hx, hne.symm]
        rw [List.count]
        omega
      omega

/-! ## The first decision -/

@[simp] theorem early_nil : early quorum ([] : List α) = none := by
  simp [early, majority]

/-- A decision stands; without one the last ballot may bring it. -/
theorem early_concat :
    early quorum (xs ++ [a]) = (early quorum xs).or
      (if quorum ≤ (xs ++ [a]).length then (majority (xs ++ [a])).map (xs ++ [a], ·) else none) := by
  unfold early
  rw [List.inits_append, List.findSome?_append]
  simp

theorem early_append_of_some {r : List α × α} (h : early quorum xs = some r) (more : List α) :
    early quorum (xs ++ more) = some r := by
  induction more using List.reverseRecOn with
  | nil => rwa [List.append_nil]
  | append_singleton more x ih => rw [← List.append_assoc, early_concat, ih, Option.some_or]

theorem early_eq_some (h : early quorum xs = some (cast, a)) :
    cast <+: xs ∧ quorum ≤ cast.length ∧ cast.length < 2 * cast.count a := by
  obtain ⟨cast', hmem, hcast⟩ := List.exists_of_findSome?_eq_some h
  split at hcast
  · next hq =>
    obtain ⟨a', ha', heq⟩ := Option.map_eq_some_iff.1 hcast
    obtain ⟨rfl, rfl⟩ := Prod.mk.inj heq
    exact ⟨(List.mem_inits _ _).1 hmem, hq, majority_eq_some_iff.1 ha'⟩
  · cases hcast

theorem early_eq_none_of_length_lt (h : xs.length < quorum) : early quorum xs = none := by
  refine List.findSome?_eq_none_iff.2 ?_
  intro cast hcast
  have hle := ((List.mem_inits _ _).1 hcast).length_le
  rw [if_neg (by omega)]

/-- A majority of all ballots is decided for, unless another choice was before. -/
theorem early_isSome (hq : quorum ≤ xs.length) (h : xs.length < 2 * xs.count a) :
    (early quorum xs).isSome := by
  rw [← Option.ne_none_iff_isSome]
  intro hnone
  have := List.findSome?_eq_none_iff.1 hnone xs ((List.mem_inits _ _).2 List.prefix_rfl)
  rw [if_pos hq, majority_eq_some_iff.2 h] at this
  cases this

/-- The moment the quorum is there, its majority decides. -/
theorem early_of_quorum (hpos : 0 < quorum) (hq : cast.length = quorum)
    (h : cast.length < 2 * cast.count a) (more : List α) :
    early quorum (cast ++ more) = some (cast, a) := by
  refine early_append_of_some ?_ more
  rcases List.eq_nil_or_concat cast with rfl | ⟨before, x, rfl⟩
  · rw [List.length_nil] at hq
    omega
  · rw [List.concat_eq_append] at hq h ⊢
    have hbefore : early quorum before = none :=
      early_eq_none_of_length_lt (by rw [← hq, List.length_append]; simp)
    rw [early_concat, hbefore, if_pos hq.ge, majority_eq_some_iff.2 h]
    rfl

/-! ## The same ballots in another order -/

/-- Some ballots for `a` first, then others, then the rest. -/
theorem exists_perm_count (xs : List α) (a : α) {j k : ℕ} (hj : j ≤ xs.count a) (hk : k ≤ xs.length - xs.count a) :
    ∃ front rest : List α, (front ++ rest).Perm xs ∧ front.length = j + k ∧
      front.count a = j := by
  set others := xs.filter (· ≠ a) with hothers
  have hlen : others.length = xs.length - xs.count a := by
    have := List.length_eq_countP_add_countP (· == a) (l := xs)
    rw [List.count, hothers, ← List.countP_eq_length_filter]
    have heq : xs.countP (fun x => decide (x ≠ a)) =
        xs.countP fun x => decide ¬(x == a) = true := by
      congr 1
      funext x
      simp
    omega
  have hnone : ∀ l, List.Sublist l others → l.count a = 0 := by
    intro l hl
    refine List.count_eq_zero_of_not_mem fun hmem => ?_
    have := (List.mem_filter.1 (hl.subset hmem)).2
    simp at this
  refine ⟨List.replicate j a ++ others.take k,
    List.replicate (xs.count a - j) a ++ others.drop k, ?_, ?_, ?_⟩
  · refine List.perm_iff_count.2 ?_
    intro b
    have hsplit : (others.take k).count b + (others.drop k).count b = others.count b := by
      rw [← List.count_append, List.take_append_drop]
    simp only [List.count_append, List.count_replicate, beq_iff_eq]
    by_cases hb : a = b
    · subst hb
      rw [hnone _ (List.take_sublist _ _), hnone _ (List.drop_sublist _ _), if_pos rfl, if_pos rfl]
      omega
    · have hkeep : others.count b = xs.count b := by
        rw [hothers, List.count_filter (by simp [Ne.symm hb])]
      rw [if_neg hb, if_neg hb]
      omega
  · rw [List.length_append, List.length_replicate, List.length_take]
    omega
  · rw [List.count_append, List.count_replicate_self, hnone _ (List.take_sublist _ _), Nat.add_zero]

/-- A choice with more than half of a quorum wins in some order, with no more ballots than
that if there are others to fill the quorum. -/
theorem exists_perm_early (hpos : 0 < quorum) (hq : quorum ≤ xs.length)
    (ha : quorum / 2 < xs.count a) :
    ∃ ys cast, ys.Perm xs ∧ early quorum ys = some (cast, a) ∧
      cast.count a = max (quorum / 2 + 1) (quorum - (xs.length - xs.count a)) := by
  have hle : xs.count a ≤ xs.length := List.count_le_length
  obtain ⟨cast, rest, hperm, hlen, hcount⟩ := exists_perm_count xs a
    (j := max (quorum / 2 + 1) (quorum - (xs.length - xs.count a)))
    (k := quorum - max (quorum / 2 + 1) (quorum - (xs.length - xs.count a)))
    (by omega) (by omega)
  exact ⟨cast ++ rest, cast, hperm, early_of_quorum hpos (by omega) (by omega) rest, hcount⟩

/-- What a decision says about the whole poll. -/
theorem count_of_early (hperm : ys.Perm xs) (h : early quorum ys = some (cast, a)) :
    quorum / 2 < xs.count a ∧
      max (quorum / 2 + 1) (quorum - (xs.length - xs.count a)) ≤ cast.count a := by
  obtain ⟨⟨rest, hrest⟩, hq, hmajor⟩ := early_eq_some h
  have hcount : cast.count a + rest.count a = xs.count a := by
    rw [← List.count_append, hrest, hperm.count_eq]
  have hlen : cast.length + rest.length = xs.length := by
    rw [← List.length_append, hrest, hperm.length_eq]
  have hle : rest.count a ≤ rest.length := List.count_le_length
  omega

/-- The winner has the support of more than half of `n` in every order, exactly when that
many ballots of a quorum are forced on it. -/
theorem support_iff (hpos : 0 < quorum) :
    (∀ ys, ys.Perm xs → ∀ cast a, early quorum ys = some (cast, a) → n < 2 * cast.count a) ↔
      xs.length < quorum ∨ ∀ a, quorum / 2 < xs.count a →
        n < 2 * max (quorum / 2 + 1) (quorum - (xs.length - xs.count a)) := by
  constructor
  · intro h
    rcases Nat.lt_or_ge xs.length quorum with hshort | hq
    · exact .inl hshort
    · refine .inr fun a ha => ?_
      obtain ⟨ys, cast, hperm, hwin, hcount⟩ := exists_perm_early hpos hq ha
      have := h ys hperm cast a hwin
      rwa [hcount] at this
  · rintro (hshort | h) ys hperm cast a hwin
    · have hnone : early quorum ys = none :=
        early_eq_none_of_length_lt (by rwa [hperm.length_eq])
      rw [hnone] at hwin
      cases hwin
    · obtain ⟨hcan, hle⟩ := count_of_early hperm hwin
      have := h a hcan
      omega

/-- The winner is the same in every order, exactly when nothing can win or one choice has a
majority of all ballots and no other can win. -/
theorem order_free_iff (hpos : 0 < quorum) :
    (∀ ys, ys.Perm xs → (early quorum ys).map Prod.snd = (early quorum xs).map Prod.snd) ↔
      xs.length < quorum ∨ (∀ a, xs.count a ≤ quorum / 2) ∨
        ∃ a, xs.length < 2 * xs.count a ∧ ∀ b, b ≠ a → xs.count b ≤ quorum / 2 := by
  constructor
  · intro h
    by_cases hshort : xs.length < quorum
    · exact .inl hshort
    by_cases hnone : ∀ a, xs.count a ≤ quorum / 2
    · exact .inr (.inl hnone)
    simp only [not_forall, not_le] at hnone
    obtain ⟨a, ha⟩ := hnone
    -- `a` wins in one order, so it wins in all
    have hwins : ∀ c, quorum / 2 < xs.count c → (early quorum xs).map Prod.snd = some c := by
      intro c hc
      obtain ⟨ys, cast, hperm, hwin, -⟩ := exists_perm_early hpos (by omega) hc
      rw [← h ys hperm, hwin]
      rfl
    refine .inr (.inr ⟨a, ?_, ?_⟩)
    · -- also in the order that hears `a` last
      have hle : xs.count a ≤ xs.length := List.count_le_length
      obtain ⟨front, rest, hperm, hlen, hcount⟩ := exists_perm_count xs a
        (j := 0) (k := xs.length - xs.count a) (by omega) (by omega)
      have hwin := (h _ hperm).trans (hwins a ha)
      obtain ⟨⟨cast, a'⟩, hearly, heq⟩ := Option.map_eq_some_iff.1 hwin
      obtain rfl : a' = a := heq
      obtain ⟨hpre, -, hmajor⟩ := early_eq_some hearly
      have hlast : cast.count a' + front.length ≤ cast.length ∨ cast.count a' = 0 := by
        obtain ⟨after, hafter⟩ := hpre
        rcases List.append_eq_append_iff.1 hafter with ⟨more, rfl, -⟩ | ⟨tail, rfl, -⟩
        · right
          rw [List.count_append] at hcount
          omega
        · left
          rw [List.count_append, List.length_append, hcount]
          have : tail.count a' ≤ tail.length := List.count_le_length
          omega
      have := hpre.length_le
      rw [hperm.length_eq] at this
      omega
    · intro b hb
      by_contra hcan
      have := (hwins b (by omega)).symm.trans (hwins a ha)
      exact hb (Option.some.inj this)
  · rintro (hshort | hnone | ⟨a, hmajor, hothers⟩) ys hperm
    · rw [early_eq_none_of_length_lt hshort,
        early_eq_none_of_length_lt (by rwa [hperm.length_eq])]
    · have hall : ∀ zs, zs.Perm xs → early quorum zs = none := by
        intro zs hzs
        cases hearly : early quorum zs with
        | none => rfl
        | some r =>
          have := (count_of_early hzs hearly).1
          have := hnone r.2
          omega
      rw [hall ys hperm, hall xs (List.Perm.refl _)]
    · by_cases hshort : xs.length < quorum
      · rw [early_eq_none_of_length_lt hshort,
          early_eq_none_of_length_lt (by rwa [hperm.length_eq])]
      · have hall : ∀ zs, zs.Perm xs → (early quorum zs).map Prod.snd = some a := by
          intro zs hzs
          have hsome : (early quorum zs).isSome := by
            refine early_isSome (a := a) (by rw [hzs.length_eq]; omega) ?_
            rw [hzs.length_eq, hzs.count_eq]
            exact hmajor
          obtain ⟨⟨cast, b⟩, hearly⟩ := Option.isSome_iff_exists.1 hsome
          rw [hearly]
          by_contra hne
          have hb : b ≠ a := fun he => hne (by rw [he]; rfl)
          have := (count_of_early hzs hearly).1
          have := hothers b hb
          omega
        rw [hall ys hperm, hall xs (List.Perm.refl _)]

end Majority
