import Mathlib.Data.Finset.Card

/-!
# Lib.Search — a worklist over a finite store

Keys are taken from the front of a queue, once each; what a stored value points to is
appended. The store is finite, so the queue runs empty: every key that counts is stored
and not yet visited when it is taken. What comes out is what can be reached.
-/

namespace Search

/-- Values under keys, the keys they point to, and a bound on the keys in use. -/
structure Graph (κ ν : Type*) [DecidableEq κ] where
  node : κ → Option ν
  next : ν → List κ
  support : Finset κ
  mem_support : ∀ {k}, (node k).isSome → k ∈ support

variable {κ ν : Type*} [DecidableEq κ] {G : Graph κ ν} {visited : Finset κ}

/-! ## The unvisited part of the store -/

theorem sdiff_insert_subset (k : κ) : G.support \ insert k visited ⊆ G.support \ visited :=
  Finset.sdiff_subset_sdiff (Finset.Subset.refl _) (Finset.subset_insert k visited)

theorem card_sdiff_insert_lt {k : κ} (hnode : (G.node k).isSome) (hnew : k ∉ visited) :
    (G.support \ insert k visited).card < (G.support \ visited).card := by
  refine Finset.card_lt_card ⟨sdiff_insert_subset k, fun hsub => ?_⟩
  have hmem := hsub (Finset.mem_sdiff.2 ⟨G.mem_support hnode, hnew⟩)
  exact (Finset.mem_sdiff.1 hmem).2 (Finset.mem_insert_self k visited)

/-- The unvisited part of the store shrinks, or else the queue does. -/
def search (G : Graph κ ν) (visited : Finset κ) : List κ → List (κ × ν)
  | [] => []
  | k :: queue =>
    if _hseen : k ∈ visited then search G visited queue
    else
      match _hnode : G.node k with
      | none => search G (insert k visited) queue
      | some v => (k, v) :: search G (insert k visited) (queue ++ G.next v)
termination_by queue => ((G.support \ visited).card, queue.length)
decreasing_by
  · exact Prod.Lex.right _ (Nat.lt_succ_self _)
  · rcases (Finset.card_le_card (sdiff_insert_subset (G := G) k)).lt_or_eq with hlt | heq
    · exact Prod.Lex.left _ _ hlt
    · rw [heq]
      exact Prod.Lex.right _ (Nat.lt_succ_self _)
  · have hsome : (G.node k).isSome := by rw [_hnode]; rfl
    exact Prod.Lex.left _ _ (card_sdiff_insert_lt hsome _hseen)

section Steps

variable {k : κ} {queue : List κ}

theorem search_nil : search G visited [] = [] := by rw [search]

theorem search_seen (h : k ∈ visited) : search G visited (k :: queue) = search G visited queue := by
  rw [search, dif_pos h]

theorem search_missing (h : k ∉ visited) (hnode : G.node k = none) :
    search G visited (k :: queue) = search G (insert k visited) queue := by
  rw [search, dif_neg h]
  split
  · rfl
  · next v hv =>
    rw [hnode] at hv
    cases hv

theorem search_stored {v : ν} (h : k ∉ visited) (hnode : G.node k = some v) :
    search G visited (k :: queue) =
      (k, v) :: search G (insert k visited) (queue ++ G.next v) := by
  rw [search, dif_neg h]
  split
  · next hv =>
    rw [hnode] at hv
    cases hv
  · next w hw =>
    rw [hnode] at hw
    cases hw
    rfl

end Steps

/-! ## What the search returns -/

/-- One value points to the other. -/
def Edge (G : Graph κ ν) (a b : κ) : Prop := ∃ v, G.node a = some v ∧ b ∈ G.next v

/-- There is a way from one of the keys. -/
def ReachedFrom (G : Graph κ ν) (roots : List κ) (k : κ) : Prop :=
  ∃ r ∈ roots, Relation.ReflTransGen (Edge G) r k

theorem ReachedFrom.mono {roots roots' : List κ} {k : κ} (h : ReachedFrom G roots k)
    (hsub : ∀ r ∈ roots, r ∈ roots') : ReachedFrom G roots' k := by
  obtain ⟨r, hr, hway⟩ := h
  exact ⟨r, hsub r hr, hway⟩

/-- What hangs on a value is reached from the key of the value. -/
theorem ReachedFrom.of_next {k c : κ} {v : ν} {queue : List κ} (hnode : G.node k = some v)
    (h : ReachedFrom G (queue ++ G.next v) c) : ReachedFrom G (k :: queue) c := by
  obtain ⟨r, hr, hway⟩ := h
  rcases List.mem_append.1 hr with hqueue | hnext
  · exact ⟨r, List.mem_cons_of_mem k hqueue, hway⟩
  · exact ⟨k, List.mem_cons_self, Relation.ReflTransGen.head ⟨v, hnode, hnext⟩ hway⟩

variable {queue : List κ}

/-- Every entry is what is stored, was not visited before, and can be reached. -/
theorem sound {e : κ × ν} (h : e ∈ search G visited queue) :
    G.node e.1 = some e.2 ∧ e.1 ∉ visited ∧ ReachedFrom G queue e.1 := by
  induction visited, queue using search.induct G with
  | case1 visited =>
    rw [search_nil] at h
    cases h
  | case2 visited k queue hseen ih =>
    rw [search_seen hseen] at h
    obtain ⟨hnode, hnew, hway⟩ := ih h
    exact ⟨hnode, hnew, hway.mono fun r hr => List.mem_cons_of_mem k hr⟩
  | case3 visited k queue hseen hnone ih =>
    rw [search_missing hseen hnone] at h
    obtain ⟨hnode, hnew, hway⟩ := ih h
    exact ⟨hnode, fun hmem => hnew (Finset.mem_insert_of_mem hmem),
      hway.mono fun r hr => List.mem_cons_of_mem k hr⟩
  | case4 visited k queue hseen v hv ih =>
    rw [search_stored hseen hv] at h
    rcases List.mem_cons.1 h with rfl | hrest
    · exact ⟨hv, hseen, k, List.mem_cons_self, Relation.ReflTransGen.refl⟩
    · obtain ⟨hnode, hnew, hway⟩ := ih hrest
      exact ⟨hnode, fun hmem => hnew (Finset.mem_insert_of_mem hmem), hway.of_next hv⟩

/-- No key comes out twice. -/
theorem nodup_keys : ((search G visited queue).map Prod.fst).Nodup := by
  induction visited, queue using search.induct G with
  | case1 visited =>
    rw [search_nil]
    exact List.nodup_nil
  | case2 visited k queue hseen ih =>
    rw [search_seen hseen]
    exact ih
  | case3 visited k queue hseen hnone ih =>
    rw [search_missing hseen hnone]
    exact ih
  | case4 visited k queue hseen v hv ih =>
    rw [search_stored hseen hv, List.map_cons, List.nodup_cons]
    refine ⟨?_, ih⟩
    intro hmem
    obtain ⟨e, he, hkey⟩ := List.mem_map.1 hmem
    exact (sound he).2.1 (hkey ▸ Finset.mem_insert_self k visited)

/-- Stored keys of the queue come out, unless they were visited before. -/
theorem queue_found {c : κ} (hc : c ∈ queue) (hnew : c ∉ visited) (hnode : (G.node c).isSome) :
    ∃ v, (c, v) ∈ search G visited queue := by
  induction visited, queue using search.induct G with
  | case1 visited => cases hc
  | case2 visited k queue hseen ih =>
    rw [search_seen hseen]
    rcases List.mem_cons.1 hc with rfl | hqueue
    · exact absurd hseen hnew
    · exact ih hqueue hnew
  | case3 visited k queue hseen hnone ih =>
    rw [search_missing hseen hnone]
    have hne : c ≠ k := by
      rintro rfl
      rw [hnone] at hnode
      cases hnode
    have hqueue := (List.mem_cons.1 hc).resolve_left hne
    exact ih hqueue fun hmem => hnew ((Finset.mem_insert.1 hmem).resolve_left hne)
  | case4 visited k queue hseen v hv ih =>
    rw [search_stored hseen hv]
    by_cases hne : c = k
    · exact ⟨v, hne ▸ List.mem_cons_self⟩
    · have hqueue := (List.mem_cons.1 hc).resolve_left hne
      obtain ⟨w, hw⟩ := ih (List.mem_append_left _ hqueue)
        fun hmem => hnew ((Finset.mem_insert.1 hmem).resolve_left hne)
      exact ⟨w, List.mem_cons_of_mem _ hw⟩

/-- So do the stored keys that an entry points to. -/
theorem next_found {e : κ × ν} {c : κ} (he : e ∈ search G visited queue) (hc : c ∈ G.next e.2)
    (hnew : c ∉ visited) (hnode : (G.node c).isSome) : ∃ v, (c, v) ∈ search G visited queue := by
  induction visited, queue using search.induct G with
  | case1 visited =>
    rw [search_nil] at he
    cases he
  | case2 visited k queue hseen ih =>
    rw [search_seen hseen] at he ⊢
    exact ih he hnew
  | case3 visited k queue hseen hnone ih =>
    rw [search_missing hseen hnone] at he ⊢
    have hne : c ≠ k := by
      rintro rfl
      rw [hnone] at hnode
      cases hnode
    exact ih he fun hmem => hnew ((Finset.mem_insert.1 hmem).resolve_left hne)
  | case4 visited k queue hseen v hv ih =>
    rw [search_stored hseen hv] at he ⊢
    by_cases hne : c = k
    · exact ⟨v, hne ▸ List.mem_cons_self⟩
    · have hnew' : c ∉ insert k visited :=
        fun hmem => hnew ((Finset.mem_insert.1 hmem).resolve_left hne)
      obtain ⟨w, hw⟩ : ∃ w, (c, w) ∈ search G (insert k visited) (queue ++ G.next v) := by
        rcases List.mem_cons.1 he with rfl | hrest
        · exact queue_found (List.mem_append_right queue hc) hnew' hnode
        · exact ih hrest hnew'
      exact ⟨w, List.mem_cons_of_mem _ hw⟩

/-- What is visited points to what is visited, or to nothing. -/
def Closed (G : Graph κ ν) (visited : Finset κ) : Prop :=
  ∀ a ∈ visited, ∀ b, Edge G a b → (G.node b).isSome → b ∈ visited

/-- What is visited is left out together with all that hangs on it; the rest comes out. -/
theorem complete {k : κ} (hclosed : Closed G visited) (hway : ReachedFrom G queue k)
    (hnew : k ∉ visited) (hnode : (G.node k).isSome) : ∃ v, (k, v) ∈ search G visited queue := by
  obtain ⟨r, hr, hpath⟩ := hway
  induction hpath with
  | refl => exact queue_found hr hnew hnode
  | tail _ hedge ih =>
    have hprev : _ ∉ visited := fun hmem => hnew (hclosed _ hmem _ hedge hnode)
    obtain ⟨v, hv, hnext⟩ := hedge
    obtain ⟨w, hw⟩ := ih hprev (by rw [hv]; rfl)
    have hwv : w = v := Option.some.inj ((sound hw).1.symm.trans hv)
    exact next_found hw (hwv ▸ hnext) hnew hnode

/-- The search is exact. -/
theorem mem_search_iff (hclosed : Closed G visited) {e : κ × ν} :
    e ∈ search G visited queue ↔
      G.node e.1 = some e.2 ∧ e.1 ∉ visited ∧ ReachedFrom G queue e.1 := by
  constructor
  · exact sound
  · obtain ⟨k, v⟩ := e
    rintro ⟨hnode, hnew, hway⟩
    obtain ⟨w, hw⟩ := complete hclosed hway hnew (by rw [hnode]; rfl)
    have hwv : w = v := Option.some.inj ((sound hw).1.symm.trans hnode)
    exact hwv ▸ hw

end Search
