import HoneNode.Apply.Inference

/-!
# Inference.Board — the verdict of a verifier board

`apply_verify` asks `resolve_quorum_verdict` after every vote and closes the
board at the first answer. In exact arithmetic no outstanding vote can change
that answer, so the order of the votes does not matter (`verdictOf_stable`).
The code computes the swing of the outstanding votes in `u64` without a check,
and this decides for which board sizes it keeps its word (`agrees_iff`).
-/

namespace HoneNode.Board

/-- Votes with the verifiers who cast them. -/
abbrev Votes := List (String × String)

/-- A full board: `n` votes of distinct verifiers, each for one of the three verdicts. -/
structure Full (n : ℕ) (votes : Votes) : Prop where
  length : votes.length = n
  distinct : (votes.map (·.1)).Nodup
  known : ∀ v ∈ votes, v.2 ∈ ["approved", "rejected", "review_required"]

/-- Add the votes one by one and stop at the first verdict, as `apply_verify` does. -/
def feed (n : ℕ) : Votes → Votes → Option String
  | _, [] => none
  | board, v :: rest =>
    match resolveQuorumVerdict (board ++ [v]) n with
    | some verdict => some verdict
    | none => feed n (board ++ [v]) rest

/-- Every full board resolves, to what any order of its votes ends in, and a part of it
that resolves already resolves to the same. -/
def Agrees (n : ℕ) : Prop :=
  ∀ votes, Full n votes → (∃ verdict, resolveQuorumVerdict votes n = some verdict) ∧
    (∀ votes', votes'.Perm votes → feed n [] votes' = resolveQuorumVerdict votes n) ∧
    ∀ board rest verdict, votes = board ++ rest →
      resolveQuorumVerdict board n = some verdict → resolveQuorumVerdict votes n = some verdict

/-- The answers there are. -/
theorem resolve_cases (votes : Votes) (n : ℕ) :
    resolveQuorumVerdict votes n = none ∨ resolveQuorumVerdict votes n = some "approved" ∨
      resolveQuorumVerdict votes n = some "rejected" ∨
        resolveQuorumVerdict votes n = some "review_required" := by
  simp only [resolveQuorumVerdict]
  split_ifs <;> simp

/-- With enough votes there is an answer. -/
theorem resolve_of_le {votes : Votes} {n : ℕ} (h : n ≤ votes.length) :
    ∃ verdict, resolveQuorumVerdict votes n = some verdict := by
  simp only [resolveQuorumVerdict]
  split_ifs <;> first | exact ⟨_, rfl⟩ | omega

/-! ## The vote in exact arithmetic -/

/-- The verdict on `a` approvals, `r` rejections and `w` calls for review, with `missing`
votes to come. -/
def verdictOf (a r w missing : ℕ) : Option String :=
  if 100 * r + 101 * missing < 100 * a ∧ 101 * w + 101 * missing < 100 * a then some "approved"
  else if 100 * a + 101 * missing < 100 * r ∧ 101 * w + 101 * missing < 100 * r then
    some "rejected"
  else if 100 * a + 101 * missing < 101 * w ∧ 100 * r + 101 * missing < 101 * w then
    some "review_required"
  else if 0 < missing then none
  else if 100 * a ≤ 101 * w ∧ 100 * r ≤ 101 * w then some "review_required"
  else if r ≤ a then some "approved"
  else some "rejected"

theorem verdictOf_full (a r w : ℕ) : ∃ verdict, verdictOf a r w 0 = some verdict := by
  unfold verdictOf
  split_ifs <;> first | exact ⟨_, rfl⟩ | omega

/-- No outstanding vote overturns a verdict. -/
theorem verdictOf_stable {a r w a' r' w' : ℕ} {verdict : String}
    (h : verdictOf a r w (a' + r' + w') = some verdict) :
    verdictOf (a + a') (r + r') (w + w') 0 = some verdict := by
  by_cases hmissing : a' + r' + w' = 0
  · obtain ⟨rfl, rfl, rfl⟩ : a' = 0 ∧ r' = 0 ∧ w' = 0 := by omega
    exact h
  · unfold verdictOf at h
    unfold verdictOf
    split_ifs at h with h₁ h₂ h₃ h₄
    · rw [if_pos (by omega)]
      exact h
    · rw [if_neg (by omega), if_pos (by omega)]
      exact h
    · rw [if_neg (by omega), if_neg (by omega), if_pos (by omega)]
      exact h
    all_goals omega

/-! ## The vote in `u64` -/

section Counts

variable {n : ℕ} {votes board rest : Votes}

/-- The votes for one verdict. -/
def votesFor (votes : Votes) (verdict : String) : ℕ := (votes.map (·.2)).count verdict

theorem votesFor_append (verdict : String) :
    votesFor (board ++ rest) verdict = votesFor board verdict + votesFor rest verdict := by
  simp [votesFor]

/-- Votes for known verdicts split three ways. -/
theorem length_eq_votesFor (h : ∀ v ∈ votes, v.2 ∈ ["approved", "rejected", "review_required"]) :
    votes.length = votesFor votes "approved" + votesFor votes "rejected" +
      votesFor votes "review_required" := by
  induction votes with
  | nil => rfl
  | cons v rest ih =>
    have hrest := ih fun u hu => h u (List.mem_cons_of_mem _ hu)
    have hv : v.2 = "approved" ∨ v.2 = "rejected" ∨ v.2 = "review_required" := by
      simpa using h v List.mem_cons_self
    simp only [votesFor, List.map_cons, List.count_cons, List.length_cons] at hrest ⊢
    rcases hv with hv | hv | hv <;> simp [hv] <;> omega

/-- Saturation cannot fake a lead. -/
theorem satAdd_lt_iff {a b c : ℕ} (hc : c < 2 ^ 64) : satAdd a b < c ↔ a + b < c := by
  unfold satAdd u64Max
  omega

/-- Within 64 bits the code computes the exact verdict. -/
theorem resolve_eq_verdictOf
    (hknown : ∀ v ∈ votes, v.2 ∈ ["approved", "rejected", "review_required"])
    (hlen : 100 * votes.length < 2 ^ 64) (hreview : 101 * votesFor votes "review_required" < 2 ^ 64)
    (hswing : 101 * (n - votes.length) < 2 ^ 64) :
    resolveQuorumVerdict votes n = verdictOf (votesFor votes "approved")
      (votesFor votes "rejected") (votesFor votes "review_required") (n - votes.length) := by
  have hsum := length_eq_votesFor hknown
  have ha : verdictWeight votes "approved" verifierVoteWeightNormal =
      100 * votesFor votes "approved" := by
    simp only [verdictWeight, verifierVoteWeightNormal, wrapMul, votesFor] at hsum ⊢
    omega
  have hr : verdictWeight votes "rejected" verifierVoteWeightNormal =
      100 * votesFor votes "rejected" := by
    simp only [verdictWeight, verifierVoteWeightNormal, wrapMul, votesFor] at hsum ⊢
    omega
  have hw : verdictWeight votes "review_required" verifierVoteWeightReview =
      101 * votesFor votes "review_required" := by
    simp only [verdictWeight, verifierVoteWeightReview, wrapMul, votesFor] at hreview ⊢
    omega
  have hs : wrapMul (n - votes.length) verifierVoteWeightReview =
      101 * (n - votes.length) := by
    simp only [verifierVoteWeightReview, wrapMul]
    omega
  have hA : 100 * votesFor votes "approved" < 2 ^ 64 := by omega
  have hR : 100 * votesFor votes "rejected" < 2 ^ 64 := by omega
  have hvoted : votes.length < n ↔ 0 < n - votes.length := by omega
  have hmost : 100 * votesFor votes "rejected" ≤ 100 * votesFor votes "approved" ↔
      votesFor votes "rejected" ≤ votesFor votes "approved" := by omega
  unfold resolveQuorumVerdict verdictOf
  simp only [ha, hr, hw, hs, satAdd_lt_iff hA, satAdd_lt_iff hR, satAdd_lt_iff hreview, hvoted, hmost]

/-- A full board, also where its last vote for review passes 64 bits. -/
theorem resolve_full (h : Full n votes) (hn : 101 * (n - 1) < 2 ^ 64) :
    resolveQuorumVerdict votes n = verdictOf (votesFor votes "approved")
      (votesFor votes "rejected") (votesFor votes "review_required") 0 := by
  have hsum := length_eq_votesFor h.known
  rw [h.length] at hsum
  by_cases hall : votesFor votes "review_required" = n
  · -- all for review: nothing else carries weight
    have ha : votesFor votes "approved" = 0 := by omega
    have hr : votesFor votes "rejected" = 0 := by omega
    have hwa : verdictWeight votes "approved" verifierVoteWeightNormal = 0 := by
      unfold votesFor at ha
      simp [verdictWeight, ha, wrapMul]
    have hwr : verdictWeight votes "rejected" verifierVoteWeightNormal = 0 := by
      unfold votesFor at hr
      simp [verdictWeight, hr, wrapMul]
    unfold resolveQuorumVerdict verdictOf
    simp [hwa, hwr, ha, hr, h.length]
  · have heq := resolve_eq_verdictOf h.known (n := n) (by rw [h.length]; omega) (by omega)
      (by rw [h.length]; omega)
    rwa [h.length, Nat.sub_self] at heq

theorem Full.perm {votes' : Votes} (h : Full n votes) (hp : votes'.Perm votes) : Full n votes' where
  length := hp.length_eq.trans h.length
  distinct := (hp.map _).nodup_iff.2 h.distinct
  known := fun v hv => h.known v (hp.mem_iff.1 hv)

/-- Nobody has voted: nothing leads. -/
theorem resolve_nil (hn : 0 < n) : resolveQuorumVerdict [] n = none := by
  unfold resolveQuorumVerdict
  simp [verdictWeight, wrapMul, hn]

/-- A part of the board that resolves says what the full board says. -/
theorem resolve_part (h : Full n (board ++ rest)) (hn : 101 * (n - 1) < 2 ^ 64)
    {verdict : String} (hpart : resolveQuorumVerdict board n = some verdict) :
    resolveQuorumVerdict (board ++ rest) n = some verdict := by
  cases hrest : rest with
  | nil => rwa [List.append_nil]
  | cons v more =>
    rw [← hrest]
    have hlen : board.length + rest.length = n := by rw [← List.length_append, h.length]
    have hpos : 0 < rest.length := by simp [hrest]
    have hvoted : 0 < board.length := by
      refine List.length_pos_iff.2 ?_
      rintro rfl
      rw [resolve_nil (by omega)] at hpart
      cases hpart
    have hboard : ∀ v ∈ board, v.2 ∈ ["approved", "rejected", "review_required"] :=
      fun v hv => h.known v (List.mem_append_left _ hv)
    have hmissing := length_eq_votesFor fun v hv => h.known v (List.mem_append_right board hv)
    have hsum := length_eq_votesFor hboard
    rw [resolve_eq_verdictOf hboard (by omega) (by omega) (by omega),
      show n - board.length = _ by rw [← hlen, Nat.add_sub_cancel_left, hmissing]] at hpart
    rw [resolve_full h hn, votesFor_append, votesFor_append, votesFor_append]
    exact verdictOf_stable hpart

theorem feed_eq_resolve (hn : 101 * (n - 1) < 2 ^ 64) :
    ∀ rest board, rest ≠ [] → Full n (board ++ rest) →
      feed n board rest = resolveQuorumVerdict (board ++ rest) n
  | [], _, hne, _ => absurd rfl hne
  | v :: rest, board, _, h => by
    have happ : board ++ v :: rest = (board ++ [v]) ++ rest := by simp
    unfold feed
    split
    · rename_i verdict hv
      rw [happ] at h ⊢
      exact (resolve_part h hn hv).symm
    · rename_i hv
      rw [happ] at h ⊢
      refine feed_eq_resolve hn rest _ ?_ h
      -- the last vote always resolves
      rintro rfl
      rw [List.append_nil] at h
      obtain ⟨verdict, hfull⟩ := verdictOf_full _ _ _
      rw [resolve_full h hn, hfull] at hv
      cases hv

theorem resolve_perm {votes' : Votes} (hp : votes'.Perm votes) :
    resolveQuorumVerdict votes' n = resolveQuorumVerdict votes n := by
  have hcount (verdict : String) := (hp.map (·.2)).count_eq verdict
  unfold resolveQuorumVerdict verdictWeight
  simp only [hp.length_eq, hcount]

theorem agrees_of_lt (h₁ : 1 ≤ n) (hn : 101 * (n - 1) < 2 ^ 64) : Agrees n := by
  intro votes h
  refine ⟨?_, fun votes' hp => ?_, fun board rest verdict heq hpart => ?_⟩
  · rw [resolve_full h hn]
    exact verdictOf_full _ _ _
  · have hne : votes' ≠ [] := by
      rintro rfl
      have := (h.perm hp).length
      simp at this
      omega
    rw [feed_eq_resolve hn votes' [] hne (h.perm hp), List.nil_append, resolve_perm hp]
  · subst heq
    exact resolve_part h hn hpart

end Counts

/-! ## Boards whose swing wraps -/

section Wrapped

variable {n : ℕ}

/-- `count` votes for one verdict, by verifiers numbered from `first`. -/
def block (first count : ℕ) (verdict : String) : Votes :=
  (List.range' first count).map fun i => (String.ofList (List.replicate i 'v'), verdict)

@[simp] theorem length_block (first count : ℕ) (verdict : String) :
    (block first count verdict).length = count := by simp [block]

theorem verdicts_block (first count : ℕ) (verdict : String) :
    (block first count verdict).map (·.2) = List.replicate count verdict := by
  simp [block, Function.comp_def, List.map_const']

variable {verdict : String}

theorem prefix_block {first count : ℕ} {pre : Votes}
    (h : pre <+: block first count verdict) : pre = block first pre.length verdict := by
  have hle := h.length_le
  rw [length_block] at hle
  obtain ⟨k, rfl⟩ := Nat.exists_eq_add_of_le hle
  rw [List.prefix_iff_eq_take.1 h]
  simp [block, ← List.range'_append_1]

/-- Blocks one after the other are votes of distinct verifiers. -/
theorem voters_blocks (m k l : ℕ) (x y z : String) :
    (block 0 m x ++ block m k y ++ block (m + k) l z).map (·.1) =
      (List.range' 0 (m + k + l)).map fun i => String.ofList (List.replicate i 'v') := by
  rw [← List.range'_append_1, ← List.range'_append_1, Nat.zero_add, Nat.zero_add]
  simp only [block, List.map_append, List.map_map, Function.comp_def]

theorem full_blocks {m k l : ℕ} {x y z : String} (hn : m + k + l = n)
    (hx : x ∈ ["approved", "rejected", "review_required"])
    (hy : y ∈ ["approved", "rejected", "review_required"])
    (hz : z ∈ ["approved", "rejected", "review_required"]) :
    Full n (block 0 m x ++ block m k y ++ block (m + k) l z) where
  length := by
    rw [← hn]
    simp [Nat.add_assoc]
  distinct := by
    rw [voters_blocks]
    refine (List.nodup_range' ..).map ?_
    intro i j hij
    simpa using congrArg List.length (String.ofList_injective hij)
  known := by
    intro v hv
    simp only [List.mem_append, block, List.mem_map] at hv
    rcases hv with (⟨_, -, rfl⟩ | ⟨_, -, rfl⟩) | ⟨_, -, rfl⟩
    · exact hx
    · exact hy
    · exact hz

/-- A board of one opinion resolves to it or waits. -/
theorem resolve_block (hv : verdict = "approved" ∨ verdict = "rejected")
    {first count : ℕ} (hpos : 0 < count) (hcount : 100 * count < 2 ^ 64) :
    resolveQuorumVerdict (block first count verdict) n =
      if wrapMul (n - count) 101 < 100 * count ∨ n ≤ count then some verdict else none := by
  have hcast (other : String) (w : ℕ) : verdictWeight (block first count verdict) other w =
      wrapMul (if verdict = other then count else 0) w := by
    rw [verdictWeight, verdicts_block, List.count_replicate]
    simp
  have hfull : wrapMul count 100 = 100 * count := by
    unfold wrapMul
    omega
  have hzero (w : ℕ) : wrapMul 0 w = 0 := by simp [wrapMul]
  have hlead (b : ℕ) : satAdd 0 b < 100 * count ↔ b < 100 * count := by
    rw [satAdd_lt_iff hcount, Nat.zero_add]
  unfold resolveQuorumVerdict
  simp only [hcast, length_block, verifierVoteWeightNormal, verifierVoteWeightReview]
  generalize wrapMul (n - count) 101 = swing
  rcases hv with rfl | rfl
  · simp only [String.reduceEq, if_true, if_false, hfull, hzero, hlead, and_self, Nat.not_lt_zero]
    split_ifs <;> first | rfl | omega
  · simp only [String.reduceEq, if_true, if_false, hfull, hzero, hlead, and_self, Nat.not_lt_zero]
    split_ifs <;> first | rfl | omega

/-- If every part of the first votes says the same or nothing and together they say it,
it is what the board ends in. -/
theorem feed_of_prefixes {rest : Votes} :
    ∀ {l : Votes} (board : Votes), (∀ pre, pre <+: l → pre ≠ [] →
      resolveQuorumVerdict (board ++ pre) n = none ∨
        resolveQuorumVerdict (board ++ pre) n = some verdict) → l ≠ [] →
      resolveQuorumVerdict (board ++ l) n = some verdict →
        feed n board (l ++ rest) = some verdict
  | [], _, _, hne, _ => absurd rfl hne
  | v :: l, board, hpre, _, hall => by
    rw [List.cons_append]
    unfold feed
    have hfirst := hpre [v] ⟨l, rfl⟩ (by simp)
    split
    · rename_i verdict' hv
      rw [hv] at hfirst
      simpa using hfirst
    · rename_i hv
      have happ (m : Votes) : board ++ v :: m = (board ++ [v]) ++ m := by simp
      refine feed_of_prefixes (board ++ [v]) (fun pre h hne => ?_) ?_ (happ l ▸ hall)
      · rw [← happ]
        exact hpre (v :: pre) (List.cons_prefix_cons.2 ⟨rfl, h⟩) (by simp)
      · rintro rfl
        rw [hv] at hall
        cases hall

/-- A first block that resolves decides, whatever follows it. -/
theorem feed_block (hv : verdict = "approved" ∨ verdict = "rejected")
    {first count : ℕ} (hpos : 0 < count) (hcount : 100 * count < 2 ^ 64)
    (hswing : wrapMul (n - count) 101 < 100 * count) (rest : Votes) :
    feed n [] (block first count verdict ++ rest) = some verdict := by
  have hpre : ∀ pre, pre <+: block first count verdict → pre ≠ [] →
      resolveQuorumVerdict pre n = none ∨ resolveQuorumVerdict pre n = some verdict := by
    intro pre h hne
    have hle := h.length_le
    rw [length_block] at hle
    rw [prefix_block h, resolve_block hv (List.length_pos_iff.2 hne) (by omega)]
    split
    · exact .inr rfl
    · exact .inl rfl
  have hall : resolveQuorumVerdict (block first count verdict) n = some verdict := by
    rw [resolve_block hv hpos hcount, if_pos (.inl hswing)]
  have hne : block first count verdict ≠ [] := by
    intro h
    have := length_block first count verdict
    rw [h] at this
    exact hpos.ne this
  exact feed_of_prefixes [] (by simpa using hpre) hne hall

/-- `m` votes for one verdict decide, and so do `m` votes for the other: the order of the
votes matters. -/
theorem not_agrees_of_block {m : ℕ} (hm : 0 < m) (hle : 2 * m ≤ n) (hcount : 100 * m < 2 ^ 64)
    (hswing : wrapMul (n - m) 101 < 100 * m) : ¬ Agrees n := by
  intro h
  have hfull := @full_blocks n m m (n - 2 * m) "approved" "rejected" "rejected" (by omega)
    (by simp) (by simp) (by simp)
  obtain ⟨-, horder, -⟩ := h _ hfull
  have hfirst := horder _ (List.Perm.refl _)
  have hswapped := horder (block m m "rejected" ++ block 0 m "approved" ++ _)
    (List.perm_append_comm.append_right _)
  rw [← hfirst, List.append_assoc, List.append_assoc, feed_block (.inl rfl) hm hcount hswing,
    feed_block (.inr rfl) hm hcount hswing] at hswapped
  simp at hswapped

/-- One call for review, then approvals only. -/
def reviewFirst (n : ℕ) : Votes := block 0 1 "review_required" ++ block 1 (n - 1) "approved"

theorem full_reviewFirst (hn : 1 ≤ n) : Full n (reviewFirst n) := by
  have h := @full_blocks n 1 (n - 1) 0 "review_required" "approved" "approved" (by omega)
    (by simp) (by simp) (by simp)
  rwa [show block (1 + (n - 1)) 0 "approved" = [] from rfl, List.append_nil] at h

theorem weight_reviewFirst (verdict : String) (w : ℕ) : verdictWeight (reviewFirst n) verdict w =
    wrapMul ((if "review_required" = verdict then 1 else 0) +
      if "approved" = verdict then n - 1 else 0) w := by
  simp only [verdictWeight, reviewFirst, List.map_append, verdicts_block, List.count_append,
    List.count_replicate, beq_iff_eq]

/-- The others outweigh the one who called for review. -/
theorem weight_of_wrapped {k : ℕ} (hk : k < 2 ^ 64 - 1) (hle : 2 ^ 64 ≤ 101 * k)
    (hr : wrapMul k 101 = 100) : 101 < wrapMul k 100 ∧ wrapMul k 100 < 2 ^ 64 := by
  obtain ⟨rest, hrest⟩ : ∃ rest, rest + k = 2 ^ 64 + 100 := ⟨2 ^ 64 + 100 - k, by omega⟩
  have hlt : rest < 2 ^ 64 := by omega
  have hlarge : 101 < rest := by omega
  obtain ⟨q, hq⟩ : ∃ q, 101 * k = 100 + 2 ^ 64 * q + 2 ^ 64 := by
    have hdiv := Nat.mod_add_div (101 * k) (2 ^ 64)
    have hpos := Nat.div_pos hle (by decide)
    rw [wrapMul, Nat.mul_comm] at hr
    rw [hr] at hdiv
    refine ⟨101 * k / 2 ^ 64 - 1, ?_⟩
    rw [Nat.add_assoc, ← Nat.mul_succ, Nat.succ_eq_add_one, Nat.sub_add_cancel hpos, hdiv]
  have hmul : k * 100 = 2 ^ 64 * q + rest := by
    generalize 2 ^ 64 * q = turns at hq
    omega
  have hmod : wrapMul k 100 = rest := by
    rw [wrapMul, hmul, Nat.mul_add_mod, Nat.mod_eq_of_lt hlt]
  rw [hmod]
  exact ⟨hlarge, hlt⟩

/-- With a wrapped swing of 100 the first call for review decides against all others. -/
theorem not_agrees_of_review (hn : n < 2 ^ 64) (h : 2 ^ 64 ≤ 101 * (n - 1))
    (hr : wrapMul (n - 1) 101 = 100) : ¬ Agrees n := by
  intro hagrees
  have hfull := full_reviewFirst (n := n) (by omega)
  obtain ⟨-, -, hpart⟩ := hagrees _ hfull
  have hone : resolveQuorumVerdict (block 0 1 "review_required") n = some "review_required" := by
    have ha : verdictWeight (block 0 1 "review_required") "approved" 100 = 0 := by decide
    have hr₀ : verdictWeight (block 0 1 "review_required") "rejected" 100 = 0 := by decide
    have hw : verdictWeight (block 0 1 "review_required") "review_required" 101 = 101 := by decide
    unfold resolveQuorumVerdict
    simp only [length_block, verifierVoteWeightReview, verifierVoteWeightNormal, hr, ha, hr₀, hw]
    rw [if_neg (by decide), if_neg (by decide), if_pos (by decide)]
  have hall := hpart _ _ _ rfl hone
  have hswing := weight_of_wrapped (k := n - 1) (by omega) h hr
  unfold resolveQuorumVerdict at hall
  simp only [weight_reviewFirst, hfull.length, Nat.sub_self, verifierVoteWeightNormal,
    verifierVoteWeightReview, String.reduceEq, if_true, if_false, Nat.zero_add, Nat.add_zero]
    at hall
  generalize wrapMul (n - 1) 100 = weight at hall hswing
  have hzero (w : ℕ) : wrapMul 0 w = 0 := by simp [wrapMul]
  have hw : wrapMul 1 101 = 101 := rfl
  rw [if_pos] at hall
  · simp at hall
  · rw [hzero, hw, hzero, satAdd_lt_iff hswing.2, satAdd_lt_iff hswing.2]
    omega

theorem not_agrees_of_le (hn : n < 2 ^ 64) (h : 2 ^ 64 ≤ 101 * (n - 1)) : ¬ Agrees n := by
  by_cases hr : wrapMul (n - 1) 101 = 100
  · exact not_agrees_of_review hn h hr
  · -- the wrapped swing runs down below one vote at `j + 1` votes
    obtain ⟨q, j, t, hsplit, ht⟩ : ∃ q j t, 101 * (n - 1) = 2 ^ 64 * q + (101 * j + t) ∧
        101 * j + t < 2 ^ 64 ∧ t < 101 := by
      refine ⟨101 * (n - 1) / 2 ^ 64, 101 * (n - 1) % 2 ^ 64 / 101,
        101 * (n - 1) % 2 ^ 64 % 101, ?_, ?_, ?_⟩ <;> omega
    have hfirst : wrapMul (n - 1) 101 = 101 * j + t := by
      rw [wrapMul, Nat.mul_comm, hsplit, Nat.mul_add_mod, Nat.mod_eq_of_lt ht.1]
    have hswing : wrapMul (n - (j + 1)) 101 = t := by
      rw [wrapMul, show (n - (j + 1)) * 101 = 2 ^ 64 * q + t by omega, Nat.mul_add_mod,
        Nat.mod_eq_of_lt (by omega)]
    have hle : 2 * (j + 1) ≤ n := by
      rcases Nat.lt_or_ge q 2 with hq | hq
      · obtain rfl : q = 1 := by omega
        obtain rfl : t = 22 := by omega
        omega
      · omega
    exact not_agrees_of_block (m := j + 1) (by omega) hle (by omega) (by omega)

end Wrapped

/-- A board keeps its word exactly when the swing after the first vote fits 64 bits. -/
theorem agrees_iff {n : ℕ} (h₁ : 1 ≤ n) (hn : n < 2 ^ 64) :
    Agrees n ↔ verifierVoteWeightReview * (n - 1) < 2 ^ 64 := by
  constructor
  · intro h
    by_contra hle
    exact not_agrees_of_le hn (not_lt.1 hle) h
  · exact agrees_of_lt h₁

/-- Boards of five, the largest the network asks for by itself. -/
theorem agrees_five : Agrees 5 :=
  (agrees_iff (n := 5) (by decide) (by decide)).2 (by decide)

/-- A requester asks for this many verifiers: the swing of the votes missing after the
first one wraps. -/
def wrappedBoard : ℕ := 182641030432767839

/-- The first vote decides either way, with all others still to come. -/
theorem first_vote_decides :
    resolveQuorumVerdict (block 0 1 "approved") wrappedBoard = some "approved" ∧
    resolveQuorumVerdict (block 0 1 "rejected") wrappedBoard = some "rejected" ∧
    ¬ Agrees wrappedBoard := by
  refine ⟨by decide, by decide, ?_⟩
  exact not_agrees_of_block (m := 1) (by decide) (by decide) (by decide) (by decide)

end HoneNode.Board
