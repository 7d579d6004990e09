import HoneNode.Rewards.Driver
import HoneNode.Supply

/-!
# Rewards.Decay — what entropy decay takes

One application of the decay moves a part of each dormant balance to the recycle
fund (`bled_applyEntropyDecay`). The rate is made for a hundred epochs, and the
driver applies it in every epoch, so that it takes about a hundred times as much
(`decay_sound_iff`).
-/

namespace HoneNode

open Prog Within Supply

/-! ## States and accounts -/

/-- No name contains a NUL, and every balance is a 64-bit word. -/
structure Plain (s : Chain) : Prop where
  ids : ∀ account, (s.accounts.get account).isSome = true → NulFree account
  rows : PlainRows s

/-- The account has been silent for long enough to lose its balances, and is none of the
ledger's own. -/
def Dormant (epoch : ℕ) (s : Chain) (account : String) : Prop :=
  account ∉ undecayedAccounts ∧
    livenessGraceEpochs + livenessDecayDelayEpochs < epoch - (s.stateGet .alive account).getD 0

instance (epoch : ℕ) (s : Chain) (account : String) : Decidable (Dormant epoch s account) :=
  inferInstanceAs (Decidable (account ∉ undecayedAccounts ∧
    livenessGraceEpochs + livenessDecayDelayEpochs < epoch - (s.stateGet .alive account).getD 0))

theorem nulFree_recycleFund : NulFree recycleFund := by decide

theorem recycleFund_mem : recycleFund ∈ undecayedAccounts := by decide

theorem Dormant.ne_recycleFund {epoch : ℕ} {s : Chain} {account : String}
    (h : Dormant epoch s account) : account ≠ recycleFund := fun heq =>
  h.1 (heq ▸ recycleFund_mem)

namespace Plain

variable {s : Chain}

theorem getBalance_lt (h : Plain s) (account token : String) :
    s.getBalance account token < 2 ^ 64 := by
  unfold Chain.getBalance
  cases hrow : s.balances.get (balanceKey account token) with
  | none => exact Nat.two_pow_pos 64
  | some n =>
    rw [Option.getD_some]
    exact (h.rows _ n hrow).1

theorem setBalance (h : Plain s) {account token : String} (ha : NulFree account)
    (ht : NulFree token) {n : ℕ} (hn : n < 2 ^ 64) : Plain (s.setBalance account token n) := by
  refine ⟨h.ids, fun k m hget => ?_⟩
  rw [Chain.setBalance_balances, Kv.get_put] at hget
  split at hget
  · next hkey =>
    cases hget
    exact ⟨hn, account, token, ha, ht, hkey.symm⟩
  · exact h.rows k m hget

end Plain

/-! ## Moves to the recycle fund -/

/-- `taken` has moved from the balances towards the recycle fund, `total` of each token. What
the fund could not hold is lost. -/
structure Bled (taken : String → String → ℕ) (total : String → ℕ) (s t : Chain) : Prop where
  plain : Plain t
  rest : t = { s with balances := t.balances }
  rows : ∀ account token, account ≠ recycleFund →
    t.getBalance account token + taken account token = s.getBalance account token
  books : ∀ token, supply token t + s.getBalance recycleFund token + total token =
    supply token s + t.getBalance recycleFund token
  grows : ∀ token, s.getBalance recycleFund token ≤ t.getBalance recycleFund token ∧
    t.getBalance recycleFund token ≤ s.getBalance recycleFund token + total token
  room : ∀ token, s.getBalance recycleFund token + total token < 2 ^ 64 →
    t.getBalance recycleFund token = s.getBalance recycleFund token + total token

namespace Bled

variable {taken taken' : String → String → ℕ} {total total' : String → ℕ} {s t u : Chain}

theorem refl (h : Plain s) : Bled (fun _ _ => 0) (fun _ => 0) s s where
  plain := h
  rest := rfl
  rows _ _ _ := rfl
  books _ := rfl
  grows _ := ⟨le_rfl, le_rfl⟩
  room _ _ := rfl

theorem trans (h : Bled taken total s t) (h' : Bled taken' total' t u) :
    Bled (fun account token => taken account token + taken' account token)
      (fun token => total token + total' token) s u where
  plain := h'.plain
  rest := h'.rest.trans (by rw [h.rest])
  rows account token hne := by
    have hfirst := h.rows account token hne
    have hsecond := h'.rows account token hne
    omega
  books token := by
    have hfirst := h.books token
    have hsecond := h'.books token
    omega
  grows token := by
    have hfirst := h.grows token
    have hsecond := h'.grows token
    omega
  room token hroom := by
    have hgrows := h.grows token
    have hfirst := h.room token (by omega)
    have hsecond := h'.room token (by omega)
    omega

theorem congr (h : Bled taken total s t) (htaken : ∀ account token, account ≠ recycleFund →
      taken' account token = taken account token) (htotal : ∀ token, total' token = total token) :
    Bled taken' total' s t where
  plain := h.plain
  rest := h.rest
  rows account token hne := by
    rw [htaken account token hne]
    exact h.rows account token hne
  books token := by
    rw [htotal]
    exact h.books token
  grows token := by
    rw [htotal]
    exact h.grows token
  room token hroom := by
    rw [htotal] at hroom ⊢
    exact h.room token hroom

theorem state_eq (h : Bled taken total s t) : t.state = s.state := by rw [h.rest]

/-- A token is kept whole exactly when the fund has room for all of it. -/
theorem supply_eq_iff (h : Bled taken total s t) (token : String) :
    supply token t = supply token s ↔ s.getBalance recycleFund token + total token < 2 ^ 64 := by
  have hbooks := h.books token
  have hlt := h.plain.getBalance_lt recycleFund token
  constructor
  · intro hsame
    omega
  · intro hroom
    have hfund := h.room token hroom
    omega

end Bled

/-! ## One row -/

section Row

variable {s : Chain} {account token : String} {n : ℕ}

theorem getBalance_setBalance (ha : NulFree account) (ht : NulFree token) (a u : String) :
    (s.setBalance account token n).getBalance a u =
      if a = account ∧ u = token then n else s.getBalance a u := by
  rw [getBalance_eq_row, Chain.row_setBalance]
  by_cases h : a = account ∧ u = token
  · obtain ⟨rfl, rfl⟩ := h
    rw [if_pos rfl, if_pos ⟨rfl, rfl⟩]
  · have hkey : balanceKey a u ≠ balanceKey account token := fun heq => by
      obtain ⟨rfl, rfl⟩ := (balanceKey_inj_of_nulFree ha ht).1 heq.symm
      exact h ⟨rfl, rfl⟩
    rw [if_neg hkey, if_neg h, getBalance_eq_row]

theorem bleedOf_le (n : ℕ) : bleedOf n ≤ n := min_le_right _ _

theorem bleedOf_zero : bleedOf 0 = 0 := rfl

/-- The decay of one balance. -/
def decayRow (account : String) (r : String × ℕ) : Prog { pays := Set.univ } Unit :=
  when (r.2 ≠ 0) do
    ignoreErr (debit account r.1 (bleedOf r.2) trivial)
    ignoreErr (credit recycleFund r.1 (bleedOf r.2))

/-- A balance loses its part whether or not the fund can take it. -/
theorem bled_decayRow (h : Plain s) (ha : NulFree account) (hne : account ≠ recycleFund)
    (ht : NulFree token) (hbal : s.getBalance account token = n) :
    ∃ t, (decayRow account (token, n)).run s = (.ok (), t) ∧
      Bled (fun a u => if a = account ∧ u = token then bleedOf n else 0)
        (fun u => if u = token then bleedOf n else 0) s t := by
  by_cases hzero : n = 0
  · subst hzero
    refine ⟨s, ?_, (Bled.refl h).congr (fun _ _ _ => ?_) fun _ => ?_⟩
    · unfold decayRow
      rw [run_when, if_neg (not_not_intro rfl)]
    · rw [bleedOf_zero, ite_self]
    · rw [bleedOf_zero, ite_self]
  have hle : bleedOf n ≤ s.getBalance account token := by
    rw [hbal]
    exact bleedOf_le n
  have hlt : s.getBalance account token < 2 ^ 64 := h.getBalance_lt account token
  let s₁ := s.debited account token (bleedOf n)
  have hdebit : (ignoreErr (debit account token (bleedOf n) (Set.mem_univ _)) :
      Prog { pays := Set.univ } Unit).run s = (.ok (), s₁) := by
    rw [run_ignoreErr, run_debit, if_pos hle]
  have hbal₁ : ∀ a u, s₁.getBalance a u =
      if a = account ∧ u = token then n - bleedOf n else s.getBalance a u := by
    intro a u
    have hset : s₁.getBalance a u = if a = account ∧ u = token then
        s.getBalance account token - bleedOf n else s.getBalance a u :=
      getBalance_setBalance ha ht a u
    rw [hset, hbal]
  have hfund₁ : ∀ u, s₁.getBalance recycleFund u = s.getBalance recycleFund u := fun u => by
    rw [hbal₁, if_neg fun heq => hne heq.1.symm]
  have hplain₁ : Plain s₁ := h.setBalance ha ht (Nat.lt_of_le_of_lt (Nat.sub_le _ _) hlt)
  have hsupply₁ : ∀ u, supply u s₁ + (if token = u then bleedOf n else 0) = supply u s := fun u =>
    supply_debited u ha ht hle
  have hrun : (decayRow account (token, n)).run s =
      (ignoreErr (credit recycleFund token (bleedOf n)) :
        Prog { pays := Set.univ } Unit).run s₁ := by
    unfold decayRow
    rw [run_when, if_pos hzero, run_bind_ok hdebit]
  rw [hrun, run_ignoreErr, run_credit]
  by_cases hroom : s₁.getBalance recycleFund token + bleedOf n < 2 ^ 64
  · rw [if_pos hroom]
    let s₂ := s₁.credited recycleFund token (bleedOf n)
    have hbal₂ : ∀ a u, s₂.getBalance a u = if a = recycleFund ∧ u = token then
        s₁.getBalance recycleFund token + bleedOf n else s₁.getBalance a u :=
      getBalance_setBalance nulFree_recycleFund ht
    have hfund₂ : ∀ u, s₂.getBalance recycleFund u =
        s.getBalance recycleFund u + if u = token then bleedOf n else 0 := by
      intro u
      rw [hbal₂, hfund₁, hfund₁]
      by_cases hu : u = token
      · rw [if_pos ⟨rfl, hu⟩, if_pos hu, hu]
      · rw [if_neg fun heq => hu heq.2, if_neg hu, Nat.add_zero]
    refine ⟨s₂, rfl, ?_⟩
    refine
      { plain := hplain₁.setBalance nulFree_recycleFund ht hroom
        rest := rfl
        rows := fun a u hau => ?_
        books := fun u => ?_
        grows := fun u => ?_
        room := fun u _ => hfund₂ u }
    · rw [hbal₂, if_neg fun heq => hau heq.1, hbal₁]
      by_cases hrow : a = account ∧ u = token
      · rw [if_pos hrow, if_pos hrow, hrow.1, hrow.2, hbal]
        exact Nat.sub_add_cancel (bleedOf_le n)
      · rw [if_neg hrow, if_neg hrow, Nat.add_zero]
    · have hsupply₂ : supply u s₂ = supply u s₁ + if token = u then bleedOf n else 0 :=
        supply_credited s₁ (bleedOf n) u nulFree_recycleFund ht
      have hfirst := hsupply₁ u
      rw [hfund₂ u]
      omega
    · rw [hfund₂ u]
      exact ⟨Nat.le_add_right _ _, le_rfl⟩
  · rw [if_neg hroom]
    refine ⟨s₁, rfl, ?_⟩
    refine
      { plain := hplain₁
        rest := rfl
        rows := fun a u _ => ?_
        books := fun u => ?_
        grows := fun u => ?_
        room := fun u hu => ?_ }
    · rw [hbal₁]
      by_cases hrow : a = account ∧ u = token
      · rw [if_pos hrow, if_pos hrow, hrow.1, hrow.2, hbal]
        exact Nat.sub_add_cancel (bleedOf_le n)
      · rw [if_neg hrow, if_neg hrow, Nat.add_zero]
    · have hfirst := hsupply₁ u
      have hcomm : (if u = token then bleedOf n else 0) = if token = u then bleedOf n else 0 :=
        if_congr eq_comm rfl rfl
      rw [hfund₁, hcomm]
      omega
    · rw [hfund₁]
      exact ⟨le_rfl, Nat.le_add_right _ _⟩
    · rw [hfund₁] at hroom ⊢
      by_cases htoken : u = token
      · rw [if_pos htoken, htoken] at hu
        exact absurd hu hroom
      · rw [if_neg htoken, Nat.add_zero]

end Row

/-! ## All rows of an account -/

section Rows

variable {s : Chain} {account : String}

theorem bled_rows (h : Plain s) (ha : NulFree account) (hne : account ≠ recycleFund)
    (rows : List (String × ℕ)) (hnodup : (rows.map (·.1)).Nodup)
    (hrows : ∀ r ∈ rows, NulFree r.1 ∧ s.getBalance account r.1 = r.2) :
    ∃ t, (rows.forM (decayRow account)).run s = (.ok (), t) ∧
      Bled (fun a u => if a = account ∧ u ∈ rows.map (·.1) then bleedOf (s.getBalance account u)
          else 0)
        (fun u => if u ∈ rows.map (·.1) then bleedOf (s.getBalance account u) else 0) s t := by
  induction rows generalizing s with
  | nil =>
    refine ⟨s, rfl, (Bled.refl h).congr (fun a u _ => if_neg ?_) fun u => if_neg List.not_mem_nil⟩
    exact fun hmem => List.not_mem_nil hmem.2
  | cons r rest ih =>
    obtain ⟨token, n⟩ := r
    have hrow : NulFree token ∧ s.getBalance account token = n := hrows _ List.mem_cons_self
    obtain ⟨hnot, hnodup⟩ := List.nodup_cons.1 hnodup
    have hcons : ∀ u, u ∈ ((token, n) :: rest).map (·.1) ↔ u = token ∨ u ∈ rest.map (·.1) :=
      fun u => List.mem_cons
    obtain ⟨t, hrun, hbled⟩ := bled_decayRow h ha hne hrow.1 hrow.2
    -- the other rows stay as they were
    have hother : ∀ u, u ≠ token → t.getBalance account u = s.getBalance account u := by
      intro u hu
      have hrow := hbled.rows account u hne
      rw [if_neg fun heq => hu heq.2, Nat.add_zero] at hrow
      exact hrow
    have hnames : ∀ u ∈ rest.map (·.1), u ≠ token := by
      rintro u hu rfl
      exact hnot hu
    obtain ⟨t', hrun', hbled'⟩ := ih hbled.plain hnodup fun q hq => by
      obtain ⟨hq₁, hq₂⟩ := hrows q (List.mem_cons_of_mem _ hq)
      exact ⟨hq₁, (hother _ (hnames _ (List.mem_map_of_mem hq))).trans hq₂⟩
    refine ⟨t', (run_bind_ok hrun).trans hrun', (hbled.trans hbled').congr ?_ ?_⟩
    · intro a u _
      by_cases haccount : a = account
      · by_cases hu : u = token
        · have hgone : ¬ (a = account ∧ u ∈ rest.map (·.1)) := fun hin => hnames u hin.2 hu
          rw [if_pos ⟨haccount, (hcons u).2 (.inl hu)⟩, if_pos ⟨haccount, hu⟩, if_neg hgone,
            hu, hrow.2, Nat.add_zero]
        · have hnot : ¬ (a = account ∧ u = token) := fun heq => hu heq.2
          rw [if_neg hnot, Nat.zero_add, hother u hu]
          refine if_congr (and_congr_right' ?_) rfl rfl
          rw [hcons, or_iff_right hu]
      · rw [if_neg fun heq => haccount heq.1, if_neg fun heq => haccount heq.1,
          if_neg fun heq => haccount heq.1]
    · intro u
      by_cases hu : u = token
      · have hgone : u ∉ rest.map (·.1) := fun hin => hnames u hin hu
        rw [if_pos ((hcons u).2 (.inl hu)), if_pos hu, if_neg hgone, hu, hrow.2, Nat.add_zero]
      · rw [if_neg hu, Nat.zero_add, hother u hu]
        refine if_congr ?_ rfl rfl
        rw [hcons, or_iff_right hu]

theorem mem_tokenBalances {token : String} {n : ℕ} :
    (token, n) ∈ tokenBalances account s ↔ s.balances.get (balanceKey account token) = some n := by
  unfold tokenBalances
  rw [List.mem_map]
  constructor
  · rintro ⟨⟨k, m⟩, hmem, heq⟩
    obtain ⟨htoken, rfl⟩ := Prod.mk.inj heq
    obtain ⟨hget, hprefix⟩ := Kv.mem_scan.1 hmem
    have hkey : k = balanceKey account token := by
      rw [← htoken]
      exact Text.eq_append_dropPrefix hprefix
    rw [← hkey]
    exact hget
  · intro hget
    refine ⟨(balanceKey account token, n), Kv.mem_scan.2 ⟨hget, ?_⟩, ?_⟩
    · exact Text.hasPrefix_append _ _
    · exact Prod.ext (Text.dropPrefix_append (account ++ "\x00") token) rfl

theorem nodup_tokenBalances : ((tokenBalances account s).map (·.1)).Nodup := by
  unfold tokenBalances
  rw [List.map_map]
  have hkeys : ((s.balances.scan (hasPrefix (account ++ "\x00"))).map (·.1)).Nodup :=
    List.pairwise_map.2 ((s.balances.sorted.filter _).imp fun hlt => hlt.ne)
  have hlift : ((s.balances.scan (hasPrefix (account ++ "\x00"))).map
      (dropPrefix (account ++ "\x00") ∘ (·.1))).Nodup := by
    rw [← List.map_map]
    refine hkeys.map_on fun k hk j hj heq => ?_
    obtain ⟨p, hp, rfl⟩ := List.mem_map.1 hk
    obtain ⟨q, hq, rfl⟩ := List.mem_map.1 hj
    rw [Text.eq_append_dropPrefix (Kv.mem_scan.1 hp).2, heq,
      ← Text.eq_append_dropPrefix (Kv.mem_scan.1 hq).2]
  exact hlift

/-- The decay of an account takes its part of every balance the account has. -/
theorem bled_decayAccount (h : Plain s) (ha : NulFree account) (hne : account ≠ recycleFund) :
    ∃ t, (decayAccount account).run s = (.ok (), t) ∧
      Bled (fun a u => if a = account then bleedOf (s.getBalance account u) else 0)
        (fun u => bleedOf (s.getBalance account u)) s t := by
  obtain ⟨t, hrun, hbled⟩ := bled_rows h ha hne (tokenBalances account s) nodup_tokenBalances
    fun r hr => by
      have hget := mem_tokenBalances.1 hr
      obtain ⟨-, a, u, ha', hu, hkey⟩ := h.rows _ _ hget
      obtain ⟨rfl, rfl⟩ := (balanceKey_inj_of_nulFree ha' hu).1 hkey.symm
      unfold Chain.getBalance
      rw [hget, Option.getD_some]
      exact ⟨hu, rfl⟩
  -- a token without a row has nothing to lose
  have hnone : ∀ u, u ∉ (tokenBalances account s).map (·.1) →
      bleedOf (s.getBalance account u) = 0 := by
    intro u hu
    unfold Chain.getBalance
    cases hget : s.balances.get (balanceKey account u) with
    | none => exact bleedOf_zero
    | some n => exact absurd (List.mem_map.2 ⟨(u, n), mem_tokenBalances.2 hget, rfl⟩) hu
  refine ⟨t, hrun, hbled.congr (fun a u _ => ?_) fun u => ?_⟩
  · by_cases hu : u ∈ (tokenBalances account s).map (·.1)
    · exact if_congr (and_iff_left hu).symm rfl rfl
    · have hgone : ¬ (a = account ∧ u ∈ (tokenBalances account s).map (·.1)) := fun hin => hu hin.2
      rw [if_neg hgone, hnone u hu, ite_self]
  · by_cases hu : u ∈ (tokenBalances account s).map (·.1)
    · rw [if_pos hu]
    · rw [if_neg hu, hnone u hu]

end Rows

/-! ## All accounts -/

/-- What decay takes from a balance in an epoch. -/
def takenFrom (epoch : ℕ) (s : Chain) (ids : List String) (account token : String) : ℕ :=
  if account ∈ ids ∧ Dormant epoch s account then bleedOf (s.getBalance account token) else 0

/-- What decay takes of a token in an epoch. -/
def takenOf (epoch : ℕ) (s : Chain) (ids : List String) (token : String) : ℕ :=
  ((ids.filter fun a => Dormant epoch s a).map fun a => bleedOf (s.getBalance a token)).sum

def accountIds (s : Chain) : List String := s.accounts.bindings.map (·.1)

section Accounts

variable {s : Chain} {epoch : ℕ}

/-- One round of the sweep over the accounts. -/
def decayRound (epoch : ℕ) (account : String) : Prog { pays := Set.univ } Unit := do
  let alive ← stateGet .alive account
  when (account ∉ undecayedAccounts ∧
      livenessGraceEpochs + livenessDecayDelayEpochs < epoch - alive.getD 0)
    (decayAccount account)

theorem run_decayRound (account : String) : (decayRound epoch account).run s =
    if Dormant epoch s account then (decayAccount account).run s else (.ok (), s) := by
  unfold decayRound
  rw [run_stateGet_bind, run_when]
  rfl

theorem dormant_congr {t : Chain} (h : t.state = s.state) (account : String) :
    Dormant epoch t account ↔ Dormant epoch s account := by
  unfold Dormant Chain.stateGet
  rw [h]

variable (epoch) in
theorem bled_ids (h : Plain s) (ids : List String) (hnodup : ids.Nodup)
    (hids : ∀ account ∈ ids, NulFree account) :
    ∃ t, (ids.forM (decayRound epoch)).run s = (.ok (), t) ∧
      Bled (takenFrom epoch s ids) (takenOf epoch s ids) s t := by
  induction ids generalizing s with
  | nil =>
    refine ⟨s, rfl, (Bled.refl h).congr (fun a u _ => if_neg ?_) fun u => rfl⟩
    exact fun hin => List.not_mem_nil hin.1
  | cons account rest ih =>
    obtain ⟨hnot, hnodup⟩ := List.nodup_cons.1 hnodup
    have hrest : ∀ a ∈ rest, NulFree a := fun a ha => hids a (List.mem_cons_of_mem _ ha)
    by_cases hdormant : Dormant epoch s account
    · obtain ⟨t, hrun, hbled⟩ := bled_decayAccount h (hids account List.mem_cons_self)
        hdormant.ne_recycleFund
      have hround : (decayRound epoch account).run s = (.ok (), t) := by
        rw [run_decayRound, if_pos hdormant, hrun]
      obtain ⟨t', hrun', hbled'⟩ := ih hbled.plain hnodup hrest
      -- the accounts still to come have what they had
      have hother : ∀ a u, a ≠ account → a ≠ recycleFund → t.getBalance a u = s.getBalance a u := by
        intro a u ha hfund
        have hrow := hbled.rows a u hfund
        rw [if_neg ha, Nat.add_zero] at hrow
        exact hrow
      refine ⟨t', (run_bind_ok hround).trans hrun', (hbled.trans hbled').congr ?_ ?_⟩
      · intro a u hfund
        have hlater : takenFrom epoch t rest a u =
            if a ∈ rest ∧ Dormant epoch s a then bleedOf (t.getBalance a u) else 0 :=
          if_congr (and_congr_right' (dormant_congr hbled.state_eq a)) rfl rfl
        rw [hlater]
        unfold takenFrom
        by_cases ha : a = account
        · subst ha
          rw [if_pos ⟨List.mem_cons_self, hdormant⟩, if_pos rfl, if_neg fun hin => hnot hin.1,
            Nat.add_zero]
        · rw [if_neg ha, Nat.zero_add, hother a u ha hfund]
          refine if_congr (and_congr_left' ?_) rfl rfl
          rw [List.mem_cons, or_iff_right ha]
      · intro u
        unfold takenOf
        rw [List.filter_cons_of_pos (by simpa using hdormant), List.map_cons, List.sum_cons]
        have hfilter : (rest.filter fun a => Dormant epoch t a) =
            rest.filter fun a => Dormant epoch s a :=
          List.filter_congr fun a _ => decide_eq_decide.2 (dormant_congr hbled.state_eq a)
        rw [hfilter]
        refine congrArg (_ + List.sum ·) (List.map_congr_left fun a ha => ?_)
        obtain ⟨hmem, hsilent⟩ := List.mem_filter.1 ha
        rw [hother a u (fun heq => hnot (heq ▸ hmem)) (of_decide_eq_true hsilent).ne_recycleFund]
    · have hround : (decayRound epoch account).run s = (.ok (), s) := by
        rw [run_decayRound, if_neg hdormant]
      obtain ⟨t, hrun, hbled⟩ := ih h hnodup hrest
      refine ⟨t, (run_bind_ok hround).trans hrun, hbled.congr (fun a u _ => ?_) fun u => ?_⟩
      · unfold takenFrom
        refine if_congr ?_ rfl rfl
        constructor
        · rintro ⟨hin, hsilent⟩
          rcases List.mem_cons.1 hin with rfl | hin
          · exact absurd hsilent hdormant
          · exact ⟨hin, hsilent⟩
        · exact fun hin => ⟨List.mem_cons_of_mem _ hin.1, hin.2⟩
      · unfold takenOf
        rw [List.filter_cons_of_neg (by simpa using hdormant)]

theorem nodup_accountIds : (accountIds s).Nodup :=
  List.pairwise_map.2 (s.accounts.sorted.imp fun hlt => hlt.ne)

theorem nulFree_of_mem_accountIds (h : Plain s) {account : String} (hmem : account ∈ accountIds s) :
    NulFree account := by
  obtain ⟨⟨k, v⟩, hbinding, rfl⟩ := List.mem_map.1 hmem
  have hget : s.accounts.get k = some v := (Kv.lookup_eq_some_iff s.accounts.sorted).2 hbinding
  exact h.ids k (by rw [hget, Option.isSome_some])

/-- One application of the decay: what it takes from whom. -/
theorem bled_applyEntropyDecay (h : Plain s) (epoch : ℕ) :
    Bled (takenFrom epoch s (accountIds s)) (takenOf epoch s (accountIds s)) s
      ((applyEntropyDecay epoch).run s).2 := by
  obtain ⟨t, hrun, hbled⟩ := bled_ids epoch h (accountIds s) nodup_accountIds
    fun a ha => nulFree_of_mem_accountIds h ha
  have happly : (applyEntropyDecay epoch).run s = (.ok (), t) := hrun
  rw [happly]
  exact hbled

end Accounts

end HoneNode
