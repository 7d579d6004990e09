import HoneNode.Apply
import HoneNode.Lib.Trace

/-!
# Links — API keys and wallets, looked up from both sides

An account has an API key and a family of wallets, and there is an index back from
each key and each wallet address to the account.

1. **One entry**: what setting a key and publishing wallets do to the four families.
2. **The condition** under which one entry keeps the indexes inverse.
3. **Runs** (`links_inverse`).
-/

namespace HoneNode.Links

open Entry Prog Within Trace

/-! ## The component -/

inductive Op where
  | accountApiKeySet (now : ℕ) (p : AccountApiKeySet)
  | walletFamilyPublish (now : ℕ) (p : WalletFamilyPublish)
  | walletFamilyAdd (now : ℕ) (p : WalletFamilyAdd)

namespace Op

def now : Op → ℕ
  | .accountApiKeySet now _ | .walletFamilyPublish now _ | .walletFamilyAdd now _ => now

def entry : Op → LedgerEntry
  | .accountApiKeySet _ p => .accountApiKeySet p
  | .walletFamilyPublish _ p => .walletFamilyPublish p
  | .walletFamilyAdd _ p => .walletFamilyAdd p

def account : Op → String
  | .accountApiKeySet _ p => p.account
  | .walletFamilyPublish _ p => p.account
  | .walletFamilyAdd _ p => p.account

end Op

def walletKey (chain address : String) : String := s!"{chain}:{address}"

/-- A wallet is in a family. -/
def Has (family : List WalletAddress) (chain address : String) : Prop :=
  ∃ w ∈ family, w.chain = chain ∧ w.address = address

/-- A wallet is among those of an entry. -/
def Asked (chains : List ChainAddress) (chain address : String) : Prop :=
  ∃ ca ∈ chains, ca.chain = chain ∧ ca.address = address

/-- A wallet is in an account's family. -/
def Listed (s : Chain) (account chain address : String) : Prop :=
  Has ((s.stateGet .walletFamily account).getD []) chain address

/-- Both indexes say the same from either side. -/
structure Inverse (s : Chain) : Prop where
  keys : ∀ k a, s.stateGet .apiKey k = some a ↔ s.stateGet .accountApiKey a = some k
  wallets : ∀ c x a, s.stateGet .walletAddr (walletKey c x) = some a ↔ Listed s a c x

/-- The rest of the chain leaves the four families alone. -/
def component (env : Env) : Component Chain Op where
  init := fun s => s.state .apiKey = ∅ ∧ s.state .accountApiKey = ∅ ∧ s.state .walletAddr = ∅ ∧
    s.state .walletFamily = ∅
  step := fun s op => (applyEntry env op.now op.entry s).2
  other := fun s s' => s'.state .apiKey = s.state .apiKey ∧
    s'.state .accountApiKey = s.state .accountApiKey ∧
    s'.state .walletAddr = s.state .walletAddr ∧ s'.state .walletFamily = s.state .walletFamily

/-- No wallet that is new to the family is in another one, nor has it a key that reads as a wallet
outside of the family. -/
def FreshWallets (s : Chain) (account : String) (chains : List ChainAddress) : Prop :=
  ∀ c x, Asked chains c x → ¬ Listed s account c x →
    s.stateGet .walletAddr (walletKey c x) = none ∧
      ∀ c' x', walletKey c' x' = walletKey c x → Listed s account c' x' ∨ Asked chains c' x'

/-- No other account has the key or the wallets that are set. -/
def Fresh (s : Chain) : Op → Prop
  | .accountApiKeySet _ p => ∀ b, s.stateGet .apiKey p.apiKey = some b → b = p.account
  | .walletFamilyPublish _ p => FreshWallets s p.account p.chains
  | .walletFamilyAdd _ p => FreshWallets s p.account p.chains

/-- An entry leaves the links of all other accounts alone. -/
def Spares (account : String) (s t : Chain) : Prop :=
  ∀ b, b ≠ account →
    (∀ k, t.stateGet .apiKey k = some b ↔ s.stateGet .apiKey k = some b) ∧
    ∀ c x, t.stateGet .walletAddr (walletKey c x) = some b ↔
      s.stateGet .walletAddr (walletKey c x) = some b

/-! ## One entry -/

section Entries

variable {env : Env} {s t : Chain} {now epoch : ℕ} {account c x : String}
  {chains : List ChainAddress} {family : List WalletAddress}

/-- Everything that setting a key does. -/
theorem run_accountApiKeySet (p : AccountApiKeySet) :
    ∃ t, applyEntry env now (.accountApiKeySet p) s = (.ok (), t) ∧
      (∀ k, t.stateGet .apiKey k = if p.apiKey = k then some p.account
        else if s.stateGet .accountApiKey p.account = some k then none
        else s.stateGet .apiKey k) ∧
      (∀ a, t.stateGet .accountApiKey a =
        if p.account = a then some p.apiKey else s.stateGet .accountApiKey a) ∧
      t.state .walletAddr = s.state .walletAddr ∧ t.state .walletFamily = s.state .walletFamily := by
  change ∃ t, (applyAccountApiKeySet p).run s = (.ok (), t) ∧ _
  have hnoted := noted_touched s p.account p.epoch
  have hget : ∀ f k, f ≠ .alive →
      (s.touched p.account p.epoch).stateGet f k = s.stateGet f k := fun f k hf =>
    stateGet_of_state (hnoted.state f hf) k
  unfold applyAccountApiKeySet
  rw [run_touchAlive_bind, run_stateGet_bind, hget _ _ (by decide)]
  cases hold : s.stateGet .accountApiKey p.account with
  | none =>
    refine ⟨_, rfl, fun k => ?_, fun a => ?_, ?_, ?_⟩
    · rw [stateGet_stateSet_of_ne _ (by decide), stateGet_stateSet, hget _ _ (by decide),
        if_neg (nofun : ¬ (none = some k))]
    · rw [stateGet_stateSet, stateGet_stateSet_of_ne _ (by decide), hget _ _ (by decide)]
    · rw [state_stateSet_of_ne _ (by decide), state_stateSet_of_ne _ (by decide),
        hnoted.state _ (by decide)]
    · rw [state_stateSet_of_ne _ (by decide), state_stateSet_of_ne _ (by decide),
        hnoted.state _ (by decide)]
  | some old =>
    refine ⟨_, rfl, fun k => ?_, fun a => ?_, ?_, ?_⟩
    · rw [stateGet_stateSet_of_ne _ (by decide), stateGet_stateSet,
        stateGet_stateDelete, hget _ _ (by decide)]
      simp only [Option.some.injEq]
    · rw [stateGet_stateSet, stateGet_stateSet_of_ne _ (by decide),
        stateGet_of_state (Chain.state_stateDelete_of_ne _ (by decide) _), hget _ _ (by decide)]
    · rw [state_stateSet_of_ne _ (by decide), state_stateSet_of_ne _ (by decide),
        Chain.state_stateDelete_of_ne _ (by decide), hnoted.state _ (by decide)]
    · rw [state_stateSet_of_ne _ (by decide), state_stateSet_of_ne _ (by decide),
        Chain.state_stateDelete_of_ne _ (by decide), hnoted.state _ (by decide)]

theorem has_append_singleton (w : WalletAddress) :
    Has (family ++ [w]) c x ↔ Has family c x ∨ (w.chain = c ∧ w.address = x) := by
  unfold Has
  constructor
  · rintro ⟨v, hv, hpair⟩
    rcases List.mem_append.1 hv with hv | hv
    · exact .inl ⟨v, hv, hpair⟩
    · cases List.mem_singleton.1 hv
      exact .inr hpair
  · rintro (⟨v, hv, hpair⟩ | hpair)
    · exact ⟨v, List.mem_append_left _ hv, hpair⟩
    · exact ⟨w, List.mem_append_right _ (List.mem_singleton_self w), hpair⟩

theorem asked_cons (ca : ChainAddress) :
    Asked (ca :: chains) c x ↔ (ca.chain = c ∧ ca.address = x) ∨ Asked chains c x := by
  unfold Asked
  rw [List.exists_mem_cons_iff]

theorem any_iff_has (ca : ChainAddress) :
    (family.any fun w => w.chain = ca.chain && w.address = ca.address) = true ↔
      Has family ca.chain ca.address := by
  rw [List.any_eq_true]
  unfold Has
  simp only [Bool.and_eq_true, decide_eq_true_eq]

/-- The wallets of an entry join the family, and the new ones get their index. -/
theorem run_addWallets : ∃ family' t, (addWallets account chains family).run s = (.ok family', t) ∧
    (∀ c x, Has family' c x ↔ Has family c x ∨ Asked chains c x) ∧
    (∀ c x, Asked chains c x → ¬ Has family c x →
      t.stateGet .walletAddr (walletKey c x) = some account) ∧
    (∀ key, (∀ c x, Asked chains c x → ¬ Has family c x → walletKey c x ≠ key) →
      t.stateGet .walletAddr key = s.stateGet .walletAddr key) ∧
    ∀ f, f ≠ .walletAddr → t.state f = s.state f := by
  induction chains generalizing family s with
  | nil =>
    refine ⟨family, s, rfl, fun c x => ?_, fun c x h => ?_, fun _ _ => rfl, fun _ _ => rfl⟩
    · constructor
      · exact .inl
      · rintro (h | ⟨ca, hca, -⟩)
        · exact h
        · cases hca
    · obtain ⟨ca, hca, -⟩ := h
      cases hca
  | cons ca rest ih =>
    unfold addWallets
    by_cases hhas : Has family ca.chain ca.address
    · -- listed already, so it is passed over
      obtain ⟨family', t, hrun, hfamily, htaken, hkept, hrest⟩ := @ih s family
      have hask : ∀ {c x}, Asked (ca :: rest) c x → ¬ Has family c x → Asked rest c x := by
        intro c x h hnot
        rcases (asked_cons ca).1 h with ⟨rfl, rfl⟩ | h
        · exact absurd hhas hnot
        · exact h
      rw [if_pos ((any_iff_has ca).2 hhas)]
      refine ⟨family', t, hrun, fun c x => ?_, fun c x h hnot => htaken c x (hask h hnot) hnot,
        fun key h => hkept key fun c x hc => h c x ((asked_cons ca).2 (.inr hc)), hrest⟩
      rw [hfamily, asked_cons]
      constructor
      · exact fun h => h.imp_right .inr
      · rintro (h | ⟨rfl, rfl⟩ | h)
        · exact .inl h
        · exact .inl hhas
        · exact .inr h
    · obtain ⟨family', t, hrun, hfamily, htaken, hkept, hrest⟩ :=
        @ih (s.stateSet .walletAddr (walletKey ca.chain ca.address) account)
          (family ++ [⟨ca.chain, ca.address, ca.derivationPath⟩])
      rw [if_neg (mt (any_iff_has ca).1 hhas), run_stateSet_bind]
      -- the head's own index is written again at most with the same account
      have hhead : t.stateGet .walletAddr (walletKey ca.chain ca.address) = some account := by
        by_cases hagain : ∃ c x, Asked rest c x ∧
            ¬ Has (family ++ [⟨ca.chain, ca.address, ca.derivationPath⟩]) c x ∧
            walletKey c x = walletKey ca.chain ca.address
        · obtain ⟨c, x, hasked, hnew, hkey⟩ := hagain
          rw [← hkey]
          exact htaken c x hasked hnew
        · rw [hkept _ fun c x hasked hnew hkey => hagain ⟨c, x, hasked, hnew, hkey⟩,
            stateGet_stateSet, if_pos rfl]
      refine ⟨family', t, hrun, fun c x => ?_, fun c x h hnot => ?_, fun key h => ?_, fun f hf => ?_⟩
      · rw [hfamily, has_append_singleton, asked_cons, or_assoc]
      · rcases (asked_cons ca).1 h with ⟨rfl, rfl⟩ | h
        · exact hhead
        · by_cases hsame : ca.chain = c ∧ ca.address = x
          · obtain ⟨rfl, rfl⟩ := hsame
            exact hhead
          · exact htaken c x h fun hin =>
              ((has_append_singleton _).1 hin).elim hnot hsame
      · rw [hkept key fun c x hasked hnew => h c x ((asked_cons ca).2 (.inr hasked))
            fun hin => hnew ((has_append_singleton _).2 (.inl hin)),
          stateGet_stateSet, if_neg (h _ _ ((asked_cons ca).2 (.inl ⟨rfl, rfl⟩)) hhas)]
      · rw [hrest f hf, state_stateSet_of_ne _ hf]

/-- Everything that publishing wallets does. -/
theorem run_publishWallets : ∃ t, (publishWallets account chains epoch).run s = (.ok (), t) ∧
    (∀ b c x, Listed t b c x ↔ Listed s b c x ∨ (b = account ∧ Asked chains c x)) ∧
    (∀ c x, Asked chains c x → ¬ Listed s account c x →
      t.stateGet .walletAddr (walletKey c x) = some account) ∧
    (∀ key, (∀ c x, Asked chains c x → ¬ Listed s account c x → walletKey c x ≠ key) →
      t.stateGet .walletAddr key = s.stateGet .walletAddr key) ∧
    t.state .apiKey = s.state .apiKey ∧ t.state .accountApiKey = s.state .accountApiKey := by
  have hnoted := noted_touched s account epoch
  have hget : ∀ f k, f ≠ .alive →
      (s.touched account epoch).stateGet f k = s.stateGet f k := fun f k hf =>
    stateGet_of_state (hnoted.state f hf) k
  obtain ⟨family', u, hrun, hfamily, htaken, hkept, hrest⟩ := @run_addWallets
    (s.touched account epoch) account chains ((s.stateGet .walletFamily account).getD [])
  unfold publishWallets
  rw [run_touchAlive_bind, run_stateGet_bind, hget _ _ (by decide),
    run_bind_ok hrun]
  refine ⟨_, rfl, fun b c x => ?_, fun c x h hnot => ?_, fun key h => ?_, ?_, ?_⟩
  · unfold Listed
    rw [stateGet_stateSet]
    by_cases hb : account = b
    · subst hb
      rw [if_pos rfl, Option.getD_some, hfamily]
      exact or_congr_right ⟨fun h => ⟨rfl, h⟩, fun h => h.2⟩
    · rw [if_neg hb, stateGet_of_state (hrest .walletFamily (by decide)), hget _ _ (by decide)]
      exact ⟨.inl, fun h => h.resolve_right fun h => hb h.1.symm⟩
  · rw [stateGet_stateSet_of_ne _ (by decide)]
    exact htaken c x h hnot
  · rw [stateGet_stateSet_of_ne _ (by decide), hkept key h, hget _ _ (by decide)]
  · rw [state_stateSet_of_ne _ (by decide), hrest _ (by decide), hnoted.state _ (by decide)]
  · rw [state_stateSet_of_ne _ (by decide), hrest _ (by decide), hnoted.state _ (by decide)]

end Entries

/-! ## The condition -/

section Condition

variable {env : Env} {s t : Chain} {now epoch : ℕ} {account : String} {chains : List ChainAddress}
  {op : Op}

/-- Setting a key keeps the indexes inverse exactly if nobody else has it. -/
theorem inverse_accountApiKeySet_iff (p : AccountApiKeySet) (h : Inverse s) :
    Inverse (applyEntry env now (.accountApiKeySet p) s).2 ↔
      ∀ b, s.stateGet .apiKey p.apiKey = some b → b = p.account := by
  obtain ⟨t, hrun, hkey, haccount, haddr, hfamily⟩ := @run_accountApiKeySet env s now p
  rw [hrun]
  constructor
  · intro ht b hb
    by_contra hne
    have hback : t.stateGet .accountApiKey b = some p.apiKey := by
      rw [haccount, if_neg (Ne.symm hne)]
      exact (h.keys _ _).1 hb
    have hsame := (ht.keys _ _).2 hback
    rw [hkey, if_pos rfl] at hsame
    exact hne (Option.some.inj hsame).symm
  · intro hfresh
    constructor
    · intro k a
      change t.stateGet .apiKey k = some a ↔ t.stateGet .accountApiKey a = some k
      rw [hkey, haccount]
      by_cases ha : p.account = a
      · subst ha
        rw [if_pos rfl]
        by_cases hk : p.apiKey = k
        · rw [if_pos hk, hk]
          exact iff_of_true rfl rfl
        · rw [if_neg hk]
          refine iff_of_false ?_ (fun heq => hk (Option.some.inj heq))
          split
          · exact nofun
          · next hold => exact fun hget => hold ((h.keys _ _).1 hget)
      · rw [if_neg ha]
        by_cases hk : p.apiKey = k
        · subst hk
          rw [if_pos rfl]
          refine iff_of_false (fun heq => ha (Option.some.inj heq)) ?_
          exact fun hget => ha (hfresh a ((h.keys _ _).2 hget)).symm
        · rw [if_neg hk]
          split
          · next hold =>
            -- the key that is given up was the account's alone
            refine iff_of_false nofun fun hget => ?_
            have hmine := (h.keys _ _).2 hold
            rw [(h.keys _ _).2 hget] at hmine
            exact ha (Option.some.inj hmine).symm
          · exact h.keys k a
    · intro c x a
      change t.stateGet .walletAddr _ = _ ↔ Listed t a c x
      unfold Listed
      rw [stateGet_of_state haddr, stateGet_of_state hfamily]
      exact h.wallets c x a

/-- Publishing keeps them inverse exactly if the new wallets are fresh. -/
theorem inverse_publishWallets_iff (h : Inverse s) :
    Inverse ((publishWallets account chains epoch).run s).2 ↔ FreshWallets s account chains := by
  obtain ⟨t, hrun, hlisted, htaken, hkept, hapi, hback⟩ :=
    @run_publishWallets s epoch account chains
  rw [hrun]
  constructor
  · intro ht c x hasked hnew
    have hmine := htaken c x hasked hnew
    constructor
    · cases hget : s.stateGet .walletAddr (walletKey c x) with
      | none => rfl
      | some b =>
        have hother := (h.wallets c x b).1 hget
        have hsame := (ht.wallets c x b).2 ((hlisted b c x).2 (.inl hother))
        rw [hmine] at hsame
        cases hsame
        exact absurd hother hnew
    · intro c' x' hkey
      rw [← hkey] at hmine
      exact ((hlisted _ _ _).1 ((ht.wallets c' x' account).1 hmine)).imp_right And.right
  · intro hfresh
    constructor
    · intro k a
      change t.stateGet .apiKey k = some a ↔ t.stateGet .accountApiKey a = some k
      rw [stateGet_of_state hapi, stateGet_of_state hback]
      exact h.keys k a
    · intro c x a
      change t.stateGet .walletAddr _ = _ ↔ Listed t a c x
      rw [hlisted]
      by_cases htake : ∃ c' x', Asked chains c' x' ∧ ¬ Listed s account c' x' ∧
          walletKey c' x' = walletKey c x
      · obtain ⟨c', x', hasked, hnew, hkey⟩ := htake
        obtain ⟨hnone, halias⟩ := hfresh c' x' hasked hnew
        rw [← hkey, htaken c' x' hasked hnew]
        constructor
        · intro heq
          cases heq
          exact (halias c x hkey.symm).imp_right fun h => ⟨rfl, h⟩
        · rintro (hin | ⟨rfl, -⟩)
          · rw [← h.wallets, ← hkey, hnone] at hin
            cases hin
          · rfl
      · rw [hkept _ fun c' x' hasked hnew hkey => htake ⟨c', x', hasked, hnew, hkey⟩, h.wallets]
        constructor
        · exact .inl
        · rintro (hin | ⟨rfl, hasked⟩)
          · exact hin
          · by_contra hnew
            exact htake ⟨c, x, hasked, hnew, rfl⟩

/-- A key without further colons reads in one way only. -/
theorem walletKey_inj {c c' x x' : String} (hc : ':' ∉ c.toList) (hx : ':' ∉ x.toList)
    (h : walletKey c' x' = walletKey c x) : c' = c ∧ x' = x := by
  have htext : ∀ a b, (walletKey a b).toList = a.toList ++ ':' :: b.toList := by
    intro a b
    change (a ++ ":" ++ b).toList = _
    rw [String.toList_append, String.toList_append, List.append_assoc]
    rfl
  have hlist := congrArg String.toList h
  rw [htext, htext] at hlist
  rcases Text.append_sep_first hc hlist.symm with ⟨hsame, hrest⟩ | ⟨z, -, hrest⟩
  · exact ⟨(String.toList_inj.1 hsame).symm, (String.toList_inj.1 hrest).symm⟩
  · rw [hrest] at hx
    exact absurd (List.mem_append_right z List.mem_cons_self) hx

/-- For wallets with no colon in them it is enough that nobody has them. -/
theorem freshWallets_of_plain (hplain : ∀ c x, Asked chains c x → ':' ∉ c.toList ∧ ':' ∉ x.toList)
    (hnone : ∀ c x, Asked chains c x → ¬ Listed s account c x →
      s.stateGet .walletAddr (walletKey c x) = none) : FreshWallets s account chains := by
  intro c x hasked hnew
  refine ⟨hnone c x hasked hnew, fun c' x' hkey => ?_⟩
  obtain ⟨hc, hx⟩ := hplain c x hasked
  obtain ⟨rfl, rfl⟩ := walletKey_inj hc hx hkey
  exact .inr hasked

/-- One entry keeps the indexes inverse exactly under the condition. -/
theorem inverse_step_iff (h : Inverse s) :
    Inverse ((component env).step s op) ↔ Fresh s op := by
  cases op with
  | accountApiKeySet now p => exact inverse_accountApiKeySet_iff p h
  | walletFamilyPublish now p => exact inverse_publishWallets_iff h
  | walletFamilyAdd now p => exact inverse_publishWallets_iff h

theorem publishWallets_other {b : String} (hb : b ≠ account) :
    ((publishWallets account chains epoch).run s).2.stateGet .accountApiKey b =
        s.stateGet .accountApiKey b ∧
      ∀ c x, Listed ((publishWallets account chains epoch).run s).2 b c x ↔ Listed s b c x := by
  obtain ⟨t, hrun, hlisted, -, -, -, hback⟩ := @run_publishWallets s epoch account chains
  rw [hrun]
  refine ⟨stateGet_of_state hback b, fun c x => ?_⟩
  rw [hlisted]
  exact ⟨fun h => h.resolve_right fun h => hb h.1, .inl⟩

/-- Every entry leaves the other accounts' own records alone. -/
theorem step_other {b : String} (hb : b ≠ op.account) :
    ((component env).step s op).stateGet .accountApiKey b = s.stateGet .accountApiKey b ∧
      ∀ c x, Listed ((component env).step s op) b c x ↔ Listed s b c x := by
  cases op with
  | accountApiKeySet now p =>
    obtain ⟨t, hrun, -, haccount, -, hfamily⟩ := @run_accountApiKeySet env s now p
    change (applyEntry env now (.accountApiKeySet p) s).2.stateGet .accountApiKey b = _ ∧
      ∀ c x, Listed (applyEntry env now (.accountApiKeySet p) s).2 b c x ↔ _
    rw [hrun]
    refine ⟨(haccount b).trans (if_neg (Ne.symm hb)), fun c x => ?_⟩
    unfold Listed
    rw [stateGet_of_state hfamily]
  | walletFamilyPublish now p => exact publishWallets_other hb
  | walletFamilyAdd now p => exact publishWallets_other hb

/-- While the indexes are inverse, an entry can only touch its own account's links. -/
theorem spares_of_inverse (h : Inverse s) (h' : Inverse ((component env).step s op)) :
    Spares op.account s ((component env).step s op) := by
  intro b hb
  obtain ⟨hkeys, hlisted⟩ := @step_other env s op b hb
  constructor
  · intro k
    rw [h'.keys, hkeys, h.keys]
  · intro c x
    rw [h'.wallets, hlisted, h.wallets]

end Condition

/-! ## Runs -/

section Runs

variable {env : Env} {s : Chain} {hist : List (Chain × Op)}

theorem inverse_of_run (h : Run (component env) Fresh hist s) : Inverse s := by
  refine h.invariant ?_ ?_ ?_
  · rintro s ⟨hapi, hback, haddr, hfamily⟩
    constructor
    · intro k a
      unfold Chain.stateGet
      rw [hapi, hback]
      exact iff_of_false nofun nofun
    · intro c x a
      unfold Listed Chain.stateGet
      rw [haddr, hfamily]
      exact iff_of_false nofun fun ⟨_, hmem, _⟩ => absurd hmem List.not_mem_nil
  · exact fun s op hop hs => (inverse_step_iff hs).2 hop
  · rintro s t ⟨hapi, hback, haddr, hfamily⟩ hs
    constructor
    · intro k a
      rw [stateGet_of_state hapi, stateGet_of_state hback]
      exact hs.keys k a
    · intro c x a
      unfold Listed
      rw [stateGet_of_state haddr, stateGet_of_state hfamily]
      exact hs.wallets c x a

/-- While nobody sets what another account has, the indexes are inverse and no entry touches
another account's links; and the next entry keeps them inverse exactly under that condition. -/
theorem links_inverse (h : Run (component env) Fresh hist s) :
    Inverse s ∧ (∀ c ∈ hist, Spares c.2.account c.1 ((component env).step c.1 c.2)) ∧
      ∀ op, Inverse ((component env).step s op) ↔ Fresh s op := by
  have hinverse := inverse_of_run h
  refine ⟨hinverse, ?_, fun op => inverse_step_iff hinverse⟩
  rintro ⟨s', op⟩ hmem
  obtain ⟨hop, before, hrun⟩ := h.of_mem hmem
  have hbefore := inverse_of_run hrun
  exact spares_of_inverse hbefore ((inverse_step_iff hbefore).2 hop)

def setting (account key : String) : Op := .accountApiKeySet 0 ⟨account, key, 0, 0, account⟩

def publishing (account chain address : String) : Op :=
  .walletFamilyPublish 0 ⟨account, [⟨chain, address, none, none⟩], 0, 0, account⟩

def after (ops : List Op) : Chain := (component .bare).exec {} ops

/-- A key is set and rotated, and a wallet is published. -/
theorem links_inverse_rotated :
    Inverse (after [setting "ann" "k", setting "ann" "l", publishing "ann" "eth" "1"]) := by
  have hlegal : Legal (component .bare) Fresh {}
      [setting "ann" "k", setting "ann" "l", publishing "ann" "eth" "1"] := by
    refine ⟨?_, ?_, ?_, trivial⟩
    · intro b hb
      cases hb
    · intro b hb
      have hnone : (after [setting "ann" "k"]).stateGet .apiKey "l" = none := rfl
      cases hnone.symm.trans hb
    · have hasked : ∀ c x, Asked [⟨"eth", "1", none, none⟩] c x → c = "eth" ∧ x = "1" := by
        rintro c x ⟨ca, hca, rfl, rfl⟩
        cases List.mem_singleton.1 hca
        exact ⟨rfl, rfl⟩
      refine freshWallets_of_plain (fun c x h => ?_) (fun c x h _ => ?_)
      · obtain ⟨rfl, rfl⟩ := hasked c x h
        decide
      · rfl
  exact (links_inverse (Run.exec (.start ⟨rfl, rfl, rfl, rfl⟩) hlegal)).1

/-- Another account sets the same key and then another one, or publishes the same wallet. -/
theorem links_captured :
    ((after [setting "ann" "k", setting "bob" "k"]).stateGet .accountApiKey "ann" = some "k" ∧
      (after [setting "ann" "k", setting "bob" "k"]).stateGet .apiKey "k" = some "bob" ∧
      (after [setting "ann" "k", setting "bob" "k", setting "bob" "l"]).stateGet .apiKey "k" =
        none) ∧
    (Listed (after [publishing "ann" "eth" "1", publishing "bob" "eth" "1"]) "ann" "eth" "1" ∧
      (after [publishing "ann" "eth" "1", publishing "bob" "eth" "1"]).stateGet .walletAddr
        (walletKey "eth" "1") = some "bob") ∧
    ¬ ∀ hist s, Run (component .bare) (fun _ _ => True) hist s → Inverse s := by
  have hback : (after [setting "ann" "k", setting "bob" "k"]).stateGet .accountApiKey "ann" =
      some "k" := rfl
  have hkey : (after [setting "ann" "k", setting "bob" "k"]).stateGet .apiKey "k" = some "bob" := rfl
  refine ⟨⟨hback, hkey, rfl⟩, ⟨⟨⟨"eth", "1", none⟩, List.mem_cons_self, rfl, rfl⟩, rfl⟩, ?_⟩
  intro h
  have hinverse := h _ (after [setting "ann" "k", setting "bob" "k"])
    (Run.exec (.start ⟨rfl, rfl, rfl, rfl⟩) (legal_true _ _))
  have hsame := hkey.symm.trans ((hinverse.keys "k" "ann").2 hback)
  exact absurd (Option.some.inj hsame) (by decide)

end Runs

end HoneNode.Links
