import HoneNode.Lib.Decimal
import HoneNode.Identity.Calls

/-!
# Identity.Index — the derived keys of a name

The owner entry, the inventory keys, the primary names, the offers and the
counter all repeat something that the records of the names say. `Indexed` is
the agreement; a sale and a recovery move a name by different code but do the
same to it.
-/

namespace HoneNode.Identity

open Entry Prog Within Trace

/-! ## Keys -/

theorem toList_heldKey (a name : String) :
    (heldKey a name).toList = a.toList ++ ':' :: name.toList := by
  unfold heldKey
  rw [String.toList_append, String.toList_append]
  change a.toList ++ [':'] ++ name.toList = _
  rw [List.append_assoc, List.singleton_append]

/-- A name has no separator in it. -/
theorem colon_notMem {name : String} (h : isValidIdentityName name = true) :
    ':' ∉ name.toList := by
  intro hmem
  unfold isValidIdentityName at h
  simp only [Bool.and_eq_true, List.all_eq_true] at h
  exact absurd (h.2 ':' hmem) (by decide)

/-- An inventory key names one account and one name. -/
theorem heldKey_inj {a b name other : String} (h : ':' ∉ name.toList) (h' : ':' ∉ other.toList) :
    heldKey a name = heldKey b other ↔ a = b ∧ name = other := by
  constructor
  · intro heq
    have hname := Text.lastPiece_of_toList (toList_heldKey a name) h
    rw [heq, Text.lastPiece_of_toList (toList_heldKey b other) h'] at hname
    subst hname
    have hlist := congrArg String.toList heq
    rw [toList_heldKey, toList_heldKey] at hlist
    exact ⟨String.toList_inj.1 (List.append_cancel_right hlist), rfl⟩
  · rintro ⟨rfl, rfl⟩
    rfl

/-! ## The invariant -/

namespace Registry

/-- The owner that the record of a name shows. -/
def ownerOf (r : Registry) (name : String) : Option String := (r.nfts.get name).map (·.owner)

end Registry

/-- What the derived keys say is what the records say. -/
structure Indexed (r : Registry) : Prop where
  named : ∀ name nft, r.nfts.get name = some nft →
    nft.name = name ∧ isValidIdentityName name = true
  owned : ∀ name, r.owners.get name = r.ownerOf name
  held : ∀ a name, isValidIdentityName name = true →
    ((r.held.get (heldKey a name)).isSome ↔ r.ownerOf name = some a)
  primary : ∀ a name, r.primaries.get a = some name → r.ownerOf name = some a
  offered : ∀ name offer, r.offers.get name = some offer → r.ownerOf name = some offer.from_
  counted : r.count = r.nfts.bindings.length % 2 ^ 64

namespace Registry

theorem ownerOf_put (r : Registry) (nft : NameNft) (name : String) :
    (r.put nft).ownerOf name = if nft.name = name then some nft.owner else r.ownerOf name := by
  unfold ownerOf put
  rw [Kv.get_put]
  split <;> rfl

theorem ownerOf_of_get {r : Registry} {name : String} {nft : NameNft}
    (h : r.nfts.get name = some nft) : r.ownerOf name = some nft.owner := by
  rw [ownerOf, h, Option.map_some]

/-- A strip works on credentials only. -/
theorem strip_eq (r : Registry) (name : String) :
    ∃ tokens active, r.strip name = { r with tokens := tokens, active := active } := by
  unfold strip
  generalize r.activeOn name = ids
  induction ids generalizing r with
  | nil => exact ⟨r.tokens, r.active, rfl⟩
  | cons tokenId rest ih =>
    obtain ⟨tokens, active, heq⟩ := ih (stripOne name r tokenId)
    refine ⟨tokens, active, ?_⟩
    rw [List.foldl_cons, heq]
    unfold stripOne
    split
    · split <;> rfl
    · rfl

end Registry

/-- The number of bindings is a sum over them. -/
theorem length_bindings {ν : Type} (m : Kv String ν) :
    m.bindings.length = m.sumBy fun _ _ => 1 := by
  unfold Kv.sumBy
  induction m.bindings with
  | nil => rfl
  | cons b rest ih => rw [List.length_cons, ih, Kv.sumList, Nat.add_comm]

section Steps

variable {r : Registry} {name : String} {nft nft' : NameNft}

/-- A record that is replaced is not counted again. -/
theorem length_put_of_get {ν : Type} {m : Kv String ν} {k : String} {v : ν} (v' : ν)
    (h : m.get k = some v) : (m.put k v').bindings.length = m.bindings.length := by
  have hsum := Kv.sumBy_put (fun _ _ => 1) m k v'
  rw [h] at hsum
  rw [length_bindings, length_bindings]
  simpa using hsum

theorem length_put_of_none {ν : Type} {m : Kv String ν} {k : String} (v' : ν)
    (h : m.get k = none) : (m.put k v').bindings.length = m.bindings.length + 1 := by
  have hsum := Kv.sumBy_put (fun _ _ => 1) m k v'
  rw [h] at hsum
  rw [length_bindings, length_bindings]
  simpa using hsum

/-- Credentials are no part of it. -/
theorem Indexed.withTokens (h : Indexed r) (tokens : Kv String SoulboundToken)
    (active : Kv String Unit) : Indexed { r with tokens := tokens, active := active } where
  named := h.named
  owned := h.owned
  held := h.held
  primary := h.primary
  offered := h.offered
  counted := h.counted

/-- An offer goes. -/
theorem Indexed.withdrawn (h : Indexed r) (name : String) :
    Indexed { r with offers := r.offers.del name } where
  named := h.named
  owned := h.owned
  held := h.held
  primary := h.primary
  offered := by
    intro other offer hget
    rw [Kv.get_del] at hget
    split at hget
    · cases hget
    · exact h.offered other offer hget
  counted := h.counted

/-- The record of a name is replaced by one with the same owner. -/
theorem Indexed.amended (h : Indexed r) (hget : r.nfts.get name = some nft)
    (hname : nft'.name = nft.name) (howner : nft'.owner = nft.owner) : Indexed (r.put nft') := by
  have hkey := h.named name nft hget
  have hkeep : ∀ other, (r.put nft').ownerOf other = r.ownerOf other := by
    intro other
    rw [Registry.ownerOf_put, hname, howner, hkey.1]
    split
    · next heq => rw [← heq, Registry.ownerOf_of_get hget]
    · rfl
  refine ⟨?_, ?_, ?_, ?_, ?_, ?_⟩
  · intro other nft₁ hget₁
    unfold Registry.put at hget₁
    rw [Kv.get_put] at hget₁
    split at hget₁
    · next heq =>
      cases hget₁
      rw [← heq, hname, hkey.1]
      exact ⟨rfl, hkey.2⟩
    · exact h.named other nft₁ hget₁
  · intro other
    rw [hkeep, ← h.owned]
    unfold Registry.put
    rw [Kv.get_put, hname, howner, hkey.1]
    split
    · next heq => rw [← heq, h.owned, Registry.ownerOf_of_get hget]
    · rfl
  · intro a other hvalid
    rw [hkeep]
    exact h.held a other hvalid
  · intro a other hprimary
    rw [hkeep]
    exact h.primary a other hprimary
  · intro other offer hoffer
    rw [hkeep]
    exact h.offered other offer hoffer
  · refine h.counted.trans ?_
    unfold Registry.put
    dsimp only
    rw [hname, hkey.1, length_put_of_get _ hget]

/-- A name goes from its owner to another account, or back to its owner. -/
theorem Indexed.handedOver (h : Indexed r) (hget : r.nfts.get name = some nft) (nft' : NameNft)
    (hname : nft'.name = nft.name) :
    Indexed ((r.put nft').moved name nft.owner nft'.owner) := by
  have hkey := h.named name nft hget
  have hold := Registry.ownerOf_of_get hget
  have hmoved : ∀ other, ((r.put nft').moved name nft.owner nft'.owner).ownerOf other =
      if name = other then some nft'.owner else r.ownerOf other := by
    intro other
    have hput := Registry.ownerOf_put r nft' other
    rw [hname, hkey.1] at hput
    exact hput
  refine ⟨?_, ?_, ?_, ?_, ?_, ?_⟩
  · intro other nft₁ hget₁
    unfold Registry.moved Registry.put at hget₁
    rw [Kv.get_put] at hget₁
    split at hget₁
    · next heq =>
      cases hget₁
      rw [← heq, hname, hkey.1]
      exact ⟨rfl, hkey.2⟩
    · exact h.named other nft₁ hget₁
  · intro other
    rw [hmoved]
    unfold Registry.moved Registry.put
    rw [Kv.get_put, hname, hkey.1]
    split
    · rfl
    · exact h.owned other
  · intro a other hvalid
    have hcolon := colon_notMem hvalid
    have hcolon' := colon_notMem hkey.2
    rw [hmoved]
    unfold Registry.moved
    rw [Kv.get_put, Kv.get_del]
    simp only [heldKey_inj hcolon' hcolon]
    by_cases heq : name = other
    · subst heq
      by_cases hto : nft'.owner = a
      · simp [hto]
      · by_cases hfrom : nft.owner = a
        · simp [hto, hfrom]
        · have hnone := h.held a name hvalid
          rw [hold, Option.some_inj] at hnone
          simpa [hto, hfrom, Registry.put] using hnone
    · simpa [heq, Registry.put] using h.held a other hvalid
  · intro a other hprimary
    rw [hmoved]
    -- the old owner is the only account that may have shown the name
    by_cases heq : name = other
    · subst heq
      exfalso
      unfold Registry.moved Registry.put at hprimary
      dsimp only at hprimary
      split at hprimary
      · rw [Kv.get_del] at hprimary
        split at hprimary
        · cases hprimary
        · next hne =>
          have hshown := h.primary a name hprimary
          rw [hold] at hshown
          exact hne (Option.some.inj hshown)
      · next hne =>
        have hshown := h.primary a name hprimary
        rw [hold] at hshown
        rw [Option.some.inj hshown] at hne
        exact hne hprimary
    · rw [if_neg heq]
      refine h.primary a other ?_
      unfold Registry.moved Registry.put at hprimary
      dsimp only at hprimary
      split at hprimary
      · rw [Kv.get_del] at hprimary
        split at hprimary
        · cases hprimary
        · exact hprimary
      · exact hprimary
  · intro other offer hoffer
    rw [hmoved]
    unfold Registry.moved Registry.put at hoffer
    rw [Kv.get_del] at hoffer
    split at hoffer
    · cases hoffer
    · next hne =>
      rw [if_neg hne]
      exact h.offered other offer hoffer
  · refine h.counted.trans ?_
    unfold Registry.moved Registry.put
    dsimp only
    rw [hname, hkey.1, length_put_of_get _ hget]

/-- A name is minted that nobody has. -/
theorem Indexed.minted {p : IdentityNftMint} (h : Indexed r)
    (hvalid : isValidIdentityName p.name = true) (hnew : r.nfts.get p.name = none) :
    Indexed (r.minted p) := by
  have hold : r.ownerOf p.name = none := by rw [Registry.ownerOf, hnew, Option.map_none]
  have howner : ∀ other, (r.minted p).ownerOf other =
      if p.name = other then some p.to_ else r.ownerOf other := by
    intro other
    unfold Registry.ownerOf Registry.minted
    rw [Kv.get_put]
    split <;> rfl
  -- who had something to show for a name did not have this one
  have hother : ∀ other a, r.ownerOf other = some a → (r.minted p).ownerOf other = some a := by
    intro other a hshown
    rw [howner]
    split
    · next heq =>
      rw [← heq, hold] at hshown
      cases hshown
    · exact hshown
  refine ⟨?_, ?_, ?_, ?_, ?_, ?_⟩
  · intro other nft₁ hget₁
    unfold Registry.minted at hget₁
    rw [Kv.get_put] at hget₁
    split at hget₁
    · next heq =>
      cases hget₁
      rw [← heq]
      exact ⟨rfl, hvalid⟩
    · exact h.named other nft₁ hget₁
  · intro other
    rw [howner, ← h.owned]
    unfold Registry.minted
    rw [Kv.get_put]
  · intro a other hother
    rw [howner]
    unfold Registry.minted
    rw [Kv.get_put]
    simp only [heldKey_inj (colon_notMem hvalid) (colon_notMem hother)]
    by_cases heq : p.name = other
    · subst heq
      by_cases hto : p.to_ = a
      · simp [hto]
      · have hnone := h.held a p.name hvalid
        rw [hold] at hnone
        simpa [hto] using hnone
    · simpa [heq] using h.held a other hother
  · exact fun a other hprimary => hother other a (h.primary a other hprimary)
  · exact fun other offer hoffer => hother other _ (h.offered other offer hoffer)
  · unfold Registry.minted
    dsimp only
    rw [h.counted, length_put_of_none _ hnew]
    unfold wrapAdd
    omega

/-- Whatever an entry does. -/
theorem Indexed.effect {op : IdentityOp} {res : Except Fault Unit} {r' : Registry} (h : Indexed r)
    (heffect : Effect r op res r') : Indexed r' := by
  cases heffect with
  | refused msg => exact h
  | lapsed msg hoffer => exact h.withdrawn _
  | withdrawn hoffer => exact h.withdrawn _
  | minted hvalid hnew _ => exact h.minted hvalid hnew
  | offered hget howner hfree =>
    refine ⟨h.named, h.owned, h.held, h.primary, ?_, h.counted⟩
    intro other offer hoffer
    rw [Kv.get_put] at hoffer
    split at hoffer
    · next heq =>
      cases hoffer
      rw [← heq, ← howner]
      exact Registry.ownerOf_of_get hget
    · exact h.offered other offer hoffer
  | @sold p offer nft hoffer hto hget hfree howner =>
    rw [← howner]
    obtain ⟨tokens, active, heq⟩ := Registry.strip_eq _ _
    rw [heq]
    have hmoved := h.handedOver hget
      { nft with owner := p.to_, recovery := none, transferable := true } rfl
    exact hmoved.withTokens tokens active
  | primary hget howner =>
    refine ⟨h.named, h.owned, h.held, ?_, h.offered, h.counted⟩
    intro a other hshown
    rw [Kv.get_put] at hshown
    split at hshown
    · next heq =>
      cases hshown
      rw [← heq, ← howner]
      exact Registry.ownerOf_of_get hget
    · exact h.primary a other hshown
  | amended hget hamends => exact h.amended hget (by cases hamends <;> rfl) (by cases hamends <;> rfl)
  | recovered hget hrecovery hseq hother => exact h.handedOver hget _ rfl
  | issued hnew hget hclass => exact h.withTokens _ _
  | taken htoken hpending hget howner => exact h.withTokens _ _
  | dropped htoken hparty => exact h.withTokens _ _
  | revoked htoken hissuer => exact h.withTokens _ _

end Steps

/-! ## Runs -/

section Runs

variable {P : Chain → IdentityOp → Prop} {s : Chain} {hist : List (Chain × IdentityOp)}

theorem indexed_unused : Indexed ⟨∅, ∅, ∅, ∅, ∅, 0, ∅, ∅⟩ where
  named := fun _ _ h => nomatch h
  owned := fun _ => rfl
  held := fun _ _ _ => iff_of_false (by simp) (by simp [Registry.ownerOf])
  primary := fun _ _ h => nomatch h
  offered := fun _ _ h => nomatch h
  counted := rfl

theorem indexed_of_run (h : Run (registry Unused) P hist s) : Indexed (registryOf s) := by
  refine registry_invariant ?_ ?_ h
  · intro s hs
    rw [hs]
    exact indexed_unused
  · intro s op r' _ heffect hi
    exact hi.effect heffect

/-- In every run from no names on: the owner entry of a name is the owner in its record, its
inventory key exists for the owner and nobody else, whoever shows it as primary name owns it, an
offer that is open is from the owner, and the counter is the number of names as far as a `u64`
counts. -/
theorem names_indexed (h : Run (registry Unused) (fun _ _ => True) hist s) :
    (∀ name, s.stateGet .nameOwner name = (s.stateGet .nameNft name).map (·.owner)) ∧
      (∀ name, isValidIdentityName name = true → ∀ a,
        ((s.stateGet .nameHeld (heldKey a name)).isSome ↔
          (s.stateGet .nameNft name).map (·.owner) = some a)) ∧
      (∀ name nft, s.stateGet .nameNft name = some nft →
        nft.name = name ∧ isValidIdentityName name = true) ∧
      (∀ a name, s.stateGet .accountName a = some name →
        (s.stateGet .nameNft name).map (·.owner) = some a) ∧
      (∀ name offer, s.stateGet .namePending name = some offer →
        (s.stateGet .nameNft name).map (·.owner) = some offer.from_) ∧
      registeredCount s = (s.state .nameNft).bindings.length % 2 ^ 64 := by
  have hi := indexed_of_run h
  exact ⟨hi.owned, fun name hvalid a => hi.held a name hvalid, hi.named, hi.primary, hi.offered,
    hi.counted⟩

end Runs

def mintCool : IdentityOp := .mint ⟨"coolname", "alice", 1, 1, "alice", none⟩

def offerCool : IdentityOp := .transfer ⟨"coolname", "alice", "bob", 2, 2, "alice", none⟩

def buyCool : IdentityOp := .accept ⟨"coolname", "bob", 3, 1, "bob", none⟩

/-- A primary name is sold. -/
theorem names_indexed_sold :
    let showCool := IdentityOp.setPrimary ⟨"alice", "coolname", 1, 2, "alice", none⟩
    let s := (registry Unused).exec {} [mintCool, showCool, offerCool, buyCool]
    s.stateGet .nameOwner "coolname" = some "bob" ∧
    (∀ name, s.stateGet .nameOwner name = (s.stateGet .nameNft name).map (·.owner)) ∧
    (∀ a name, s.stateGet .accountName a = some name →
      (s.stateGet .nameNft name).map (·.owner) = some a) := by
  intro showCool s
  have hindexed := names_indexed (s := s) (Run.exec (.start (show Unused {} from rfl))
    (legal_true _ _))
  exact ⟨by decide +kernel, hindexed.1, hindexed.2.2.2.1⟩

/-! ### A full counter -/

/-- The issuer mints a number to itself. -/
def numbered (n : ℕ) : IdentityNftMint :=
  ⟨toString n, issuerAccount, 1, 1, issuerAccount, none⟩

theorem isValidIdentityName_toString {n : ℕ} (h : n < 2 ^ 64) :
    isValidIdentityName (toString n) = true := by
  have hlist : (toString n).toList = Nat.toDigits 10 n := by
    rw [Nat.toString_eq_repr, Nat.toList_repr]
  have hdigit : ∀ c ∈ (toString n).toList, c.isDigit := fun c hc => Text.isDigit_of_mem_toString hc
  have hdash : '-' ∉ (toString n).toList := fun hc => absurd (hdigit '-' hc) (by decide)
  have hlen : (Nat.toDigits 10 n).length ≤ 63 :=
    (Nat.length_toDigits_le_iff (by decide) (by decide)).2 (h.trans (by norm_num))
  unfold isValidIdentityName
  simp only [Bool.and_eq_true, decide_eq_true_eq, Text.utf8ByteSize_toString, List.all_eq_true]
  refine ⟨⟨⟨⟨Nat.length_toDigits_pos, hlen⟩, ?_⟩, ?_⟩, ?_⟩
  · exact fun hhead => hdash (List.mem_of_mem_head? hhead)
  · exact fun hlast => hdash (List.mem_of_mem_getLast? hlast)
  · intro c hc
    simp [hdigit c hc]

/-- The issuer can mint any valid name that is new. -/
theorem run_issuerMint {s : Chain} {p : IdentityNftMint}
    (hissuer : p.signedBy = issuerAccount) (hvalid : isValidIdentityName p.name = true)
    (hnew : (registryOf s).nfts.get p.name = none)
    (hunowned : (registryOf s).owners.get p.name = none)
    (hunmarked : s.stateGet .nameAuctionActive p.name = none) :
    ∃ u, (applyIdentityNftMint p).run s = (.ok (), u) ∧ registryOf u = (registryOf s).minted p ∧
      u.state .nameAuctionActive = s.state .nameAuctionActive := by
  have hnote := (noted s p.signedBy p.epoch).withAccount p.to_ p.epoch
  rw [← hnote.stateGet (by decide)] at hunmarked
  rw [← hnote.state .nameAuctionActive (by decide)]
  rw [← registryOf_noted hnote] at hnew hunowned ⊢
  unfold applyIdentityNftMint
  rw [run_touchAlive_bind, run_ensureAccount_bind,
    run_ensureAccount_bind]
  generalize ((s.touched p.signedBy p.epoch).withAccount p.signedBy p.epoch).withAccount p.to_
    p.epoch = t at hnew hunowned hunmarked ⊢
  have hfree : (t.stateGet .nameNft p.name).isNone ∧ (t.stateGet .nameOwner p.name).isNone :=
    ⟨Option.isNone_iff_eq_none.2 hnew, Option.isNone_iff_eq_none.2 hunowned⟩
  rw [run_ensure_bind hvalid, run_stateGet_bind,
    run_stateGet_bind, run_ensure_bind hfree,
    run_stateGet_bind,
    run_ensure_bind (Option.isNone_iff_eq_none.2 hunmarked),
    run_ensure_bind (.inr hissuer),
    run_ensure_bind (.inr hissuer), run_inspect_bind,
    run_ensure_bind (.inr hissuer), run_bind_ok (run_putNft _ _),
    run_stateSet_bind, run_stateSet]
  refine ⟨_, rfl, ?_, ?_⟩
  · simp only [registryOf_setCount, registryOf_setHeld, registryOf_setOwner, registryOf_setNft]
    rfl
  · rw [state_stateSet_of_ne _ (by decide), state_stateSet_of_ne _ (by decide),
      state_stateSet_of_ne _ (by decide), state_stateSet_of_ne _ (by decide)]

/-- The issuer can go on to mint the numbers in turn. -/
theorem numbers_minted {n : ℕ} (h : n ≤ 2 ^ 64) :
    ∃ hist s, Run (registry Unused) (fun _ _ => True) hist s ∧
      (registryOf s).nfts.bindings.length = n ∧
      (∀ name nft, (registryOf s).nfts.get name = some nft → ∃ m < n, toString m = name) ∧
      s.state .nameAuctionActive = ∅ := by
  induction n with
  | zero =>
    refine ⟨[], {}, .start rfl, rfl, ?_, rfl⟩
    intro name nft hget
    cases hget
  | succ n ih =>
    obtain ⟨hist, s, hrun, hlen, hnames, hmarks⟩ := ih (by omega)
    have hi := indexed_of_run hrun
    -- the next number is not among the names so far
    have hnew : (registryOf s).nfts.get (toString n) = none := by
      by_contra hsome
      obtain ⟨nft, hget⟩ := Option.ne_none_iff_exists'.1 hsome
      obtain ⟨m, hm, heq⟩ := hnames _ _ hget
      have := Text.toString_inj (by omega) (by omega) heq
      omega
    have hunowned : (registryOf s).owners.get (toString n) = none := by
      rw [hi.owned, Registry.ownerOf, hnew, Option.map_none]
    have hunmarked : s.stateGet .nameAuctionActive (toString n) = none := by
      rw [Chain.stateGet, hmarks]
      rfl
    have hvalid := isValidIdentityName_toString (n := n) (by omega)
    obtain ⟨u, hmint, hu, hkeep⟩ :=
      run_issuerMint (p := numbered n) rfl hvalid hnew hunowned hunmarked
    have hstep := Run.step (.mint (numbered n)) hrun trivial
    change Run _ _ _ ((applyIdentityNftMint (numbered n)).run s).2 at hstep
    rw [hmint] at hstep
    refine ⟨_, u, hstep, ?_, ?_, by rw [hkeep, hmarks]⟩
    · rw [hu]
      unfold Registry.minted
      dsimp only [numbered]
      rw [length_put_of_none _ hnew, hlen]
    · intro name nft hget
      rw [hu] at hget
      unfold Registry.minted at hget
      dsimp only [numbered] at hget
      rw [Kv.get_put] at hget
      split at hget
      · next heq => exact ⟨n, by omega, heq⟩
      · obtain ⟨m, hm, heq⟩ := hnames name nft hget
        exact ⟨m, by omega, heq⟩

/-- After `2 ^ 64` mints the counter starts over. -/
theorem registered_count_wraps :
    ∃ hist s, Run (registry Unused) (fun _ _ => True) hist s ∧
      registeredCount s ≠ (s.state .nameNft).bindings.length := by
  obtain ⟨hist, s, hrun, hlen, -⟩ := numbers_minted (le_refl (2 ^ 64))
  refine ⟨hist, s, hrun, ?_⟩
  have hcount := (indexed_of_run hrun).counted
  change registeredCount s = (s.state .nameNft).bindings.length % 2 ^ 64 at hcount
  change (s.state .nameNft).bindings.length = 2 ^ 64 at hlen
  rw [hcount, hlen]
  norm_num

end HoneNode.Identity
