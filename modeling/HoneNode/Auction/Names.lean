import HoneNode.Auction.Calls

/-!
# Auction.Names — one auction for a name, and one owner

A name is put up by an auction, marked while the auction is open, and owned
once it is sold or minted. Only a mint looks at the mark. Opening a name checks
its owner but not its mark, settling assigns the name without another look at
the owner, and neither a cancelled nor an unsold auction takes its mark back.
`Clear` is what the callers have to keep to instead.
-/

namespace HoneNode.Auction

open Entry Prog Within Trace

/-- Auction entries and mints. -/
inductive NameOp where
  | auction (op : AuctionOp)
  | mint (p : IdentityNftMint)

def NameOp.run (s : Chain) : NameOp → Except Fault Unit × Chain
  | .auction op => op.run s
  | .mint p => (applyIdentityNftMint p).run s

/-- No auctions and no marks at first; the rest of the node leaves auctions, marks and owners
alone. -/
def registry : Component Chain NameOp where
  init := fun s => (∀ id, s.stateGet .auction id = none) ∧
    ∀ name, s.stateGet .nameAuctionActive name = none
  step := fun s op => (op.run s).2
  other := fun s s' => s'.state .auction = s.state .auction ∧
    s'.state .nameAuctionActive = s.state .nameAuctionActive ∧
    s'.state .nameOwner = s.state .nameOwner

/-- The name an open auction is for. -/
def offered (auction : AuctionState) : Option String :=
  if isLive auction then
    match auction.kind with
    | .name name => some name
    | .freeport _ _ => none
  else none

/-- The name that is up under an id. -/
def listing (s : Chain) (id : String) : Option String := (s.stateGet .auction id).bind offered

/-- The lot is not a name in an auction. -/
def isUnmarked (s : Chain) : AuctionKind → Bool
  | .name name => (s.stateGet .nameAuctionActive name).isNone
  | .freeport _ _ => true

/-- A name is opened without a mark, nothing is opened over an open name auction, and a name
auction is neither cancelled nor settled without a bid. -/
def Clear (s : Chain) : NameOp → Prop
  | .mint _ => True
  | .auction op =>
    (∀ kind ∈ op.lot, isFree s kind → isUnmarked s kind ∧ listing s op.auctionId = none) ∧
      ∀ auction ∈ s.stateGet .auction op.auctionId, offered auction ≠ none →
        (∀ epoch ∈ op.closing, auction.endEpoch < epoch → auction.topBidder ≠ none) ∧
        (∀ opener ∈ op.canceller, auction.opener = opener → auction.topBidder ≠ none)

instance decidableClear (s : Chain) : ∀ op, Decidable (Clear s op)
  | .mint _ => .isTrue trivial
  | .auction op =>
    inferInstanceAs (Decidable (_ ∧ ∀ auction ∈ s.stateGet .auction op.auctionId, _))

/-! ## One call -/

/-- A mark names the auction the name is up in, and a name that is up has no owner. -/
structure Kept (s : Chain) : Prop where
  marked : ∀ name id, s.stateGet .nameAuctionActive name = some id ↔ listing s id = some name
  unowned : ∀ name id, listing s id = some name → s.stateGet .nameOwner name = none

/-- Owners stay. -/
def Owners (s s' : Chain) : Prop :=
  ∀ name owner, s.stateGet .nameOwner name = some owner → s'.stateGet .nameOwner name = some owner

instance : IsPreorder Chain Owners where
  refl := fun _ _ _ h => h
  trans := fun _ _ _ h h' name owner hs => h' name owner (h name owner hs)

section Steps

variable {s s' t : Chain} {op : AuctionOp} {id : String} {auction : AuctionState}

theorem Stored.listing (h : Stored s s' id auction) (key : String) :
    listing s' key = if id = key then offered auction else listing s key := by
  unfold Auction.listing
  rw [h.stateGet]
  split <;> rfl

theorem listing_of_state (h : s'.state .auction = s.state .auction) (id : String) :
    listing s' id = listing s id := by
  unfold listing
  rw [stateGet_of_state h]

theorem listing_of_get (hget : s.stateGet .auction id = some auction) :
    listing s id = offered auction := by
  rw [listing, hget, Option.bind_some]

/-- The mark and the owner of every name are as they were. -/
structure SameNames (s s' : Chain) : Prop where
  marks : s'.state .nameAuctionActive = s.state .nameAuctionActive
  owners : s'.state .nameOwner = s.state .nameOwner

theorem SameNames.ownersKept (h : SameNames s s') : Owners s s' := by
  intro name owner hs
  rw [stateGet_of_state h.owners]
  exact hs

/-- As long as the same names are up under the same ids. -/
theorem Kept.of_listing (hk : Kept s) (h : SameNames s s')
    (hlist : ∀ key, listing s' key = listing s key) : Kept s' where
  marked := by
    intro name key
    rw [stateGet_of_state h.marks, hlist]
    exact hk.marked name key
  unowned := by
    intro name key hkey
    rw [stateGet_of_state h.owners]
    rw [hlist] at hkey
    exact hk.unowned name key hkey

theorem kept_noted (hk : Kept s) (hnote : Noted s s') : Kept s' ∧ Owners s s' := by
  have hsame : SameNames s s' := ⟨hnote.state _ (by decide), hnote.state _ (by decide)⟩
  exact ⟨hk.of_listing hsame (listing_of_state (hnote.state _ (by decide))), hsame.ownersKept⟩

/-- An edit of a record that leaves the name that is up. -/
theorem kept_edit (hk : Kept s) (hstore : Stored s s' id auction) (hsame : SameNames s s')
    (hoffered : offered auction = listing s id) : Kept s' ∧ Owners s s' := by
  refine ⟨hk.of_listing hsame fun key => ?_, hsame.ownersKept⟩
  rw [hstore.listing]
  split
  · next hid => rw [← hid, hoffered]
  · rfl

/-- Closing the auction of anything but a name. -/
theorem kept_closed {closed : AuctionState} (hk : Kept s)
    (hget : s.stateGet .auction id = some auction) (hclosed : offered closed = none)
    (hoffered : offered auction = none) :
    Kept (s.stateSet .auction id closed) ∧ Owners s (s.stateSet .auction id closed) := by
  refine kept_edit hk (stored_stateSet rfl _ _) ⟨?_, ?_⟩ ?_
  · exact state_stateSet_of_ne _ (by decide) _ _
  · exact state_stateSet_of_ne _ (by decide) _ _
  · rw [hclosed, listing_of_get hget, hoffered]

/-- A name without a mark is put up under an id where no other is. -/
theorem kept_opened {name : String} (hk : Kept s) (hstore : Stored s s' id auction)
    (hoffered : offered auction = some name) (hfree : s.stateGet .nameOwner name = none)
    (hunmarked : s.stateGet .nameAuctionActive name = none) (hnone : listing s id = none)
    (hmarks : ∀ n, s'.stateGet .nameAuctionActive n =
      if name = n then some id else s.stateGet .nameAuctionActive n)
    (howners : s'.state .nameOwner = s.state .nameOwner) : Kept s' ∧ Owners s s' := by
  refine ⟨⟨?_, ?_⟩, ?_⟩
  · intro n key
    rw [hmarks, hstore.listing, hoffered]
    by_cases hn : name = n
    · subst hn
      rw [if_pos rfl]
      by_cases hkey : id = key
      · simp [hkey]
      · rw [if_neg hkey, ← hk.marked, hunmarked]
        simp [hkey]
    · rw [if_neg hn, hk.marked]
      by_cases hkey : id = key
      · subst hkey
        simp [hnone, hn]
      · rw [if_neg hkey]
  · intro n key hkey
    rw [stateGet_of_state howners]
    rw [hstore.listing, hoffered] at hkey
    split at hkey
    · obtain rfl : name = n := Option.some.inj hkey
      exact hfree
    · exact hk.unowned n key hkey
  · intro n owner hn
    rw [stateGet_of_state howners]
    exact hn

/-- The name that is up under an id gets its owner, and the auction ends. -/
theorem kept_sold {name : String} (winner : String) (hk : Kept s) (hstore : Stored s s' id auction)
    (hclosed : offered auction = none) (hlisted : listing s id = some name)
    (hmarks : ∀ n, s'.stateGet .nameAuctionActive n =
      if name = n then none else s.stateGet .nameAuctionActive n)
    (howners : ∀ n, s'.stateGet .nameOwner n =
      if name = n then some winner else s.stateGet .nameOwner n) : Kept s' ∧ Owners s s' := by
  -- no other auction sells the name
  have honly : ∀ key, listing s key = some name → id = key := by
    intro key hkey
    have h := (hk.marked name id).2 hlisted
    rw [(hk.marked name key).2 hkey] at h
    exact (Option.some.inj h).symm
  refine ⟨⟨?_, ?_⟩, ?_⟩
  · intro n key
    rw [hmarks, hstore.listing, hclosed]
    by_cases hn : name = n
    · subst hn
      by_cases hkey : id = key
      · simp [hkey]
      · simp only [if_pos, if_neg hkey]
        exact iff_of_false (by simp) fun h => hkey (honly key h)
    · rw [if_neg hn, hk.marked]
      by_cases hkey : id = key
      · subst hkey
        simp [hlisted, hn]
      · rw [if_neg hkey]
  · intro n key hkey
    rw [hstore.listing, hclosed] at hkey
    split at hkey
    · cases hkey
    · next hne =>
      rw [howners]
      by_cases hn : name = n
      · subst hn
        exact absurd (honly key hkey) hne
      · rw [if_neg hn]
        exact hk.unowned n key hkey
  · intro n owner hn
    rw [howners]
    by_cases hname : name = n
    · subst hname
      rw [hk.unowned name id hlisted] at hn
      cases hn
    · rw [if_neg hname]
      exact hn

theorem mark_awarded (name winner n : String) (t : Chain) :
    (awarded (.name name) winner t).stateGet .nameAuctionActive n =
      if name = n then none else t.stateGet .nameAuctionActive n := by
  dsimp only [awarded]
  rw [stateGet_stateDelete, stateGet_stateSet_of_ne _ (by decide),
    stateGet_stateSet_of_ne _ (by decide)]

theorem owner_awarded (name winner n : String) (t : Chain) :
    (awarded (.name name) winner t).stateGet .nameOwner n =
      if name = n then some winner else t.stateGet .nameOwner n := by
  have hdelete := Chain.state_stateDelete_of_ne (f := .nameAuctionActive) (g := .nameOwner)
    ((t.stateSet .nameOwner name winner).stateSet .accountName winner name) (by decide) name
  dsimp only [awarded]
  rw [stateGet_of_state hdelete, stateGet_stateSet_of_ne _ (by decide),
    stateGet_stateSet]

theorem offered_of_closed (h : isLive auction = false) : offered auction = none := by
  rw [offered, h]
  rfl

/-- Whatever an auction entry that keeps to `Clear` does. -/
theorem kept_auction (hk : Kept s) (hclear : Clear s (.auction op)) :
    Kept (op.run s).2 ∧ Owners s (op.run s).2 := by
  have hcall := call s op
  generalize op.run s = r at hcall
  cases hcall with
  | refused msg hnote => exact kept_noted hk hnote
  | @opened t kind opener minBid endEpoch epoch hnote hlot hfree =>
    obtain ⟨hunmarked, hnone⟩ := hclear.1 kind hlot hfree
    have hstore := stored_marked hnote kind op.auctionId
      (.opened op.auctionId kind opener minBid endEpoch epoch)
    cases kind with
    | name name =>
      refine kept_opened hk hstore rfl (Option.isNone_iff_eq_none.1 hfree)
        (Option.isNone_iff_eq_none.1 hunmarked) hnone ?_ ?_
      · intro n
        dsimp only [marked]
        rw [stateGet_stateSet, stateGet_stateSet_of_ne _ (by decide),
          hnote.stateGet (by decide)]
      · dsimp only [marked]
        rw [state_stateSet_of_ne _ (by decide), state_stateSet_of_ne _ (by decide),
          hnote.state _ (by decide)]
    | freeport itemType itemId =>
      refine kept_edit hk hstore ⟨?_, ?_⟩ hnone.symm
      · dsimp only [marked]
        rw [state_stateSet_of_ne _ (by decide), hnote.state _ (by decide)]
      · dsimp only [marked]
        rw [state_stateSet_of_ne _ (by decide), hnote.state _ (by decide)]
  | @bid t bidder amount auction hnote hoffer hget hlive hmore hfunds hrefund =>
    have hstate : (refunded auction (t.debited bidder nativeToken amount)).state = t.state :=
      state_refunded _ _
    refine kept_edit hk (stored_stateSet ?_ _ _) ⟨?_, ?_⟩ ?_
    · rw [hstate, hnote.state _ (by decide)]
    · rw [state_stateSet_of_ne _ (by decide), hstate, hnote.state _ (by decide)]
    · rw [state_stateSet_of_ne _ (by decide), hstate, hnote.state _ (by decide)]
    · rw [listing_of_get hget]
      rfl
  | @lost t bidder amount auction msg hnote hoffer hget hlive hmore hrefund =>
    have hsame : SameNames s (t.debited bidder nativeToken amount) :=
      ⟨hnote.state _ (by decide), hnote.state _ (by decide)⟩
    exact ⟨hk.of_listing hsame (listing_of_state (hnote.state .auction (by decide))),
      hsame.ownersKept⟩
  | @unsold epoch auction hclosing hget hlive hover hnone =>
    refine kept_closed hk hget (offered_of_closed rfl) ?_
    by_contra hname
    exact ((hclear.2 auction hget hname).1 epoch hclosing hover) hnone
  | @sold epoch auction winner hclosing hget hlive hover hwinner =>
    have hstore : Stored s ((awarded auction.kind winner (paid auction s)).stateSet .auction
        op.auctionId { auction with settled := true }) op.auctionId
        { auction with settled := true } := by
      refine stored_stateSet ?_ _ _
      rw [state_awarded, state_paid]
    have hlisting := listing_of_get hget
    unfold offered at hlisting
    rw [if_pos hlive] at hlisting
    cases hkind : auction.kind with
    | name name =>
      rw [hkind] at hlisting hstore
      refine kept_sold winner hk hstore (offered_of_closed rfl) hlisting ?_ ?_
      · intro n
        rw [stateGet_stateSet_of_ne _ (by decide), mark_awarded,
          stateGet_of_state (congrFun (state_paid auction s) _)]
      · intro n
        rw [stateGet_stateSet_of_ne _ (by decide), owner_awarded,
          stateGet_of_state (congrFun (state_paid auction s) _)]
    | freeport itemType itemId =>
      rw [hkind] at hlisting hstore
      refine kept_edit hk hstore ⟨?_, ?_⟩ ((offered_of_closed rfl).trans hlisting.symm)
      · rw [state_stateSet_of_ne _ (by decide), ← congrFun (state_paid auction s)]
        exact state_stateSet_of_ne _ (by decide) _ _
      · rw [state_stateSet_of_ne _ (by decide), ← congrFun (state_paid auction s)]
        exact state_stateSet_of_ne _ (by decide) _ _
  | @cancelled auction hcancel hget hlive hnone =>
    refine kept_closed hk hget (offered_of_closed (by simp [isLive])) ?_
    by_contra hname
    exact ((hclear.2 auction hget hname).2 _ hcancel rfl) hnone

/-- A mint is refused, or gives a name without mark and owner its owner. -/
theorem run_mint (s : Chain) (p : IdentityNftMint) :
    (∃ msg t, (applyIdentityNftMint p).run s = (.error (.err msg), t) ∧ Noted s t) ∨
      (s.stateGet .nameOwner p.name = none ∧ s.stateGet .nameAuctionActive p.name = none) ∧
      ∃ t u, Noted s t ∧ (applyIdentityNftMint p).run s = (.ok (), u) ∧
        u.state .auction = t.state .auction ∧
        u.state .nameAuctionActive = t.state .nameAuctionActive ∧
        u.state .nameOwner = (t.state .nameOwner).put p.name p.to_ := by
  have hnote := (noted s p.signedBy p.epoch).withAccount p.to_ p.epoch
  unfold applyIdentityNftMint
  rw [run_touchAlive_bind, run_ensureAccount_bind,
    run_ensureAccount_bind]
  generalize ((s.touched p.signedBy p.epoch).withAccount p.signedBy p.epoch).withAccount p.to_
    p.epoch = t at hnote
  rcases refused_or_ensure (s := t) (isValidIdentityName p.name = true) _ _ with ⟨msg, h⟩ | ⟨-, h⟩
  · exact .inl ⟨msg, t, h, hnote⟩
  rw [h, run_stateGet_bind, run_stateGet_bind]
  rcases refused_or_ensure (s := t) ((t.stateGet .nameNft p.name).isNone = true ∧
    (t.stateGet .nameOwner p.name).isNone = true) _ _ with ⟨msg, h⟩ | ⟨hfree, h⟩
  · exact .inl ⟨msg, t, h, hnote⟩
  rw [h, run_stateGet_bind]
  rcases refused_or_ensure (s := t) ((t.stateGet .nameAuctionActive p.name).isNone = true) _ _ with
    ⟨msg, h⟩ | ⟨hunmarked, h⟩
  · exact .inl ⟨msg, t, h, hnote⟩
  rw [h]
  rcases refused_or_ensure (s := t) (p.to_ = p.signedBy ∨ p.signedBy = issuerAccount) _ _ with
    ⟨msg, h⟩ | ⟨-, h⟩
  · exact .inl ⟨msg, t, h, hnote⟩
  rw [h]
  rcases refused_or_ensure (s := t) (¬ isReserved p.name = true ∨ p.signedBy = issuerAccount) _ _
    with ⟨msg, h⟩ | ⟨-, h⟩
  · exact .inl ⟨msg, t, h, hnote⟩
  rw [h, run_inspect_bind]
  rcases refused_or_ensure (s := t) (registeredCount t < identityOpenPhaseLimit ∨
    p.signedBy = issuerAccount) _ _ with ⟨msg, h⟩ | ⟨-, h⟩
  · exact .inl ⟨msg, t, h, hnote⟩
  rw [hnote.stateGet (by decide), Option.isNone_iff_eq_none] at hunmarked
  have howner := hfree.2
  rw [hnote.stateGet (by decide), Option.isNone_iff_eq_none] at howner
  exact .inr ⟨⟨howner, hunmarked⟩, t, _, hnote, h.trans rfl, rfl, rfl, rfl⟩

theorem kept_mint (hk : Kept s) (p : IdentityNftMint) :
    Kept ((applyIdentityNftMint p).run s).2 ∧ Owners s ((applyIdentityNftMint p).run s).2 := by
  rcases run_mint s p with ⟨msg, t, hrun, hnote⟩ | ⟨⟨hnone, hunmarked⟩, t, u, hnote, hrun, hauction,
    hmarks, howners⟩
  · rw [hrun]
    exact kept_noted hk hnote
  rw [hrun]
  obtain ⟨hk, htowners⟩ := kept_noted hk hnote
  have hlist := listing_of_state hauction
  have howner : ∀ name, u.stateGet .nameOwner name =
      if p.name = name then some p.to_ else t.stateGet .nameOwner name := by
    intro name
    rw [Chain.stateGet, howners, Kv.get_put]
    rfl
  refine ⟨⟨?_, ?_⟩, trans_of Owners htowners ?_⟩
  · intro name id
    rw [stateGet_of_state hmarks, hlist]
    exact hk.marked name id
  · intro name id hid
    rw [hlist] at hid
    rw [howner]
    split
    · next hname =>
      -- the name that is minted is not up
      have hmark := (hk.marked name id).2 hid
      rw [hnote.stateGet (by decide), ← hname, hunmarked] at hmark
      cases hmark
    · exact hk.unowned name id hid
  · intro name owner hget
    rw [howner]
    split
    · next hname =>
      rw [hnote.stateGet (by decide), ← hname, hnone] at hget
      cases hget
    · exact hget

theorem kept_run (hk : Kept s) (op : NameOp) (hclear : Clear s op) :
    Kept (op.run s).2 ∧ Owners s (op.run s).2 := by
  cases op with
  | auction op => exact kept_auction hk hclear
  | mint p => exact kept_mint hk p

end Steps

/-! ## Runs -/

section Runs

variable {s : Chain} {hist : List (Chain × NameOp)}

theorem kept_reached (h : Run registry Clear hist s) : Kept s := by
  refine h.invariant ?_ ?_ ?_
  · rintro s ⟨hauctions, hmarks⟩
    have hlist : ∀ id, listing s id = none := by
      intro id
      rw [listing, hauctions]
      rfl
    refine ⟨fun name id => ?_, fun name id hid => ?_⟩
    · rw [hmarks, hlist]
      exact iff_of_false (by simp) (by simp)
    · rw [hlist] at hid
      cases hid
  · intro s op hclear hk
    exact (kept_run hk op hclear).1
  · rintro s t ⟨hauction, hmarks, howners⟩ hk
    exact hk.of_listing ⟨hmarks, howners⟩ (listing_of_state hauction)

/-- In every run of calls that keep to `Clear`, a name keeps its first owner, is up in at most
one auction, and has a mark exactly while it is up. -/
theorem names_owned_once_and_marked (h : Run registry Clear hist s) :
    (∀ c ∈ hist, Owners c.1 s) ∧
      (∀ name id id', listing s id = some name → listing s id' = some name → id = id') ∧
      ∀ name, (s.stateGet .nameAuctionActive name).isSome ↔ ∃ id, listing s id = some name := by
  have hk := kept_reached h
  refine ⟨?_, ?_, ?_⟩
  · induction h with
    | start => exact fun c hc => nomatch hc
    | @step hist s op hrun hclear ih =>
      have hstep := (kept_run (kept_reached hrun) op hclear).2
      intro c hc
      rcases List.mem_cons.1 hc with rfl | hc
      · exact hstep
      · exact trans_of Owners (ih (kept_reached hrun) c hc) hstep
    | @other hist s t hrun hs ih =>
      intro c hc name owner hget
      rw [stateGet_of_state hs.2.2]
      exact ih (kept_reached hrun) c hc name owner hget
  · intro name id id' hid hid'
    have hmark := (hk.marked name id).2 hid
    rw [(hk.marked name id').2 hid'] at hmark
    exact (Option.some.inj hmark).symm
  · intro name
    rw [Option.isSome_iff_exists]
    exact exists_congr fun id => hk.marked name id

end Runs

/-! ### One name, twice -/

def openName (id name : String) : NameOp :=
  .auction (.nameOpen ⟨id, name, "opal", 10, 5, 1, 1, "opal", none⟩)

def bidOn (id bidder : String) (amount : ℕ) : NameOp :=
  .auction (.nameBid ⟨id, bidder, amount, 2, 1, bidder, none⟩)

def settleAt (id : String) (epoch : ℕ) : NameOp :=
  .auction (.nameSettle ⟨id, "opal", epoch, 2, "opal", none⟩)

def mintOf (name : String) : NameOp := .mint ⟨name, "ann", 7, 2, "ann", none⟩

/-- One name sold, one minted, one still up. -/
theorem names_owned_once_and_marked_three :
    let ops := [openName "a1" "long-enough", bidOn "a1" "ann" 100, settleAt "a1" 6,
      mintOf "never-put-up", openName "a2" "another-one"]
    let hist := registry.record biddersFunded ops []
    let s := registry.exec biddersFunded ops
    (s.stateGet .nameOwner "long-enough" = some "ann" ∧
      s.stateGet .nameOwner "never-put-up" = some "ann" ∧ listing s "a2" = some "another-one") ∧
    (∀ c ∈ hist, Owners c.1 s) ∧
      (∀ name id id', listing s id = some name → listing s id' = some name → id = id') ∧
      ∀ name, (s.stateGet .nameAuctionActive name).isSome ↔ ∃ id, listing s id = some name := by
  intro ops hist s
  have hlegal : Legal registry Clear biddersFunded ops := by decide +kernel
  refine ⟨by decide +kernel, names_owned_once_and_marked (Run.exec (.start ?_) hlegal)⟩
  exact ⟨fun _ => rfl, fun _ => rfl⟩

/-- Two auctions of one name are open at once, and the second sale takes it from its owner; a
cancelled and an unsold auction leave the mark, and the name cannot be minted. -/
theorem name_sold_twice_and_marked_for_good :
    let after := fun ops => registry.exec biddersFunded ops
    let two := [openName "a1" "long-enough", openName "a2" "long-enough",
      bidOn "a1" "ann" 100, bidOn "a2" "bob" 100]
    let cancelled := [openName "a1" "long-enough",
      .auction (.cancel ⟨"a1", "opal", 2, 2, "opal", none⟩)]
    let unsold := [openName "a1" "long-enough", settleAt "a1" 6]
    (listing (after two) "a1" = some "long-enough" ∧
        listing (after two) "a2" = some "long-enough") ∧
      ((after (two ++ [settleAt "a1" 6])).stateGet .nameOwner "long-enough" = some "ann" ∧
        (after (two ++ [settleAt "a1" 6, settleAt "a2" 6])).stateGet .nameOwner "long-enough" =
          some "bob") ∧
      (listing (after cancelled) "a1" = none ∧
        (after cancelled).stateGet .nameAuctionActive "long-enough" = some "a1" ∧
        ((mintOf "long-enough").run (after cancelled)).1.isOk = false) ∧
      (listing (after unsold) "a1" = none ∧
        (after unsold).stateGet .nameAuctionActive "long-enough" = some "a1" ∧
        ((mintOf "long-enough").run (after unsold)).1.isOk = false) ∧
      ((mintOf "long-enough").run biddersFunded).1.isOk = true := by
  decide +kernel

end HoneNode.Auction
