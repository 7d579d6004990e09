import HoneNode.Identity.Credentials

/-!
# Identity.Sales — credentials and a change of holder

A sale strips the holder-scoped credentials that the index shows on the name,
and a recovery, which brings the same holder a new key, strips none. What is
shown on a name after a sale was then issued after it, as long as the sale finds
no holder-scoped credential of the name still pending: the strip does not see
those, and the new holder can accept them.
-/

namespace HoneNode.Identity

open Entry Prog Within Trace

/-! ## Issues and sales in a history -/

/-- A credential under the id was issued to the name. -/
def IssuedIn (name tokenId : String) (c : Chain × IdentityOp) : Prop :=
  match c.2 with
  | .issue p => p.name = name ∧ p.tokenId = tokenId ∧ (c.2.run c.1).1 = .ok ()
  | _ => False

/-- The name went to a new holder by an offer that was accepted. -/
def SoldIn (name : String) (c : Chain × IdentityOp) : Prop :=
  match c.2 with
  | .accept p => p.name = name ∧ (c.2.run c.1).1 = .ok ()
  | _ => False

instance decidableIssuedIn (name tokenId : String) : DecidablePred (IssuedIn name tokenId)
  | (_, .issue _) => inferInstanceAs (Decidable (_ ∧ _ ∧ _))
  | (_, .mint _) | (_, .transfer _) | (_, .accept _) | (_, .reject _) | (_, .setPrimary _)
  | (_, .setRecovery _) | (_, .lock _) | (_, .unlock _) | (_, .recover _) | (_, .setBackstop _)
  | (_, .acceptToken _) | (_, .rejectToken _) | (_, .revokeToken _) => .isFalse id

instance decidableSoldIn (name : String) : DecidablePred (SoldIn name)
  | (_, .accept _) => inferInstanceAs (Decidable (_ ∧ _))
  | (_, .mint _) | (_, .transfer _) | (_, .reject _) | (_, .setPrimary _)
  | (_, .setRecovery _) | (_, .lock _) | (_, .unlock _) | (_, .recover _) | (_, .setBackstop _)
  | (_, .issue _) | (_, .acceptToken _) | (_, .rejectToken _) | (_, .revokeToken _) => .isFalse id

/-! ## Sales that find nothing pending -/

/-- The offer for the name can be accepted. -/
def Sells (s : Chain) (p : IdentityNftAccept) : Prop :=
  ∃ offer ∈ s.stateGet .namePending p.name, offer.to_ = p.to_ ∧
    p.epoch ≤ satAdd offer.offeredEpoch offerExpiryEpochs ∧
    ∃ nft ∈ s.stateGet .nameNft p.name, nft.transferable = true ∧ nft.owner = offer.from_

instance (s : Chain) (p : IdentityNftAccept) : Decidable (Sells s p) :=
  inferInstanceAs (Decidable (∃ offer ∈ s.stateGet .namePending p.name, _ ∧ _ ∧
    ∃ nft ∈ s.stateGet .nameNft p.name, _))

/-- The holder-scoped credentials of a name that is sold are accepted, and no credential whose id
has a colon is ever accepted. -/
def Swept (s : Chain) : IdentityOp → Prop
  | .accept p => Sells s p → ∀ b ∈ (s.state .sbt).bindings, b.2.class_ = .holderScoped →
      b.2.name = p.name → b.2.accepted = true
  | .acceptToken p => ∀ t ∈ s.stateGet .sbt p.tokenId, t.accepted = false →
      ownerOf s t.name = some p.signedBy → ':' ∉ p.tokenId.toList
  | _ => True

instance decidableSwept (s : Chain) : ∀ op, Decidable (Swept s op)
  | .accept p => inferInstanceAs (Decidable (Sells s p → ∀ b ∈ (s.state .sbt).bindings, _))
  | .acceptToken p => inferInstanceAs (Decidable (∀ t ∈ s.stateGet .sbt p.tokenId, _))
  | .mint _ | .transfer _ | .reject _ | .setPrimary _ | .setRecovery _ | .lock _ | .unlock _
  | .recover _ | .setBackstop _ | .issue _ | .rejectToken _ | .revokeToken _ => .isTrue trivial

/-! ## The strip -/

section Strip

variable {r : Registry} {name tokenId : String}

/-- The strip puts nothing into the index. -/
theorem active_strips (ids : List String) {k : String}
    (h : ((ids.foldl (Registry.stripOne name) r).active.get k).isSome = true) :
    (r.active.get k).isSome = true := by
  induction ids generalizing r with
  | nil => exact h
  | cons head rest ih =>
    have hone := ih h
    unfold Registry.stripOne at hone
    split at hone
    · split at hone
      · rw [Kv.get_del] at hone
        split at hone
        · cases hone
        · exact hone
      · exact hone
    · exact hone

/-- A holder-scoped credential that the strip goes through leaves the index. -/
theorem off_strips (name : String) (hkeyed : ∀ other t, r.tokens.get other = some t → t.tokenId = other)
    {ids : List String} (hmem : tokenId ∈ ids) {t : SoulboundToken}
    (hget : r.tokens.get tokenId = some t) (hclass : t.class_ = .holderScoped) :
    (ids.foldl (Registry.stripOne name) r).active.get (sbtNameKey name tokenId) = none := by
  induction ids generalizing r t with
  | nil => cases hmem
  | cons head rest ih =>
    rw [List.foldl_cons]
    by_cases heq : tokenId = head
    · subst heq
      -- its turn: the key goes, and what follows does not bring it back
      by_contra hsome
      have hone := active_strips rest (Option.isSome_iff_ne_none.2 hsome)
      unfold Registry.stripOne at hone
      rw [hget] at hone
      dsimp only at hone
      rw [if_pos hclass, Kv.get_del_self] at hone
      cases hone
    · have hrest := (List.mem_cons.1 hmem).resolve_left heq
      have hkeyed' := keyed_stripOne hkeyed name head
      rcases tokens_stripOne hkeyed name head tokenId with hsame | ⟨t₁, hget₁, hmark⟩
      · exact ih hkeyed' hrest (hsame.trans hget) hclass
      · obtain rfl : t = t₁ := Option.some.inj (hget.symm.trans hget₁)
        exact ih hkeyed' hrest hmark hclass

end Strip

/-! ## Where a credential comes from -/

/-- What is shown is accepted and has a plain id. -/
def Plain (tokenId : String) (t : SoulboundToken) (on : Bool) : Prop :=
  on = true → t.accepted = true ∧ ':' ∉ tokenId.toList

/-- Holder-scoped, and shown on its name or still pending. -/
def Registry.Open (r : Registry) (tokenId : String) (t : SoulboundToken) : Prop :=
  t.class_ = .holderScoped ∧ (r.listed t.name tokenId = true ∨ t.accepted = false)

/-- What is open was issued after the name was last sold. -/
def Dated (hist : List (Chain × IdentityOp)) (r : Registry) : Prop :=
  ∀ tokenId t, r.tokens.get tokenId = some t → r.Open tokenId t →
    Since (IssuedIn t.name tokenId) (SoldIn t.name) hist

section Steps

variable {s : Chain} {op : IdentityOp} {r r' : Registry} {hist : List (Chain × IdentityOp)}
  {name tokenId : String} {t t' : SoulboundToken}

theorem Tracked.plain {res : Except Fault Unit} (h : Tracked Plain (registryOf s))
    (hi : Indexed (registryOf s)) (hswept : Swept s op) (heffect : Effect (registryOf s) op res r') :
    Tracked Plain r' := by
  refine h.effect hi heffect (fun _ _ hQ => hQ rfl) (fun _ _ _ => nofun) (fun _ _ => nofun) ?_
    (fun _ _ _ _ => nofun)
  rintro p t on rfl htoken hpending hholder -
  exact fun _ => ⟨rfl, hswept t htoken hpending hholder⟩

theorem not_sold_of_error {e : Fault} (h : (op.run s).1 = .error e) : ¬ SoldIn name (s, op) := by
  unfold SoldIn
  cases op with
  | accept p =>
    rintro ⟨-, hok⟩
    rw [h] at hok
    cases hok
  | _ => exact id

theorem not_sold_of_amends {other : String} {nft nft' : NameNft} (h : Amends op other nft nft') :
    ¬ SoldIn name (s, op) := by
  cases h <;> exact id

theorem Registry.Open.of_active (h : r'.Open tokenId t') (hclass : t.class_ = t'.class_)
    (hname : t.name = t'.name) (haccepted : t.accepted = t'.accepted)
    (hactive : r'.listed t'.name tokenId = true → r.listed t'.name tokenId = true) :
    r.Open tokenId t := by
  refine ⟨hclass.trans h.1, ?_⟩
  rw [hname, haccepted]
  exact h.2.imp_left hactive

/-- A key that is there after another was taken was there before. -/
theorem listed_of_del {k : String} {tokens : Kv String SoulboundToken}
    (h : Registry.listed { r with tokens := tokens, active := r.active.del k } name tokenId = true) :
    r.listed name tokenId = true := by
  unfold Registry.listed at h ⊢
  dsimp only at h
  rw [Kv.get_del] at h
  split at h
  · cases h
  · exact h

/-- A credential that was open before and whose name is not sold. -/
theorem Dated.kept (h : Dated hist r) (hget : r.tokens.get tokenId = some t)
    (hopen : r.Open tokenId t) (hname : t.name = name) {c : Chain × IdentityOp}
    (hsold : ¬ SoldIn name c) : Since (IssuedIn name tokenId) (SoldIn name) (c :: hist) := by
  subst hname
  exact .inr ⟨hsold, h tokenId t hget hopen⟩

/-- Credentials and index as before, and no sale. -/
theorem Dated.congr (h : Dated hist r) (htokens : r'.tokens = r.tokens)
    (hactive : r'.active = r.active) {c : Chain × IdentityOp} (hsold : ∀ name, ¬ SoldIn name c) :
    Dated (c :: hist) r' := by
  intro tokenId t hget hopen
  rw [htokens] at hget
  refine h.kept hget (hopen.of_active rfl rfl rfl ?_) rfl (hsold _)
  unfold Registry.listed
  rw [hactive]
  exact id

/-- A sale shows no holder-scoped credential of the name any more. -/
theorem Tracked.not_open_strip (h : Tracked Plain r)
    (hsettled : ∀ tokenId t, r.tokens.get tokenId = some t → t.class_ = .holderScoped →
      t.name = name → t.accepted = true)
    (hget : r.tokens.get tokenId = some t) (hname : t.name = name)
    (hactive : r'.active = (r.strip name).active) (haccepted : t'.accepted = t.accepted)
    (hclass : t'.class_ = t.class_) (hname' : t'.name = t.name) : ¬ r'.Open tokenId t' := by
  rintro ⟨hholder, hshown | hpending⟩
  · have hkeyed : ∀ other t, r.tokens.get other = some t → t.tokenId = other :=
      fun other t hget => (h.keyed other t hget).1
    unfold Registry.listed at hshown
    rw [hactive, hname', hname] at hshown
    have hlisted : r.listed name tokenId = true := active_strips _ hshown
    have hmem := (h.mem_activeOn fun tokenId t hQ => (hQ rfl).2).2 ⟨t, hget, hname, hlisted⟩
    have hoff := off_strips name hkeyed hmem hget (hclass.symm.trans hholder)
    unfold Registry.strip at hshown
    rw [hoff] at hshown
    cases hshown
  · rw [haccepted, hsettled tokenId t hget (hclass.symm.trans hholder) hname] at hpending
    cases hpending

/-- A name that is sold had its holder-scoped credentials accepted. -/
theorem settled_of_sells {p : IdentityNftAccept} (hswept : Swept s (.accept p))
    (hsells : Sells s p) (hget : s.stateGet .sbt tokenId = some t)
    (hclass : t.class_ = .holderScoped) (hname : t.name = p.name) : t.accepted = true :=
  hswept hsells (tokenId, t) ((Kv.lookup_eq_some_iff (s.state .sbt).sorted).1 hget) hclass hname

/-- Whatever an entry does: what is open after it was just issued, or was open before and its name
is not sold. -/
theorem Dated.step (h : Dated hist (registryOf s)) (hplain : Tracked Plain (registryOf s))
    (hswept : Swept s op) (heffect : Effect (registryOf s) op (op.run s).1 r') :
    Dated ((s, op) :: hist) r' := by
  generalize hres : (op.run s).1 = res at heffect
  cases heffect with
  | refused msg => exact h.congr rfl rfl fun _ => not_sold_of_error hres
  | lapsed msg hoffer => exact h.congr rfl rfl fun _ => not_sold_of_error hres
  | minted hvalid hnew hunowned => exact h.congr rfl rfl fun _ => id
  | offered hget howner hfree => exact h.congr rfl rfl fun _ => id
  | withdrawn hoffer => exact h.congr rfl rfl fun _ => id
  | primary hget howner => exact h.congr rfl rfl fun _ => id
  | amended hget hamends => exact h.congr rfl rfl fun _ => not_sold_of_amends hamends
  | recovered hget hrecovery hseq hother => exact h.congr rfl rfl fun _ => id
  | @sold p offer nft hoffer hto hget hfree howner hlive =>
    have hsells : Sells s p := ⟨offer, hoffer, hto, hlive, nft, hget, hfree, howner⟩
    have hmoved : ∀ nft', Tracked Plain (((registryOf s).put nft').moved p.name offer.from_ p.to_) :=
      fun _ => hplain.congr rfl rfl
    intro tokenId t' hget' hopen
    -- the record is the old one, or the old one marked as stripped
    obtain ⟨t, htoken, hclass, hname, haccepted⟩ : ∃ t, s.stateGet .sbt tokenId = some t ∧
        t'.class_ = t.class_ ∧ t'.name = t.name ∧ t'.accepted = t.accepted := by
      unfold Registry.strip at hget'
      rcases tokens_strips p.name _ (fun other t₁ hget₁ => ((hmoved _).keyed other t₁ hget₁).1)
        tokenId with hsame | ⟨t, htoken, hmark⟩
      · exact ⟨t', hsame.symm.trans hget', rfl, rfl, rfl⟩
      · rw [hmark] at hget'
        cases hget'
        exact ⟨t, htoken, rfl, rfl, rfl⟩
    have hnot : t.name ≠ p.name := by
      intro hsold
      exact (hmoved _).not_open_strip (fun _ _ => settled_of_sells hswept hsells) htoken hsold rfl
        haccepted hclass hname hopen
    refine h.kept htoken (hopen.of_active hclass.symm hname.symm haccepted.symm ?_) hname.symm ?_
    · exact active_strips _
    · rintro ⟨hsold, -⟩
      exact hnot (hname.symm.trans hsold.symm)
  | @issued p nft class_ hnew hget hclass =>
    intro tokenId t hget' hopen
    rw [Kv.get_put] at hget'
    split at hget'
    · next heq =>
      cases hget'
      exact .inl ⟨rfl, heq, hres⟩
    · exact h.kept hget' (hopen.of_active rfl rfl rfl id) rfl id
  | @taken p t nft htoken hpending hget howner =>
    obtain ⟨hid, hcolon⟩ := hplain.keyed p.tokenId t htoken
    intro tokenId t' hget' hopen
    rw [hid, Kv.get_put] at hget'
    split at hget'
    · next heq =>
      cases hget'
      subst heq
      exact h.kept htoken ⟨hopen.1, .inr hpending⟩ rfl id
    · next hne =>
      refine h.kept hget' (hopen.of_active rfl rfl rfl ?_) rfl id
      unfold Registry.listed
      dsimp only
      rw [Kv.get_put, if_neg]
      · exact id
      · exact fun heq => hne ((sbtNameKey_inj hcolon (hplain.keyed tokenId t' hget').2).1 heq).2
  | @dropped p t htoken hparty =>
    intro tokenId t' hget' hopen
    rw [Kv.get_del] at hget'
    split at hget'
    · cases hget'
    · exact h.kept hget' (hopen.of_active rfl rfl rfl listed_of_del) rfl id
  | @revoked p t htoken hissuer =>
    obtain ⟨hid, -⟩ := hplain.keyed p.tokenId t htoken
    intro tokenId t' hget' hopen
    rw [hid, Kv.get_put] at hget'
    split at hget'
    · next heq =>
      cases hget'
      subst heq
      exact h.kept htoken (hopen.of_active rfl rfl rfl listed_of_del) rfl id
    · exact h.kept hget' (hopen.of_active rfl rfl rfl listed_of_del) rfl id

end Steps

/-! ## Runs -/

section Runs

variable {s : Chain} {hist : List (Chain × IdentityOp)}

theorem dated_of_run (h : Run (registry Unused) Swept hist s) :
    Tracked Plain (registryOf s) ∧ Dated hist (registryOf s) := by
  induction h with
  | start hs =>
    rw [show registryOf _ = _ from hs]
    exact ⟨tracked_unused, fun _ _ hget => nomatch hget⟩
  | @step hist s op hrun hswept ih =>
    obtain ⟨hplain, hdated⟩ := ih
    exact ⟨hplain.plain (indexed_of_run hrun) hswept (effect s op),
      hdated.step hplain hswept (effect s op)⟩
  | other hrun hs ih =>
    rw [show registryOf _ = _ from hs]
    exact ih

/-- A recovery shows the same credentials on every name. -/
theorem activeOn_recover (s : Chain) (p : IdentityNftRecover) (name : String) :
    (registryOf (IdentityOp.run s (.recover p)).2).activeOn name = (registryOf s).activeOn name := by
  have heffect : Effect _ _ _ _ := effect s (.recover p)
  generalize registryOf (IdentityOp.run s (.recover p)).2 = r', (IdentityOp.run s (.recover p)).1 = res
    at heffect ⊢
  cases heffect with
  | refused | amended | recovered => rfl

/-- In every run in which sales find the holder-scoped credentials of the name accepted, and ids
with a colon are not accepted: a holder-scoped credential that the index shows on a name is bound
to it and was issued to it, and the name was not sold after that. And a recovery, in whatever
state, shows the same credentials as before. -/
theorem issued_since_sale (h : Run (registry Unused) Swept hist s) :
    (∀ name tokenId t, tokenId ∈ (registryOf s).activeOn name → s.stateGet .sbt tokenId = some t →
      t.class_ = .holderScoped →
        t.name = name ∧ ∃ later c earlier, hist = later ++ c :: earlier ∧
          IssuedIn name tokenId c ∧ ∀ c' ∈ later, ¬ SoldIn name c') ∧
    ∀ t p name, (registryOf (IdentityOp.run t (.recover p)).2).activeOn name =
      (registryOf t).activeOn name := by
  obtain ⟨hplain, hdated⟩ := dated_of_run h
  refine ⟨?_, activeOn_recover⟩
  intro name tokenId t hmem hget hclass
  obtain ⟨t₁, hget₁, hname, hlisted⟩ := (hplain.mem_activeOn fun _ _ hQ => (hQ rfl).2).1 hmem
  obtain rfl : t = t₁ := Option.some.inj (hget.symm.trans hget₁)
  subst hname
  exact ⟨rfl, since_iff.1 (hdated tokenId t hget ⟨hclass, .inl hlisted⟩)⟩

end Runs

def acceptSold (tokenId : String) : IdentityOp := .acceptToken ⟨tokenId, 4, 2, "bob", none⟩

/-- Of two credentials the one issued after the sale is shown. -/
theorem issued_since_sale_vote :
    let ops := [mintCool, issueBadge "kyc", acceptBadge "kyc", offerCool, buyCool,
      issueBadge "vote", acceptSold "vote"]
    let hist := (registry Unused).record {} ops []
    let s := (registry Unused).exec {} ops
    (registryOf s).activeOn "coolname" = ["vote"] ∧
    ∃ later c earlier, hist = later ++ c :: earlier ∧ IssuedIn "coolname" "vote" c ∧
      ∀ c' ∈ later, ¬ SoldIn "coolname" c' := by
  intro ops hist s
  have hlegal : Legal (registry Unused) Swept {} ops := by decide +kernel
  have hsince := issued_since_sale (Run.exec (.start (show Unused {} from rfl)) hlegal)
  obtain ⟨hshown, t, hget, hclass⟩ : (registryOf s).activeOn "coolname" = ["vote"] ∧
      ∃ t ∈ s.stateGet .sbt "vote", t.class_ = .holderScoped := by decide +kernel
  exact ⟨hshown, (hsince.1 _ _ _ (hshown ▸ List.mem_singleton_self _) hget hclass).2⟩

/-- A credential that is pending when the name is sold is accepted by the new holder and shown;
and one whose id has a colon stays in the index. -/
theorem pending_follows_sale :
    let pending := [mintCool, issueBadge "kyc", offerCool, buyCool, acceptSold "kyc"]
    let split := [mintCool, issueBadge "kyc:1", acceptBadge "kyc:1", offerCool, buyCool]
    let s := (registry Unused).exec {} pending
    let s' := (registry Unused).exec {} split
    (Run (registry Unused) (fun _ _ => True) ((registry Unused).record {} pending []) s ∧
      "kyc" ∈ (registryOf s).activeOn "coolname" ∧
      (s.stateGet .sbt "kyc").map (·.class_) = some .holderScoped ∧
      ¬ ∃ later c earlier, (registry Unused).record {} pending [] = later ++ c :: earlier ∧
        IssuedIn "coolname" "kyc" c ∧ ∀ c' ∈ later, ¬ SoldIn "coolname" c') ∧
    (s'.stateGet .nameOwner "coolname" = some "bob" ∧
      (registryOf s').listed "coolname" "kyc:1" = true ∧
      (s'.stateGet .sbt "kyc:1").map (·.stripped) = some false) := by
  intro pending split s s'
  refine ⟨⟨Run.exec (.start rfl) (legal_true _ _), by decide +kernel, by decide +kernel, ?_⟩,
    by decide +kernel⟩
  rw [← since_iff]
  decide +kernel

end HoneNode.Identity
