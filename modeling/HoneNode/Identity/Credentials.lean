import HoneNode.Identity.Index

/-!
# Identity.Credentials — which credentials are active

A credential is active on its name by an index key of its own, apart from the
flags in its record. The keys are put and taken by four entries and by a sale,
and read back by what follows their last colon. `Tracked` ties key and record
together, whatever is asked of the two; the index then shows what the flags say
as long as the entries keep to `Orderly`.
-/

namespace HoneNode.Identity

open Prog Within Trace

/-! ## Keys -/

/-- A credential's key is made like an inventory key. -/
theorem toList_sbtNameKey (name tokenId : String) :
    (sbtNameKey name tokenId).toList = name.toList ++ ':' :: tokenId.toList :=
  toList_heldKey name tokenId

theorem takeWhile_before_colon {front rest : List Char} (h : ':' ∉ front) :
    (front ++ ':' :: rest).takeWhile (· ≠ ':') = front := by
  have hall : ∀ c ∈ front, decide (c ≠ ':') = true := by
    intro c hc
    rw [decide_eq_true_iff]
    rintro rfl
    exact h hc
  rw [List.takeWhile_append_of_pos hall, List.takeWhile_cons_of_neg (by simp), List.append_nil]

/-- Names have no colon, so the first colon of a key ends the name. -/
theorem sbtNameKey_inj {name other tokenId otherId : String} (h : ':' ∉ name.toList)
    (h' : ':' ∉ other.toList) :
    sbtNameKey name tokenId = sbtNameKey other otherId ↔ name = other ∧ tokenId = otherId := by
  constructor
  · intro heq
    have hlist := congrArg String.toList heq
    rw [toList_sbtNameKey, toList_sbtNameKey] at hlist
    have hname : (name.toList ++ ':' :: tokenId.toList).takeWhile (· ≠ ':') = name.toList :=
      takeWhile_before_colon h
    rw [hlist, takeWhile_before_colon h'] at hname
    rw [hname] at hlist
    have hrest := List.append_cancel_left hlist
    exact ⟨String.toList_inj.1 hname.symm, String.toList_inj.1 (List.cons_inj_right _ |>.1 hrest)⟩
  · rintro ⟨rfl, rfl⟩
    rfl

/-- What a key starts with tells the name, where the id has no colon either. -/
theorem hasPrefix_sbtNameKey {name other tokenId : String} (h : ':' ∉ other.toList)
    (hid : ':' ∉ tokenId.toList) :
    hasPrefix s!"{name}:" (sbtNameKey other tokenId) = true ↔ name = other := by
  have hpfx : (s!"{name}:").toList = name.toList ++ [':'] := by
    rw [String.toList_append]
    rfl
  unfold hasPrefix
  rw [List.isPrefixOf_iff_prefix, hpfx, toList_sbtNameKey]
  constructor
  · rintro ⟨rest, hrest⟩
    rw [List.append_assoc, List.singleton_append] at hrest
    -- one side has one colon, so the other has none before it
    have hcount := congrArg (List.count ':') hrest
    rw [List.count_append, List.count_append, List.count_cons_self, List.count_cons_self,
      List.count_eq_zero_of_not_mem h, List.count_eq_zero_of_not_mem hid] at hcount
    have hname : ':' ∉ name.toList := List.count_eq_zero.1 (by omega)
    have heq : (name.toList ++ ':' :: rest).takeWhile (· ≠ ':') = name.toList :=
      takeWhile_before_colon hname
    rw [hrest, takeWhile_before_colon h] at heq
    exact String.toList_inj.1 heq.symm
  · rintro rfl
    exact ⟨tokenId.toList, by rw [List.append_assoc, List.singleton_append]⟩

/-! ## Records and their keys -/

namespace Registry

/-- The index has the key of a credential on a name. -/
def listed (r : Registry) (name tokenId : String) : Bool :=
  (r.active.get (sbtNameKey name tokenId)).isSome

/-- A record is written, and the key of the credential is put or taken. -/
def marked (r : Registry) (t : SoulboundToken) (on : Bool) : Registry :=
  { r with
    tokens := r.tokens.put t.tokenId t
    active := if on then r.active.put (sbtNameKey t.name t.tokenId) ()
      else r.active.del (sbtNameKey t.name t.tokenId) }

end Registry

/-- Credentials are kept under their ids, every key in the index is that of a credential, and `Q`
relates the record of a credential to its key. -/
structure Tracked (Q : String → SoulboundToken → Bool → Prop) (r : Registry) : Prop where
  keyed : ∀ tokenId t, r.tokens.get tokenId = some t →
    t.tokenId = tokenId ∧ ':' ∉ t.name.toList
  sound : ∀ k, (r.active.get k).isSome = true →
    ∃ tokenId t, r.tokens.get tokenId = some t ∧ k = sbtNameKey t.name tokenId
  related : ∀ tokenId t, r.tokens.get tokenId = some t → Q tokenId t (r.listed t.name tokenId)

section Tracking

variable {Q Q' : String → SoulboundToken → Bool → Prop} {r : Registry} {tokenId name : String}
  {t t' : SoulboundToken}

theorem Registry.listed_marked (ht : ':' ∉ t.name.toList) (hname : ':' ∉ name.toList) (on : Bool) :
    (r.marked t on).listed name tokenId =
      if t.name = name ∧ t.tokenId = tokenId then on else r.listed name tokenId := by
  unfold Registry.listed Registry.marked
  cases on with
  | true =>
    rw [if_pos rfl, Kv.get_put]
    simp only [sbtNameKey_inj ht hname]
    split <;> rfl
  | false =>
    rw [if_neg Bool.false_ne_true, Kv.get_del]
    simp only [sbtNameKey_inj ht hname]
    split <;> rfl

/-- A record is changed, or a new one written, with its key. -/
theorem Tracked.marked (h : Tracked Q r) (t' : SoulboundToken) (on : Bool) (hcolon : ':' ∉ t'.name.toList)
    (hsame : ∀ t, r.tokens.get t'.tokenId = some t → t.name = t'.name)
    (hQ : Q t'.tokenId t' on) : Tracked Q (r.marked t' on) := by
  refine ⟨?_, ?_, ?_⟩
  · intro other t hget
    unfold Registry.marked at hget
    rw [Kv.get_put] at hget
    split at hget
    · next heq =>
      cases hget
      exact ⟨heq, hcolon⟩
    · exact h.keyed other t hget
  · intro k hk
    -- a key is the new one, or was there before and is that of a credential still recorded
    have hcase : k = sbtNameKey t'.name t'.tokenId ∧ on = true ∨ (r.active.get k).isSome = true := by
      unfold Registry.marked at hk
      cases on with
      | true =>
        rw [if_pos rfl, Kv.get_put] at hk
        split at hk
        · next heq => exact .inl ⟨heq.symm, rfl⟩
        · exact .inr hk
      | false =>
        rw [if_neg Bool.false_ne_true, Kv.get_del] at hk
        split at hk
        · cases hk
        · exact .inr hk
    have hnew : (r.marked t' on).tokens.get t'.tokenId = some t' := Kv.get_put_self _ _ _
    rcases hcase with ⟨hkey, -⟩ | hold
    · exact ⟨t'.tokenId, t', hnew, hkey⟩
    · obtain ⟨other, t, hget, hkey⟩ := h.sound k hold
      by_cases heq : t'.tokenId = other
      · subst heq
        exact ⟨t'.tokenId, t', hnew, by rw [hkey, hsame t hget]⟩
      · refine ⟨other, t, ?_, hkey⟩
        unfold Registry.marked
        rw [Kv.get_put_of_ne _ _ heq, hget]
  · intro other t hget
    unfold Registry.marked at hget
    rw [Kv.get_put] at hget
    split at hget
    · next heq =>
      cases hget
      subst heq
      rw [Registry.listed_marked hcolon hcolon, if_pos ⟨rfl, rfl⟩]
      exact hQ
    · next hne =>
      rw [Registry.listed_marked hcolon (h.keyed other t hget).2, if_neg fun heq => hne heq.2]
      exact h.related other t hget

/-- A credential under a new id is not in the index. -/
theorem Tracked.issued (h : Tracked Q r) (t' : SoulboundToken) (hnew : r.tokens.get t'.tokenId = none)
    (hcolon : ':' ∉ t'.name.toList) (hQ : Q t'.tokenId t' false) :
    Tracked Q { r with tokens := r.tokens.put t'.tokenId t' } := by
  have hother : ∀ other t, r.tokens.get other = some t → t'.tokenId ≠ other := by
    rintro other t hget rfl
    rw [hnew] at hget
    cases hget
  refine ⟨?_, ?_, ?_⟩
  · intro other t hget
    rw [Kv.get_put] at hget
    split at hget
    · next heq =>
      cases hget
      exact ⟨heq, hcolon⟩
    · exact h.keyed other t hget
  · intro k hk
    obtain ⟨other, t, hget, hkey⟩ := h.sound k hk
    refine ⟨other, t, ?_, hkey⟩
    rw [Kv.get_put_of_ne _ _ (hother other t hget), hget]
  · intro other t hget
    rw [Kv.get_put] at hget
    split at hget
    · next heq =>
      cases hget
      subst heq
      have hoff : r.listed t'.name t'.tokenId = false := by
        by_contra hon
        obtain ⟨other, t, hget, hkey⟩ := h.sound _ (Bool.of_not_eq_false hon)
        have hsame := (sbtNameKey_inj hcolon (h.keyed other t hget).2).1 hkey
        exact hother other t hget hsame.2
      change Q t'.tokenId t' (r.listed t'.name t'.tokenId)
      rw [hoff]
      exact hQ
    · exact h.related other t hget

/-- Records and index are all there is to it. -/
theorem Tracked.congr {r' : Registry} (h : Tracked Q r) (htokens : r'.tokens = r.tokens)
    (hactive : r'.active = r.active) : Tracked Q r' := by
  refine ⟨?_, ?_, ?_⟩
  · rw [htokens]
    exact h.keyed
  · rw [htokens, hactive]
    exact h.sound
  · unfold Registry.listed
    rw [htokens, hactive]
    exact h.related

/-- A record goes with its key. -/
theorem Tracked.dropped (h : Tracked Q r) (hget : r.tokens.get tokenId = some t) :
    Tracked Q { r with
      tokens := r.tokens.del tokenId
      active := r.active.del (sbtNameKey t.name tokenId) } := by
  have hcolon := (h.keyed tokenId t hget).2
  refine ⟨?_, ?_, ?_⟩
  · intro other t₁ hget₁
    rw [Kv.get_del] at hget₁
    split at hget₁
    · cases hget₁
    · exact h.keyed other t₁ hget₁
  · intro k hk
    rw [Kv.get_del] at hk
    split at hk
    · cases hk
    · next hne =>
      obtain ⟨other, t₁, hget₁, hkey⟩ := h.sound k hk
      refine ⟨other, t₁, ?_, hkey⟩
      rw [Kv.get_del, if_neg, hget₁]
      rintro rfl
      rw [hget] at hget₁
      cases hget₁
      exact hne hkey.symm
  · intro other t₁ hget₁
    rw [Kv.get_del] at hget₁
    split at hget₁
    · cases hget₁
    · next hne =>
      have hold := h.related other t₁ hget₁
      unfold Registry.listed at hold ⊢
      rw [Kv.get_del, if_neg]
      · exact hold
      · exact fun heq => hne ((sbtNameKey_inj hcolon (h.keyed other t₁ hget₁).2).1 heq).2

/-- A row that is shown on a name is the row of a listed credential, under the key of its id. -/
theorem Tracked.read_active {k : String} {u : Unit} (h : Tracked Q r)
    (hplain : ∀ tokenId t, Q tokenId t true → ':' ∉ tokenId.toList)
    (hmem : (k, u) ∈ r.active.scan (hasPrefix s!"{name}:")) :
    ∃ t, r.tokens.get (Text.lastPiece ':' k) = some t ∧ t.name = name ∧
      r.listed name (Text.lastPiece ':' k) = true ∧
      k = sbtNameKey name (Text.lastPiece ':' k) := by
  obtain ⟨hget, hpfx⟩ := Kv.mem_scan.1 hmem
  obtain ⟨other, t, htoken, rfl⟩ := h.sound k (by rw [hget]; rfl)
  have hlisted : r.listed t.name other = true := by
    unfold Registry.listed
    rw [hget]
    rfl
  have hcolon := hplain other t (hlisted ▸ h.related other t htoken)
  rw [hasPrefix_sbtNameKey (h.keyed other t htoken).2 hcolon] at hpfx
  subst hpfx
  rw [Text.lastPiece_of_toList (toList_sbtNameKey t.name other) hcolon]
  exact ⟨t, htoken, rfl, hlisted, rfl⟩

/-- The ids that the index shows on a name are those of its listed credentials. -/
theorem Tracked.mem_activeOn (h : Tracked Q r)
    (hplain : ∀ tokenId t, Q tokenId t true → ':' ∉ tokenId.toList) :
    tokenId ∈ r.activeOn name ↔
      ∃ t, r.tokens.get tokenId = some t ∧ t.name = name ∧ r.listed name tokenId = true := by
  unfold Registry.activeOn
  rw [List.mem_map]
  constructor
  · rintro ⟨⟨k, u⟩, hmem, rfl⟩
    obtain ⟨t, htoken, hname, hlisted, -⟩ := h.read_active hplain hmem
    exact ⟨t, htoken, hname, hlisted⟩
  · rintro ⟨t, htoken, rfl, hlisted⟩
    have hcolon := hplain tokenId t (hlisted ▸ h.related tokenId t htoken)
    obtain ⟨u, hget⟩ := Option.isSome_iff_exists.1 hlisted
    refine ⟨(sbtNameKey t.name tokenId, u), Kv.mem_scan.2 ⟨hget, ?_⟩, ?_⟩
    · exact (hasPrefix_sbtNameKey (h.keyed tokenId t htoken).2 hcolon).2 rfl
    · exact Text.lastPiece_of_toList (toList_sbtNameKey t.name tokenId) hcolon

theorem Tracked.nodup_activeOn (h : Tracked Q r)
    (hplain : ∀ tokenId t, Q tokenId t true → ':' ∉ tokenId.toList) :
    (r.activeOn name).Nodup := by
  have hkeys : (r.active.scan (hasPrefix s!"{name}:")).Nodup := by
    refine List.Nodup.filter _ (r.active.sorted.imp ?_)
    rintro a b hlt rfl
    exact lt_irrefl _ hlt
  refine List.Nodup.map_on ?_ hkeys
  rintro ⟨k, u⟩ hk ⟨j, v⟩ hj heq
  -- a key is made of the name and the id that is read off it
  obtain ⟨-, -, -, -, hreadk⟩ := h.read_active hplain hk
  obtain ⟨-, -, -, -, hreadj⟩ := h.read_active hplain hj
  dsimp only at heq
  rw [Prod.mk.injEq]
  refine ⟨?_, rfl⟩
  rw [hreadk, hreadj, heq]

/-! ### A sale -/

/-- A credential as a sale leaves it. -/
def strippedOf (t : SoulboundToken) : SoulboundToken := { t with stripped := true }

theorem stripOne_eq (hget : r.tokens.get tokenId = some t) (hid : t.tokenId = tokenId)
    (hname : t.name = name) : Registry.stripOne name r tokenId =
      if t.class_ = .holderScoped then r.marked (strippedOf t) false else r := by
  unfold Registry.stripOne
  rw [hget, ← hid, ← hname]
  rfl

/-- Stripping accepted credentials of a name, one after the other. -/
theorem Tracked.strips (h : Tracked Q r) (ids : List String)
    (hids : ∀ tokenId ∈ ids, ∃ t, r.tokens.get tokenId = some t ∧ t.name = name ∧
      t.accepted = true)
    (hQ : ∀ tokenId t, t.accepted = true → Q tokenId (strippedOf t) false) :
    Tracked Q (ids.foldl (Registry.stripOne name) r) := by
  induction ids generalizing r with
  | nil => exact h
  | cons tokenId rest ih =>
    obtain ⟨t, hget, hname, haccepted⟩ := hids tokenId List.mem_cons_self
    obtain ⟨hid, hcolon⟩ := h.keyed tokenId t hget
    rw [List.foldl_cons, stripOne_eq hget hid hname]
    split
    · refine ih (h.marked (strippedOf t) false hcolon ?_ ?_) ?_
      · intro t₁ hget₁
        rw [show (strippedOf t).tokenId = tokenId from hid, hget] at hget₁
        cases hget₁
        rfl
      · exact hQ _ t haccepted
      · intro other hother
        obtain ⟨t₁, hget₁, hname₁, haccepted₁⟩ := hids other (List.mem_cons_of_mem _ hother)
        unfold Registry.marked
        dsimp only
        rw [Kv.get_put]
        split
        · exact ⟨_, rfl, hname, haccepted⟩
        · exact ⟨t₁, hget₁, hname₁, haccepted₁⟩
    · exact ih h fun other hother => hids other (List.mem_cons_of_mem _ hother)

end Tracking

/-! ## Flags and index -/

/-- Accepted, and neither revoked nor stripped. -/
def isActive (t : SoulboundToken) : Bool := t.accepted && !t.revoked && !t.stripped

/-- The index goes by the flags; what it shows has a plain id, and what was stripped had been
accepted. -/
def Shown (tokenId : String) (t : SoulboundToken) (on : Bool) : Prop :=
  on = isActive t ∧ (on = true → ':' ∉ tokenId.toList) ∧ (t.stripped = true → t.accepted = true)

/-- The owner that the record of a name shows. -/
def ownerOf (s : Chain) (name : String) : Option String :=
  (s.stateGet .nameNft name).map (·.owner)

/-- A credential that its holder accepts is not revoked and has no colon in its id, and a
credential that is rejected is neither revoked nor stripped. -/
def Orderly (s : Chain) : IdentityOp → Prop
  | .acceptToken p => ∀ t ∈ s.stateGet .sbt p.tokenId, t.accepted = false →
      ownerOf s t.name = some p.signedBy → t.revoked = false ∧ ':' ∉ p.tokenId.toList
  | .rejectToken p => ∀ t ∈ s.stateGet .sbt p.tokenId,
      (ownerOf s t.name = some p.signedBy ∨ p.signedBy = t.issuer) →
        t.revoked = false ∧ t.stripped = false
  | _ => True

instance decidableOrderly (s : Chain) : ∀ op, Decidable (Orderly s op)
  | .acceptToken p => inferInstanceAs (Decidable (∀ t ∈ s.stateGet .sbt p.tokenId, _))
  | .rejectToken p => inferInstanceAs (Decidable (∀ t ∈ s.stateGet .sbt p.tokenId, _))
  | .mint _ | .transfer _ | .accept _ | .reject _ | .setPrimary _ | .setRecovery _ | .lock _
  | .unlock _ | .recover _ | .setBackstop _ | .issue _ | .revokeToken _ => .isTrue trivial

section Steps

variable {Q : String → SoulboundToken → Bool → Prop} {s : Chain} {op : IdentityOp}
  {res : Except Fault Unit} {r r' : Registry}

/-- Whatever an entry does: `Q` is asked of a credential that is issued, accepted, revoked or
stripped, and of no other. -/
theorem Tracked.effect (h : Tracked Q (registryOf s)) (hi : Indexed (registryOf s))
    (heffect : Effect (registryOf s) op res r')
    (hlisted : ∀ tokenId t, Q tokenId t true → t.accepted = true ∧ ':' ∉ tokenId.toList)
    (hstrip : ∀ tokenId t, t.accepted = true → Q tokenId (strippedOf t) false)
    (hissue : ∀ p class_, Q p.tokenId (issuedToken p class_) false)
    (htake : ∀ p t on, op = .acceptToken p → s.stateGet .sbt p.tokenId = some t →
      t.accepted = false → ownerOf s t.name = some p.signedBy → Q p.tokenId t on →
        Q p.tokenId { t with accepted := true } true)
    (hrevoke : ∀ tokenId t on, Q tokenId t on → Q tokenId { t with revoked := true } false) :
    Tracked Q r' := by
  cases heffect with
  | refused | lapsed | offered | withdrawn | primary => exact h.congr rfl rfl
  | minted | amended | recovered => exact h.congr rfl rfl
  | @sold p offer nft hoffer hto hget hfree howner hlive =>
    have hmoved : ∀ nft', Tracked Q (((registryOf s).put nft').moved p.name offer.from_ p.to_) :=
      fun _ => h.congr rfl rfl
    unfold Registry.strip
    refine (hmoved _).strips _ ?_ hstrip
    intro tokenId hmem
    obtain ⟨t, htoken, hname, hon⟩ := ((hmoved _).mem_activeOn
      fun tokenId t hon => (hlisted tokenId t hon).2).1 hmem
    have hrelated := (hmoved _).related tokenId t htoken
    rw [hname, hon] at hrelated
    exact ⟨t, htoken, hname, (hlisted tokenId t hrelated).1⟩
  | @issued p nft class_ hnew hget hclass =>
    exact h.issued (issuedToken p class_) hnew (colon_notMem (hi.named p.name nft hget).2)
      (hissue p class_)
  | @taken p t nft htoken hpending hget howner =>
    obtain ⟨hid, hcolon⟩ := h.keyed p.tokenId t htoken
    have hholder : ownerOf s t.name = some p.signedBy := by
      unfold ownerOf
      rw [Chain.stateGet, show (s.state .nameNft).get t.name = some nft from hget, Option.map_some,
        howner]
    have hQ := htake p t _ rfl htoken hpending hholder (h.related p.tokenId t htoken)
    rw [← hid] at hQ ⊢
    refine h.marked { t with accepted := true } true hcolon ?_ hQ
    intro t₁ hget₁
    rw [hid, htoken] at hget₁
    cases hget₁
    rfl
  | dropped htoken hparty => exact h.dropped htoken
  | @revoked p t htoken hissuer =>
    obtain ⟨hid, hcolon⟩ := h.keyed p.tokenId t htoken
    have hQ := hrevoke p.tokenId t _ (h.related p.tokenId t htoken)
    rw [← hid] at hQ ⊢
    refine h.marked { t with revoked := true } false hcolon ?_ hQ
    intro t₁ hget₁
    rw [hid, htoken] at hget₁
    cases hget₁
    rfl

theorem plain_of_shown (tokenId : String) (t : SoulboundToken) (h : Shown tokenId t true) :
    t.accepted = true ∧ ':' ∉ tokenId.toList := by
  refine ⟨?_, h.2.1 rfl⟩
  have hactive := h.1.symm
  unfold isActive at hactive
  rw [Bool.and_eq_true, Bool.and_eq_true] at hactive
  exact hactive.1.1

/-- Flags and index stay together where the entries keep to `Orderly`. -/
theorem Tracked.shown (h : Tracked Shown (registryOf s)) (hi : Indexed (registryOf s))
    (horderly : Orderly s op) (heffect : Effect (registryOf s) op res r') : Tracked Shown r' := by
  refine h.effect hi heffect plain_of_shown ?_ (fun p class_ => ⟨rfl, nofun, nofun⟩) ?_ ?_
  · intro tokenId t haccepted
    refine ⟨?_, nofun, fun _ => haccepted⟩
    unfold isActive strippedOf
    simp
  · rintro p t on rfl htoken hpending hholder ⟨-, -, hstripped⟩
    obtain ⟨hrevoked, hplain⟩ := horderly t htoken hpending hholder
    refine ⟨?_, fun _ => hplain, fun _ => rfl⟩
    have hnot : t.stripped = false := by
      by_contra hon
      have := hstripped (Bool.of_not_eq_false hon)
      rw [hpending] at this
      cases this
    unfold isActive
    rw [hrevoked, hnot]
    rfl
  · rintro tokenId t on ⟨-, -, hstripped⟩
    refine ⟨?_, nofun, hstripped⟩
    unfold isActive
    simp

/-- A mark that a credential got stays with it. -/
def MarksKept (r r' : Registry) : Prop :=
  ∀ tokenId t, r.tokens.get tokenId = some t → (t.revoked = true ∨ t.stripped = true) →
    ∃ t', r'.tokens.get tokenId = some t' ∧ (t.revoked = true → t'.revoked = true) ∧
      (t.stripped = true → t'.stripped = true)

instance : IsPreorder Registry MarksKept where
  refl := fun _ _ t hget _ => ⟨t, hget, id, id⟩
  trans := by
    intro r₁ r₂ r₃ h h' tokenId t hget hmark
    obtain ⟨t₂, hget₂, hrevoked, hstripped⟩ := h tokenId t hget hmark
    obtain ⟨t₃, hget₃, hrevoked', hstripped'⟩ :=
      h' tokenId t₂ hget₂ (hmark.imp hrevoked hstripped)
    exact ⟨t₃, hget₃, hrevoked' ∘ hrevoked, hstripped' ∘ hstripped⟩

/-- A record is written over one that has no more marks. -/
theorem marksKept_put {tokenId : String} {t' : SoulboundToken} {active : Kv String Unit}
    (hget : ∀ t₁, r.tokens.get tokenId = some t₁ → (t₁.revoked = true → t'.revoked = true) ∧
      (t₁.stripped = true → t'.stripped = true)) :
    MarksKept r { r with tokens := r.tokens.put tokenId t', active := active } := by
  intro other t₁ hget₁ _
  dsimp only
  rw [Kv.get_put]
  split
  · next heq =>
    subst heq
    exact ⟨t', rfl, (hget t₁ hget₁).1, (hget t₁ hget₁).2⟩
  · exact ⟨t₁, hget₁, id, id⟩

/-- A sale leaves a record or marks it as stripped. -/
theorem tokens_stripOne (hkeyed : ∀ tokenId t, r.tokens.get tokenId = some t → t.tokenId = tokenId)
    (name head tokenId : String) :
    (Registry.stripOne name r head).tokens.get tokenId = r.tokens.get tokenId ∨
      ∃ t, r.tokens.get tokenId = some t ∧
        (Registry.stripOne name r head).tokens.get tokenId = some (strippedOf t) := by
  unfold Registry.stripOne
  split
  · next t hget =>
    split
    · dsimp only
      rw [Kv.get_put]
      split
      · next heq =>
        rw [hkeyed head t hget] at heq
        exact .inr ⟨t, by rw [← heq, hget], rfl⟩
      · exact .inl rfl
    · exact .inl rfl
  · exact .inl rfl

theorem keyed_stripOne (hkeyed : ∀ tokenId t, r.tokens.get tokenId = some t → t.tokenId = tokenId)
    (name head : String) : ∀ tokenId t,
      (Registry.stripOne name r head).tokens.get tokenId = some t → t.tokenId = tokenId := by
  intro tokenId t hget
  rcases tokens_stripOne hkeyed name head tokenId with hsame | ⟨t₁, hget₁, hmark⟩
  · exact hkeyed tokenId t (hsame.symm.trans hget)
  · rw [hmark] at hget
    cases hget
    exact hkeyed tokenId t₁ hget₁

theorem tokens_strips (name : String) (ids : List String)
    (hkeyed : ∀ tokenId t, r.tokens.get tokenId = some t → t.tokenId = tokenId)
    (tokenId : String) :
    (ids.foldl (Registry.stripOne name) r).tokens.get tokenId = r.tokens.get tokenId ∨
      ∃ t, r.tokens.get tokenId = some t ∧
        (ids.foldl (Registry.stripOne name) r).tokens.get tokenId = some (strippedOf t) := by
  induction ids generalizing r with
  | nil => exact .inl rfl
  | cons head rest ih =>
    have hrest := ih (keyed_stripOne hkeyed name head)
    rw [List.foldl_cons]
    rcases tokens_stripOne hkeyed name head tokenId with hsame | ⟨t, hget, hmark⟩
    · rw [hsame] at hrest
      exact hrest
    · rcases hrest with hkeep | ⟨t', hget', hagain⟩
      · exact .inr ⟨t, hget, hkeep.trans hmark⟩
      · rw [hmark] at hget'
        cases hget'
        exact .inr ⟨t, hget, hagain⟩

/-- What is marked stays recorded with its marks, if what is rejected has none. -/
theorem marksKept_effect
    (h : Tracked Q (registryOf s)) (horderly : Orderly s op)
    (heffect : Effect (registryOf s) op res r') : MarksKept (registryOf s) r' := by
  cases heffect with
  | refused | lapsed | offered | withdrawn | primary => exact fun _ t hget _ => ⟨t, hget, id, id⟩
  | minted | amended | recovered => exact fun _ t hget _ => ⟨t, hget, id, id⟩
  | @sold p offer nft hoffer hto hget hfree howner =>
    intro tokenId t htoken _
    have hkeyed : ∀ nft' other t₁, (((registryOf s).put nft').moved p.name offer.from_
        p.to_).tokens.get other = some t₁ → t₁.tokenId = other :=
      fun _ other t₁ hget₁ => (h.keyed other t₁ hget₁).1
    unfold Registry.strip
    rcases tokens_strips p.name _ (hkeyed _) tokenId with hsame | ⟨t₁, hget₁, hmark⟩
    · exact ⟨t, hsame.trans htoken, id, id⟩
    · obtain rfl : t = t₁ := Option.some.inj (htoken.symm.trans hget₁)
      exact ⟨_, hmark, id, fun _ => rfl⟩
  | issued hnew hget hclass =>
    refine marksKept_put fun t₁ hget₁ => ?_
    rw [hnew] at hget₁
    cases hget₁
  | @taken p t nft htoken hpending hget howner =>
    refine marksKept_put fun t₁ hget₁ => ?_
    rw [(h.keyed p.tokenId t htoken).1, htoken] at hget₁
    cases hget₁
    exact ⟨id, id⟩
  | @dropped p t htoken hparty =>
    obtain ⟨hrevoked, hstripped⟩ := horderly t htoken hparty
    intro tokenId t₁ hget₁ hmark
    refine ⟨t₁, ?_, id, id⟩
    dsimp only
    rw [Kv.get_del, if_neg, hget₁]
    rintro rfl
    rw [htoken] at hget₁
    cases hget₁
    rw [hrevoked, hstripped] at hmark
    simp at hmark
  | @revoked p t htoken hissuer =>
    refine marksKept_put fun t₁ hget₁ => ?_
    rw [(h.keyed p.tokenId t htoken).1, htoken] at hget₁
    cases hget₁
    exact ⟨fun _ => rfl, id⟩

end Steps

/-! ## Runs -/

section Runs

variable {s : Chain} {hist : List (Chain × IdentityOp)}

theorem tracked_unused {Q : String → SoulboundToken → Bool → Prop} :
    Tracked Q ⟨∅, ∅, ∅, ∅, ∅, 0, ∅, ∅⟩ where
  keyed := fun _ _ hget => nomatch hget
  sound := fun _ hk => nomatch hk
  related := fun _ _ hget => nomatch hget

theorem shown_of_run (h : Run (registry Unused) Orderly hist s) :
    Tracked Shown (registryOf s) := by
  have hboth := registry_invariant (I := fun r => Indexed r ∧ Tracked Shown r) ?_ ?_ h
  · exact hboth.2
  · intro s hs
    rw [hs]
    exact ⟨indexed_unused, tracked_unused⟩
  · rintro s op r' horderly heffect ⟨hi, hshown⟩
    exact ⟨hi.effect heffect, hshown.shown hi horderly heffect⟩

/-- In every run that keeps to `Orderly`, the index shows on a name, once each, the credentials
bound to it that are accepted and neither revoked nor stripped; and a credential that was ever
revoked or stripped is still recorded as such, and nowhere shown. -/
theorem active_set_of_run (h : Run (registry Unused) Orderly hist s) :
    (∀ name, ((registryOf s).activeOn name).Nodup ∧
      ∀ tokenId, tokenId ∈ (registryOf s).activeOn name ↔
        ∃ t, s.stateGet .sbt tokenId = some t ∧ t.name = name ∧ t.accepted = true ∧
          t.revoked = false ∧ t.stripped = false) ∧
    ∀ c ∈ hist, ∀ tokenId t, c.1.stateGet .sbt tokenId = some t →
      (t.revoked = true ∨ t.stripped = true) →
        (∃ t', s.stateGet .sbt tokenId = some t' ∧ (t.revoked = true → t'.revoked = true) ∧
          (t.stripped = true → t'.stripped = true)) ∧
        ∀ name, tokenId ∉ (registryOf s).activeOn name := by
  have hshown := shown_of_run h
  have hset : ∀ name tokenId, tokenId ∈ (registryOf s).activeOn name ↔
      ∃ t, s.stateGet .sbt tokenId = some t ∧ t.name = name ∧ t.accepted = true ∧
        t.revoked = false ∧ t.stripped = false := by
    intro name tokenId
    rw [hshown.mem_activeOn fun tokenId t hon => (plain_of_shown tokenId t hon).2]
    refine exists_congr fun t => and_congr_right fun hget => and_congr_right fun hname => ?_
    have hflags := (hshown.related tokenId t hget).1
    rw [hname] at hflags
    rw [hflags]
    unfold isActive
    simp [and_assoc]
  have hkept : ∀ c ∈ hist, MarksKept (registryOf c.1) (registryOf s) := by
    clear hset hshown
    induction h with
    | start => exact fun c hc => nomatch hc
    | @step hist s op hrun horderly ih =>
      have hstep := marksKept_effect (shown_of_run hrun) horderly (effect s op)
      intro c hc
      rcases List.mem_cons.1 hc with rfl | hc
      · exact hstep
      · exact trans_of MarksKept (ih c hc) hstep
    | other hrun hs ih =>
      intro c hc
      rw [hs]
      exact ih c hc
  refine ⟨fun name => ⟨hshown.nodup_activeOn fun tokenId t hon => (plain_of_shown tokenId t hon).2,
    hset name⟩, ?_⟩
  intro c hc tokenId t hget hmark
  obtain ⟨t', hget', hrevoked, hstripped⟩ := hkept c hc tokenId t hget hmark
  refine ⟨⟨t', hget', hrevoked, hstripped⟩, ?_⟩
  intro name hmem
  obtain ⟨t₁, hget₁, -, -, hnot, hnot'⟩ := (hset name tokenId).1 hmem
  obtain rfl : t' = t₁ := Option.some.inj (hget'.symm.trans hget₁)
  rcases hmark with hon | hon
  · rw [hrevoked hon] at hnot
    cases hnot
  · rw [hstripped hon] at hnot'
    cases hnot'

end Runs

/-! ### Marks that do not hold -/

def issueBadge (tokenId : String) : IdentityOp :=
  .issue ⟨tokenId, "coolname", "holder", false, "badge", 1, 1, "issuer", none⟩

def acceptBadge (tokenId : String) : IdentityOp := .acceptToken ⟨tokenId, 2, 2, "alice", none⟩

def revokeBadge (tokenId : String) : IdentityOp := .revokeToken ⟨tokenId, 2, 2, "issuer", none⟩

def rejectBadge (tokenId : String) : IdentityOp := .rejectToken ⟨tokenId, 3, 3, "issuer", none⟩

/-- One credential is active, one was revoked. -/
theorem active_set_of_run_two :
    let ops := [mintCool, issueBadge "kyc", issueBadge "vote", acceptBadge "kyc",
      acceptBadge "vote", revokeBadge "vote"]
    let s := (registry Unused).exec {} ops
    (registryOf s).activeOn "coolname" = ["kyc"] ∧
    (∀ name, ((registryOf s).activeOn name).Nodup ∧
      ∀ tokenId, tokenId ∈ (registryOf s).activeOn name ↔
        ∃ t, s.stateGet .sbt tokenId = some t ∧ t.name = name ∧ t.accepted = true ∧
          t.revoked = false ∧ t.stripped = false) := by
  intro ops s
  have hlegal : Legal (registry Unused) Orderly {} ops := by decide +kernel
  exact ⟨by decide +kernel, (active_set_of_run (Run.exec (.start (show Unused {} from rfl)) hlegal)).1⟩

/-- A revoked credential is accepted and active; an id with a colon is shown by its last part; and
a revoked credential is deleted. -/
theorem revoked_active_and_deleted :
    let after := fun ops => (registry Unused).exec {} ([mintCool] ++ ops)
    let revived := after [issueBadge "kyc", revokeBadge "kyc", acceptBadge "kyc"]
    let split := after [issueBadge "kyc:1", acceptBadge "kyc:1"]
    let deleted := after [issueBadge "kyc", acceptBadge "kyc", revokeBadge "kyc", rejectBadge "kyc"]
    ((revived.stateGet .sbt "kyc").map (·.revoked) = some true ∧
      "kyc" ∈ (registryOf revived).activeOn "coolname") ∧
    ((split.stateGet .sbt "kyc:1").map isActive = some true ∧
      (registryOf split).activeOn "coolname" = ["1"]) ∧
    (deleted.stateGet .sbt "kyc").isNone = true := by
  decide +kernel

end HoneNode.Identity
