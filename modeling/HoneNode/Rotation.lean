import HoneNode.Tx.Run

/-!
# Rotation — whether an old key can come back

A key update is authorised by the owner key, or the posting key where there is no
owner key. The message it signs has no nonce, and the staleness guard does not
look at its epoch: what stands in the way of sending it again is only that the
authorising key has changed in between.
-/

namespace HoneNode.Rotation

open Entry Tx

/-- The key in a slot of an account. -/
def slot (s : Chain) (account role : String) : Option String :=
  (s.getAccount account).bind (·.keys.get role)

/-- Sending it in this state is rejected or leaves every key as it is. -/
def Harmless (env : Env) (c : Submission) (s : Chain) : Prop :=
  ∀ m r s', validateAndApply env m c.entry c.sig s = (r, s') →
    (∃ f, r = .error f) ∨ ∀ account role, slot s' account role = slot s account role

/-- The authorising key of the account is set and does not verify the signature. -/
def Refused (env : Env) (s : Chain) (account : String) (c : Submission) : Prop :=
  ∃ pk ∈ signingKey s account "owner",
    ¬ Verifies env pk c.sig (canonicalSigningMessage env c.entry)

/-- Why an accepted submission cannot bring a key back. -/
def Retired (env : Env) (s : Chain) (c : Submission) : Prop :=
  match c.entry with
  | .accountUpdateKey p =>
    Refused env s p.account c ∨ slot s p.account p.role = some p.newPublicKey ∨
      s.getBalance p.account nativeToken < totalFee env s c.entry
  | .accountTransfer p =>
    Refused env s p.account c ∨ (s.getAccount p.account).bind (·.primary) = none ∨
      (s.getAccount p.account).map (·.keys) = some p.newKeys
  | _ => True

variable {env : Env} {s s' : Chain} {m : Moment} {hash : String} {sig : Option String}

/-! ## Slots and the reach of a call -/

theorem slot_of_permits {W : Footprint} (h : W.Permits s s') {account : String}
    (ha : account ∉ W.rekeys) (role : String) : slot s' account role = slot s account role := by
  unfold slot
  cases hs : s.getAccount account with
  | some r =>
    obtain ⟨r', hr', hk⟩ := h.record account r hs
    simp [hr', hk ha]
  | none =>
    cases hs' : s'.getAccount account with
    | none => rfl
    | some r' =>
      -- a record that was created on the way has no keys
      rw [Option.bind_some, h.fresh account r' hs hs' ha]
      rfl

/-- Only three kinds of entries can write a key. -/
theorem rekeys_eq_empty {now : ℕ} {e : LedgerEntry} (hc : ∀ p, e ≠ .accountCreate p)
    (hu : ∀ p, e ≠ .accountUpdateKey p) (ht : ∀ p, e ≠ .accountTransfer p) :
    (reach env now e).rekeys = ∅ := by
  cases e
  case accountCreate p => exact absurd rfl (hc p)
  case accountUpdateKey p => exact absurd rfl (hu p)
  case accountTransfer p => exact absurd rfl (ht p)
  all_goals rfl

theorem slot_deductFee (e : LedgerEntry) (account role : String) :
    slot (deductFee env e s) account role = slot s account role := by
  have h : ({ pays := feeRow e } : Footprint).Permits s (deductFee env e s) :=
    deductFee_permits (Set.Subset.refl _)
  exact slot_of_permits h (Set.notMem_empty _) role

theorem harmless_of_rejected {c : Submission} (h : preflight env s c.entry c.sig ≠ .ok ()) :
    Harmless env c s := by
  intro m r s' hr
  obtain ⟨msg, herr⟩ := validateAndApply_of_preflight_ne m h
  rw [herr] at hr
  cases hr
  exact .inl ⟨_, rfl⟩

/-- A call that keeps the slots of the accounts in its reach keeps them all. -/
theorem harmless_of_slots {c : Submission}
    (h : ∀ m hash s', validateAndApply env m c.entry c.sig s = (.ok hash, s') →
      ∀ account ∈ (reach env m.now c.entry).rekeys, ∀ role,
        slot s' account role = slot s account role) : Harmless env c s := by
  intro m r s' hr
  cases r with
  | error f => exact .inl ⟨f, rfl⟩
  | ok hash =>
    refine .inr fun account role => ?_
    by_cases ha : account ∈ (reach env m.now c.entry).rekeys
    · exact h m hash s' hr account ha role
    · have hperm := validateAndApply_permits env s m c.entry c.sig
      rw [hr] at hperm
      exact slot_of_permits hperm ha role

/-! ## Key updates -/

section Update

variable {p : AccountUpdateKey}

/-- An update is let through when its account sends it, covers the fee, and the
authorising key, if there is one, verifies. -/
theorem preflight_update_ok_iff : preflight env s (.accountUpdateKey p) sig = .ok () ↔
    p.signedBy = p.account ∧
      totalFee env s (.accountUpdateKey p) ≤ s.getBalance p.signedBy nativeToken ∧
      ∀ pk ∈ signingKey s p.account "owner",
        Verifies env pk sig (canonicalSigningMessage env (.accountUpdateKey p)) := by
  have hfee : feePreflight env s (.accountUpdateKey p) = .ok () ↔
      totalFee env s (.accountUpdateKey p) ≤ s.getBalance p.signedBy nativeToken := by
    have heq : feePreflight env s (.accountUpdateKey p) =
        if s.getBalance p.signedBy nativeToken < totalFee env s (.accountUpdateKey p) then _
        else .ok () := rfl
    rw [heq]
    split <;> simp_all
  have hchecks : (∀ c ∈ checks env s sig (.accountUpdateKey p),
      c.run env s (.accountUpdateKey p) = .ok ()) ↔ p.signedBy = p.account ∧
        ∀ pk ∈ signingKey s p.account "owner",
          Verifies env pk sig (canonicalSigningMessage env (.accountUpdateKey p)) := by
    have heq : checks env s sig (.accountUpdateKey p) =
        same p.signedBy p.account
          s!"signed_by '{p.signedBy}' must equal account '{p.account}'" ::
          ownerSigned s p.account sig := rfl
    rw [heq, List.forall_mem_cons]
    refine and_congr (by simp [same, Check.run]) ?_
    unfold ownerSigned
    cases hk : signingKey s p.account "owner" with
    | none => simp
    | some pk => simp [Check.run, checkSignature_ok_iff, hk]
  have hstale : staleGuard s (.accountUpdateKey p) = .ok () := rfl
  rw [preflight_ok_iff, hfee, hchecks]
  tauto

/-- The arm puts the key into its slot and leaves the other slots of the account. -/
theorem run_applyAccountUpdateKey :
    ∃ t, (applyAccountUpdateKey p).run s = (.ok (), t) ∧ ∀ role, slot t p.account role =
      if p.role = role then some p.newPublicKey else slot s p.account role := by
  obtain ⟨r, hr, hslot⟩ : ∃ r, (s.withAccount p.account p.epoch).getAccount p.account = some r ∧
      ∀ role, slot s p.account role = r.keys.get role := by
    cases h : s.getAccount p.account with
    | some r =>
      rw [Chain.withAccount_of_isSome _ _ _ (by simp [h])]
      exact ⟨r, h, fun role => by simp [slot, h]⟩
    | none =>
      refine ⟨_, Chain.getAccount_withAccount_of_none _ _ _ h, ?_⟩
      intro role
      rw [slot, h]
      rfl
  refine ⟨(s.withAccount p.account p.epoch).setAccount p.account
    { r with keys := r.keys.put p.role p.newPublicKey }, ?_, ?_⟩
  · unfold applyAccountUpdateKey
    rw [Within.run_bind_ok (Prog.run_ensureAccount _ _ _)]
    simp [Prog.rekeyAccount, hr]
  · intro role
    rw [hslot]
    simp [slot, Chain.getAccount, Kv.get_put]

/-- The chain after an accepted update. -/
def rotated (env : Env) (p : AccountUpdateKey) (s : Chain) : Chain :=
  deductFee env (.accountUpdateKey p) ((applyAccountUpdateKey p).run s).2

theorem slot_rotated (role : String) : slot (rotated env p s) p.account role =
    if p.role = role then some p.newPublicKey else slot s p.account role := by
  obtain ⟨t, hrun, hslot⟩ := run_applyAccountUpdateKey (s := s) (p := p)
  rw [rotated, slot_deductFee, hrun, hslot]

/-- The arm never fails, so what is let through is accepted. -/
theorem update_accepted (m : Moment) (h : preflight env s (.accountUpdateKey p) sig = .ok ()) :
    validateAndApply env m (.accountUpdateKey p) sig s =
      (.ok (env.entryHash (.accountUpdateKey p)), rotated env p s) := by
  obtain ⟨t, hrun, -⟩ := run_applyAccountUpdateKey (s := s) (p := p)
  have happ : applyEntry env m.now (.accountUpdateKey p) s = (.ok (), t) := hrun
  have hcommit : commit env m (.accountUpdateKey p) s = (.ok (), t) :=
    (commit_eq_ok_iff_of_plain rfl).2 ⟨t, happ, rfl⟩
  exact validateAndApply_eq_ok_iff.2 ⟨h, rfl, t, hcommit, by rw [rotated, hrun]⟩

/-- Exactly when an update of the account itself can be sent again without harm. -/
theorem harmless_update_iff (hself : p.signedBy = p.account) :
    Harmless env ⟨.accountUpdateKey p, sig⟩ s ↔ Retired env s ⟨.accountUpdateKey p, sig⟩ := by
  by_cases hpre : preflight env s (.accountUpdateKey p) sig = .ok ()
  · -- accepted: nothing changes only if the slot holds the key already
    have hlet := preflight_update_ok_iff.1 hpre
    have hret : Retired env s ⟨.accountUpdateKey p, sig⟩ ↔
        slot s p.account p.role = some p.newPublicKey := by
      simp only [Retired, Refused]
      constructor
      · rintro (⟨pk, hpk, hno⟩ | h | h)
        · exact absurd (hlet.2.2 pk hpk) hno
        · exact h
        · rw [← hself] at h
          exact absurd hlet.2.1 (not_le.2 h)
      · exact fun h => .inr (.inl h)
    rw [hret]
    constructor
    · intro hharm
      rcases hharm _ _ _ (update_accepted default hpre) with ⟨f, hf⟩ | hkept
      · cases hf
      · rw [← hkept, slot_rotated, if_pos rfl]
    · intro hheld
      refine harmless_of_slots fun m hash s' hr account ha role => ?_
      obtain rfl : account = p.account := ha
      rw [update_accepted m hpre] at hr
      cases hr
      rw [slot_rotated]
      split
      · next h => rw [← h, hheld]
      · rfl
  · -- rejected before anything is written
    have hret : Retired env s ⟨.accountUpdateKey p, sig⟩ := by
      rw [preflight_update_ok_iff] at hpre
      simp only [Retired, Refused]
      by_contra hno
      push Not at hno
      refine hpre ⟨hself, ?_, hno.1⟩
      rw [hself]
      exact hno.2.2
    exact iff_of_true (harmless_of_rejected hpre) hret

end Update

/-! ## Identity transfers and new accounts -/

section Transfer

variable {p : AccountTransfer}

/-- A transferred identity has exactly the new keys. -/
theorem keys_of_run_accountTransfer (h : (applyAccountTransfer p).run s = (.ok (), s')) :
    (s'.getAccount p.account).map (·.keys) = some p.newKeys := by
  have hrekey : ∀ {t : Chain}, (s.getAccount p.account).isSome →
      ({ pays := rowsOf p.account, rekeys := {p.account} } : Footprint).Allows s t →
      (Prog.rekeyAccount p.account fun r =>
          { r with keys := p.newKeys, transferredEpoch := some p.epoch, primary := none } :
        Prog { pays := rowsOf p.account, rekeys := {p.account} } Unit).run t = (.ok (), s') →
      (s'.getAccount p.account).map (·.keys) = some p.newKeys := by
    intro t hs hframe hrun
    obtain ⟨r, hr⟩ := Option.isSome_iff_exists.1 hs
    obtain ⟨r', hr', -⟩ := hframe.record p.account r hr
    simp only [Prog.rekeyAccount, Within.run_update, hr', Prod.mk.injEq, true_and] at hrun
    rw [← hrun]
    simp [Chain.getAccount]
  unfold applyAccountTransfer at h
  rw [Within.run_inspect_bind, Prog.ok_orBail_bind] at h
  obtain ⟨record, hrecord, h⟩ := h
  have hsome : (s.getAccount p.account).isSome := by simp [hrecord]
  cases hprimary : record.primary with
  | none =>
    simp only [hprimary] at h
    exact hrekey hsome (Footprint.Allows.refl _ _) h
  | some primary =>
    simp only [hprimary] at h
    rw [Within.run_inspect_bind, Within.run_bind_eq_ok] at h
    obtain ⟨⟨⟩, t, ht, h⟩ := h
    exact hrekey hsome (Within.rel_of_run ht) h

theorem harmless_transfer (h : Retired env s ⟨.accountTransfer p, sig⟩) :
    Harmless env ⟨.accountTransfer p, sig⟩ s := by
  have hchecks : checks env s sig (.accountTransfer p) = accountTransferChecks s p sig := rfl
  rcases h with ⟨pk, hpk, hno⟩ | hprimary | hkeys
  · refine harmless_of_rejected fun hpre => hno ?_
    have hsig : Check.signature p.account "owner" sig ∈ checks env s sig (.accountTransfer p) := by
      rw [hchecks, accountTransferChecks, ownerSigned, if_pos (by simp [Option.mem_def.1 hpk])]
      simp
    exact checkSignature_ok_iff.1 ((preflight_ok_iff.1 hpre).2.2 _ hsig) pk hpk
  · refine harmless_of_rejected fun hpre => ?_
    have hmem := (preflight_ok_iff.1 hpre).2.2
    rw [hchecks, accountTransferChecks] at hmem
    simp [Check.run, hprimary] at hmem
  · refine harmless_of_slots fun m hash s' hr account ha role => ?_
    obtain rfl : account = p.account := ha
    obtain ⟨t, happ, rfl⟩ := accepted_of_plain rfl hr
    have hnew : (t.getAccount p.account).map (·.keys) = some p.newKeys :=
      keys_of_run_accountTransfer happ
    have hadv : advance (.accountTransfer p) t = t := rfl
    rw [slot_deductFee, hadv]
    have hslot : ∀ u : Chain, (u.getAccount p.account).map (·.keys) = some p.newKeys →
        slot u p.account role = p.newKeys.get role := by
      intro u hu
      obtain ⟨r, hr, hk⟩ := Option.map_eq_some_iff.1 hu
      simp [slot, hr, hk]
    rw [hslot t hnew, hslot s hkeys]

end Transfer

/-- An account that exists is not created again. -/
theorem harmless_create {p : AccountCreate} (h : (s.getAccount p.account).isSome) :
    Harmless env ⟨.accountCreate p, sig⟩ s := by
  refine harmless_of_slots fun m hash s' hr account ha role => ?_
  obtain ⟨t, happ, rfl⟩ := accepted_of_plain rfl hr
  have hrun : (applyAccountCreate p).run s = (.ok (), t) := happ
  unfold applyAccountCreate at hrun
  rw [Within.run_inspect_bind, if_pos h] at hrun
  cases hrun
  exact slot_deductFee _ _ _

/-- After the first time the record is there. -/
theorem record_of_create_accepted {p : AccountCreate}
    (h : validateAndApply env m (.accountCreate p) sig s = (.ok hash, s')) :
    (s'.getAccount p.account).isSome := by
  obtain ⟨t, happ, rfl⟩ := accepted_of_plain rfl h
  have hrun : (applyAccountCreate p).run s = (.ok (), t) := happ
  have hkept : (t.getAccount p.account).isSome := by
    unfold applyAccountCreate at hrun
    rw [Within.run_inspect_bind] at hrun
    split at hrun
    · next hsome =>
      cases hrun
      exact hsome
    · obtain ⟨⟨⟩, t₁, -, hrun⟩ := Within.run_bind_eq_ok.1 hrun
      obtain ⟨⟨⟩, t₂, hcreate, hrun⟩ := Within.run_bind_eq_ok.1 hrun
      cases hrun
      rw [Chain.getAccount_touched]
      cases hcreate
      beta_reduce
      split
      · assumption
      · simp [Chain.getAccount]
  obtain ⟨r, hr⟩ := Option.isSome_iff_exists.1 hkept
  have hfee : ({ pays := feeRow (.accountCreate p) } : Footprint).Permits t
      (deductFee env (.accountCreate p) t) := deductFee_permits (Set.Subset.refl _)
  obtain ⟨r', hr', -⟩ := hfee.record p.account r hr
  have hadv : advance (.accountCreate p) t = t := rfl
  rw [hadv, hr']
  rfl

/-! ## Every run -/

/-- In every state a run reaches, a submission it accepted before can be sent again
without bringing a key back as long as it is retired; for key updates, only then. -/
theorem replay_keeps_keys {s₀ : Chain} {hist : List Submission} {c : Submission}
    (hrun : Run env s₀ hist s) (hc : c ∈ hist) :
    (Retired env s c → Harmless env c s) ∧
      ∀ p, c.entry = .accountUpdateKey p → Harmless env c s → Retired env s c := by
  obtain ⟨e, sig⟩ := c
  obtain ⟨m, hash, before, after, t, t', -, hacc, hafter⟩ := hrun.split hc
  have hupdate : ∀ p, e = .accountUpdateKey p →
      (Harmless env ⟨e, sig⟩ s ↔ Retired env s ⟨e, sig⟩) := by
    rintro p rfl
    exact harmless_update_iff
      (preflight_update_ok_iff.1 (validateAndApply_eq_ok_iff.1 hacc).1).1
  refine ⟨fun hret => ?_, fun p hp => (hupdate p hp).1⟩
  by_cases hu : ∃ p, e = .accountUpdateKey p
  · obtain ⟨p, hp⟩ := hu
    exact (hupdate p hp).2 hret
  by_cases ht : ∃ p, e = .accountTransfer p
  · obtain ⟨p, rfl⟩ := ht
    exact harmless_transfer hret
  by_cases hcr : ∃ p, e = .accountCreate p
  · -- the record made at the first acceptance is still there
    obtain ⟨p, rfl⟩ := hcr
    exact harmless_create (hafter.record_kept (record_of_create_accepted hacc))
  · refine harmless_of_slots fun m hash s' _ account ha => ?_
    rw [rekeys_eq_empty (fun p hp => hcr ⟨p, hp⟩) (fun p hp => hu ⟨p, hp⟩)
      (fun p hp => ht ⟨p, hp⟩)] at ha
    exact absurd ha (Set.notMem_empty _)

/-! ### A key that comes back -/

def ownerKey : Bytes :=
  [138, 136, 227, 221, 116, 9, 241, 149, 253, 82, 219, 45, 60, 186, 93, 114, 202, 103, 9, 191,
    29, 148, 18, 27, 243, 116, 136, 1, 180, 15, 111, 92]

def firstKey : String := "8139770ea87d175f56a35466c34c7ecccb8d8a91b4ee37a25df60f5b8fc9b394"
def secondKey : String := "ed4928c628d1c2c6eae90338905995612959273a5c63f93636c14614ac8737d1"
def thirdKey : String := "ca93ac1705187071d67b83c7ff0efe8108e8ec4530575d7726879333dbdabe7c"

/-- An update of the active key of `alice`. -/
def rotateTo (key : String) : AccountUpdateKey := ⟨"alice", "active", key, 1, "alice"⟩

def rotationMessage (key : String) : String :=
  "\x7b\"chain_id\":\"hone\",\"type\":\"ACCOUNT_UPDATE_KEY\",\"account\":\"alice\","
    ++ "\"role\":\"active\",\"new_public_key\":\"" ++ key ++ "\"\x7d"

/-- The update to the second key, signed by the owner key. -/
def secondSigned : Env.Signed where
  key := ownerKey
  message := rotationMessage secondKey
  sig := [
    180, 65, 74, 102, 128, 29, 91, 188, 54, 8, 107, 93, 151, 159, 40, 130, 246, 24, 213, 98,
    173, 239, 2, 167, 180, 87, 86, 193, 213, 37, 5, 186, 28, 142, 78, 101, 88, 88, 195, 17, 84,
    192, 118, 238, 129, 36, 125, 138, 199, 153, 114, 150, 196, 100, 20, 14, 51, 190, 221, 193,
    135, 126, 136, 2]

/-- The update to the third key, signed by the owner key. -/
def thirdSigned : Env.Signed where
  key := ownerKey
  message := rotationMessage thirdKey
  sig := [
    149, 156, 228, 190, 138, 178, 153, 232, 28, 220, 5, 194, 227, 150, 238, 207, 181, 27, 80,
    170, 89, 184, 188, 1, 3, 217, 220, 247, 69, 22, 103, 173, 36, 166, 41, 23, 221, 43, 183,
    149, 41, 33, 22, 178, 115, 110, 161, 53, 45, 193, 42, 189, 229, 66, 11, 197, 191, 189, 67,
    225, 83, 17, 217, 11]

def rotationEnv : Env := Env.accepting [secondSigned, thirdSigned]

def toSecond : Submission :=
  ⟨.accountUpdateKey (rotateTo secondKey), some (hexEncode secondSigned.sig)⟩

def toThird : Submission :=
  ⟨.accountUpdateKey (rotateTo thirdKey), some (hexEncode thirdSigned.sig)⟩

def aliceChain : Chain :=
  { accounts := Kv.empty.put "alice"
      { accountId := "alice", createdEpoch := 0,
        keys := (Kv.empty.put "owner" (hexEncode ownerKey)).put "active" firstKey },
    balances := Kv.empty.put (balanceKey "alice" nativeToken) (100 * hunitsPerHone) }

def afterSecond : Chain := rotated rotationEnv (rotateTo secondKey) aliceChain
def afterThird : Chain := rotated rotationEnv (rotateTo thirdKey) afterSecond

/-- An update in the list is accepted while the owner key stands and the fee is there. -/
theorem rotation_accepted {s : Chain} {key : String} {x : Env.Signed}
    (hx : x ∈ [secondSigned, thirdSigned]) (hkey : x.key = ownerKey)
    (hlen : x.sig.length = 64) (hmsg : x.message = rotationMessage key)
    (hfee : totalFee rotationEnv s (.accountUpdateKey (rotateTo key)) ≤
      s.getBalance "alice" nativeToken)
    (howner : signingKey s "alice" "owner" = some (hexEncode ownerKey))
    (htext : canonicalSigningMessage rotationEnv (.accountUpdateKey (rotateTo key)) =
      rotationMessage key) :
    validateAndApply rotationEnv default (.accountUpdateKey (rotateTo key))
        (some (hexEncode x.sig)) s =
      (.ok (rotationEnv.entryHash (.accountUpdateKey (rotateTo key))),
        rotated rotationEnv (rotateTo key) s) := by
  refine update_accepted default (preflight_update_ok_iff.2 ⟨rfl, hfee, ?_⟩)
  intro pk hpk
  obtain rfl : hexEncode ownerKey = pk := Option.some.inj (howner.symm.trans hpk)
  have hver := verifies_accepting hx (by rw [hkey]; decide) hlen
  rwa [hkey, hmsg, ← htext] at hver

theorem second_accepted {s : Chain}
    (hfee : totalFee rotationEnv s (.accountUpdateKey (rotateTo secondKey)) ≤
      s.getBalance "alice" nativeToken)
    (howner : signingKey s "alice" "owner" = some (hexEncode ownerKey)) :
    validateAndApply rotationEnv default toSecond.entry toSecond.sig s =
      (.ok (rotationEnv.entryHash toSecond.entry), rotated rotationEnv (rotateTo secondKey) s) :=
  rotation_accepted (by simp) rfl rfl rfl hfee howner (by decide +kernel)

theorem run_afterThird : Run rotationEnv aliceChain [toThird, toSecond] afterThird := by
  have h₁ := second_accepted (s := aliceChain) (by decide) (by decide)
  have h₂ : validateAndApply rotationEnv default toThird.entry toThird.sig afterSecond =
      (.ok (rotationEnv.entryHash toThird.entry), afterThird) :=
    rotation_accepted (by simp) rfl rfl rfl (by decide) (by decide)
      (by decide +kernel)
  exact (Run.start.accepted default toSecond _ h₁).accepted default toThird _ h₂

/-- The update to the third key is harmless right after it: its slot holds the key. -/
theorem replay_keeps_third_key : Harmless rotationEnv toThird afterThird :=
  (replay_keeps_keys run_afterThird List.mem_cons_self).1 (.inr (.inl (by decide)))

/-- The update to the second key, sent again after the update to the third, brings the
second key back. -/
theorem old_key_restored : ∃ (hist : List Submission) (s : Chain) (c : Submission),
    Run rotationEnv aliceChain hist s ∧ c ∈ hist ∧ slot s "alice" "active" = some thirdKey ∧
      ∃ hash s', validateAndApply rotationEnv default c.entry c.sig s = (.ok hash, s') ∧
        slot s' "alice" "active" = some secondKey :=
  ⟨_, afterThird, toSecond, run_afterThird, by simp, by decide, _, _,
    second_accepted (by decide) (by decide), by decide⟩

end HoneNode.Rotation
