import HoneNode.Tx
import HoneNode.Identity.Lock

/-!
# Identity.Authority — who may recover or unlock a name

A recovery or an unlock is taken on the signatures of enough guardians, or of
enough founders while the backstop is on. What they sign is the name and the
current `recovery_seq`; the guardians and the destination are not part of it,
and setting a new configuration leaves the number as it is. So an authorization
speaks for the configuration it was given under only as long as no other is set
under the same number.
-/

namespace HoneNode.Identity

open Entry Prog Within Trace Tx

/-! ## Configurations -/

theorem nodup_of_checkGuardians {seen guardians : List String}
    (h : checkGuardians seen guardians = none) :
    guardians.Nodup ∧ ∀ g ∈ guardians, g ∉ seen := by
  induction guardians generalizing seen with
  | nil => exact ⟨List.nodup_nil, nofun⟩
  | cons g rest ih =>
    rw [checkGuardians] at h
    split at h
    · cases h
    · split at h
      · cases h
      · next hg =>
        obtain ⟨hnodup, hfresh⟩ := ih h
        refine ⟨List.nodup_cons.2 ⟨?_, hnodup⟩, ?_⟩
        · intro hmem
          exact hfresh g hmem List.mem_cons_self
        · intro x hx
          rcases List.mem_cons.1 hx with rfl | hx
          · exact hg
          · exact fun hseen => hfresh x hx (List.mem_cons_of_mem _ hseen)

/-- A configuration that is taken lists each guardian once. -/
theorem nodup_of_validateRecovery {guardians : List String} {threshold : ℕ} {destination : String}
    (h : validateRecovery guardians threshold destination = none) : guardians.Nodup := by
  unfold validateRecovery at h
  split at h
  · cases h
  · split at h
    · cases h
    · rw [Option.or_eq_none_iff] at h
      exact (nodup_of_checkGuardians h.1).1

/-- The guardians of a record are distinct. -/
def DistinctGuardians (nft : NameNft) : Prop := ∀ r ∈ nft.recovery, r.guardians.Nodup

theorem Change.distinctGuardians {name : String} {op : IdentityOp} {res : Except Fault Unit}
    {nft nft' : NameNft} (h : Change name op res nft nft') (hold : DistinctGuardians nft) :
    DistinctGuardians nft' := by
  cases h with
  | same _ => exact hold
  | sold _ _ => exact nofun
  | recovered _ _ _ => exact hold
  | amended hamends =>
    cases hamends with
    | setRecovery _ _ hvalid =>
      rintro r hr
      cases hr
      exact nodup_of_validateRecovery hvalid
    | lock _ _ => exact hold
    | unlock _ _ => exact hold
    | selfRecover _ _ _ => exact hold
    | @setBackstop p _ recovery _ hrecovery _ =>
      have hdistinct : recovery.guardians.Nodup := hold recovery hrecovery
      rintro r hr
      cases hr
      exact hdistinct

/-! ## Signers -/

/-- A signature on the entry verifies under the account's active key, or its owner key where it
has no active one. -/
def ValueSigned (env : Env) (s : Chain) (e : LedgerEntry) (account sig : String) : Prop :=
  ∃ pk, (keyOf s account "active").or (keyOf s account "owner") = some pk ∧
    Verifies env pk (some sig) (canonicalSigningMessage env e)

section Signers

variable {env : Env} {s : Chain} {e : LedgerEntry} {r : Recovery} {primary account sig : String}
  {primarySig : Option String} {cosignatures : List (String × String)}

theorem eq_ok_of_isOk {res : Except String Unit} (h : res.isOk = true) : res = .ok () := by
  cases res with
  | error msg => cases h
  | ok u => rfl

theorem valueSigned_of_isOk
    (h : (checkValueSignature env s account e (some sig)).isOk = true) :
    ValueSigned env s e account sig := by
  unfold checkValueSignature at h
  split at h
  · cases h
  · split at h
    · cases h
    · next pk hpk => exact ⟨pk, hpk, verifyHex_ok_iff.1 (eq_ok_of_isOk h)⟩

/-- The account signed the entry, as primary signer or among the cosigners. -/
def Signed (env : Env) (s : Chain) (e : LedgerEntry) (primary : String)
    (primarySig : Option String) (cosignatures : List (String × String)) (account : String) :
    Prop :=
  ∃ sig, (account = primary ∧ primarySig = some sig ∨ (account, sig) ∈ cosignatures) ∧
    ValueSigned env s e account sig

theorem signed_of_mem (h : account ∈ recoverySigners env s e primary primarySig cosignatures) :
    Signed env s e primary primarySig cosignatures account := by
  unfold recoverySigners at h
  rw [List.mem_dedup, List.mem_append] at h
  rcases h with h | h
  · split at h
    · next hfirst =>
      obtain ⟨sig, rfl⟩ := Option.isSome_iff_exists.1 hfirst.1
      obtain rfl := List.mem_singleton.1 h
      exact ⟨sig, .inl ⟨rfl, rfl⟩, valueSigned_of_isOk hfirst.2⟩
    · cases h
  · obtain ⟨⟨a, sig⟩, hmem, rfl⟩ := List.mem_map.1 h
    obtain ⟨hin, hcheck⟩ := List.mem_filter.1 hmem
    rw [Bool.and_eq_true] at hcheck
    exact ⟨sig, .inr hin, valueSigned_of_isOk hcheck.2⟩

/-- So many different accounts of a list signed the entry. -/
def Quorum (env : Env) (s : Chain) (e : LedgerEntry) (primary : String)
    (primarySig : Option String) (cosignatures : List (String × String)) (accounts : List String)
    (n : ℕ) : Prop :=
  ∃ signers : List String, signers.Nodup ∧ n ≤ signers.length ∧
    ∀ a ∈ signers, a ∈ accounts ∧ Signed env s e primary primarySig cosignatures a

/-- The authority is given by a quorum of guardians, or of founders while the backstop is on. -/
theorem quorum_of_verified (hnodup : r.guardians.Nodup)
    (h : verifyRecoveryAuthority env s e r primary primarySig cosignatures = .ok ()) :
    Quorum env s e primary primarySig cosignatures r.guardians r.threshold ∨
      r.founderBackstop = true ∧ Quorum env s e primary primarySig cosignatures
        identityFounderAccounts identityFounderThreshold := by
  unfold verifyRecoveryAuthority at h
  dsimp only at h
  split at h
  · next hguardians =>
    refine .inl ⟨_, hnodup.filter _, hguardians, ?_⟩
    intro a ha
    obtain ⟨hin, hsigned⟩ := List.mem_filter.1 ha
    exact ⟨hin, signed_of_mem (of_decide_eq_true hsigned)⟩
  · split at h
    · next hfounders =>
      refine .inr ⟨hfounders.1, _, (List.nodup_dedup _).filter _, hfounders.2, ?_⟩
      intro a ha
      obtain ⟨hsigned, hin⟩ := List.mem_filter.1 ha
      exact ⟨of_decide_eq_true hin, signed_of_mem hsigned⟩
    · cases h

end Signers

/-! ## Under which configuration -/

/-- The entries that need the recovery authority of a name, for the number they give. -/
inductive Authorized (name : String) (seq : ℕ) : LedgerEntry → Prop where
  | unlock {p : IdentityNftUnlock} (hname : p.name = name) (hseq : p.seq = seq) :
      Authorized name seq (.identityNftUnlock p)
  | recover {p : IdentityNftRecover} (hname : p.name = name) (hseq : p.seq = seq) :
      Authorized name seq (.identityNftRecover p)

/-- Guardians and destination are those of another configuration. -/
def SameTarget (r r' : Recovery) : Prop :=
  r'.guardians = r.guardians ∧ r'.destination = r.destination

/-- The guardians and the destination are not set to others while the number is current, and the
number does not come round. -/
def KeepsTarget (name : String) (seq : ℕ) (recovery : Recovery) (s : Chain) (op : IdentityOp) :
    Prop :=
  ∀ nft, s.stateGet .nameNft name = some nft →
    (∀ p, op = .setRecovery p → p.name = name → nft.owner = p.signedBy → nft.transferable = true →
      nft.recoverySeq = seq →
        p.guardians = recovery.guardians ∧ p.destination = recovery.destination) ∧
    (op.expectedSeq name = some nft.recoverySeq → wrapAdd nft.recoverySeq 1 ≠ seq)

/-- What is set for the current number is the configuration of the authorization, or none. -/
def Targets (seq : ℕ) (recovery : Recovery) (nft : NameNft) : Prop :=
  nft.recoverySeq = seq → ∀ r ∈ nft.recovery, SameTarget recovery r

section Targeting

variable {name : String} {seq : ℕ} {recovery : Recovery} {op : IdentityOp}
  {res : Except Fault Unit} {nft nft' : NameNft} {s t : Chain}
  {before hist : List (Chain × IdentityOp)}

theorem Targets.change (h : Targets seq recovery nft) (hget : s.stateGet .nameNft name = some nft)
    (hkeep : KeepsTarget name seq recovery s op) (hchange : Change name op res nft nft') :
    Targets seq recovery nft' := by
  cases hchange with
  | same _ => exact h
  | sold _ _ => exact fun _ => nofun
  | @recovered p _ _ hname _ hseq =>
    intro hnow
    refine absurd hnow ((hkeep _ hget).2 ?_)
    rw [← hseq]
    exact if_pos hname
  | amended hamends =>
    cases hamends with
    | @setRecovery p _ howner hfree _ =>
      rintro hnow r hr
      cases hr
      exact (hkeep _ hget).1 p rfl rfl howner hfree hnow
    | lock _ _ => exact h
    | @unlock p _ _ hseq =>
      intro hnow
      refine absurd hnow ((hkeep _ hget).2 ?_)
      rw [← hseq]
      exact if_pos rfl
    | @selfRecover p _ _ _ hseq _ =>
      intro hnow
      refine absurd hnow ((hkeep _ hget).2 ?_)
      rw [← hseq]
      exact if_pos rfl
    | @setBackstop p _ old _ hrecovery _ =>
      rintro hnow r hr
      cases hr
      exact h hnow old hrecovery

theorem targets_of_run (hi : Indexed (registryOf t)) (hget : t.stateGet .nameNft name = some nft)
    (hrecovery : nft.recovery = some recovery)
    (h : Run (registry (· = t)) (KeepsTarget name nft.recoverySeq recovery) hist s) :
    ∃ nft', s.stateGet .nameNft name = some nft' ∧ Targets nft.recoverySeq recovery nft' := by
  induction h with
  | start hs =>
    cases hs
    refine ⟨nft, hget, ?_⟩
    rintro - r hr
    rw [hrecovery] at hr
    cases hr
    exact ⟨rfl, rfl⟩
  | @step hist s op hrun hkeep ih =>
    obtain ⟨nft₁, hget₁, htargets⟩ := ih
    obtain ⟨nft₂, hget₂, hchange⟩ := Identity.change (indexed_from hi hrun) (effect s op) hget₁
    exact ⟨nft₂, hget₂, htargets.change hget₁ hkeep hchange⟩
  | other hrun hs ih =>
    obtain ⟨nft₁, hget₁, htargets⟩ := ih
    refine ⟨nft₁, ?_, htargets⟩
    have hnfts := congrArg Registry.nfts hs
    rw [← hget₁]
    exact congrArg (fun m => m.get name) hnfts

end Targeting

/-! ## Acceptance -/

section Accepted

variable {env : Env} {m : Moment} {e : LedgerEntry} {sig : Option String} {hash name : String}
  {seq : ℕ} {s s' : Chain}

/-- What the checks saw of the recovery of a name. -/
theorem recovery_of_checks {primary : String} {cosignatures : List (String × String)} {msg : String}
    (h : ∀ c ∈ recoverable s name primary sig cosignatures msg, c.run env s e = .ok ()) :
    ∃ nft r, s.stateGet .nameNft name = some nft ∧ nft.recovery = some r ∧
      verifyRecoveryAuthority env s e r primary sig cosignatures = .ok () := by
  unfold recoverable at h
  split at h
  · exact nomatch h _ (List.mem_singleton_self _)
  · next nft hget =>
    split at h
    · exact nomatch h _ (List.mem_singleton_self _)
    · next r hr => exact ⟨nft, r, hget, hr, h _ (List.mem_singleton_self _)⟩

/-- What uses up a number gives the current one. -/
theorem current_of_spent {op : IdentityOp} {nft : NameNft} (hi : Indexed (registryOf s))
    (hget : s.stateGet .nameNft name = some nft) (hok : (op.run s).1 = .ok ())
    (hseq : op.expectedSeq name = some seq) : nft.recoverySeq = seq := by
  have hspent : spentBy name s op = some seq := by
    unfold spentBy
    rw [hok, hseq]
    rfl
  obtain ⟨_, _, hchange⟩ := change hi (effect s op) hget
  rcases hchange.seq with ⟨hnone, -⟩ | ⟨hsome, -⟩
  · rw [hspent] at hnone
    cases hnone
  · rw [hspent] at hsome
    exact (Option.some.inj hsome).symm

/-- A recovery or an unlock that is accepted gives the current number of a name that has a
configuration. -/
theorem current_of_accepted (hi : Indexed (registryOf s)) (h : Authorized name seq e)
    (hacc : validateAndApply env m e sig s = (.ok hash, s')) :
    ∃ nft r, s.stateGet .nameNft name = some nft ∧ nft.recovery = some r ∧
      nft.recoverySeq = seq := by
  cases h with
  | @unlock p hname hseq =>
    subst hname hseq
    obtain ⟨nft, r, hget, hr, -⟩ := recovery_of_checks fun c hc =>
      check_of_accepted (c := c) hacc (List.mem_append_right _ hc)
    obtain ⟨t, happ, -⟩ := accepted_of_plain rfl hacc
    have hok : ((IdentityOp.unlock p).run s).1 = .ok () := congrArg Prod.fst happ
    exact ⟨nft, r, hget, hr, current_of_spent hi hget hok (if_pos rfl)⟩
  | @recover p hname hseq =>
    subst hname hseq
    obtain ⟨nft, r, hget, hr, -⟩ := recovery_of_checks fun c hc =>
      check_of_accepted (c := c) hacc (List.mem_append_right _ hc)
    obtain ⟨t, happ, -⟩ := accepted_of_plain rfl hacc
    have hok : ((IdentityOp.recover p).run s).1 = .ok () := congrArg Prod.fst happ
    exact ⟨nft, r, hget, hr, current_of_spent hi hget hok (if_pos rfl)⟩

end Accepted

/-! ### One signature, two destinations -/

/-- The key of the guardian. -/
def ginaKey : Bytes :=
  [246, 196, 60, 187, 12, 47, 100, 97, 61, 21, 78, 82, 4, 184, 222, 15, 56, 28, 176, 68, 224, 81,
    24, 2, 175, 61, 63, 49, 189, 177, 235, 111]

/-- A recovery, signed by the guardian. -/
def recoverySigned : Env.Signed where
  key := ginaKey
  message := "\x7b\"chain_id\":\"hone\",\"type\":\"IDENTITY_NFT_RECOVER\","
    ++ "\"name\":\"coolname\",\"seq\":0\x7d"
  sig := [
    80, 181, 250, 149, 199, 220, 90, 40, 178, 172, 125, 205, 68, 37, 74, 109, 176, 239, 44, 131,
    97, 239, 164, 157, 75, 170, 118, 74, 110, 166, 41, 95, 81, 217, 29, 77, 169, 137, 43, 50,
    15, 81, 172, 68, 54, 208, 44, 145, 207, 118, 67, 197, 185, 209, 108, 83, 77, 118, 164, 37,
    231, 211, 166, 9]

def authorityEnv : Env := Env.accepting [recoverySigned]

def recoveryEntry : IdentityNftRecover :=
  ⟨"coolname", 0, 400000, 1, "gina", some (hexEncode recoverySigned.sig), []⟩

/-- The guardian has her keys set and money. -/
def guardianChain : Chain :=
  let keys := (Kv.empty.put "active" (hexEncode ginaKey)).put "posting" (hexEncode ginaKey)
  let gina : Account := { accountId := "gina", createdEpoch := 0, keys := keys }
  ((({} : Chain).setAccount "gina" gina).setBalance "gina" nativeToken hunitsPerHone)
    |> fun s => { s with currentEpoch := 400000 }

/-- The name with a configuration under which the guardian signs. -/
def guardedChain : Chain := (registry Unused).exec guardianChain [mintCool, recoverTo "vault"]

/-- The same name with another destination. -/
def divertedChain : Chain := (registry (· = guardedChain)).exec guardedChain [recoverTo "attic"]

def openRecord (destination : String) : NameNft where
  name := "coolname"
  owner := "alice"
  mintedEpoch := 1
  transferable := true
  recovery := some ⟨["gina"], 1, destination, true⟩
  recoverySeq := 0

section Samples

variable {s : Chain} {destination : String}

/-- The guardian alone is enough, wherever her key is in its slot. -/
theorem gina_authorizes (hrecord : (s.getAccount "gina").isNone = false)
    (hkey : (keyOf s "gina" "active").or (keyOf s "gina" "owner") =
      some (hexEncode ginaKey)) :
    verifyRecoveryAuthority authorityEnv s (.identityNftRecover recoveryEntry)
      ⟨["gina"], 1, destination, true⟩ "gina" (some (hexEncode recoverySigned.sig)) [] =
        .ok () := by
  have hmessage : canonicalSigningMessage authorityEnv (.identityNftRecover recoveryEntry) =
      recoverySigned.message := by decide
  have hver := verifies_accepting (List.mem_singleton_self recoverySigned) rfl rfl
  rw [← hmessage] at hver
  have hsigned : checkValueSignature authorityEnv s "gina" (.identityNftRecover recoveryEntry)
      (some (hexEncode recoverySigned.sig)) = .ok () := by
    unfold checkValueSignature
    rw [hrecord, if_neg (by decide), hkey]
    exact verifyHex_ok_iff.2 hver
  unfold verifyRecoveryAuthority recoverySigners
  rw [hsigned]
  rfl

/-- The chain after her recovery. -/
def recoveredChain (s : Chain) : Chain :=
  deductFee authorityEnv (.identityNftRecover recoveryEntry)
    (advance (.identityNftRecover recoveryEntry)
      (applyEntry authorityEnv 0 (.identityNftRecover recoveryEntry) s).2)

/-- The chain has the name, and all that her recovery asks for. -/
def Awaits (s : Chain) (nft : NameNft) : Prop :=
  s.stateGet .nameNft "coolname" = some nft ∧ (s.getAccount "gina").isNone = false ∧
    (keyOf s "gina" "active").or (keyOf s "gina" "owner") = some (hexEncode ginaKey) ∧
    staleGuard s (.identityNftRecover recoveryEntry) = .ok () ∧
    feePreflight authorityEnv s (.identityNftRecover recoveryEntry) = .ok () ∧
    identityNftActivationEpoch ≤ s.currentEpoch ∧ requireKey s "gina" = .ok () ∧
    Tx.checkNonce s "gina" 1 = .ok () ∧
    (applyEntry authorityEnv 0 (.identityNftRecover recoveryEntry) s).1 = .ok ()

instance (nft : NameNft) : Decidable (Awaits s nft) := inferInstanceAs (Decidable (_ ∧ _))

/-- Her recovery is accepted on a chain that has the name with her as guardian. -/
theorem recovery_accepted {nft : NameNft} (h : Awaits s nft)
    (hrecovery : nft.recovery = some ⟨["gina"], 1, destination, true⟩) :
    validateAndApply authorityEnv default (.identityNftRecover recoveryEntry)
      (some (hexEncode recoverySigned.sig)) s =
        (.ok (authorityEnv.entryHash (.identityNftRecover recoveryEntry)), recoveredChain s) := by
  obtain ⟨hget, hrecord, hkey, hguard, hfee, hepoch, hsigner, hnonce, happ⟩ := h
  refine accepted_of_applied rfl (preflight_ok_iff.2 ⟨hguard, hfee, ?_⟩) happ
  have hlist : checks authorityEnv s (some (hexEncode recoverySigned.sig))
      (.identityNftRecover recoveryEntry) =
        [identityActive s, .requireKey "gina", .nonce "gina" 1] ++ recoverable s "coolname" "gina"
          (some (hexEncode recoverySigned.sig)) []
          s!"'{recoveryEntry.name}' has no recovery authority" := rfl
  rw [hlist]
  unfold recoverable
  rw [hget]
  dsimp only
  rw [hrecovery]
  simp only [List.cons_append, List.nil_append, List.forall_mem_cons]
  refine ⟨?_, hsigner, hnonce, gina_authorizes hrecord hkey, nofun⟩
  exact if_pos (decide_eq_true hepoch)

/-- In every state reached the recovery authority of a name is given only by a quorum of its
guardians, each once, or by a quorum of founders while the backstop is on; and whatever was
authorized under a configuration is accepted for that configuration only, as long as no other
guardians or destination are set under the same number and the number does not come round. -/
theorem authority_of_current_config {t : Chain} {before : List (Chain × IdentityOp)} {name : String}
    {nft : NameNft} {recovery : Recovery}
    (hreach : Run (registry Unused) (fun _ _ => True) before t)
    (hget : t.stateGet .nameNft name = some nft) (hrecovery : nft.recovery = some recovery) :
    (∀ env e primary sig cosignatures,
      verifyRecoveryAuthority env t e recovery primary sig cosignatures = .ok () →
        Quorum env t e primary sig cosignatures recovery.guardians recovery.threshold ∨
          recovery.founderBackstop = true ∧ Quorum env t e primary sig cosignatures
            identityFounderAccounts identityFounderThreshold) ∧
    ∀ hist s, Run (registry (· = t)) (KeepsTarget name nft.recoverySeq recovery) hist s →
      ∀ env m e sig hash s', Authorized name nft.recoverySeq e →
        validateAndApply env m e sig s = (.ok hash, s') →
        ∃ nft' recovery', s.stateGet .nameNft name = some nft' ∧ nft'.recovery = some recovery' ∧
          SameTarget recovery recovery' := by
  have hi := indexed_of_run hreach
  constructor
  · intro env e primary sig cosignatures hverified
    have hdistinct : DistinctGuardians nft := record_invariant (fun _ _ _ => nofun)
      (fun _ _ _ _ _ hchange hold => hchange.distinctGuardians hold) hreach hget
    exact quorum_of_verified (hdistinct recovery hrecovery) hverified
  · intro hist s hrun env m e sig hash s' hauth hacc
    obtain ⟨nft₁, hget₁, htargets⟩ := targets_of_run hi hget hrecovery hrun
    obtain ⟨nft', recovery', hget', hrecovery', hseq⟩ :=
      current_of_accepted (indexed_from hi hrun) hauth hacc
    obtain rfl : nft₁ = nft' := Option.some.inj (hget₁.symm.trans hget')
    exact ⟨nft₁, recovery', hget', hrecovery', htargets hseq recovery' hrecovery'⟩

theorem guarded : guardedChain.stateGet .nameNft "coolname" = some (openRecord "vault") ∧
    (guardedChain.getAccount "gina").isNone = false ∧
    (keyOf guardedChain "gina" "active").or (keyOf guardedChain "gina" "owner") =
      some (hexEncode ginaKey) := by decide +kernel

/-- The guardian signs for the vault, and the recovery is taken after the name was locked. -/
theorem authority_of_current_config_vault :
    let sig := some (hexEncode recoverySigned.sig)
    let e := LedgerEntry.identityNftRecover recoveryEntry
    let s := (registry (· = guardedChain)).exec guardedChain [lockCool]
    (Quorum authorityEnv guardedChain e "gina" sig [] ["gina"] 1 ∨ true = true ∧
      Quorum authorityEnv guardedChain e "gina" sig [] identityFounderAccounts
        identityFounderThreshold) ∧
    ∃ nft' recovery', s.stateGet .nameNft "coolname" = some nft' ∧
      nft'.recovery = some recovery' ∧ SameTarget ⟨["gina"], 1, "vault", true⟩ recovery' := by
  intro sig e s
  have hawaits : Awaits s (lockedRecord "vault") := by decide +kernel
  have haccepted := recovery_accepted hawaits rfl
  obtain ⟨hget, hrecord, hkey⟩ := guarded
  have hkeep : KeepsTarget "coolname" 0 ⟨["gina"], 1, "vault", true⟩ guardedChain lockCool := by
    unfold lockCool
    intro nft hnft
    constructor
    · intro p hop
      cases hop
    · intro hn
      cases hn
  have hreach : Run (registry Unused) (fun _ _ => True) _ guardedChain :=
    Run.exec (.start rfl) (legal_true _ _)
  have hcurrent := authority_of_current_config hreach hget rfl
  refine ⟨hcurrent.1 _ _ _ _ _ (gina_authorizes hrecord hkey), ?_⟩
  exact hcurrent.2 _ _ (Run.step lockCool (.start rfl) hkeep) _ _ _ _ _ _ (.recover rfl rfl)
    haccepted

/-- The signature is good for the destination it was given for, and it is also taken after the
owner has set another. -/
theorem authorization_outlives_destination :
    ∃ before t hist s nft nft' recovery recovery' hash s',
      Run (registry Unused) (fun _ _ => True) before t ∧
      t.stateGet .nameNft "coolname" = some nft ∧ nft.recovery = some recovery ∧
      nft.recoverySeq = recoveryEntry.seq ∧
      verifyRecoveryAuthority authorityEnv t (.identityNftRecover recoveryEntry) recovery "gina"
        (some (hexEncode recoverySigned.sig)) [] = .ok () ∧
      Run (registry (· = t)) (fun _ _ => True) hist s ∧
      s.stateGet .nameNft "coolname" = some nft' ∧ nft'.recovery = some recovery' ∧
      recovery'.destination ≠ recovery.destination ∧
      validateAndApply authorityEnv default (.identityNftRecover recoveryEntry)
        (some (hexEncode recoverySigned.sig)) s = (.ok hash, s') ∧
      s'.stateGet .nameOwner "coolname" = some recovery'.destination := by
  have hdiverted : Awaits divertedChain (openRecord "attic") ∧
      (recoveredChain divertedChain).stateGet .nameOwner "coolname" = some "attic" := by
    decide +kernel
  have haccepted := recovery_accepted hdiverted.1 rfl
  obtain ⟨hvault, hrecord, hkey⟩ := guarded
  refine ⟨_, guardedChain, _, divertedChain, openRecord "vault", openRecord "attic", _, _, _, _,
    Run.exec (.start rfl) (legal_true _ _), hvault, rfl, rfl, ?_,
    Run.exec (.start rfl) (legal_true _ _), hdiverted.1.1, rfl, by decide, haccepted, hdiverted.2⟩
  exact gina_authorizes hrecord hkey

end Samples

end HoneNode.Identity
