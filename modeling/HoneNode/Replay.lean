import HoneNode.Lib.Trace
import HoneNode.Tx.Run

/-!
# Replay — sending an accepted entry again

An arm that asks for a nonce and then advances it takes an entry once: no arm
writes nonces, so the stored nonce only ever climbs, up to the end of `u64`. Some
arms ask and do not advance, and some do not ask; an account without a record has
no nonce to advance. Those are the entries that can be sent again.
-/

namespace HoneNode.Replay

open Entry Prog Within Tx

/-- The account whose nonce an accepted entry advances, wherever the code does it. -/
def advanced : LedgerEntry → Option String
  | .transfer p => some p.from_
  | .contractDeploy p => some p.deployer
  | .contractCall p => some p.signer
  | e => bumped e

/-! ## Stored nonces -/

/-- The account has a record, with this nonce. -/
def NonceIs (s : Chain) (a : String) (n : ℕ) : Prop := ∃ r, s.getAccount a = some r ∧ r.nonce = n

section Stored

variable {s t : Chain} {a : String} {n : ℕ}

theorem NonceIs.of_accounts (h : NonceIs s a n) (ht : t.accounts = s.accounts) : NonceIs t a n := by
  obtain ⟨r, hr, hn⟩ := h
  exact ⟨r, by rw [← hr]; simp only [Chain.getAccount, ht], hn⟩

/-- No program moves a nonce. -/
theorem NonceIs.run {W : Footprint} {α : Type} (h : NonceIs s a n) (p : Prog W α) :
    NonceIs (p.run s).2 a n := by
  obtain ⟨r, hr, hn⟩ := h
  obtain ⟨r', hr', hn', -⟩ := (p.within s).record a r hr
  exact ⟨r', hr', hn'.trans hn⟩

theorem NonceIs.bump_of_ne {b : String} (h : NonceIs s a n) (hb : b ≠ a) :
    NonceIs (s.bumpNonce b) a n := by
  obtain ⟨r, hr, hn⟩ := h
  refine ⟨r, ?_, hn⟩
  unfold Chain.bumpNonce
  split
  · simpa [Chain.getAccount, Kv.get_put_of_ne _ _ hb] using hr
  · exact hr

theorem NonceIs.bump (h : NonceIs s a n) (hfit : n + 1 < 2 ^ 64) :
    NonceIs (s.bumpNonce a) a (n + 1) := by
  obtain ⟨r, hr, rfl⟩ := h
  refine ⟨{ r with nonce := (r.nonce + 1) % 2 ^ 64 }, ?_, Nat.mod_eq_of_lt hfit⟩
  unfold Chain.bumpNonce
  rw [hr]
  simp [Chain.getAccount]

theorem NonceIs.expected (h : NonceIs s a n) : s.expectedNonce a = (n + 1) % 2 ^ 64 := by
  obtain ⟨r, hr, rfl⟩ := h
  simp [Chain.expectedNonce, hr]

end Stored

/-! ## What one entry does to a nonce -/

section Steps

variable {env : Env} {now : ℕ} {m : Moment} {s s' : Chain} {a : String} {n : ℕ}

variable {p : Entry.Transfer} {e : LedgerEntry}

/-- A transfer that goes through carries the expected nonce. -/
theorem nonce_of_transfer (h : (applyTransfer p).run s = (.ok (), s')) :
    p.nonce = s.expectedNonce p.from_ := by
  unfold applyTransfer at h
  rw [run_touchAlive_bind, ok_ensure_bind] at h
  have hnonce := (ok_checkNonce_bind.1 h.2).1
  rw [hnonce]
  simp only [Chain.expectedNonce, Chain.getAccount_touched]

theorem NonceIs.applyEntry_of_ne (h : NonceIs s a n)
    (he : ∀ p, e = .transfer p → p.from_ ≠ a) : NonceIs (applyEntry env now e s).2 a n := by
  unfold applyEntry
  split
  · rename_i p
    have hrun := h.run (applyTransfer p)
    rcases hr : (applyTransfer p).run s with ⟨_ | _, t⟩
    · rw [hr] at hrun
      exact hrun
    · rw [hr] at hrun
      exact hrun.bump_of_ne (he p rfl)
  · exact h.run _

/-- A transfer with another nonce than the next leaves the nonce. -/
theorem NonceIs.transfer_of_ne (h : NonceIs s a n) (hfit : n + 1 < 2 ^ 64)
    (hp : p.nonce ≠ n + 1) : NonceIs (applyEntry env now (.transfer p) s).2 a n := by
  by_cases hfrom : p.from_ = a
  · have hrun := h.run (applyTransfer p)
    rw [applyEntry_transfer]
    rcases hr : (applyTransfer p).run s with ⟨_ | ⟨⟩, t⟩
    · rw [hr] at hrun
      exact hrun
    · have hnonce := nonce_of_transfer hr
      rw [hfrom, h.expected, Nat.mod_eq_of_lt hfit] at hnonce
      exact absurd hnonce hp
  · refine h.applyEntry_of_ne ?_
    rintro q hq
    cases hq
    exact hfrom

/-- The nonce stays or moves on by one. -/
theorem NonceIs.applyEntry (h : NonceIs s a n) (hfit : n + 1 < 2 ^ 64) :
    NonceIs (applyEntry env now e s).2 a n ∨ NonceIs (applyEntry env now e s).2 a (n + 1) := by
  by_cases he : ∀ p, e = .transfer p → p.from_ ≠ a
  · exact .inl (h.applyEntry_of_ne he)
  · push Not at he
    obtain ⟨p, rfl, rfl⟩ := he
    have hrun := h.run (applyTransfer p)
    rw [applyEntry_transfer]
    rcases hr : (applyTransfer p).run s with ⟨_ | ⟨⟩, t⟩
    · rw [hr] at hrun
      exact .inl hrun
    · rw [hr] at hrun
      exact .inr (hrun.bump hfit)

/-- The transfers of a contract carry nonce `0`, which is never the next one. -/
theorem NonceIs.payTransfers {p : ContractCall} (h : NonceIs s a n) (hfit : n + 1 < 2 ^ 64)
    (l : List (String × ℕ)) : NonceIs (Contracts.payTransfers env now p l s).2 a n := by
  induction l generalizing s with
  | nil => exact h
  | cons x rest ih =>
    obtain ⟨recipient, amount⟩ := x
    have hstep : NonceIs (HoneNode.applyEntry env now
        (.transfer (Contracts.contractTransfer p recipient amount)) s).2 a n :=
      h.transfer_of_ne hfit (by simp [Contracts.contractTransfer])
    simp only [Contracts.payTransfers]
    rcases hr : HoneNode.applyEntry env now
        (.transfer (Contracts.contractTransfer p recipient amount)) s with ⟨(msg | msg) | _, t⟩
    · rw [hr] at hstep
      exact hstep.run (Contracts.refundDeposit p)
    · rw [hr] at hstep
      exact hstep
    · rw [hr] at hstep
      exact ih hstep

/-- The nonce of `a` stays or moves on by one, and does move on when the entry is taken and
is one that advances it. -/
def Climbs (a : String) (n : ℕ) (e : LedgerEntry) (r : Except Fault Unit × Chain) : Prop :=
  (NonceIs r.2 a n ∨ NonceIs r.2 a (n + 1)) ∧
    (r.1 = .ok () → advanced e = some a → NonceIs r.2 a (n + 1))

theorem climbs_error {f : Fault} (h : NonceIs s' a n ∨ NonceIs s' a (n + 1)) :
    Climbs a n e (.error f, s') := ⟨h, nofun⟩

/-- The bump at the end of an arm. -/
theorem climbs_bump {b : String} (h : NonceIs s' a n) (hfit : n + 1 < 2 ^ 64)
    (he : advanced e = some b) : Climbs a n e (.ok (), s'.bumpNonce b) := by
  by_cases hb : b = a
  · rw [hb]
    exact ⟨.inr (h.bump hfit), fun _ _ => h.bump hfit⟩
  · refine ⟨.inl (h.bump_of_ne hb), ?_⟩
    intro _ ha
    rw [he] at ha
    exact absurd (Option.some.inj ha) hb

theorem climbs_deploy {p : ContractDeploy} (h : NonceIs s a n) (hfit : n + 1 < 2 ^ 64) :
    Climbs a n (.contractDeploy p) (Contracts.applyContractDeploy env p s) := by
  have hrun := h.run (Contracts.contractDeploy env p)
  unfold Contracts.applyContractDeploy
  rcases hr : (Contracts.contractDeploy env p).run s with ⟨_ | ⟨⟩, t⟩
  · rw [hr] at hrun
    exact climbs_error (.inl hrun)
  · rw [hr] at hrun
    exact climbs_bump hrun hfit rfl

theorem climbs_call {p : ContractCall} (h : NonceIs s a n) (hfit : n + 1 < 2 ^ 64) :
    Climbs a n (.contractCall p) (Contracts.applyContractCall env now p s) := by
  have hrun := h.run (Contracts.executeCall env p)
  unfold Contracts.applyContractCall
  rcases hr : (Contracts.executeCall env p).run s with ⟨_ | result, t⟩
  · rw [hr] at hrun
    exact climbs_error (.inl hrun)
  · rw [hr] at hrun
    have hpay : NonceIs (Contracts.payTransfers env now p result.pendingTransfers t).2 a n :=
      hrun.payTransfers hfit _
    dsimp only
    rcases hr' : Contracts.payTransfers env now p result.pendingTransfers t with ⟨_ | ⟨⟩, u⟩
    · rw [hr'] at hpay
      exact climbs_error (.inl hpay)
    · rw [hr'] at hpay
      exact climbs_bump (hpay.run _) hfit rfl

/-- An entry whose arm is `apply_entry` and the nonce of `bumped`. -/
theorem climbs_advance (h : NonceIs s' a n) (hfit : n + 1 < 2 ^ 64)
    (he : advanced e = bumped e) : Climbs a n e (.ok (), advance e s') := by
  unfold advance
  cases hb : bumped e with
  | some b => exact climbs_bump h hfit (he.trans hb)
  | none =>
    refine ⟨.inl h, ?_⟩
    intro _ ha
    rw [he, hb] at ha
    cases ha

/-- A transfer has its bump inside `apply_entry`. -/
theorem climbs_transfer (h : NonceIs s a n) (hfit : n + 1 < 2 ^ 64) :
    Climbs a n (.transfer p) (match HoneNode.applyEntry env now (.transfer p) s with
      | (.error f, t) => (.error f, t)
      | (.ok (), t) => (.ok (), advance (.transfer p) t)) := by
  have hrun := h.run (applyTransfer p)
  rw [applyEntry_transfer]
  rcases hr : (applyTransfer p).run s with ⟨_ | ⟨⟩, t⟩
  · rw [hr] at hrun
    exact climbs_error (.inl hrun)
  · rw [hr] at hrun
    exact climbs_bump hrun hfit rfl

theorem advanced_eq_bumped (ht : ∀ p, e ≠ .transfer p)
    (hd : ∀ p, e ≠ .contractDeploy p) (hc : ∀ p, e ≠ .contractCall p) : advanced e = bumped e := by
  unfold advanced
  split
  · exact absurd rfl (ht _)
  · exact absurd rfl (hd _)
  · exact absurd rfl (hc _)
  · rfl

theorem climbs_commit (e : LedgerEntry) (h : NonceIs s a n) (hfit : n + 1 < 2 ^ 64) :
    Climbs a n e (commit env m e s) := by
  unfold commit
  split
  · exact ⟨.inl (h.of_accounts rfl), nofun⟩
  · exact climbs_deploy h hfit
  · exact climbs_call h hfit
  · rename_i p
    have happ : NonceIs (HoneNode.applyEntry env m.now (.agentTaskVerifierReveal p) s).2 a n :=
      h.applyEntry_of_ne (by simp)
    rcases hr : HoneNode.applyEntry env m.now (.agentTaskVerifierReveal p) s with ⟨_ | ⟨⟩, t⟩
    · rw [hr] at happ
      exact climbs_error (.inl happ)
    · rw [hr] at happ
      have hadv := climbs_advance (e := .agentTaskVerifierReveal p) happ hfit rfl
      -- the settlement is one more program, so it keeps what the bump left
      have hsettle : ∀ {k}, NonceIs (advance (.agentTaskVerifierReveal p) t) a k →
          NonceIs (commit.settleReveal m p (advance (.agentTaskVerifierReveal p) t)).2 a k := by
        intro k hk
        have hrun := hk.run (trySettle m.order p.taskId : Prog {} Unit)
        unfold commit.settleReveal
        rcases hs : (trySettle m.order p.taskId : Prog {} Unit).run
            (advance (.agentTaskVerifierReveal p) t) with ⟨(_ | _) | _, u⟩
        all_goals
          rw [hs] at hrun
          exact hrun
      exact ⟨hadv.1.imp hsettle hsettle, fun _ ha => hsettle (hadv.2 rfl ha)⟩
  · rename_i hdeploy hcall _
    by_cases he : ∃ p, e = .transfer p
    · obtain ⟨p, rfl⟩ := he
      exact climbs_transfer h hfit
    · have happ : NonceIs (HoneNode.applyEntry env m.now e s).2 a n :=
        h.applyEntry_of_ne fun p hp => absurd ⟨p, hp⟩ he
      have hbump := advanced_eq_bumped (fun p hp => he ⟨p, hp⟩) hdeploy hcall
      rcases hr : HoneNode.applyEntry env m.now e s with ⟨_ | ⟨⟩, t⟩
      · rw [hr] at happ
        exact climbs_error (.inl happ)
      · rw [hr] at happ
        exact climbs_advance happ hfit hbump

theorem climbs_validateAndApply (e : LedgerEntry) (sig : Option String) (h : NonceIs s a n)
    (hfit : n + 1 < 2 ^ 64) :
    NonceIs (validateAndApply env m e sig s).2 a n ∨
      NonceIs (validateAndApply env m e sig s).2 a (n + 1) := by
  have hcommit : Climbs a n e (commit env m e s) := climbs_commit e h hfit
  unfold validateAndApply
  split
  · exact .inl h
  · rcases hr : commit env m e s with ⟨_ | ⟨⟩, t⟩
    · rw [hr] at hcommit
      exact hcommit.1
    · rw [hr] at hcommit
      have hfee := accounts_deductFee env t e
      exact hcommit.1.imp (·.of_accounts hfee) (·.of_accounts hfee)

/-- An accepted entry that advances a nonce has done so. -/
theorem nonce_of_accepted {sig : Option String} {hash : String}
    (h : NonceIs s a n) (hfit : n + 1 < 2 ^ 64) (he : advanced e = some a)
    (hacc : validateAndApply env m e sig s = (.ok hash, s')) : NonceIs s' a (n + 1) := by
  obtain ⟨-, -, t, hcommit, rfl⟩ := validateAndApply_eq_ok_iff.1 hacc
  have hclimbs : Climbs a n e (commit env m e s) := climbs_commit e h hfit
  rw [hcommit] at hclimbs
  exact (hclimbs.2 rfl he).of_accounts (accounts_deductFee env t e)

end Steps

/-! ## What an entry asks for -/

section Asked

variable {env : Env} {m : Moment} {s s' : Chain} {e : LedgerEntry} {a : String}

/-- Every arm that advances a nonce checks it first, in the same position of one of a few
patterns. -/
theorem nonce_mem_checks (h : bumped e = some a) :
    ∃ n, ∀ env s sig, Check.nonce a n ∈ checks env s sig e := by
  cases e with
  | _ p =>
    cases h
    all_goals
      refine ⟨p.nonce, fun env s sig => ?_⟩
      first
      | exact List.mem_of_getElem? (i := 2) rfl
      | exact List.mem_of_getElem? (i := 1) rfl
      | exact List.mem_of_getElem? (i := 3) rfl
      | exact List.mem_of_getElem? (i := 4) rfl

theorem nonce_of_check {sig : Option String} {hash : String} {n : ℕ}
    (hc : Check.nonce a n ∈ checks env s sig e)
    (hacc : validateAndApply env m e sig s = (.ok hash, s')) : n = s.expectedNonce a := by
  have hrun : Tx.checkNonce s a n = .ok () := check_of_accepted hacc hc
  unfold Tx.checkNonce at hrun
  split at hrun
  · assumption
  · cases hrun

/-- An entry that advances a nonce is accepted with the expected one only. -/
theorem asks_nonce (h : advanced e = some a) :
    ∃ n, ∀ env m sig s hash s', validateAndApply env m e sig s = (.ok hash, s') →
      n = s.expectedNonce a := by
  unfold advanced at h
  split at h
  · rename_i p
    cases h
    refine ⟨p.nonce, fun env m sig s hash s' hacc => ?_⟩
    exact nonce_of_check (List.mem_of_getElem? (i := 5) rfl) hacc
  · rename_i p
    cases h
    refine ⟨p.nonce, fun env m sig s hash s' hacc => ?_⟩
    obtain ⟨-, -, t, hcommit, -⟩ := validateAndApply_eq_ok_iff.1 hacc
    change Contracts.applyContractDeploy env p s = _ at hcommit
    unfold Contracts.applyContractDeploy at hcommit
    rcases hr : (Contracts.contractDeploy env p).run s with ⟨_ | ⟨⟩, u⟩
    · rw [hr] at hcommit
      cases hcommit
    · exact (ok_checkNonce_bind.1 hr).1
  · rename_i p
    cases h
    refine ⟨p.nonce, fun env m sig s hash s' hacc => ?_⟩
    obtain ⟨-, -, t, hcommit, -⟩ := validateAndApply_eq_ok_iff.1 hacc
    change Contracts.applyContractCall env m.now p s = _ at hcommit
    unfold Contracts.applyContractCall at hcommit
    rcases hr : (Contracts.executeCall env p).run s with ⟨_ | result, u⟩
    · rw [hr] at hcommit
      cases hcommit
    · exact (ok_checkNonce_bind.1 hr).1
  · obtain ⟨n, hn⟩ := nonce_mem_checks h
    exact ⟨n, fun env m sig s hash s' hacc => nonce_of_check (hn env s sig) hacc⟩

end Asked

/-! ## Runs -/

/-- What happens to a ledger: a submission, or an entry of the node itself. -/
inductive Act where
  | submit (m : Moment) (c : Submission)
  | emit (now : ℕ) (e : LedgerEntry) (hsys : isSystemEntry e = true)

/-- The ledger from a state on. -/
def ledger (env : Env) (s₀ : Chain) : Trace.Component Chain Act where
  init := fun s => s = s₀
  step := fun s act => match act with
    | .submit m c => (validateAndApply env m c.entry c.sig s).2
    | .emit now e _ => (applyEntry env now e s).2

/-- The nonce of the account, if it has one, is not the last of `u64`. -/
def Unexhausted (a : String) (s : Chain) : Prop :=
  ∀ r, s.getAccount a = some r → r.nonce + 1 < 2 ^ 64

theorem Unexhausted.lt {a : String} {s : Chain} {n : ℕ} (h : Unexhausted a s)
    (hn : NonceIs s a n) : n + 1 < 2 ^ 64 := by
  obtain ⟨r, hr, rfl⟩ := hn
  exact h r hr

instance (a : String) (s : Chain) : Decidable (Unexhausted a s) :=
  decidable_of_iff ((s.getAccount a).all fun r => r.nonce + 1 < 2 ^ 64) (by
    unfold Unexhausted
    cases s.getAccount a <;> simp)

/-- What happens to a ledger leaves a nonce or moves it on. -/
theorem NonceIs.step {env : Env} {s₀ s : Chain} {a : String} {n : ℕ} (h : NonceIs s a n)
    (hfit : n + 1 < 2 ^ 64) (act : Act) : NonceIs ((ledger env s₀).step s act) a n ∨
      NonceIs ((ledger env s₀).step s act) a (n + 1) := by
  cases act with
  | submit m c => exact climbs_validateAndApply c.entry c.sig h hfit
  | emit now e hsys => exact h.applyEntry hfit

/-- The nonce of an account never falls behind one it has reached. -/
theorem nonce_climbs {env : Env} {s₀ t : Chain} {a : String} {n : ℕ}
    {hist : List (Chain × Act)} (h₀ : NonceIs s₀ a n) (hn : n < 2 ^ 64)
    (hrun : Trace.Run (ledger env s₀) (fun s _ => Unexhausted a s) hist t) :
    ∃ k, n ≤ k ∧ k < 2 ^ 64 ∧ NonceIs t a k := by
  refine hrun.invariant (I := fun t => ∃ k, n ≤ k ∧ k < 2 ^ 64 ∧ NonceIs t a k) ?_ ?_ ?_
  · rintro s rfl
    exact ⟨n, le_rfl, hn, h₀⟩
  · rintro s act hfit ⟨k, hle, -, hk⟩
    have hlt := hfit.lt hk
    rcases hk.step hlt act with hk' | hk'
    · exact ⟨k, hle, by omega, hk'⟩
    · exact ⟨k + 1, by omega, hlt, hk'⟩
  · rintro s s' rfl h
    exact h

/-! ### Two signed entries -/

section Samples

/-- The key of `alice`. -/
def aliceKey : Bytes :=
  [234, 74, 108, 99, 226, 156, 82, 10, 190, 245, 80, 123, 19, 46, 197, 249, 149, 71, 118, 174,
    190, 190, 123, 146, 66, 30, 234, 105, 20, 70, 210, 44]

/-- A stake, signed. -/
def stakeSigned : Env.Signed where
  key := aliceKey
  message := "\x7b\"chain_id\":\"hone\",\"type\":\"STAKE\",\"account\":\"alice\","
    ++ "\"amount\":7,\"nonce\":1\x7d"
  sig := [
    3, 207, 38, 178, 241, 250, 81, 187, 58, 211, 164, 23, 223, 219, 26, 174, 154, 252, 251, 242,
    212, 87, 103, 9, 156, 145, 116, 199, 193, 88, 11, 244, 216, 230, 58, 240, 214, 83, 174, 112,
    212, 234, 199, 248, 33, 254, 119, 123, 214, 50, 14, 188, 102, 60, 37, 99, 102, 34, 173, 202,
    60, 148, 231, 12]

/-- A subscription for a tracker, signed. -/
def subscriptionSigned : Env.Signed where
  key := aliceKey
  message := "\x7b\"chain_id\":\"hone\",\"type\":\"TRACKER_SUBSCRIPTION\","
    ++ "\"serial_commitment\":\"tag\",\"claimer\":\"alice\",\"fee_per_epoch\":5,"
    ++ "\"expires_epoch\":9,\"nonce\":1\x7d"
  sig := [
    108, 50, 221, 33, 80, 238, 73, 52, 38, 198, 178, 145, 132, 157, 69, 186, 182, 217, 136, 80,
    167, 94, 169, 68, 218, 173, 116, 64, 68, 43, 245, 117, 95, 226, 111, 91, 98, 51, 168, 40,
    90, 192, 72, 95, 180, 230, 163, 206, 143, 82, 149, 10, 54, 157, 206, 186, 28, 141, 188, 239,
    39, 181, 116, 6]

def replayEnv : Env := Env.accepting [stakeSigned, subscriptionSigned]

def stakeOnce : Submission :=
  ⟨.stake ⟨"alice", 7, 0, 1, "alice"⟩, some (hexEncode stakeSigned.sig)⟩

def subscribeOnce : Submission :=
  ⟨.trackerSubscription ⟨"tag", "alice", 5, 9, 0, 1, "alice"⟩,
    some (hexEncode subscriptionSigned.sig)⟩

/-- `alice` has all her keys set, money, and a verified tracker. -/
def replayChain : Chain :=
  let keys := ((Kv.empty.put "owner" (hexEncode aliceKey)).put "active"
    (hexEncode aliceKey)).put "posting" (hexEncode aliceKey)
  let alice : Account := { accountId := "alice", createdEpoch := 0, keys := keys }
  let tracker : TrackerClaimRecord :=
    { serialCommitment := "tag", tagType := "ble", claimer := "alice", fee := 0, epoch := 0,
      nonce := 0, status := "Verified", witnessId := none, proofHash := none,
      verifiedEpoch := none, lostMode := none, lostSince := none }
  ((({} : Chain).setAccount "alice" alice).setBalance "alice" nativeToken hunitsPerHone).stateSet
    .trackerClaim (trackerKey "alice" "tag") tracker

/-- The signatures of the samples pass wherever the key is in its slot. -/
theorem signature_passes {s : Chain} {e : LedgerEntry} {x : Env.Signed} {role : String}
    (hx : x ∈ [stakeSigned, subscriptionSigned]) (hxkey : x.key = aliceKey)
    (hlength : x.sig.length = 64)
    (hkey : signingKey s "alice" role = some (hexEncode aliceKey))
    (hmessage : canonicalSigningMessage replayEnv e = x.message) :
    (Check.signature "alice" role (some (hexEncode x.sig))).run replayEnv s e = .ok () := by
  refine checkSignature_ok_iff.2 fun pk hpk => ?_
  obtain rfl : hexEncode aliceKey = pk := Option.some.inj (hkey.symm.trans hpk)
  have hver := verifies_accepting hx (by rw [hxkey]; decide) hlength
  rwa [hxkey, ← hmessage] at hver

/-- The chain after one subscription. -/
def subscribed (s : Chain) : Chain :=
  deductFee replayEnv subscribeOnce.entry
    (advance subscribeOnce.entry (applyEntry replayEnv 0 subscribeOnce.entry s).2)

theorem subscription_accepted {s : Chain}
    (hfee : feePreflight replayEnv s subscribeOnce.entry = .ok ())
    (hkey : signingKey s "alice" "posting" = some (hexEncode aliceKey))
    (happ : (applyEntry replayEnv 0 subscribeOnce.entry s).1 = .ok ()) :
    validateAndApply replayEnv default subscribeOnce.entry subscribeOnce.sig s =
      (.ok (replayEnv.entryHash subscribeOnce.entry), subscribed s) := by
  have hlist : checks replayEnv s subscribeOnce.sig subscribeOnce.entry =
      [same "alice" "alice" "TrackerSubscription: signed_by must equal claimer",
        .signature "alice" "posting" subscribeOnce.sig] := rfl
  refine accepted_of_applied rfl (preflight_ok_iff.2 ⟨rfl, hfee, ?_⟩) happ
  rw [hlist, List.forall_mem_cons, List.forall_mem_singleton]
  exact ⟨rfl, signature_passes (by simp) rfl rfl hkey (by decide)⟩

theorem stake_accepted : validateAndApply replayEnv default stakeOnce.entry stakeOnce.sig
    replayChain = (.ok (replayEnv.entryHash stakeOnce.entry), deductFee replayEnv stakeOnce.entry
      (advance stakeOnce.entry (applyEntry replayEnv 0 stakeOnce.entry replayChain).2)) := by
  have hlist : checks replayEnv replayChain stakeOnce.sig stakeOnce.entry =
      [.holds true "stake amount must be positive",
        .holds true "signed_by 'alice' is neither 'account' nor a Stake delegate of 'alice'",
        .requireKey "alice", .nonce "alice" 1, .signature "alice" "active" stakeOnce.sig,
        .holds (decide (7 ≤ replayChain.getBalance "alice" nativeToken))
          (shortStake replayEnv replayChain ⟨"alice", 7, 0, 1, "alice"⟩)] := rfl
  refine accepted_of_applied rfl (preflight_ok_iff.2 ⟨rfl, by decide, ?_⟩)
    (by decide)
  rw [hlist]
  simp only [List.forall_mem_cons]
  exact ⟨rfl, rfl, by decide, by decide,
    signature_passes (by simp) rfl rfl (by decide) (by decide), by decide⟩

end Samples

/-- An accepted entry whose arm advances the nonce of an account with a record is not
accepted again, whatever happens in between. -/
theorem accepted_only_once (env : Env) (m m' : Moment) (c : Submission) (s s₁ t : Chain)
    (hash a : String) (hist : List (Chain × Act)) (hkind : advanced c.entry = some a)
    (hrecord : (s.getAccount a).isSome = true) (hfit : Unexhausted a s)
    (hacc : validateAndApply env m c.entry c.sig s = (.ok hash, s₁))
    (hrun : Trace.Run (ledger env s₁) (fun s _ => Unexhausted a s) hist t) :
    ∃ f t', validateAndApply env m' c.entry c.sig t = (.error f, t') := by
  obtain ⟨r, hr⟩ := Option.isSome_iff_exists.1 hrecord
  have hnonce : NonceIs s a r.nonce := ⟨r, hr, rfl⟩
  have hlt := hfit.lt hnonce
  obtain ⟨n, hasks⟩ := asks_nonce hkind
  have hn : n = r.nonce + 1 := by
    rw [hasks env m c.sig s hash s₁ hacc, hnonce.expected, Nat.mod_eq_of_lt hlt]
  have hafter := nonce_of_accepted hnonce hlt hkind hacc
  obtain ⟨k, hle, hk, hat⟩ := nonce_climbs hafter hlt hrun
  rcases hagain : validateAndApply env m' c.entry c.sig t with ⟨f | hash', t'⟩
  · exact ⟨f, t', rfl⟩
  · -- the nonce it would need now is a later one, or `0` after the last
    have hneed := hasks env m' c.sig t hash' t' hagain
    rw [hat.expected] at hneed
    omega

/-- A stake is taken once: sent again, twice in a row, it is turned down. -/
theorem accepted_only_once_stake : ∃ f t',
    validateAndApply replayEnv default stakeOnce.entry stakeOnce.sig
      (validateAndApply replayEnv default stakeOnce.entry stakeOnce.sig
        (validateAndApply replayEnv default stakeOnce.entry stakeOnce.sig replayChain).2).2 =
      (.error f, t') := by
  have hacc := stake_accepted
  have hrun : Trace.Run (ledger replayEnv
      (validateAndApply replayEnv default stakeOnce.entry stakeOnce.sig replayChain).2)
      (fun s _ => Unexhausted "alice" s) _ _ :=
    .step (.submit default stakeOnce) (.start rfl) (by rw [hacc]; decide)
  rw [hacc] at hrun ⊢
  exact accepted_only_once replayEnv default default stakeOnce replayChain _ _ _ "alice" _ rfl rfl
    (by decide) hacc hrun

/-- A subscription for a tracker can be sent again, and is paid for again. -/
theorem subscription_paid_twice : ∃ hash hash' s₁ s₂,
    validateAndApply replayEnv default subscribeOnce.entry subscribeOnce.sig replayChain =
      (.ok hash, s₁) ∧
    validateAndApply replayEnv default subscribeOnce.entry subscribeOnce.sig s₁ =
      (.ok hash', s₂) ∧
    s₁.getBalance "alice" nativeToken + 45 < replayChain.getBalance "alice" nativeToken ∧
    s₂.getBalance "alice" nativeToken + 45 < s₁.getBalance "alice" nativeToken := by
  have hfirst := subscription_accepted (s := replayChain) (by decide)
    (by decide) (by decide)
  have hsecond := subscription_accepted (s := subscribed replayChain) (by decide)
    (by decide) (by decide)
  exact ⟨_, _, _, _, hfirst, hsecond, by decide, by decide⟩

end HoneNode.Replay
