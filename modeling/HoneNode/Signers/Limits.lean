import HoneNode.Atomicity
import HoneNode.Lib.Trace
import HoneNode.Rewards.Holdings
import HoneNode.Signers.Payload

/-!
# Signers.Limits — what an external signer can move

A transfer is checked against the first live grant of the account whose key
verifies it: each nonce of a grant goes through once, and a daily counter is
kept under the bucket of the epoch that the entry names. Nobody signs that
epoch, and the counter wraps around before it is compared.
-/

namespace HoneNode.Signers

open Prog Within Trace Entry
open Atomicity (signerGrant capAllows dailyTotal Admitted Screened run_screenGrant_cases)

/-! ## One transfer -/

/-- The daily counter is looked at under this grant. -/
structure Reaches (env : Env) (now : ℕ) (s : Chain) (p : ExternalSignerTransfer)
    (g : String × ExternalSigner) : Prop where
  chain : p.externalChain = "ton"
  positive : 0 < p.amount
  grant : signerGrant env s p = some g
  admitted : Admitted now s p g

abbrev signing (p : ExternalSignerTransfer) : Footprint :=
  { pays := {balanceKey p.account nativeToken}, grants := {.externalSignerNonce} }

theorem account_pays (p : ExternalSignerTransfer) :
    balanceKey p.account nativeToken ∈ ({balanceKey p.account nativeToken} : Set String) :=
  rfl

/-- The end of the arm: the nonce is marked and the amount moved. -/
def payOut (p : ExternalSignerTransfer) (marker : String) : Prog (signing p) Unit := do
  stateSet .externalSignerNonce marker ()
  debit p.account nativeToken p.amount (account_pays p)
  credit p.to_ nativeToken p.amount

section Arm

variable {env : Env} {now : ℕ} {s t : Chain} {p : ExternalSignerTransfer} {F : Footprint}
  {caps : ExternalSignerCaps} {grant : String}

theorem run_resolveCapHunits (cap : SignerCap) (f : ℕ → Prog F Unit) :
    (∃ limit, cap = .hunits limit ∧ (resolveCapHunits cap >>= f).run s = (f limit).run s) ∨
      (∃ c m, cap = .usd c m) ∧ Refused s ((resolveCapHunits cap >>= f).run s) := by
  cases cap with
  | hunits limit => exact .inl ⟨limit, rfl, rfl⟩
  | usd c m => exact .inr ⟨⟨c, m, rfl⟩, _, run_bind_error (run_bail _ _)⟩

theorem run_checkPerTx (s : Chain) :
    (capAllows caps.perTxMax p.amount ∧ (checkPerTx p caps : Prog F Unit).run s = (.ok (), s)) ∨
      ¬ capAllows caps.perTxMax p.amount ∧ Refused s ((checkPerTx p caps : Prog F Unit).run s) := by
  unfold checkPerTx
  cases caps.perTxMax with
  | none => exact .inl ⟨trivial, rfl⟩
  | some cap =>
    rcases run_resolveCapHunits (s := s) cap fun limit => (ensure (p.amount ≤ limit)
      "amount exceeds per-tx cap for this grant" : Prog F Unit) with ⟨limit, rfl, hrun⟩ |
        ⟨⟨c, m, rfl⟩, hrefused⟩
    · by_cases hle : p.amount ≤ limit
      · exact .inl ⟨hle, hrun.trans (by rw [run_ensure, if_pos hle])⟩
      · exact .inr ⟨hle, _, hrun.trans (by rw [run_ensure, if_neg hle])⟩
    · exact .inr ⟨id, hrefused⟩

theorem run_spendDaily (s : Chain) :
    (capAllows caps.dailyMax (dailyTotal s p grant) ∧
        (spendDaily p grant caps : Prog F Unit).run s = (.ok (), Atomicity.counted s p grant caps)) ∨
      ¬ capAllows caps.dailyMax (dailyTotal s p grant) ∧
        Refused s ((spendDaily p grant caps : Prog F Unit).run s) := by
  unfold spendDaily Atomicity.counted
  cases caps.dailyMax with
  | none => exact .inl ⟨trivial, rfl⟩
  | some cap =>
    cases cap with
    | usd c m => exact .inr ⟨id, _, run_bind_error (run_bail _ _)⟩
    | hunits limit =>
      by_cases hle : dailyTotal s p grant ≤ limit
      · refine .inl ⟨hle, ?_⟩
        simp only [resolveCapHunits]
        rw [run_bind_ok (run_pure _ _), run_stateGet_bind,
          run_bind_ok (by rw [run_ensure]; exact if_pos hle)]
        rfl
      · refine .inr ⟨hle, "amount exceeds remaining daily cap for this grant", ?_⟩
        simp only [resolveCapHunits]
        rw [run_bind_ok (run_pure _ _), run_stateGet_bind,
          run_bind_error (by rw [run_ensure]; exact if_neg hle)]

theorem dailyTotal_congr (h : Noted s t) : dailyTotal t p grant = dailyTotal s p grant := by
  unfold dailyTotal
  rw [h.stateGet (by decide)]

/-- A transfer fails before the counter is written, or is checked on under its grant. -/
theorem run_transfer : ((∀ g, ¬ Reaches env now s p g) ∧ ∃ e t,
      (applyExternalSignerTransfer env now p).run s = (.error e, t) ∧ Noted s t) ∨
    ∃ g, Reaches env now s p g ∧ ((¬ Screened now p g.2.caps ∧
        ∃ e, (applyExternalSignerTransfer env now p).run s =
          (.error e, Atomicity.counted (s.withAccount p.to_ p.epoch) p g.1 g.2.caps)) ∨
      Screened now p g.2.caps ∧ (applyExternalSignerTransfer env now p).run s =
        (payOut p (nonceMarkerKey g.1 p.nonce)).run
          (Atomicity.counted (s.withAccount p.to_ p.epoch) p g.1 g.2.caps)) := by
  have hnoted := (noted_refl s).withAccount p.to_ p.epoch
  unfold applyExternalSignerTransfer
  by_cases hchain : p.externalChain = "ton"
  case neg =>
    rw [run_bind_error (by rw [run_ensure, if_neg hchain])]
    exact .inl ⟨fun g h => hchain h.chain, _, s, rfl, noted_refl s⟩
  rw [run_ensure_bind hchain]
  by_cases hpos : 0 < p.amount
  case neg =>
    rw [run_bind_error (by rw [run_ensure, if_neg hpos])]
    exact .inl ⟨fun g h => hpos h.positive, _, s, rfl, noted_refl s⟩
  rw [run_ensure_bind hpos, run_ensureAccount_bind,
    run_stateScan_bind, hnoted.state .externalSigner (by decide)]
  rcases Option.eq_none_or_eq_some (signerGrant env s p) with hnone | ⟨g, hg⟩
  · have hreaches : ∀ g, ¬ Reaches env now s p g := by
      intro g h
      rw [h.grant] at hnone
      cases hnone
    by_cases hnil : (s.state .externalSigner).scan
      (hasPrefix s!"{p.account}:{p.externalChain}:") ≠ []
    · rw [run_bind_ok (by rw [run_ensure]; exact if_pos hnil)]
      unfold signerGrant at hnone
      exact .inl ⟨hreaches, _, _, run_bind_error (by rw [hnone, run_orBail_none]), hnoted⟩
    · exact .inl ⟨hreaches, _, _, run_bind_error (by rw [run_ensure]; exact if_neg hnil), hnoted⟩
  have hsome : (s.state .externalSigner).scan
      (hasPrefix s!"{p.account}:{p.externalChain}:") ≠ [] := by
    intro hnil
    unfold signerGrant at hg
    rw [hnil] at hg
    cases hg
  have hfails : ¬ Admitted now s p g → ∀ g', ¬ Reaches env now s p g' := by
    intro hnot g' h
    cases hg.symm.trans h.grant
    exact hnot h.admitted
  rw [run_bind_ok (by rw [run_ensure]; exact if_pos hsome)]
  unfold signerGrant at hg
  rw [run_bind_ok (by rw [hg, run_orBail_some])]
  by_cases hdomain : p.tonDomain ∈ tonConnectDomains
  case neg =>
    rw [run_bind_error (by rw [run_ensure, if_neg hdomain])]
    exact .inl ⟨hfails fun h => hdomain h.domain, _, _, rfl, hnoted⟩
  rw [run_ensure_bind hdomain]
  by_cases hfresh : now - p.tonTimestamp ≤ tonSignatureMaxAgeS
  case neg =>
    rw [run_bind_error (by rw [run_ensure, if_neg hfresh])]
    exact .inl ⟨hfails fun h => hfresh h.fresh, _, _, rfl, hnoted⟩
  rw [run_ensure_bind hfresh]
  by_cases hpayload : p.tonPayload = hexEncode (Text.bytes (payloadText p))
  case neg =>
    rw [run_bind_error (by rw [run_ensure, if_neg hpayload])]
    exact .inl ⟨hfails fun h => hpayload h.payload, _, _, rfl, hnoted⟩
  rw [run_ensure_bind hpayload, run_stateGet_bind,
    hnoted.stateGet (by decide)]
  by_cases hunused : s.stateGet .externalSignerNonce (nonceMarkerKey g.1 p.nonce) = none
  case neg =>
    have hused : ¬ (s.stateGet .externalSignerNonce (nonceMarkerKey g.1 p.nonce)).isNone = true :=
      fun hnone => hunused (Option.isNone_iff_eq_none.1 hnone)
    exact .inl ⟨hfails fun h => hunused h.unused, _, _,
      run_bind_error (by rw [run_ensure, if_neg hused]), hnoted⟩
  rw [run_ensure_bind (Option.isNone_iff_eq_none.2 hunused)]
  rcases @run_checkPerTx p (signing p) g.2.caps
      (s.withAccount p.to_ p.epoch) with ⟨hcap, hrun⟩ | ⟨hcap, msg, hrun⟩
  case inr =>
    exact .inl ⟨hfails fun h => hcap h.perTx, _, _, run_bind_error hrun, hnoted⟩
  rw [run_bind_ok hrun]
  rcases @run_spendDaily p (signing p) g.2.caps g.1
      (s.withAccount p.to_ p.epoch) with ⟨hday, hrun⟩ | ⟨hday, msg, hrun⟩
  case inr =>
    rw [dailyTotal_congr hnoted] at hday
    exact .inl ⟨hfails fun h => hday h.daily, _, _, run_bind_error hrun, hnoted⟩
  rw [dailyTotal_congr hnoted] at hday
  rw [run_bind_ok hrun]
  refine .inr ⟨g, ⟨hchain, hpos, hg, ⟨hdomain, hfresh, hpayload, hunused, hcap, hday⟩⟩, ?_⟩
  rcases run_screenGrant_cases (signing p) now
      (Atomicity.counted (s.withAccount p.to_ p.epoch) p g.1 g.2.caps) p g.2.caps with
    ⟨hscreened, hrun⟩ | ⟨hscreened, e, hrun⟩
  · exact .inr ⟨hscreened, run_bind_ok hrun⟩
  · exact .inl ⟨hscreened, e, run_bind_error hrun⟩

end Arm

/-! ## What a transfer leaves -/

/-- A transfer as it arrives, with the clock of the node. -/
structure Call where
  now : ℕ
  p : ExternalSignerTransfer

def Call.run (env : Env) (s : Chain) (c : Call) : Except Fault Unit × Chain :=
  applyEntry env c.now (.externalSignerTransfer c.p) s

/-- The transfer goes through, or fails with the sender's balance drawn. -/
def Moves (env : Env) (s : Chain) (c : Call) : Prop :=
  (c.run env s).1 = .ok () ∨ native (c.run env s).2 c.p.account < native s c.p.account

instance (env : Env) (s : Chain) (c : Call) : Decidable (Moves env s c) :=
  inferInstanceAs (Decidable (_ ∨ _))

/-- What the counter under a key says. -/
def tally (s : Chain) (key : String) : ℕ := (s.stateGet .externalSignerSpent key).getD 0

/-- The counter of a grant for a day. -/
def dayKey (grant : String) (day : ℕ) : String := s!"{grantText grant}:{day}"

def dayOf (epoch : ℕ) : ℕ := epoch / 2880

section After

variable {env : Env} {s t : Chain} {c : Call} {p : ExternalSignerTransfer}
  {caps : ExternalSignerCaps} {grant : String}

theorem spentKey_eq (grant : String) (epoch : ℕ) : spentKey grant epoch = dayKey grant (dayOf epoch) :=
  rfl

theorem dayKey_inj {grant grant' : String} {d d' : ℕ} :
    dayKey grant d = dayKey grant' d' ↔ grant = grant' ∧ d = d' := by
  have htext : grantText grant = grantText grant' ↔ grant = grant' := String.append_right_inj _
  exact Text.labelled_inj.trans (and_congr_left' htext)

theorem nonceMarkerKey_inj {grant grant' : String} {n n' : ℕ} :
    nonceMarkerKey grant n = nonceMarkerKey grant' n' ↔ grant = grant' ∧ n = n' := dayKey_inj

theorem state_counted {f : Family} (hf : f ≠ .externalSignerSpent) :
    (Atomicity.counted s p grant caps).state f = s.state f := by
  unfold Atomicity.counted
  cases caps.dailyMax with
  | none => rfl
  | some cap => exact s.state_stateSet_of_ne hf _ _

theorem balances_counted : (Atomicity.counted s p grant caps).balances = s.balances := by
  unfold Atomicity.counted
  cases caps.dailyMax <;> rfl

/-- The counter is set under the bucket of the entry's own epoch. -/
theorem tally_counted (h : caps.dailyMax ≠ none) (key : String) :
    tally (Atomicity.counted s p grant caps) key =
      if spentKey grant p.epoch = key then dailyTotal s p grant else tally s key := by
  unfold Atomicity.counted
  cases hmax : caps.dailyMax with
  | none => exact absurd hmax h
  | some cap =>
    unfold tally
    dsimp only
    rw [stateGet_stateSet]
    split <;> rfl

theorem tally_uncounted (h : caps.dailyMax = none) (key : String) :
    tally (Atomicity.counted s p grant caps) key = tally s key := by
  unfold Atomicity.counted
  rw [h]

theorem tally_congr (h : t.state .externalSignerSpent = s.state .externalSignerSpent) (key : String) :
    tally t key = tally s key := by
  unfold tally
  rw [stateGet_of_state h]

/-- What is on file afterwards: the grants as before, every mark, and the counter if it was
reached. -/
structure Leaves (env : Env) (s : Chain) (c : Call) (t : Chain) : Prop where
  grants : t.state .externalSigner = s.state .externalSigner
  marks : ∀ key, s.stateGet .externalSignerNonce key = some () →
    t.stateGet .externalSignerNonce key = some ()
  spent : (∀ g, ¬ Reaches env c.now s c.p g) ∧ (∀ key, tally t key = tally s key) ∨
    ∃ g, Reaches env c.now s c.p g ∧
      ∀ key, tally t key = tally (Atomicity.counted s c.p g.1 g.2.caps) key

/-- A transfer that moves funds: all checks pass, the funds are there, the nonce is marked. -/
structure Spends (env : Env) (s : Chain) (c : Call) (t : Chain) (g : String × ExternalSigner) :
    Prop where
  reached : Reaches env c.now s c.p g
  screened : Screened c.now c.p g.2.caps
  funded : c.p.amount ≤ native s c.p.account
  marked : t.stateGet .externalSignerNonce (nonceMarkerKey g.1 c.p.nonce) = some ()

/-- The counter depends on nothing that noting an account changes. -/
theorem tally_counted_noted (h : Noted s t) (key : String) :
    tally (Atomicity.counted t p grant caps) key = tally (Atomicity.counted s p grant caps) key := by
  have hsame := tally_congr (h.state .externalSignerSpent (by decide)) key
  by_cases hmax : caps.dailyMax = none
  · rw [tally_uncounted hmax, tally_uncounted hmax, hsame]
  · rw [tally_counted hmax, tally_counted hmax, hsame, dailyTotal_congr h]

/-- The end of the arm moves the amount, or fails before or after the sender is drawn. -/
theorem run_payOut {marker : String} : ∃ r t, (payOut p marker).run s = (r, t) ∧
    t.state = (s.stateSet .externalSignerNonce marker ()).state ∧
      (p.amount ≤ native s p.account ∨ (∃ e, r = .error e) ∧ t.balances = s.balances) ∧
        (r = .ok () → ∀ a, native t a + (if p.account = a then p.amount else 0) =
          native s a + if p.to_ = a then p.amount else 0) := by
  unfold payOut
  rw [run_stateSet_bind]
  have hsame : ∀ a, native (s.stateSet .externalSignerNonce marker ()) a = native s a := fun _ => rfl
  by_cases hle : p.amount ≤ native (s.stateSet .externalSignerNonce marker ()) p.account
  case neg =>
    refine ⟨_, _, run_bind_error (by rw [run_debit, if_neg hle]), rfl, .inr ⟨⟨_, rfl⟩, rfl⟩, nofun⟩
  rw [run_debit_bind hle, run_credit]
  split
  · refine ⟨_, _, rfl, rfl, .inl hle, fun _ a => ?_⟩
    rw [native_credited, native_debited, hsame]
    split
    · next hself =>
      rw [hself, hsame] at hle
      omega
    · omega
  · exact ⟨_, _, rfl, rfl, .inl hle, nofun⟩

theorem leaves_run : Leaves env s c (c.run env s).2 := by
  have hrun : c.run env s = (applyExternalSignerTransfer env c.now c.p).run s := rfl
  have hnoted := (noted_refl s).withAccount c.p.to_ c.p.epoch
  rw [hrun]
  rcases @run_transfer env c.now s c.p with
    ⟨hnot, e, t, herr, ht⟩ | ⟨g, hg, hrest⟩
  · rw [herr]
    refine ⟨ht.state _ (by decide), fun key hkey => ?_, .inl ⟨hnot, fun key => ?_⟩⟩
    · exact (ht.stateGet (by decide) key).trans hkey
    · exact tally_congr (ht.state _ (by decide)) key
  · have hgrants : (Atomicity.counted (s.withAccount c.p.to_ c.p.epoch) c.p g.1 g.2.caps).state
        .externalSigner = s.state .externalSigner :=
      (state_counted (by decide)).trans (hnoted.state _ (by decide))
    have hmarks : (Atomicity.counted (s.withAccount c.p.to_ c.p.epoch) c.p g.1 g.2.caps).state
        .externalSignerNonce = s.state .externalSignerNonce :=
      (state_counted (by decide)).trans (hnoted.state _ (by decide))
    rcases hrest with ⟨-, e, herr⟩ | ⟨-, hpays⟩
    · rw [herr]
      refine ⟨hgrants, fun key hkey => ?_, .inr ⟨g, hg, tally_counted_noted hnoted⟩⟩
      exact (stateGet_of_state hmarks key).trans hkey
    · obtain ⟨r, t, hout, hstate, -⟩ := @run_payOut
        (Atomicity.counted (s.withAccount c.p.to_ c.p.epoch) c.p g.1 g.2.caps) c.p
        (nonceMarkerKey g.1 c.p.nonce)
      rw [hpays, hout]
      refine ⟨?_, fun key hkey => ?_, .inr ⟨g, hg, fun key => ?_⟩⟩
      · exact (congrFun hstate _).trans ((state_stateSet_of_ne _ (by decide) _ _).trans hgrants)
      · rw [stateGet_of_state (congrFun hstate .externalSignerNonce), stateGet_stateSet]
        split
        · rfl
        · exact (stateGet_of_state hmarks key).trans hkey
      · rw [tally_congr ((congrFun hstate _).trans (state_stateSet_of_ne _ (by decide) _ _))]
        exact tally_counted_noted hnoted key

theorem not_moved {e : Fault} {n : ℕ} :
    ¬ ((Except.error e : Except Fault Unit) = .ok () ∨ n < n) := by
  rintro (hok | hless)
  · cases hok
  · exact lt_irrefl n hless

theorem spends_of_moves (h : Moves env s c) : ∃ g, Spends env s c (c.run env s).2 g := by
  have hrun : c.run env s = (applyExternalSignerTransfer env c.now c.p).run s := rfl
  have hnoted := (noted_refl s).withAccount c.p.to_ c.p.epoch
  unfold Moves at h
  rw [hrun] at h ⊢
  rcases @run_transfer env c.now s c.p with
    ⟨hnot, e, t, herr, ht⟩ | ⟨g, hg, ⟨-, e, herr⟩ | ⟨hscreened, hpays⟩⟩
  · rw [herr, native_congr ht.balances] at h
    exact absurd h not_moved
  · rw [herr, native_congr (balances_counted.trans hnoted.balances)] at h
    exact absurd h not_moved
  · obtain ⟨r, t, hout, hstate, hfunds, -⟩ := @run_payOut
      (Atomicity.counted (s.withAccount c.p.to_ c.p.epoch) c.p g.1 g.2.caps) c.p
      (nonceMarkerKey g.1 c.p.nonce)
    have hbal : (Atomicity.counted (s.withAccount c.p.to_ c.p.epoch) c.p g.1 g.2.caps).balances =
      s.balances := balances_counted.trans hnoted.balances
    rw [hpays, hout] at h ⊢
    refine ⟨g, hg, hscreened, ?_, ?_⟩
    · rcases hfunds with hle | ⟨⟨e, rfl⟩, hsame⟩
      · rwa [native_congr hbal] at hle
      · rw [native_congr (hsame.trans hbal)] at h
        exact absurd h not_moved
    · rw [stateGet_of_state (congrFun hstate .externalSignerNonce), stateGet_stateSet,
        if_pos rfl]

/-- The chain after a transfer that passes all checks and can be paid. -/
def paid (s : Chain) (p : ExternalSignerTransfer) (g : String × ExternalSigner) : Chain :=
  (((Atomicity.counted (s.withAccount p.to_ p.epoch) p g.1 g.2.caps).stateSet .externalSignerNonce
    (nonceMarkerKey g.1 p.nonce) ()).debited p.account nativeToken p.amount).credited p.to_
      nativeToken p.amount

variable {g : String × ExternalSigner}

/-- Enough for a transfer to go through. -/
theorem run_paid (h : Reaches env c.now s c.p g)
    (hscreened : Screened c.now c.p g.2.caps) (hfunded : c.p.amount ≤ native s c.p.account)
    (hfits : native s c.p.to_ + c.p.amount < 2 ^ 64) : c.run env s = (.ok (), paid s c.p g) := by
  have hrun : c.run env s = (applyExternalSignerTransfer env c.now c.p).run s := rfl
  have hnoted := (noted_refl s).withAccount c.p.to_ c.p.epoch
  have hbal : ∀ a, native ((Atomicity.counted (s.withAccount c.p.to_ c.p.epoch) c.p g.1
      g.2.caps).stateSet .externalSignerNonce (nonceMarkerKey g.1 c.p.nonce) ()) a = native s a :=
    fun a => native_congr (balances_counted.trans hnoted.balances) a
  rw [hrun]
  rcases @run_transfer env c.now s c.p with
    ⟨hnot, -⟩ | ⟨g', hg', hrest⟩
  · exact absurd h (hnot g)
  · cases h.grant.symm.trans hg'.grant
    rcases hrest with ⟨hnot, -⟩ | ⟨-, hpays⟩
    · exact absurd hscreened hnot
    · rw [hpays]
      unfold payOut
      rw [run_stateSet_bind,
        run_bind_ok (by rw [run_debit]; exact if_pos (hfunded.trans (hbal _).ge)), run_credit]
      refine if_pos (lt_of_le_of_lt (Nat.add_le_add_right ?_ _) hfits)
      refine (native_debited (b := c.p.to_)).le.trans ((Nat.sub_le _ _).trans (hbal _).le)

theorem marked_paid (key : String) : (paid s p g).stateGet .externalSignerNonce key =
      if nonceMarkerKey g.1 p.nonce = key then some () else s.stateGet .externalSignerNonce key := by
  have hmarks : (Atomicity.counted (s.withAccount p.to_ p.epoch) p g.1 g.2.caps).state
      .externalSignerNonce = s.state .externalSignerNonce :=
    (state_counted (by decide)).trans (((noted_refl s).withAccount _ _).state _ (by decide))
  unfold paid
  rw [Chain.stateGet_credited, Chain.stateGet_debited, stateGet_stateSet,
    stateGet_of_state hmarks]

theorem tally_paid (key : String) :
    tally (paid s p g) key = tally (Atomicity.counted s p g.1 g.2.caps) key := by
  have hstate : (paid s p g).state .externalSignerSpent =
      (Atomicity.counted (s.withAccount p.to_ p.epoch) p g.1 g.2.caps).state
        .externalSignerSpent := by
    unfold paid
    rw [Chain.state_credited, Chain.state_debited, state_stateSet_of_ne _ (by decide)]
  rw [tally_congr hstate]
  exact tally_counted_noted ((noted_refl s).withAccount _ _) key

/-- A transfer that goes through moves its amount from its account to its recipient. -/
theorem native_accepted (h : (c.run env s).1 = .ok ()) (a : String) :
    native (c.run env s).2 a + (if c.p.account = a then c.p.amount else 0) =
      native s a + if c.p.to_ = a then c.p.amount else 0 := by
  have hrun : c.run env s = (applyExternalSignerTransfer env c.now c.p).run s := rfl
  have hnoted := (noted_refl s).withAccount c.p.to_ c.p.epoch
  rw [hrun] at h ⊢
  rcases @run_transfer env c.now s c.p with
    ⟨-, e, t, herr, -⟩ | ⟨g, -, ⟨-, e, herr⟩ | ⟨-, hpays⟩⟩
  · rw [herr] at h
    cases h
  · rw [herr] at h
    cases h
  · obtain ⟨r, t, hout, -, -, hmoved⟩ := @run_payOut
      (Atomicity.counted (s.withAccount c.p.to_ c.p.epoch) c.p g.1 g.2.caps) c.p
      (nonceMarkerKey g.1 c.p.nonce)
    rw [hpays, hout] at h ⊢
    have hbal : (Atomicity.counted (s.withAccount c.p.to_ c.p.epoch) c.p g.1 g.2.caps).balances =
      s.balances := balances_counted.trans hnoted.balances
    have hpaid := hmoved h a
    rwa [native_congr hbal] at hpaid

end After

/-! ## A run -/

/-- The limit a cap stands for; a cap in dollars lets nothing through. -/
def limitOf : SignerCap → ℕ
  | .hunits n => n
  | .usd _ _ => 0

/-- The key that a grant is filed under for. -/
def signerOf (grant : String) : Option Bytes :=
  decodeHex32 (Text.lastPiece ':' (grantText grant))

theorem grantVerifies_of_signerOf {env : Env} {p : ExternalSignerTransfer}
    {g : String × ExternalSigner} {pk : Bytes} (hlive : g.2.revoked = false)
    (hkey : signerOf g.1 = some pk) : grantVerifies env p g =
      TonSignData.verifyWithPubkey env (tonMessage p g.2.address) p.tonSignature pk := by
  unfold signerOf at hkey
  unfold grantVerifies
  rw [hlive, hkey, Bool.not_false, Bool.true_and]

theorem signerOf_externalSignerKey {account chain pubkey : String} {bs : Bytes}
    (h : hexDecode pubkey = some bs) :
    signerOf (externalSignerKey account chain pubkey) = decodeHex32 pubkey := by
  have htext : (grantText (externalSignerKey account chain pubkey)).toList =
      (Family.tag .externalSigner ++ account ++ ":" ++ chain).toList ++ ':' :: pubkey.toList := by
    have hkey : externalSignerKey account chain pubkey =
      account ++ ":" ++ chain ++ ":" ++ pubkey := rfl
    unfold grantText
    rw [hkey]
    simp only [String.toList_append, List.append_assoc]
    rfl
  unfold signerOf
  rw [Text.lastPiece_of_toList htext (Text.notMem_of_hexDecode (by decide) h)]

/-- The transfers in any order, and in between whatever leaves markers and counters. Grants come
and are revoked; one on file keeps its caps. -/
def signers (env : Env) (s₀ : Chain) : Component Chain Call where
  init := fun s => s = s₀
  step := fun s c => (c.run env s).2
  other := fun s t =>
    t.state .externalSignerNonce = s.state .externalSignerNonce ∧
      t.state .externalSignerSpent = s.state .externalSignerSpent ∧
        ∀ key g, s.stateGet .externalSigner key = some g →
          ∃ g', t.stateGet .externalSigner key = some g' ∧ g'.caps = g.caps

/-- The transfer moves funds under the grant, in an epoch of the day. -/
def Counts (env : Env) (grant : String) (day : ℕ) (c : Chain × Call) : Prop :=
  Moves env c.1 c.2 ∧ (signerGrant env c.1 c.2.p).map (·.1) = some grant ∧
    dayOf c.1.currentEpoch = day

instance (env : Env) (grant : String) (day : ℕ) : DecidablePred (Counts env grant day) :=
  fun _ => inferInstanceAs (Decidable (_ ∧ _ ∧ _))

/-- What a grant moves in a day of the chain. -/
def movedOn (env : Env) (grant : String) (day : ℕ) (hist : List (Chain × Call)) : ℕ :=
  (hist.map fun c => if Counts env grant day c then c.2.p.amount else 0).sum

/-- The payload, signed with the key, has moved funds. -/
def Uses (env : Env) (payload : String) (pk : Bytes) (c : Chain × Call) : Prop :=
  Moves env c.1 c.2 ∧ c.2.p.tonPayload = payload ∧
    ∃ g, signerGrant env c.1 c.2.p = some g ∧ signerOf g.1 = some pk

/-- No other grant on file, of whatever account or spelling, is for the key that signs. -/
def Sole (env : Env) (c : Chain × Call) : Prop :=
  ∀ g, signerGrant env c.1 c.2.p = some g →
    ∀ key, c.1.stateGet .externalSigner key ≠ none → signerOf key = signerOf g.1 → key = g.1

/-- Under a daily cap, the counter does not wrap around, and a transfer that is paid out names
an epoch of the chain's day. -/
structure Timely (env : Env) (c : Chain × Call) : Prop where
  sum : ∀ g, Reaches env c.2.now c.1 c.2.p g → g.2.caps.dailyMax ≠ none →
    tally c.1 (spentKey g.1 c.2.p.epoch) + c.2.p.amount < 2 ^ 64
  day : ∀ g, Reaches env c.2.now c.1 c.2.p g → g.2.caps.dailyMax ≠ none →
    Screened c.2.now c.2.p g.2.caps → c.2.p.amount ≤ native c.1 c.2.p.account →
      dayOf c.2.p.epoch = dayOf c.1.currentEpoch

/-- A run goes on with a transfer. -/
theorem run_call {env : Env} {s₀ s : Chain} {P : Chain → Call → Prop} {hist : List (Chain × Call)}
    {c : Call} (h : Trace.Run (signers env s₀) P hist s) (hc : P s c) :
    Trace.Run (signers env s₀) P ((s, c) :: hist) (c.run env s).2 := h.step c hc

/-- What was moved is what the payload says, which a granted key has signed. -/
structure Signed (env : Env) (s : Chain) (c : Call) : Prop where
  payload : c.p.tonPayload = hexEncode (Text.bytes (termsOf c.p).text)
  verified : ∃ g pk, signerGrant env s c.p = some g ∧ g.2.revoked = false ∧
    signerOf g.1 = some pk ∧
      TonSignData.verifyWithPubkey env (tonMessage c.p g.2.address) c.p.tonSignature pk = true
  moved : (c.run env s).1 = .ok () → ∀ a,
    native (c.run env s).2 a + (if c.p.account = a then c.p.amount else 0) =
      native s a + if c.p.to_ = a then c.p.amount else 0

/-- The limits of a run: payloads are used once and mean what they say, and caps are kept. -/
structure Limited (env : Env) (hist : List (Chain × Call)) (s : Chain) : Prop where
  once : (∀ c ∈ hist, Sole env c) → hist.Pairwise fun c c' =>
    ∀ payload pk, Uses env payload pk c → ¬ Uses env payload pk c'
  signed : ∀ c ∈ hist, Moves env c.1 c.2 → Signed env c.1 c.2
  meant : ∀ c ∈ hist, Moves env c.1 c.2 →
    ((∀ x : Terms, x.Words → hexEncode (Text.bytes x.text) = c.2.p.tonPayload →
      x = termsOf c.2.p) ↔ (termsOf c.2.p).Separable)
  perTx : ∀ c ∈ hist, Moves env c.1 c.2 → ∀ g, signerGrant env c.1 c.2.p = some g →
    ∀ cap, g.2.caps.perTxMax = some cap → c.2.p.amount ≤ limitOf cap
  daily : (∀ c ∈ hist, Timely env c) → ∀ key g, s.stateGet .externalSigner key = some g →
    ∀ cap, g.caps.dailyMax = some cap → ∀ day, movedOn env key day hist ≤ limitOf cap

section Runs

variable {env : Env} {s₀ s : Chain} {hist : List (Chain × Call)} {c : Call}
  {P : Chain → Call → Prop}

theorem mem_of_signerGrant {p : ExternalSignerTransfer} {g : String × ExternalSigner}
    (h : signerGrant env s p = some g) :
    s.stateGet .externalSigner g.1 = some g.2 ∧ grantVerifies env p g = true := by
  unfold signerGrant at h
  exact ⟨(Kv.mem_scan.1 (List.mem_of_find?_eq_some h)).1, List.find?_some h⟩

theorem limitOf_of_capAllows {cap : SignerCap} {n : ℕ} (h : capAllows (some cap) n) :
    n ≤ limitOf cap := by
  cases cap with
  | hunits limit => exact h
  | usd c m => exact h.elim

theorem signed_of_moves (h : Moves env s c) : Signed env s c := by
  obtain ⟨g, hspends⟩ := spends_of_moves h
  refine ⟨hspends.reached.admitted.payload, ?_, fun hok a => native_accepted hok a⟩
  have hverifies := (mem_of_signerGrant hspends.reached.grant).2
  unfold grantVerifies at hverifies
  rw [Bool.and_eq_true, Bool.not_eq_true'] at hverifies
  obtain ⟨hlive, hsig⟩ := hverifies
  split at hsig
  · next pk hpk => exact ⟨g, pk, hspends.reached.grant, hlive, hpk, hsig⟩
  · cases hsig

/-- A payload means one transfer exactly where its text is separable. -/
theorem meant_of_moves (h : Moves env s c) (hwords : (termsOf c.p).Words) :
    (∀ x : Terms, x.Words → hexEncode (Text.bytes x.text) = c.p.tonPayload →
      x = termsOf c.p) ↔ (termsOf c.p).Separable := by
  have htext : ∀ x : Terms, hexEncode (Text.bytes x.text) = c.p.tonPayload ↔
      x.text = (termsOf c.p).text := by
    intro x
    rw [(signed_of_moves h).payload, Text.hexEncode_inj]
    exact Text.bytes_injective.eq_iff
  simp only [htext]
  exact Terms.unambiguous_iff hwords

/-- What moved funds is marked, under a grant that stays on file. -/
theorem marked_of_run (h : Trace.Run (signers env s₀) P hist s) :
    ∀ c ∈ hist, Moves env c.1 c.2 → ∃ g, Reaches env c.2.now c.1 c.2.p g ∧
      s.stateGet .externalSigner g.1 ≠ none ∧
        s.stateGet .externalSignerNonce (nonceMarkerKey g.1 c.2.p.nonce) = some () := by
  induction h with
  | start => exact fun c hc => nomatch hc
  | @step hist s op hrun _ ih =>
    intro c hc hmoves
    have hleaves : Leaves env s op ((signers env s₀).step s op) := leaves_run
    have hfiled : ∀ key, ((signers env s₀).step s op).stateGet .externalSigner key =
        s.stateGet .externalSigner key := stateGet_of_state hleaves.grants
    rcases List.mem_cons.1 hc with rfl | hc
    · obtain ⟨g, hspends⟩ := spends_of_moves hmoves
      refine ⟨g, hspends.reached, ?_, hspends.marked⟩
      rw [hfiled, (mem_of_signerGrant hspends.reached.grant).1]
      exact nofun
    · obtain ⟨g, hg, hon, hmarked⟩ := ih c hc hmoves
      exact ⟨g, hg, (hfiled g.1).symm ▸ hon, hleaves.marks _ hmarked⟩
  | other _ hs ih =>
    intro c hc hmoves
    obtain ⟨g, hg, hon, hmarked⟩ := ih c hc hmoves
    refine ⟨g, hg, ?_, (stateGet_of_state hs.1 _).trans hmarked⟩
    obtain ⟨r, hr⟩ := Option.ne_none_iff_exists'.1 hon
    obtain ⟨r', hr', -⟩ := hs.2.2 _ r hr
    rw [hr']
    exact nofun

/-- A later transfer with the payload would find the nonce marked. -/
theorem used_once (h : Trace.Run (signers env s₀) P hist s) (hsole : ∀ c ∈ hist, Sole env c) :
    hist.Pairwise fun c c' => ∀ payload pk, Uses env payload pk c → ¬ Uses env payload pk c' := by
  induction h with
  | start => exact List.Pairwise.nil
  | @step hist s op hrun _ ih =>
    refine List.pairwise_cons.2 ⟨fun c hc payload pk hnow hbefore => ?_,
      ih fun c hc => hsole c (List.mem_cons_of_mem _ hc)⟩
    obtain ⟨hmoves, hpayload, g, hg, hpk⟩ := hnow
    obtain ⟨hmoves', hpayload', g', hg', hpk'⟩ := hbefore
    obtain ⟨r, hr, hon, hmarked⟩ := marked_of_run hrun c hc hmoves'
    cases hg'.symm.trans hr.grant
    have hkey : g'.1 = g.1 :=
      hsole (s, op) List.mem_cons_self g hg g'.1 hon (hpk'.trans hpk.symm)
    have htext : (termsOf c.2.p).text = (termsOf op.p).text := by
      apply bytes_injective
      apply Text.hexEncode_inj.1
      rw [← (signed_of_moves hmoves').payload, ← (signed_of_moves hmoves).payload, hpayload, hpayload']
    have hnonce : c.2.p.nonce = op.p.nonce := (nonce_of_text htext).2
    obtain ⟨g₂, hspends⟩ := spends_of_moves hmoves
    cases hg.symm.trans hspends.reached.grant
    have hunused := hspends.reached.admitted.unused
    rw [← hkey, ← hnonce, hmarked] at hunused
    cases hunused
  | other _ _ ih => exact ih hsole

/-- A grant that is not on file has moved nothing. -/
theorem movedOn_of_unfiled (h : Trace.Run (signers env s₀) P hist s) {key : String}
    (hnone : s.stateGet .externalSigner key = none) (day : ℕ) : movedOn env key day hist = 0 := by
  refine List.sum_eq_zero fun n hn => ?_
  obtain ⟨c, hc, rfl⟩ := List.mem_map.1 hn
  refine if_neg fun hcounts => ?_
  obtain ⟨hmoves, hkey, -⟩ := hcounts
  obtain ⟨g, hg, hon, -⟩ := marked_of_run h c hc hmoves
  rw [hg.grant] at hkey
  have hsame : g.1 = key := Option.some.inj hkey
  exact hon (hsame ▸ hnone)

/-- A timely transfer counts what it moves, and the counter stays within the cap. -/
theorem counted_step {key : String} {g : ExternalSigner} {cap : SignerCap} {day n : ℕ}
    (hfiled : s.stateGet .externalSigner key = some g) (hcap : g.caps.dailyMax = some cap)
    (htimely : Timely env (s, c)) (hn : n ≤ tally s (dayKey key day)) (hle : n ≤ limitOf cap) :
    (if Counts env key day (s, c) then c.p.amount else 0) + n ≤
        tally (c.run env s).2 (dayKey key day) ∧
      (if Counts env key day (s, c) then c.p.amount else 0) + n ≤ limitOf cap := by
  have hcounts : Counts env key day (s, c) → ∃ r, Reaches env c.now s c.p r ∧ r = (key, g) ∧
      spentKey key c.p.epoch = dayKey key day := by
    rintro ⟨hmoves, hkey, hday⟩
    obtain ⟨r, hspends⟩ := spends_of_moves hmoves
    have hgrant := hspends.reached.grant
    rw [hgrant] at hkey
    obtain ⟨key', g'⟩ := r
    obtain rfl : key' = key := Option.some.inj hkey
    cases hfiled.symm.trans (mem_of_signerGrant hgrant).1
    have hnamed := htimely.day _ hspends.reached (by rw [hcap]; exact nofun) hspends.screened
      hspends.funded
    exact ⟨_, hspends.reached, rfl, by rw [spentKey_eq, hnamed, hday]⟩
  rcases (@leaves_run env s c).spent with ⟨hnot, hsame⟩ | ⟨r, hr, htally⟩
  · -- nothing was counted, and nothing moved
    rw [if_neg fun h => (hcounts h).elim fun r hr => hnot r hr.1, hsame, Nat.zero_add]
    exact ⟨hn, hle⟩
  rw [htally]
  obtain ⟨key', g'⟩ := r
  by_cases hkey : key' = key
  · subst hkey
    obtain rfl : g' = g := Option.some.inj ((mem_of_signerGrant hr.grant).1.symm.trans hfiled)
    have hmax : g'.caps.dailyMax ≠ none := by
      rw [hcap]
      exact nofun
    have hfits := htimely.sum _ hr hmax
    have hallowed := hr.admitted.daily
    dsimp only at hfits hallowed ⊢
    rw [hcap] at hallowed
    have htotal : dailyTotal s c.p key' = tally s (spentKey key' c.p.epoch) + c.p.amount :=
      Nat.mod_eq_of_lt hfits
    have hlimit := limitOf_of_capAllows hallowed
    rw [tally_counted hmax]
    by_cases hbucket : spentKey key' c.p.epoch = dayKey key' day
    · rw [if_pos hbucket]
      rw [hbucket] at htotal
      split <;> omega
    · rw [if_neg hbucket, if_neg fun h => (hcounts h).elim fun _ hr => hbucket hr.2.2, Nat.zero_add]
      exact ⟨hn, hle⟩
  · -- another grant's counter
    have hother : ∀ r, Reaches env c.now s c.p r → r ≠ (key, g) := by
      intro r hr' heq
      cases hr.grant.symm.trans hr'.grant
      exact hkey (congrArg Prod.fst heq)
    rw [if_neg fun h => (hcounts h).elim fun r hr => hother r hr.1 hr.2.1, Nat.zero_add]
    refine ⟨?_, hle⟩
    by_cases hmax : g'.caps.dailyMax = none
    · rwa [tally_uncounted hmax]
    · have hne : spentKey key' c.p.epoch ≠ dayKey key day := fun h => hkey (dayKey_inj.1 h).1
      rwa [tally_counted hmax, if_neg hne]

/-- What a capped grant moved in a day is counted, and within the cap. -/
theorem daily_of_run (h : Trace.Run (signers env s₀) P hist s)
    (htimely : ∀ c ∈ hist, Timely env c) : ∀ key g, s.stateGet .externalSigner key = some g →
      ∀ cap, g.caps.dailyMax = some cap → ∀ day,
        movedOn env key day hist ≤ tally s (dayKey key day) ∧
          movedOn env key day hist ≤ limitOf cap := by
  induction h with
  | start => exact fun _ _ _ _ _ _ => ⟨Nat.zero_le _, Nat.zero_le _⟩
  | @step hist s op hrun _ ih =>
    intro key g hfiled cap hcap day
    have hleaves : Leaves env s op ((signers env s₀).step s op) := leaves_run
    rw [stateGet_of_state hleaves.grants] at hfiled
    obtain ⟨hn, hle⟩ := ih (fun c hc => htimely c (List.mem_cons_of_mem _ hc)) key g hfiled cap hcap day
    exact counted_step hfiled hcap (htimely (s, op) List.mem_cons_self) hn hle
  | @other hist s t hrun hs ih =>
    intro key g hfiled cap hcap day
    rw [tally_congr hs.2.1]
    rcases Option.eq_none_or_eq_some (s.stateGet .externalSigner key) with hnone | ⟨g', hg'⟩
    · rw [movedOn_of_unfiled hrun hnone]
      exact ⟨Nat.zero_le _, Nat.zero_le _⟩
    · obtain ⟨g₂, hg₂, hcaps⟩ := hs.2.2 key g' hg'
      cases hfiled.symm.trans hg₂
      exact ih htimely key g' hg' cap (hcaps ▸ hcap) day

/-- The limits of external signers, in every run of transfers as they can arrive. -/
theorem signers_limited
    (h : Trace.Run (signers env s₀) (fun _ c => (termsOf c.p).Words) hist s) :
    Limited env hist s where
  once := used_once h
  signed := fun _ _ hmoves => signed_of_moves hmoves
  meant := fun _ hc hmoves => meant_of_moves hmoves (h.of_mem hc).1
  perTx := by
    intro c _ hmoves g hg cap hcap
    obtain ⟨r, hspends⟩ := spends_of_moves hmoves
    cases hg.symm.trans hspends.reached.grant
    have hallowed := hspends.reached.admitted.perTx
    rw [hcap] at hallowed
    exact limitOf_of_capAllows hallowed
  daily := fun htimely key g hfiled cap hcap day => (daily_of_run h htimely key g hfiled cap hcap day).2

end Runs

/-! ### Two orders of a wallet -/

section Samples

/-- The key of the wallet. -/
def walletKey : Bytes :=
   [3, 161, 7, 191, 243, 206, 16, 190, 29, 112, 221, 24, 231, 75, 192, 153, 103, 228, 214, 48,
    155, 165, 13, 95, 29, 220, 134, 100, 18, 85, 49, 184]

/-- An order that the wallet has signed. -/
structure Order where
  nonce : ℕ
  digest : Bytes
  sig : Bytes
  sigText : String

/-- The digests and signatures of both orders, the latter also in base64. -/
def firstOrder : Order where
  nonce := 1
  digest :=
    [72, 134, 14, 116, 116, 208, 102, 141, 217, 60, 5, 70, 141, 61, 217, 45, 119, 181, 138, 91,
     180, 102, 110, 42, 29, 184, 58, 138, 12, 71, 158, 26]
  sig :=
    [233, 30, 42, 165, 211, 66, 251, 163, 248, 139, 205, 67, 222, 85, 209, 92, 80, 185, 208, 145,
     188, 89, 70, 33, 43, 12, 153, 155, 0, 95, 63, 194, 159, 164, 66, 218, 11, 4, 210, 86, 128,
     44, 62, 124, 138, 154, 131, 208, 176, 3, 103, 154, 182, 216, 72, 132, 19, 163, 136, 38, 34,
     137, 130, 0]
  sigText := "6R4qpdNC+6P4i81D3lXRXFC50JG8WUYhKwyZmwBfP8KfpELaCwTSVoAsPnyKmoPQsANnmrbYSIQTo4gmIomCAA=="

def secondOrder : Order where
  nonce := 2
  digest :=
    [231, 4, 203, 31, 145, 107, 154, 218, 221, 1, 129, 193, 205, 33, 127, 203, 255, 35, 132, 205,
     145, 85, 203, 212, 88, 22, 172, 89, 152, 156, 142, 71]
  sig :=
    [180, 12, 115, 130, 156, 225, 129, 225, 161, 147, 157, 211, 107, 16, 210, 42, 141, 51, 206, 6,
     63, 134, 182, 108, 194, 38, 42, 63, 69, 110, 251, 230, 43, 19, 235, 252, 202, 235, 146, 151,
     33, 197, 114, 2, 118, 184, 244, 137, 168, 22, 62, 196, 237, 121, 2, 194, 82, 66, 49, 126, 75,
     90, 13, 3]
  sigText := "tAxzgpzhgeGhk53TaxDSKo0zzgY/hrZswiYqP0Vu++YrE+v8yuuSlyHFcgJ2uPSJqBY+xO15AsJSQjF+S1oNAw=="

def Order.terms (o : Order) : Terms := ⟨"alice", "bob", 60, "7|x", o.nonce⟩

/-- The bytes that the wallet shows and signs. -/
def Order.preimage (o : Order) : Bytes :=
  TonSignData.buildPreimage ⟨0, List.replicate 32 0x11, "hone.network", 1000, "text",
    Text.bytes o.terms.text⟩

/-- A node that knows the digests of the orders, and for which their signatures verify. -/
def walletNode : Env :=
  { Env.bare with
    sha256 := fun b => if b = firstOrder.preimage then firstOrder.digest else secondOrder.digest
    base64Decode := fun text =>
      ([firstOrder, secondOrder].find? (·.sigText = text)).map (·.sig)
    keyError := fun k => if k = walletKey then none else Env.bare.keyError k
    verifyError := fun k msg sig =>
      if k = walletKey ∧ ∃ o ∈ [firstOrder, secondOrder], o.digest = msg ∧ o.sig = sig then none
      else Env.bare.verifyError k msg sig }

def aliceGrant : String := externalSignerKey "alice" "ton" (hexEncode walletKey)

def aliceWallet : ExternalSigner where
  address := "0:" ++ hexEncode (List.replicate 32 0x11)
  label := none
  caps := ⟨none, some (.hunits 100), none, none⟩
  revoked := false

/-- `alice` lets her wallet spend 100 hunits a day. -/
def aliceChain : Chain :=
  (({} : Chain).credited "alice" nativeToken 200).stateSet .externalSigner aliceGrant aliceWallet

/-- An order as it is sent, with an epoch that nobody has signed. -/
def Order.call (o : Order) (epoch : ℕ) : Call where
  now := 1000
  p :=
    { account := "alice", externalChain := "ton", to_ := "bob", amount := 60, memo := some "7|x",
      nonce := o.nonce, tonDomain := "hone.network", tonTimestamp := 1000,
      tonPayloadKind := "text", tonPayload := hexEncode (Text.bytes o.terms.text),
      tonSignature := o.sigText, epoch := epoch }

theorem parse_order (o : Order) (epoch : ℕ) :
    TonSignData.parse (tonMessage (o.call epoch).p aliceWallet.address) =
      some ⟨0, List.replicate 32 0x11, "hone.network", 1000, "text", Text.bytes o.terms.text⟩ := by
  have hbar : ∀ bs : Bytes, '|' ∉ (hexEncode bs).toList := Text.notMem_hexEncode (by decide)
  have haddress : '|' ∉ aliceWallet.address.toList := by
    have hsplit : aliceWallet.address.toList =
      "0:".toList ++ (hexEncode (List.replicate 32 0x11)).toList := String.toList_append
    rw [hsplit, List.mem_append, not_or]
    exact ⟨by decide, hbar _⟩
  have hdomain : '|' ∉ "hone.network".toList := by decide
  have honce : splitOnce ':' aliceWallet.address =
    some ("0", hexEncode (List.replicate 32 0x11)) := by decide
  have hzero : Text.parseI8 "0" = some 0 := by decide
  have hhour : 1000 < 2 ^ 64 := by decide
  exact parse_tonMessage (p := (o.call epoch).p) haddress hdomain (hbar _) (.inl rfl) honce hzero
    (hexDecode_hexEncode _) List.length_replicate hhour (hexDecode_hexEncode _)

theorem verifies_order {o : Order} (ho : o = firstOrder ∨ o = secondOrder) (epoch : ℕ) :
    TonSignData.verifyWithPubkey walletNode (tonMessage (o.call epoch).p aliceWallet.address)
      o.sigText walletKey = true := by
  have hsig : (walletNode.base64Decode o.sigText).filter (·.length = 64) = some o.sig := by
    rcases ho with rfl | rfl
    · decide
    · decide
  have hvalid : walletNode.ed25519 walletKey (walletNode.sha256 o.preimage) o.sig = true := by
    rcases ho with rfl | rfl
    · decide
    · decide
  unfold Order.preimage at hvalid
  rw [verifyWithPubkey_of_parse (parse_order o epoch) hsig]
  exact hvalid

theorem order_verifies {o : Order} (ho : o = firstOrder ∨ o = secondOrder) (epoch : ℕ) :
    grantVerifies walletNode (o.call epoch).p (aliceGrant, aliceWallet) = true := by
  have hkey : signerOf aliceGrant = some walletKey := by
    unfold aliceGrant
    rw [signerOf_externalSignerKey (hexDecode_hexEncode walletKey)]
    unfold decodeHex32
    rw [hexDecode_hexEncode]
    rfl
  rw [grantVerifies_of_signerOf (g := (aliceGrant, aliceWallet)) rfl hkey]
  exact verifies_order ho epoch

variable {s : Chain} {o : Order}

/-- The grant is found wherever the grants are those of `aliceChain`. -/
theorem signerGrant_order (ho : o = firstOrder ∨ o = secondOrder)
    (hs : s.state .externalSigner = aliceChain.state .externalSigner) (epoch : ℕ) :
    signerGrant walletNode s (o.call epoch).p = some (aliceGrant, aliceWallet) := by
  have hprefix : hasPrefix "alice:ton:" aliceGrant = true := by decide
  have hscan : (aliceChain.state .externalSigner).scan (hasPrefix "alice:ton:") =
    [(aliceGrant, aliceWallet)] := List.filter_cons_of_pos hprefix
  have hname : s!"{(o.call epoch).p.account}:{(o.call epoch).p.externalChain}:" = "alice:ton:" := rfl
  unfold signerGrant
  rw [hs, hname, hscan]
  exact List.find?_cons_of_pos (order_verifies ho epoch)

/-- An order whose nonce is not marked goes through in a bucket where nothing is spent. -/
theorem run_order (ho : o = firstOrder ∨ o = secondOrder) {epoch : ℕ}
    (hs : s.state .externalSigner = aliceChain.state .externalSigner)
    (hunused : s.stateGet .externalSignerNonce (nonceMarkerKey aliceGrant o.nonce) = none)
    (hspent : tally s (dayKey aliceGrant (dayOf epoch)) = 0) (hfunds : 60 ≤ native s "alice")
    (hfits : native s "bob" + 60 < 2 ^ 64) :
    (o.call epoch).run walletNode s = (.ok (), paid s (o.call epoch).p (aliceGrant, aliceWallet)) := by
  have htotal : dailyTotal s (o.call epoch).p aliceGrant = 60 := by
    have hsum : dailyTotal s (o.call epoch).p aliceGrant =
      wrapAdd (tally s (dayKey aliceGrant (dayOf epoch))) 60 := rfl
    rw [hsum, hspent]
    rfl
  have hpositive : 0 < 60 := by decide
  have hdomain : "hone.network" ∈ tonConnectDomains := by decide
  have hfresh : 1000 - 1000 ≤ tonSignatureMaxAgeS := by decide
  have hdaily : dailyTotal s (o.call epoch).p aliceGrant ≤ 100 := by
    rw [htotal]
    decide
  exact run_paid (c := o.call epoch) ⟨rfl, hpositive, signerGrant_order ho hs epoch,
    hdomain, hfresh, rfl, hunused, trivial, hdaily⟩ ⟨nofun, nofun⟩ hfunds hfits

theorem run_firstOrder : (firstOrder.call 0).run walletNode aliceChain =
    (.ok (), paid aliceChain (firstOrder.call 0).p (aliceGrant, aliceWallet)) :=
  run_order (.inl rfl) rfl rfl rfl (by decide) (by decide)

/-- An order of the same day is accepted too where its epoch is given as the next day's. -/
theorem run_secondOrder (h : s = paid aliceChain (firstOrder.call 0).p (aliceGrant, aliceWallet)) :
    ((secondOrder.call 2880).run walletNode s).1 = .ok () := by
  have hrun := run_firstOrder
  rw [← h] at hrun
  have hleaves : Leaves walletNode aliceChain (firstOrder.call 0)
    ((firstOrder.call 0).run walletNode aliceChain).2 := leaves_run
  have hmoved := native_accepted (congrArg Prod.fst hrun)
  rw [hrun] at hleaves hmoved
  have hfunds : 60 ≤ native s "alice" := by
    have hpaid : native s "alice" + 60 = 200 := hmoved "alice"
    omega
  have hfits : native s "bob" + 60 < 2 ^ 64 := by
    have hpaid : native s "bob" + 0 = 0 + 60 := hmoved "bob"
    omega
  have hunused : s.stateGet .externalSignerNonce (nonceMarkerKey aliceGrant 2) = none := by
    rw [h, marked_paid, if_neg]
    · rfl
    · exact fun hkey => absurd (nonceMarkerKey_inj.1 hkey).2 (by decide)
  have hspent : tally s (dayKey aliceGrant (dayOf 2880)) = 0 := by
    rw [h, tally_paid, tally_counted (Option.some_ne_none _), if_neg]
    · rfl
    · exact fun hkey => absurd (dayKey_inj.1 hkey).2 (by decide)
  rw [run_order (.inr rfl) hleaves.grants hunused hspent hfunds hfits]

theorem get_aliceGrant : aliceChain.stateGet .externalSigner aliceGrant = some aliceWallet := by
  unfold aliceChain
  rw [stateGet_stateSet, if_pos rfl]

/-- One order keeps within the limit of the day. -/
theorem signers_limited_alice :
    movedOn walletNode aliceGrant 0 [(aliceChain, firstOrder.call 0)] ≤ 100 := by
  have hfiled : ((firstOrder.call 0).run walletNode aliceChain).2.stateGet .externalSigner
      aliceGrant = some aliceWallet := by
    rw [stateGet_of_state leaves_run.grants]
    exact get_aliceGrant
  have htimely : ∀ c ∈ [(aliceChain, firstOrder.call 0)], Timely walletNode c := by
    intro c hc
    cases List.mem_singleton.1 hc
    refine ⟨fun g _ _ => ?_, fun _ _ _ _ _ => rfl⟩
    have hsum : 0 + 60 < 2 ^ 64 := by decide
    exact hsum
  exact (signers_limited (@run_call _ aliceChain _ _ _ _ (.start rfl) ⟨by decide, by decide⟩)).daily
    htimely aliceGrant aliceWallet hfiled (.hunits 100) rfl 0

/-- Two orders of one day pass the limit, the second with an epoch of the next day; and what was
sent to `bob` reads as well as an order for another recipient. -/
theorem signers_unlimited :
    ∃ hist s, Trace.Run (signers walletNode aliceChain) (fun _ c => (termsOf c.p).Words) hist s ∧
      (∃ g, s.stateGet .externalSigner aliceGrant = some g ∧ g.caps.dailyMax = some (.hunits 100)) ∧
        100 < movedOn walletNode aliceGrant 0 hist ∧
          ∃ c ∈ hist, Moves walletNode c.1 c.2 ∧ ∃ x : Terms, x.Words ∧
            hexEncode (Text.bytes x.text) = c.2.p.tonPayload ∧ x.to_ ≠ c.2.p.to_ := by
  have hfirst := run_firstOrder
  have hrun : Trace.Run (signers walletNode aliceChain) (fun _ c => (termsOf c.p).Words)
    [(aliceChain, firstOrder.call 0)] ((firstOrder.call 0).run walletNode aliceChain).2 :=
      run_call (.start rfl) ⟨by decide, by decide⟩
  have hgrants : ((firstOrder.call 0).run walletNode aliceChain).2.state .externalSigner =
    aliceChain.state .externalSigner := leaves_run.grants
  have hepoch : (paid aliceChain (firstOrder.call 0).p (aliceGrant, aliceWallet)).currentEpoch = 0 :=
    rfl
  rw [hfirst] at hrun hgrants
  dsimp only at hrun hgrants
  generalize hs : paid aliceChain (firstOrder.call 0).p (aliceGrant, aliceWallet) = s at *
  have hcounts₁ : Counts walletNode aliceGrant 0 (aliceChain, firstOrder.call 0) :=
    ⟨.inl (congrArg Prod.fst hfirst),
      congrArg (Option.map Prod.fst) (signerGrant_order (.inl rfl) rfl 0), rfl⟩
  have hcounts₂ : Counts walletNode aliceGrant 0 (s, secondOrder.call 2880) :=
    ⟨.inl (run_secondOrder hs.symm),
      congrArg (Option.map Prod.fst) (signerGrant_order (.inr rfl) hgrants 2880),
      congrArg dayOf hepoch⟩
  have hmoved : movedOn walletNode aliceGrant 0
      [(s, secondOrder.call 2880), (aliceChain, firstOrder.call 0)] = 60 + (60 + 0) := by
    unfold movedOn
    rw [List.map_cons, List.map_cons, if_pos hcounts₁, if_pos hcounts₂]
    rfl
  have hrun₂ := run_call (c := secondOrder.call 2880) hrun ⟨by decide, by decide⟩
  refine ⟨_, _, hrun₂, ⟨aliceWallet, ?_, rfl⟩, ?_,
    (aliceChain, firstOrder.call 0), List.mem_cons_of_mem _ List.mem_cons_self, hcounts₁.1,
    ⟨"alice", "bob|60", 7, "x", 1⟩, ⟨by decide, by decide⟩, ?_, ?_⟩
  · rw [stateGet_of_state leaves_run.grants, stateGet_of_state hgrants]
    exact get_aliceGrant
  · rw [hmoved]
    decide
  · have htext : Terms.text ⟨"alice", "bob|60", 7, "x", 1⟩ = firstOrder.terms.text := by decide
    rw [htext]
    rfl
  · have hto : "bob|60" ≠ "bob" := by decide
    exact hto

end Samples

end HoneNode.Signers
