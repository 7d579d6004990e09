import HoneNode.Tx.Run

/-!
# SecondFactor — the second factor of a transfer

A key policy asks for a signature of the wallet that the account has linked for
a chain. `check_slot_2fa` recovers the address behind the signature and compares
it with nothing: a link for the chain is enough, whoever signed. What has to be
signed names the hash of the entry that carries the signature, and the name of
the chain is passed on as the type of the signature, so the holder of the linked
wallet cannot do what a stranger can.
-/

namespace HoneNode.SecondFactor

open Tx

/-! ## Transfers and their second factor -/

/-- The transfer with another second factor, or none. -/
def withFactor (p : Entry.Transfer) (tf : Option TwoFactor) : Entry.Transfer :=
  { p with twofactor := tf }

/-- What is signed over an entry with the given hash. -/
def messageOf (hash : String) (epoch : ℕ) : String := s!"hone:2fa:{hash}:{epoch}"

/-- What the second factor of the transfer has to sign. -/
def factorMessage (env : Env) (p : Entry.Transfer) : String :=
  messageOf (env.entryHash (.transfer p)) p.epoch

/-- The chain that the active slot of an account asks a second factor of. -/
def policyOf (s : Chain) (account : String) : Option String :=
  (s.getAccount account).bind (·.keyPolicies.get "active")

/-- The commitment the account has stored for a chain is one to the address. -/
def LinkedTo (env : Env) (s : Chain) (account chain address : String) : Prop :=
  ∃ r link, ∃ nonce : String, s.getAccount account = some r ∧ r.chainProofs.get chain = some link ∧
    env.sha256Hex s!"{chain}:{address}:{nonce}" = link.commitment

/-- The second factor of the transfer is for the chain and recovers to the address. -/
def RecoversTo (env : Env) (p : Entry.Transfer) (chain address : String) : Prop :=
  ∃ tf, p.twofactor = some tf ∧ tf.chain = chain ∧
    env.recoverChainAddress chain (factorMessage env p) tf.signature = .ok address

/-- `validate_and_apply` takes the transfer. -/
def Accepted (env : Env) (m : Moment) (sig : Option String) (p : Entry.Transfer) (s : Chain) :
    Prop :=
  ∃ hash s', validateAndApply env m (.transfer p) sig s = (.ok hash, s')

/-- An accepted transfer has a second factor by the linked wallet. -/
def Sound (env : Env) (m : Moment) (sig : Option String) (p : Entry.Transfer) (s : Chain) :
    Prop :=
  ∀ chain, policyOf s p.from_ = some chain → Accepted env m sig p s →
    ∃ address, RecoversTo env p chain address ∧ LinkedTo env s p.from_ chain address

/-! ## All but the second factor -/

def isSecondFactor : Check → Bool
  | .slot2fa _ _ _ _ => true
  | _ => false

/-- Nothing but the second factor stands in the way of the transfer. -/
structure PassesOtherwise (env : Env) (m : Moment) (sig : Option String) (p : Entry.Transfer)
    (s : Chain) : Prop where
  fresh : staleGuard s (.transfer p) = .ok ()
  funded : feePreflight env s (.transfer p) = .ok ()
  checked : ∀ c ∈ checks env s sig (.transfer p), isSecondFactor c = false →
    c.run env s (.transfer p) = .ok ()
  applied : (applyEntry env m.now (.transfer p) s).1 = .ok ()

/-- The holder of a linked wallet who signs with both keys has a signature that gets the
transfer accepted. -/
def Satisfiable (env : Env) (m : Moment) (sig : Option String) (p : Entry.Transfer)
    (s : Chain) : Prop :=
  ∀ chain address, policyOf s p.from_ = some chain → LinkedTo env s p.from_ chain address →
    PassesOtherwise env m sig p s →
    ∃ signature, RecoversTo env (withFactor p (some ⟨chain, signature⟩)) chain address ∧
      Accepted env m sig (withFactor p (some ⟨chain, signature⟩)) s

/-! ## What goes wrong -/

/-- The transfer carries a second factor by a wallet that the account has not linked. -/
def Foreign (env : Env) (p : Entry.Transfer) (s : Chain) (chain : String) : Prop :=
  (∃ r link, s.getAccount p.from_ = some r ∧ r.chainProofs.get chain = some link) ∧
    ∃ address, RecoversTo env p chain address ∧ ¬ LinkedTo env s p.from_ chain address

/-- A digest that the wallet can sign such that the transfer that carries the signature
has this very digest. -/
def SelfSigned (env : Env) (p : Entry.Transfer) (chain address : String) : Prop :=
  ∃ digest signature,
    env.recoverChainAddress chain (messageOf digest p.epoch) signature = .ok address ∧
      env.entryHash (.transfer (withFactor p (some ⟨chain, signature⟩))) = digest

/-! ## When a transfer is accepted -/

variable {env : Env} {m : Moment} {sig : Option String} {p : Entry.Transfer} {s : Chain}
  {chain address : String}

/-- The check of the second factor, as it stands among the checks of a transfer. -/
def factorCheck (env : Env) (p : Entry.Transfer) (s : Chain) : Except String Unit :=
  checkSlot2fa env s p.from_ "active" (.transfer p) p.epoch p.twofactor

theorem accepted_iff :
    Accepted env m sig p s ↔ PassesOtherwise env m sig p s ∧ factorCheck env p s = .ok () := by
  constructor
  · rintro ⟨hash, s', hacc⟩
    obtain ⟨hpre, -, t, hcommit, -⟩ := validateAndApply_eq_ok_iff.1 hacc
    obtain ⟨hstale, hfee, hchecks⟩ := preflight_ok_iff.1 hpre
    obtain ⟨t', happ, -⟩ := (commit_eq_ok_iff_of_plain rfl).1 hcommit
    have hfactor : factorCheck env p s = .ok () :=
      hchecks (.slot2fa p.from_ "active" p.epoch p.twofactor)
        (List.mem_of_getElem? (i := 7) rfl)
    exact ⟨⟨hstale, hfee, fun c hc _ => hchecks c hc, by rw [happ]⟩, hfactor⟩
  · rintro ⟨hpass, hfactor⟩
    refine ⟨_, _, accepted_of_applied rfl (preflight_ok_iff.2 ⟨hpass.fresh, hpass.funded, ?_⟩)
      hpass.applied⟩
    intro c hc
    cases hsecond : isSecondFactor c with
    | false => exact hpass.checked c hc hsecond
    | true =>
      have hslot : c = .slot2fa p.from_ "active" p.epoch p.twofactor := by
        change c ∈ [_, _, _, _, _, _, _, _, _] at hc
        simp only [List.mem_cons, List.not_mem_nil, or_false] at hc
        rcases hc with rfl | rfl | rfl | rfl | rfl | rfl | rfl | rfl | rfl
        all_goals first | rfl | cases hsecond
      rw [hslot]
      exact hfactor

/-- Under a policy the check asks for a link and a signature, not for the link's signature. -/
theorem factorCheck_ok_iff (hpolicy : policyOf s p.from_ = some chain) :
    factorCheck env p s = .ok () ↔
      (∃ r link, s.getAccount p.from_ = some r ∧ r.chainProofs.get chain = some link) ∧
        ∃ address, RecoversTo env p chain address := by
  obtain ⟨r, hr, hrole⟩ := Option.bind_eq_some_iff.1 hpolicy
  unfold factorCheck checkSlot2fa RecoversTo
  simp only [hr, hrole]
  cases htf : p.twofactor with
  | none => simp
  | some tf =>
    by_cases hchain : tf.chain = chain
    · subst hchain
      simp only [ne_eq, not_true_eq_false, if_false, Option.some.injEq, exists_eq_left',
        exists_and_left, true_and]
      cases hrec : env.recoverChainAddress tf.chain (factorMessage env p) tf.signature with
      | error msg =>
        have hnot : ¬ ∃ address : String, (Except.error msg : Except String String) = .ok address :=
          fun ⟨address, h⟩ => nomatch h
        simp only [hnot, and_false, iff_false]
        -- the check spells its message out
        erw [hrec]
        exact fun h => nomatch h
      | ok address =>
        erw [hrec]
        cases r.chainProofs.get tf.chain <;> simp
    · simp [hchain]

variable (tf : Option TwoFactor)

/-- No other check looks at the second factor. -/
theorem run_withFactor {c : Check} (hc : isSecondFactor c = false) :
    c.run env s (.transfer (withFactor p tf)) = c.run env s (.transfer p) := by
  cases c with
  | slot2fa account role epoch tf' => cases hc
  | _ => rfl

theorem mem_checks_withFactor {c : Check} (hc : isSecondFactor c = false) :
    c ∈ checks env s sig (.transfer (withFactor p tf)) ↔ c ∈ checks env s sig (.transfer p) := by
  have hother : (checks env s sig (.transfer (withFactor p tf))).filter (! isSecondFactor ·) =
      (checks env s sig (.transfer p)).filter (! isSecondFactor ·) := rfl
  have hmem := congrArg (c ∈ ·) hother
  simpa [List.mem_filter, hc] using hmem

/-- Whether the rest is in order does not depend on the second factor. -/
theorem PassesOtherwise.withFactor (h : PassesOtherwise env m sig p s) :
    PassesOtherwise env m sig (withFactor p tf) s where
  fresh := h.fresh
  funded := h.funded
  checked := by
    intro c hc hsecond
    rw [run_withFactor tf hsecond]
    exact h.checked c ((mem_checks_withFactor tf hsecond).1 hc) hsecond
  applied := h.applied

/-! ## What the policy is worth -/

/-- The check lets strangers through and no more: soundness fails for exactly the transfers
with a foreign second factor. -/
theorem sound_iff : Sound env m sig p s ↔
    ∀ chain, policyOf s p.from_ = some chain → PassesOtherwise env m sig p s →
      ¬ Foreign env p s chain := by
  unfold Sound
  refine forall_congr' fun chain => imp_congr_right fun hpolicy => ?_
  rw [accepted_iff, factorCheck_ok_iff hpolicy]
  constructor
  · rintro hsound hpass ⟨hlink, address, hrec, hforeign⟩
    obtain ⟨address', hrec', hlinked⟩ := hsound ⟨hpass, hlink, address, hrec⟩
    -- a signature recovers to one address
    have hsame : address' = address := by
      obtain ⟨tf, htf, -, h⟩ := hrec
      obtain ⟨tf', htf', -, h'⟩ := hrec'
      rw [htf] at htf'
      cases htf'
      rw [h] at h'
      cases h'
      rfl
    rw [hsame] at hlinked
    exact hforeign hlinked
  · rintro hnot ⟨hpass, hlink, address, hrec⟩
    by_contra hnone
    have hforeign : ¬ LinkedTo env s p.from_ chain address := fun hlinked =>
      hnone ⟨address, hrec, hlinked⟩
    exact hnot hpass ⟨hlink, address, hrec, hforeign⟩

/-- A linked wallet can do it exactly when it can sign a digest without knowing it. -/
theorem satisfiable_iff : Satisfiable env m sig p s ↔
    ∀ chain address, policyOf s p.from_ = some chain → LinkedTo env s p.from_ chain address →
      PassesOtherwise env m sig p s → SelfSigned env p chain address := by
  unfold Satisfiable
  refine forall_congr' fun chain => forall_congr' fun address => imp_congr_right fun hpolicy =>
    imp_congr_right fun hlinked => imp_congr_right fun hpass => ?_
  constructor
  · rintro ⟨signature, ⟨tf, htf, -, hrec⟩, -⟩
    cases htf
    exact ⟨_, signature, hrec, rfl⟩
  · rintro ⟨digest, signature, hrec, hhash⟩
    have hfactor : RecoversTo env (withFactor p (some ⟨chain, signature⟩)) chain address := by
      refine ⟨_, rfl, rfl, ?_⟩
      rw [← hhash] at hrec
      exact hrec
    obtain ⟨r, link, nonce, hr, hlink, -⟩ := hlinked
    have hcheck := (@factorCheck_ok_iff env (withFactor p (some ⟨chain, signature⟩)) _ _
      hpolicy).2 ⟨⟨r, link, hr, hlink⟩, address, hfactor⟩
    exact ⟨signature, hfactor, accepted_iff.2 ⟨hpass.withFactor _, hcheck⟩⟩

/-- A transfer is protected by its policy, and its holder not locked out, exactly when it
carries no foreign second factor and the hash of the entry can be signed inside it. -/
theorem second_factor_holds_iff :
    Sound env m sig p s ∧ Satisfiable env m sig p s ↔
      ∀ chain, policyOf s p.from_ = some chain → PassesOtherwise env m sig p s →
        ¬ Foreign env p s chain ∧
          ∀ address, LinkedTo env s p.from_ chain address → SelfSigned env p chain address := by
  rw [sound_iff, satisfiable_iff]
  constructor
  · rintro ⟨hsound, hsat⟩ chain hpolicy hpass
    exact ⟨hsound chain hpolicy hpass, fun address hlinked =>
      hsat chain address hpolicy hlinked hpass⟩
  · intro h
    constructor
    · exact fun chain hpolicy hpass => (h chain hpolicy hpass).1
    · exact fun chain address hpolicy hlinked hpass => (h chain hpolicy hpass).2 address hlinked

/-! ### Two policies -/

section Samples

/-- The key of `alice` and her signature over a transfer that somebody else made up. -/
def transferSigned : Env.Signed where
  key := [3, 161, 7, 191, 243, 206, 16, 190, 29, 112, 221, 24, 231, 75, 192, 153, 103, 228, 214,
    48, 155, 165, 13, 95, 29, 220, 134, 100, 18, 85, 49, 184]
  message := "\x7b\"chain_id\":\"hone\",\"type\":\"TRANSFER\",\"from\":\"alice\","
    ++ "\"to\":\"mallory\",\"amount\":5,\"token\":\"HONE\",\"nonce\":1\x7d"
  sig := [
    208, 179, 239, 59, 229, 2, 166, 231, 151, 91, 239, 118, 218, 178, 231, 34, 162, 138, 201,
    127, 18, 236, 49, 136, 243, 121, 115, 62, 130, 179, 200, 201, 146, 174, 254, 18, 114, 251,
    73, 214, 151, 199, 155, 41, 118, 244, 18, 104, 246, 227, 142, 150, 153, 13, 62, 142, 146,
    66, 49, 189, 210, 252, 13, 14]

/-- No wallet made this: its `r` is the generator of the curve, its `s` is one. -/
def madeUp : String :=
  "0x79be667ef9dcbbac55a06295ce870b07029bfcdb2dce28d959f2815b16f81798"
    ++ "00000000000000000000000000000000000000000000000000000000000000011b"

def linkedAddress : String := "0x7E5F4552091A69125d5DfCb7b8C2659029395Bdf"

def strangerAddress : String := "0xA2FedDd314631743e96F954b5eeEF6c71DeaA2B8"

def stolenTransfer : Entry.Transfer :=
  { from_ := "alice", to_ := "mallory", amount := 5, token := nativeToken, memo := none,
    epoch := 1, signedBy := "alice", nonce := 1,
    twofactor := some ⟨"eth_personal_sign", madeUp⟩ }

def stolenJson : String :=
  "\x7b\"type\":\"TRANSFER\",\"from\":\"alice\",\"to\":\"mallory\",\"amount\":5,"
    ++ "\"token\":\"HONE\",\"memo\":null,\"epoch\":1,\"signed_by\":\"alice\",\"nonce\":1,"
    ++ "\"twofactor\":\x7b\"chain\":\"eth_personal_sign\",\"signature\":\"" ++ madeUp
    ++ "\"\x7d\x7d"

def stolenHash : String := "be82d02ce070385a0132847850ac539d627ed3596a5c4516b6eb15bdaa0b7a8d"

/-- The commitment of a link to `linkedAddress` under the nonce `n0`. -/
def commitmentOf (chain : String) : String :=
  if chain = "ethereum" then "7f055737e8d2b9799dfd9dfd9fcd4bbc942f6bbd0e992a0a4d7285e4748f31bb"
  else "ae071e00d13f5290d822f7b64e19fb59111821891713d39b5b50d6c11e589f18"

def factorDigests : List (String × String) :=
  [(stolenJson, stolenHash), (s!"ethereum:{linkedAddress}:n0", commitmentOf "ethereum"),
    (s!"eth_personal_sign:{linkedAddress}:n0", commitmentOf "eth_personal_sign")]

def factorNode : Env :=
  { Env.accepting [transferSigned] with
    sha256 := (Env.digesting factorDigests).sha256
    entryJson := fun _ => stolenJson
    recoverChainAddress := fun sigType message signature =>
      if sigType = "eth_personal_sign" ∧ message = messageOf stolenHash 1 ∧ signature = madeUp then
        .ok strangerAddress
      else .error (s!"unsupported sig_type '{sigType}' — supported: eth_personal_sign, sol_sign, "
        ++ "btc_legacy, ton_sign_data") }

/-- `alice` has linked a wallet for the chain and asks a second factor of it. -/
def policyChain (chain : String) : Chain :=
  let keys := (Kv.empty.put "active" (hexEncode transferSigned.key)).put "posting"
    (hexEncode transferSigned.key)
  let alice : Account :=
    { accountId := "alice", createdEpoch := 0, keys := keys,
      chainProofs := Kv.empty.put chain { commitment := commitmentOf chain, mode := "soft" },
      keyPolicies := Kv.empty.put "active" chain }
  (({} : Chain).setAccount "alice" alice).setBalance "alice" nativeToken hunitsPerHone

def stolenSig : Option String := some (hexEncode transferSigned.sig)

/-- A text that is not listed has the digest of zeros. -/
theorem sha256Hex_of_unlisted {digests : List (String × String)} {text : String}
    (h : ∀ d ∈ digests, d.1 ≠ text) :
    (Env.digesting digests).sha256Hex text = hexEncode (List.replicate 32 0) := by
  have hnone : (digests.find? fun d => Text.bytes d.1 = Text.bytes text) = none := by
    refine List.find?_eq_none.2 fun d hd hsame => h d hd ?_
    exact bytes_injective (of_decide_eq_true hsame)
  unfold Env.sha256Hex Env.digesting
  simp only [hnone]
  rfl

/-- The digests are listed for other texts than a link to the stranger's address. -/
theorem stranger_unlisted (nonce : String) :
    ∀ d ∈ factorDigests, d.1 ≠ "eth_personal_sign:" ++ (strangerAddress ++ (":" ++ nonce)) := by
  have hjson : stolenJson ≠ "eth_personal_sign:" ++ (strangerAddress ++ (":" ++ nonce)) := by
    unfold stolenJson
    rw [String.append_assoc, String.append_assoc, String.append_assoc]
    exact Text.ofList_append_ne (i := 0) (by decide) (by decide) (by decide) _ _
  have hother : "ethereum:" ++ linkedAddress ++ ":n0" ≠
      "eth_personal_sign:" ++ (strangerAddress ++ (":" ++ nonce)) := by
    rw [String.append_assoc]
    exact Text.ofList_append_ne (i := 3) (by decide) (by decide) (by decide) _ _
  have hsame : "eth_personal_sign:" ++ linkedAddress ++ ":n0" ≠
      "eth_personal_sign:" ++ (strangerAddress ++ (":" ++ nonce)) := by
    rw [String.append_assoc, ne_eq, String.append_right_inj]
    exact Text.ofList_append_ne (i := 2) (by decide) (by decide) (by decide) _ _
  intro d hd
  unfold factorDigests at hd
  rcases List.mem_cons.1 hd with rfl | hd
  · exact hjson
  rcases List.mem_cons.1 hd with rfl | hd
  · exact hother
  · cases List.mem_singleton.1 hd
    exact hsame

/-- No nonce makes the stored commitment one to the stranger's address. -/
theorem stranger_not_linked :
    ¬ LinkedTo factorNode (policyChain "eth_personal_sign") "alice" "eth_personal_sign"
      strangerAddress := by
  rintro ⟨r, link, nonce, hr, hlink, hcommit⟩
  have htext : "eth_personal_sign" ++ ":" ++ strangerAddress ++ ":" ++ nonce =
      "eth_personal_sign:" ++ (strangerAddress ++ (":" ++ nonce)) := by
    rw [String.append_assoc, String.append_assoc]
    rfl
  have hunlisted : (Env.digesting factorDigests).sha256Hex
      ("eth_personal_sign" ++ ":" ++ strangerAddress ++ ":" ++ nonce) =
        hexEncode (List.replicate 32 0) := by
    rw [htext]
    exact sha256Hex_of_unlisted (stranger_unlisted nonce)
  have hzero : link.commitment = hexEncode (List.replicate 32 0) :=
    hcommit.symm.trans hunlisted
  cases hr
  cases hlink
  exact absurd hzero (by decide)

/-- Whoever has the active key passes with a signature that no wallet made; and the
holder of a wallet that is linked for `ethereum` cannot sign anything that passes. -/
theorem stranger_passes_holder_does_not :
    ¬ Sound factorNode default stolenSig stolenTransfer (policyChain "eth_personal_sign") ∧
      ¬ Satisfiable factorNode default stolenSig stolenTransfer (policyChain "ethereum") := by
  constructor
  · rw [sound_iff]
    intro h
    refine h "eth_personal_sign" (by decide) ?_ ?_
    · exact ⟨rfl, by decide +kernel, by decide +kernel, by decide +kernel⟩
    · refine ⟨⟨_, _, rfl, rfl⟩, strangerAddress, ⟨_, rfl, rfl, by decide +kernel⟩,
        stranger_not_linked⟩
  · rw [satisfiable_iff]
    intro h
    have hlinked : LinkedTo factorNode (policyChain "ethereum") "alice" "ethereum"
        linkedAddress := ⟨_, _, "n0", rfl, rfl, by decide⟩
    obtain ⟨digest, signature, hrec, -⟩ := h "ethereum" linkedAddress (by decide) hlinked
      ⟨rfl, by decide +kernel, by decide +kernel, by decide +kernel⟩
    have hno : ¬ ("ethereum" = "eth_personal_sign" ∧
        messageOf digest stolenTransfer.epoch = messageOf stolenHash 1 ∧ signature = madeUp) :=
      fun hall => absurd hall.1 (by decide)
    simp only [factorNode, if_neg hno] at hrec
    cases hrec

end Samples

end HoneNode.SecondFactor
