import HoneNode.Lib.Word
import HoneNode.Signers.Limits

/-!
# Signers.SignData — what a signature over sign-data is for

1. **Messages.** A message that parses has its fields within their ranges.
2. **Preimages.** The bytes that are hashed can be read back: every field is of fixed
   width or stands behind its length (`buildPreimage_inj`).
3. **Signatures.** A signature is good for one message (`signature_names_message`).
-/

namespace HoneNode.TonSignData

open Signers

/-! ## Messages -/

/-- The ranges of the fields of a parsed message. -/
structure ParsedMessage.WellFormed (m : ParsedMessage) : Prop where
  workchain : -128 ≤ m.workchain ∧ m.workchain < 128
  accountId : m.accountId.length = 32
  timestamp : m.timestamp < 2 ^ 64
  payloadKind : m.payloadKind = "text" ∨ m.payloadKind = "binary"

theorem lt_of_parseNat {bound n : ℕ} {s : String} (h : Text.parseNat bound s = some n) :
    n < bound := by
  unfold Text.parseNat at h
  dsimp only at h
  split at h
  · cases h
  · obtain ⟨-, hlt⟩ := Option.filter_eq_some_iff.1 h
    exact of_decide_eq_true hlt

theorem range_of_parseI8 {s : String} {n : ℤ} (h : Text.parseI8 s = some n) :
    -128 ≤ n ∧ n < 128 := by
  unfold Text.parseI8 at h
  split at h
  · split at h
    · cases h
    · obtain ⟨_, hwhole, rfl⟩ := Option.map_eq_some_iff.1 h
      obtain ⟨k, hk, hcast⟩ := Option.bind_eq_some_iff.1 hwhole
      cases hcast
      have hlt := lt_of_parseNat hk
      omega
  · obtain ⟨_, hwhole, rfl⟩ := Option.map_eq_some_iff.1 h
    obtain ⟨k, hk, hcast⟩ := Option.bind_eq_some_iff.1 hwhole
    cases hcast
    have hlt := lt_of_parseNat hk
    omega

theorem wellFormed_of_parse {message : String} {m : ParsedMessage} (h : parse message = some m) :
    m.WellFormed := by
  unfold parse at h
  split at h
  · next address domain timestamp kind payload _ =>
    simp only [Option.bind_eq_bind, Option.bind_eq_some_iff, Option.pure_def,
      Option.some.injEq] at h
    obtain ⟨⟨wc, acc⟩, -, workchain, hwc, accountId, hacc, stamp, hstamp, bytes, hbytes, rfl⟩ := h
    exact {
      workchain := range_of_parseI8 hwc
      accountId := of_decide_eq_true (Option.filter_eq_some_iff.1 hacc).2
      timestamp := lt_of_parseNat hstamp
      payloadKind := of_decide_eq_true (Option.filter_eq_some_iff.1 hbytes).2 }
  · cases h

/-! ## Preimages -/

/-- The three letters that stand for the kind of the payload. -/
def kindTag (kind : String) : Bytes := Text.bytes (if kind = "text" then "txt" else "bin")

theorem buildPreimage_eq (m : ParsedMessage) : buildPreimage m =
    [0xff, 0xff] ++ Text.bytes "ton-connect/sign-data/" ++
      (beBytes 4 (m.workchain % 2 ^ 32).toNat ++ (m.accountId ++
        (Text.counted 4 (Text.bytes m.domain) ++ (beBytes 8 m.timestamp ++
          (kindTag m.payloadKind ++ (Text.counted 4 m.payload ++ [])))))) := by
  unfold buildPreimage Text.counted kindTag
  simp only [List.append_assoc, List.append_nil]

theorem length_kindTag (kind : String) : (kindTag kind).length = 3 := by
  unfold kindTag
  split
  · rfl
  · rfl

variable {m m' : ParsedMessage}

/-- The sign of a workchain survives its extension to four bytes. -/
theorem workchain_inj (hm : m.WellFormed) (hm' : m'.WellFormed)
    (h : beBytes 4 (m.workchain % 2 ^ 32).toNat =
      beBytes 4 (m'.workchain % 2 ^ 32).toNat) : m.workchain = m'.workchain := by
  have hlo := hm.workchain
  have hlo' := hm'.workchain
  have hmod := Text.mod_eq_of_beBytes h
  omega

theorem payloadKind_inj (hm : m.WellFormed) (hm' : m'.WellFormed)
    (h : kindTag m.payloadKind = kindTag m'.payloadKind) : m.payloadKind = m'.payloadKind := by
  unfold kindTag at h
  have htags := bytes_injective h
  rcases hm.payloadKind with hk | hk
  · rcases hm'.payloadKind with hk' | hk'
    · rw [hk, hk']
    · rw [hk, hk'] at htags
      exact absurd htags (by decide)
  · rcases hm'.payloadKind with hk' | hk'
    · rw [hk, hk'] at htags
      exact absurd htags (by decide)
    · rw [hk, hk']

/-- The fields are read off one after the other, each of known width. -/
theorem buildPreimage_inj (hm : m.WellFormed) (hm' : m'.WellFormed)
    (hdomain : (Text.bytes m.domain).length < 2 ^ 32)
    (hdomain' : (Text.bytes m'.domain).length < 2 ^ 32)
    (hpayload : m.payload.length < 2 ^ 32) (hpayload' : m'.payload.length < 2 ^ 32)
    (h : buildPreimage m = buildPreimage m') : m = m' := by
  rw [buildPreimage_eq, buildPreimage_eq] at h
  have hrest := List.append_cancel_left h
  obtain ⟨hwc, hrest⟩ := List.append_inj hrest
    (by rw [Text.length_beBytes, Text.length_beBytes])
  obtain ⟨hacc, hrest⟩ := List.append_inj hrest (hm.accountId.trans hm'.accountId.symm)
  obtain ⟨hdom, hrest⟩ := Text.counted_append_inj hdomain hdomain' hrest
  obtain ⟨hstamp, hrest⟩ := List.append_inj hrest
    (by rw [Text.length_beBytes, Text.length_beBytes])
  obtain ⟨hkind, hrest⟩ := List.append_inj hrest (by rw [length_kindTag, length_kindTag])
  obtain ⟨hpay, -⟩ := Text.counted_append_inj hpayload hpayload' hrest
  have hworkchain := workchain_inj hm hm' hwc
  have hdomains := bytes_injective hdom
  have htimestamp := Text.beBytes_inj hm.timestamp hm'.timestamp hstamp
  have hkinds := payloadKind_inj hm hm' hkind
  cases m
  cases m'
  dsimp only at *
  subst hworkchain hacc hdomains htimestamp hkinds hpay
  rfl

/-! ## Signatures -/

/-- No two digests verify with one signature under the key. -/
def Binding (env : Env) (pk : Bytes) : Prop := ∀ digest digest' sig,
  env.ed25519 pk digest sig = true → env.ed25519 pk digest' sig = true → digest = digest'

/-- The messages are told apart by their preimages, and a signature is good for one of them
unless their digests collide. -/
theorem signature_names_message {message message' : String} (hparse : parse message = some m)
    (hparse' : parse message' = some m') (hdomain : (Text.bytes m.domain).length < 2 ^ 32)
    (hdomain' : (Text.bytes m'.domain).length < 2 ^ 32) (hpayload : m.payload.length < 2 ^ 32)
    (hpayload' : m'.payload.length < 2 ^ 32) :
    (buildPreimage m = buildPreimage m' → m = m') ∧
    ∀ env : Env, (env.sha256 (buildPreimage m) = env.sha256 (buildPreimage m') →
        buildPreimage m = buildPreimage m') →
      ∀ signature pk, Binding env pk → verifyWithPubkey env message signature pk = true → m ≠ m' →
        verifyWithPubkey env message' signature pk = false := by
  have hinj : buildPreimage m = buildPreimage m' → m = m' :=
    buildPreimage_inj (wellFormed_of_parse hparse) (wellFormed_of_parse hparse') hdomain hdomain'
      hpayload hpayload'
  refine ⟨hinj, fun env hcollision signature pk hbinding haccepted hne => ?_⟩
  rw [Bool.eq_false_iff]
  intro haccepted'
  cases hsig : (env.base64Decode signature).filter (·.length = 64) with
  | none =>
    unfold verifyWithPubkey at haccepted
    rw [hparse, hsig] at haccepted
    cases haccepted
  | some sig =>
    rw [verifyWithPubkey_of_parse hparse hsig] at haccepted
    rw [verifyWithPubkey_of_parse hparse' hsig] at haccepted'
    have hdigest := hbinding _ _ sig haccepted haccepted'
    exact hne (hinj (hcollision hdigest))

theorem binding_walletNode (pk : Bytes) : Binding walletNode pk := by
  have hverifies : ∀ pk digest sig, walletNode.ed25519 pk digest sig = true →
      ∃ o ∈ [firstOrder, secondOrder], o.digest = digest ∧ o.sig = sig := by
    intro pk digest sig h
    by_contra hnone
    have herror : walletNode.verifyError pk digest sig =
        Env.bare.verifyError pk digest sig := if_neg fun hsigned => hnone hsigned.2
    unfold Env.ed25519 at h
    rw [herror, Bool.and_eq_true] at h
    cases h.2
  intro digest digest' sig h h'
  obtain ⟨o, ho, rfl, rfl⟩ := hverifies pk digest sig h
  obtain ⟨o', ho', rfl, hsig⟩ := hverifies pk digest' o.sig h'
  have hall : ∀ a ∈ [firstOrder, secondOrder], ∀ b ∈ [firstOrder, secondOrder], b.sig = a.sig →
      a.digest = b.digest := by decide
  exact hall o ho o' ho' hsig

/-- The signature of the first order is no signature of the second. -/
theorem signature_names_message_orders :
    (firstOrder.preimage = secondOrder.preimage → firstOrder.terms.text = secondOrder.terms.text) ∧
    verifyWithPubkey walletNode (tonMessage (firstOrder.call 0).p aliceWallet.address)
      firstOrder.sigText walletKey = true ∧
    verifyWithPubkey walletNode (tonMessage (secondOrder.call 0).p aliceWallet.address)
      firstOrder.sigText walletKey = false := by
  have hfits : ∀ o ∈ [firstOrder, secondOrder],
      (Text.bytes "hone.network").length < 2 ^ 32 ∧
        (Text.bytes o.terms.text).length < 2 ^ 32 := by decide
  have hfirst := hfits firstOrder (by simp)
  have hsecond := hfits secondOrder (by simp)
  obtain ⟨hinj, hone⟩ := signature_names_message (parse_order firstOrder 0)
    (parse_order secondOrder 0) hfirst.1 hsecond.1 hfirst.2 hsecond.2
  have htexts : firstOrder.terms.text ≠ secondOrder.terms.text := by decide
  have hpayload : ∀ {m m' : ParsedMessage}, m = m' → m.payload = m'.payload :=
    fun h => congrArg ParsedMessage.payload h
  have haccepted := verifies_order (.inl rfl) 0
  refine ⟨fun h => bytes_injective (hpayload (hinj h)), haccepted, ?_⟩
  refine hone walletNode (fun hdigest => ?_) _ _ (binding_walletNode _) haccepted fun h =>
    htexts (bytes_injective (hpayload h))
  by_contra hne
  have hknown : ∀ b, walletNode.sha256 b =
      if b = firstOrder.preimage then firstOrder.digest else secondOrder.digest := fun _ => rfl
  have hdigests : walletNode.sha256 firstOrder.preimage =
      walletNode.sha256 secondOrder.preimage := hdigest
  rw [hknown, hknown, if_pos rfl, if_neg fun h => hne h.symm] at hdigests
  exact absurd hdigests (by decide)

end HoneNode.TonSignData
