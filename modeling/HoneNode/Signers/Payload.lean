import HoneNode.Apply
import HoneNode.Lib.Decimal

/-!
# Signers.Payload — what a wallet signs for a transfer

The payload of an external signer's transfer joins five fields with bars, and
three of them are free text. The text says which transfer was meant exactly
where the account and the recipient have no bar and no number of the memo
stands in front of one.
-/

namespace HoneNode.Signers

open Entry

/-! ## The text -/

/-- What of a transfer the payload names. -/
structure Terms where
  (account to_ : String) (amount : ℕ) (memo : String) (nonce : ℕ)
deriving DecidableEq

def termsOf (p : ExternalSignerTransfer) : Terms :=
  ⟨p.account, p.to_, p.amount, p.memo.getD "", p.nonce⟩

/-- The text of a payload. -/
def Terms.text (x : Terms) : String :=
  x.account ++ "|" ++ x.to_ ++ "|" ++ toString x.amount ++ "|" ++ x.memo ++ "|" ++ toString x.nonce

/-- The amount and the nonce are machine words. -/
structure Terms.Words (x : Terms) : Prop where
  amount : x.amount < 2 ^ 64
  nonce : x.nonce < 2 ^ 64

/-- No other transfer has the same text. -/
def Terms.Unambiguous (x : Terms) : Prop := ∀ y : Terms, y.Words → y.text = x.text → y = x

/-- The fields in front of the memo have no bar, and no number of the memo stands in front of one,
at its start or behind another bar. -/
structure Terms.Separable (x : Terms) : Prop where
  account : '|' ∉ x.account.toList
  to_ : '|' ∉ x.to_.toList
  start : ∀ n back, n < 2 ^ 64 → x.memo ≠ toString n ++ "|" ++ back
  middle : ∀ front n back, n < 2 ^ 64 → x.memo ≠ front ++ "|" ++ toString n ++ "|" ++ back

section Text

theorem toList_bar (a b : String) : (a ++ "|" ++ b).toList = a.toList ++ '|' :: b.toList := by
  rw [String.toList_append, String.toList_append, List.append_assoc]
  rfl

theorem bar_notMem_toString (n : ℕ) : '|' ∉ (toString n).toList := Text.notMem_toString rfl n

/-- The text in front of the nonce. -/
def Terms.front (x : Terms) : List Char :=
  x.account.toList ++ '|' :: (x.to_.toList ++ '|' :: ((toString x.amount).toList ++ '|' ::
    x.memo.toList))

theorem Terms.toList_text (x : Terms) :
    x.text.toList = x.front ++ '|' :: (toString x.nonce).toList := by
  unfold Terms.text Terms.front
  rw [toList_bar, toList_bar, toList_bar, toList_bar]
  simp only [List.append_assoc, List.cons_append]

/-- The nonce can always be read off the text. -/
theorem nonce_of_text {x y : Terms} (h : y.text = x.text) : y.front = x.front ∧ y.nonce = x.nonce := by
  have hlist := congrArg String.toList h
  rw [Terms.toList_text, Terms.toList_text] at hlist
  exact Text.decimalLast_inj rfl hlist

variable {x y : Terms}

/-- Behind the recipient the amount is the first number, and the memo has no other. -/
theorem Terms.Separable.not_later (hx : x.Separable) {n : ℕ} (hn : n < 2 ^ 64) {z back : List Char} :
    (toString x.amount).toList ++ '|' :: x.memo.toList ≠
      z ++ '|' :: ((toString n).toList ++ '|' :: back) := by
  intro h
  rcases Text.append_sep_first (bar_notMem_toString _) h with ⟨-, hmemo⟩ | ⟨w, -, hmemo⟩
  · refine hx.start n (String.ofList back) hn (String.toList_inj.1 ?_)
    rw [toList_bar, String.toList_ofList]
    exact hmemo
  · refine hx.middle (String.ofList w) n (String.ofList back) hn (String.toList_inj.1 ?_)
    rw [toList_bar, toList_bar, String.toList_ofList, String.toList_ofList, List.append_assoc]
    exact hmemo

theorem Terms.Separable.unambiguous (hx : x.Separable) : x.Unambiguous := by
  intro y hy htext
  obtain ⟨hfront, hnonce⟩ := nonce_of_text htext
  unfold Terms.front at hfront
  rcases Text.append_sep_first hx.account hfront.symm with ⟨haccount, hrest⟩ | ⟨z, -, hrest⟩
  · rcases Text.append_sep_first hx.to_ hrest with ⟨hto, hrest⟩ | ⟨z, -, hrest⟩
    · rcases Text.append_sep_first (bar_notMem_toString _) hrest with ⟨hamount, hmemo⟩ | ⟨z, hz, -⟩
      · obtain ⟨a, t, n, m, k⟩ := x
        obtain ⟨a', t', n', m', k'⟩ := y
        obtain rfl : a = a' := String.toList_inj.1 haccount
        obtain rfl : t = t' := String.toList_inj.1 hto
        obtain rfl : n = n' := Text.toString_nat_inj.1 (String.toList_inj.1 hamount)
        obtain rfl : m = m' := String.toList_inj.1 hmemo
        obtain rfl : k' = k := hnonce
        rfl
      · -- an amount has no bar
        exact absurd (hz ▸ List.mem_append_right _ List.mem_cons_self) (bar_notMem_toString y.amount)
    · exact absurd hrest (hx.not_later hy.amount)
  · rcases Text.append_sep_first hx.to_ hrest with ⟨-, hrest⟩ | ⟨w, -, hrest⟩
    · exact absurd hrest (hx.not_later hy.amount)
    · refine absurd (hrest.trans ?_) (@Terms.Separable.not_later _ hx _ hy.amount
        (w ++ '|' :: y.to_.toList) y.memo.toList)
      rw [List.append_assoc, List.cons_append]

/-- A field is longer than its part behind a bar. -/
theorem ne_behind (b c : String) : c ≠ b ++ "|" ++ c := by
  intro h
  have hlength := congrArg (fun text : String => text.toList.length) h
  rw [toList_bar, List.length_append, List.length_cons] at hlength
  omega

theorem Terms.Unambiguous.separable (hwords : x.Words) (h : x.Unambiguous) : x.Separable where
  account := by
    intro hbar
    obtain ⟨a, b, hab⟩ := List.append_of_mem hbar
    have hsplit : x.account = String.ofList a ++ "|" ++ String.ofList b := by
      apply String.toList_inj.1
      rw [toList_bar, String.toList_ofList, String.toList_ofList, hab]
    have hother := h ⟨String.ofList a, String.ofList b ++ "|" ++ x.to_, x.amount, x.memo, x.nonce⟩
      ⟨hwords.amount, hwords.nonce⟩ (by simp only [Terms.text, hsplit, String.append_assoc])
    have hto : String.ofList b ++ "|" ++ x.to_ = x.to_ := congrArg Terms.to_ hother
    exact ne_behind _ _ hto.symm
  to_ := by
    intro hbar
    obtain ⟨a, b, hab⟩ := List.append_of_mem hbar
    have hsplit : x.to_ = String.ofList a ++ "|" ++ String.ofList b := by
      apply String.toList_inj.1
      rw [toList_bar, String.toList_ofList, String.toList_ofList, hab]
    have hother := h ⟨x.account ++ "|" ++ String.ofList a, String.ofList b, x.amount, x.memo, x.nonce⟩
      ⟨hwords.amount, hwords.nonce⟩ (by simp only [Terms.text, hsplit, String.append_assoc])
    have hto : String.ofList b = x.to_ := congrArg Terms.to_ hother
    exact ne_behind _ _ (hto.trans hsplit)
  start := by
    intro n back hn hmemo
    have hother := h ⟨x.account, x.to_ ++ "|" ++ toString x.amount, n, back, x.nonce⟩
      ⟨hn, hwords.nonce⟩ (by simp only [Terms.text, hmemo, String.append_assoc])
    have hback : back = x.memo := congrArg Terms.memo hother
    exact ne_behind _ _ (hback.trans hmemo)
  middle := by
    intro front n back hn hmemo
    have hother := h ⟨x.account, x.to_ ++ "|" ++ toString x.amount ++ "|" ++ front, n, back, x.nonce⟩
      ⟨hn, hwords.nonce⟩ (by simp only [Terms.text, hmemo, String.append_assoc])
    have hback : back = x.memo := congrArg Terms.memo hother
    exact ne_behind _ _ (hback.trans hmemo)

theorem Terms.unambiguous_iff (hwords : x.Words) : x.Unambiguous ↔ x.Separable :=
  ⟨fun h => h.separable hwords, fun h => h.unambiguous⟩

end Text

/-! ## The message around it -/

/-- A message whose fields have no bar is read field by field. -/
theorem split_tonMessage {p : ExternalSignerTransfer} {address : String}
    (haddress : '|' ∉ address.toList) (hdomain : '|' ∉ p.tonDomain.toList)
    (hkind : '|' ∉ p.tonPayloadKind.toList) (hpayload : '|' ∉ p.tonPayload.toList) :
    Text.split '|' (tonMessage p address) =
      [address, p.tonDomain, toString p.tonTimestamp, p.tonPayloadKind, p.tonPayload] := by
  have hmessage : tonMessage p address = address ++ "|" ++ p.tonDomain ++ "|" ++
    toString p.tonTimestamp ++ "|" ++ p.tonPayloadKind ++ "|" ++ p.tonPayload := rfl
  unfold Text.split
  rw [hmessage, toList_bar, toList_bar, toList_bar, toList_bar]
  simp only [List.append_assoc, List.cons_append]
  rw [Text.splitChars_append_sep haddress, Text.splitChars_append_sep hdomain,
    Text.splitChars_append_sep (bar_notMem_toString _), Text.splitChars_append_sep hkind,
    Text.splitChars_of_notMem hpayload]
  simp only [List.map_cons, List.map_nil, String.ofList_toList]

/-- What the verifier takes from such a message. -/
theorem parse_tonMessage {p : ExternalSignerTransfer} {address wc acc : String} {workchain : ℤ}
    {accountId payload : Bytes} (haddress : '|' ∉ address.toList)
    (hdomain : '|' ∉ p.tonDomain.toList) (hbar : '|' ∉ p.tonPayload.toList)
    (hkind : p.tonPayloadKind = "text" ∨ p.tonPayloadKind = "binary")
    (honce : splitOnce ':' address = some (wc, acc)) (hwc : Text.parseI8 wc = some workchain)
    (hacc : hexDecode acc = some accountId) (hlength : accountId.length = 32)
    (htime : p.tonTimestamp < 2 ^ 64) (hpayload : hexDecode p.tonPayload = some payload) :
    TonSignData.parse (tonMessage p address) =
      some ⟨workchain, accountId, p.tonDomain, p.tonTimestamp, p.tonPayloadKind, payload⟩ := by
  have hplain : '|' ∉ p.tonPayloadKind.toList := by
    rcases hkind with hkind | hkind
    · rw [hkind]
      decide
    · rw [hkind]
      decide
  have hid : (some accountId).filter (·.length = 32) = some accountId :=
    Option.filter_some_pos (decide_eq_true hlength)
  have hbytes : (some payload).filter (fun _ => p.tonPayloadKind = "text" ∨
      p.tonPayloadKind = "binary") = some payload := Option.filter_some_pos (decide_eq_true hkind)
  unfold TonSignData.parse
  rw [split_tonMessage haddress hdomain hplain hbar]
  dsimp only
  rw [honce, Option.bind_eq_bind, Option.bind_some]
  dsimp only
  rw [hwc, hacc, Text.parseU64_toString htime, hpayload, hid, hbytes]
  rfl

theorem verifyWithPubkey_of_parse {env : Env} {message signature : String} {pk sig : Bytes}
    {m : TonSignData.ParsedMessage} (hparse : TonSignData.parse message = some m)
    (hsig : (env.base64Decode signature).filter (·.length = 64) = some sig) :
    TonSignData.verifyWithPubkey env message signature pk =
      env.ed25519 pk (env.sha256 (TonSignData.buildPreimage m)) sig := by
  unfold TonSignData.verifyWithPubkey
  rw [hparse, hsig]

end HoneNode.Signers
