import Mathlib.Data.Option.Basic
import HoneNode.Exchange.Contract

/-!
# Solidity.Whone — claims of wrapped HONE

`wHONE` mints against a signature of its authority, once for each nonce, and passes the
fee on to the treasury and the pool of the stakers. These are called in the middle of a
claim, and may call the contract again. Transfers, of the tokens and of the ownership, are
left out.

1. **The contract**: what a claim does before, between and after the two calls.
2. **Runs**, with whatever the two make of a call (`Runs`).
3. **Claims add up** however they are nested (`claims_add_up`).
-/

namespace HoneNode.Whone

open Exchange

/-! ## The contract -/

/-- What the authority signs. -/
structure Message where
  chainId : ℕ
  claimer : Address
  (honeAccount amount nonce : ℕ)
deriving DecidableEq, Repr

/-- `_recover` of the hash of a message; none if the signature has not the form of one. -/
abbrev Recover (S : Type) := Message → S → Option Address

structure Storage where
  (owner signingAuthority treasury stakerPool : Address)
  claimFee : ℕ := 10 ^ 14
  totalFeesCollected : ℕ := 0
  usedNonces : ℕ → Bool := fun _ => false
  paused : Bool := false
  totalSupply : ℕ := 0

/-- The event of a claim. -/
structure Claimed where
  claimer : Address
  (amount nonce feePaid : ℕ)
deriving DecidableEq, Repr

/-- The contract with its ether, what it has sent of it, and the claims logged. -/
structure World where
  whone : Storage
  ether : ℕ := 0
  sent : ℕ := 0
  events : List Claimed := []

def construct (sender signingAuthority : Address) : Option Storage := do
  guard (signingAuthority ≠ 0)
  return { owner := sender, signingAuthority, treasury := sender, stakerPool := sender }

structure Claim (S : Type) where
  sender : Address
  (value honeAccount amount nonce : ℕ)
  signature : S

section Contract

variable {S : Type} (E : Recover S) (chainId : ℕ)

/-- Up to the minting. -/
def Claim.start (c : Claim S) (w : World) : Option World := do
  guard (w.whone.paused = false)
  guard (w.whone.usedNonces c.nonce = false)
  guard (0 < c.amount)
  guard (w.whone.claimFee ≤ c.value)
  let recovered ← E ⟨chainId, c.sender, c.honeAccount, c.amount, c.nonce⟩ c.signature
  guard (recovered = w.whone.signingAuthority)
  guard (c.sender ≠ 0)
  let totalSupply ← addChecked w.whone.totalSupply c.amount
  let usedNonces := Function.update w.whone.usedNonces c.nonce true
  return { w with whone := { w.whone with usedNonces, totalSupply }, ether := w.ether + c.value }

/-- Ether leaves with a call. -/
def send (amount : ℕ) (w : World) : Option World := do
  guard (amount ≤ w.ether)
  return { w with ether := w.ether - amount, sent := w.sent + amount }

def Claim.collected (c : Claim S) (total : ℕ) : Option ℕ :=
  if 0 < c.value then addChecked total c.value else some total

/-- From the calls on. -/
def Claim.finish (c : Claim S) (w : World) : Option World := do
  let totalFeesCollected ← c.collected w.whone.totalFeesCollected
  return { w with
    whone := { w.whone with totalFeesCollected }
    events := w.events ++ [⟨c.sender, c.amount, c.nonce, c.value⟩] }

/-- The calls that are for the owner. -/
inductive Setter where
  | setSigningAuthority (a : Address)
  | setClaimFee (fee : ℕ)
  | setTreasury (a : Address)
  | setStakerPool (a : Address)
  | pause
  | unpause
deriving DecidableEq

def Setter.run (sender : Address) (w : World) (call : Setter) : Option World := do
  guard (sender = w.whone.owner)
  match call with
  | .setSigningAuthority a => do
    guard (a ≠ 0)
    return { w with whone := { w.whone with signingAuthority := a } }
  | .setClaimFee fee => return { w with whone := { w.whone with claimFee := fee } }
  | .setTreasury a => do
    guard (a ≠ 0)
    return { w with whone := { w.whone with treasury := a } }
  | .setStakerPool a => do
    guard (a ≠ 0)
    return { w with whone := { w.whone with stakerPool := a } }
  | .pause => do
    guard (w.whone.paused = false)
    return { w with whone := { w.whone with paused := true } }
  | .unpause => do
    guard (w.whone.paused = true)
    return { w with whone := { w.whone with paused := false } }

/-! ## Runs -/

/-- What calls leave, one after the other; what reverts leaves nothing. A claim with a fee calls the
treasury and then the pool, and each of them may make calls of its own before it returns. The owner
makes authorities of the trusted only. -/
inductive Runs (trusted : Address → Prop) : World → World → Prop
  | done (w) : Runs trusted w w
  | set {w w₁ w₂} (sender call) : Runs trusted w w₁ →
    (∀ a, call = Setter.setSigningAuthority a → trusted a) → call.run sender w₁ = some w₂ →
    Runs trusted w w₂
  | claimFree {w w₁ w₂ w₃} (c : Claim S) : Runs trusted w w₁ → c.start E chainId w₁ = some w₂ →
    c.value = 0 → c.finish w₂ = some w₃ → Runs trusted w w₃
  | claim {w w₁ w₂ w₃ w₄ w₅ w₆ w₇} (c : Claim S) : Runs trusted w w₁ →
    c.start E chainId w₁ = some w₂ → 0 < c.value →
    send (c.value / 2) w₂ = some w₃ → Runs trusted w₃ w₄ →
    send (c.value - c.value / 2) w₄ = some w₅ → Runs trusted w₅ w₆ →
    c.finish w₆ = some w₇ → Runs trusted w w₇

end Contract

/-! ## What calls add -/

section Adds

variable {S : Type} {E : Recover S} {chainId : ℕ} {trusted : Address → Prop}
  {w w₁ w₂ w₃ : World} {new more : List Claimed} {c : Claim S}

/-- A trusted address has signed the claim. -/
def Signed (E : Recover S) (chainId : ℕ) (trusted : Address → Prop) (e : Claimed) : Prop :=
  ∃ authority honeAccount signature, trusted authority ∧
    E ⟨chainId, e.claimer, honeAccount, e.amount, e.nonce⟩ signature = some authority

/-- Each of the nonces went from unused to used, and no other. -/
structure Uses (before after : ℕ → Bool) (nonces : List ℕ) : Prop where
  used : ∀ n, after n = true ↔ before n = true ∨ n ∈ nonces
  fresh : ∀ n ∈ nonces, before n = false
  nodup : nonces.Nodup

theorem Uses.nil {before : ℕ → Bool} : Uses before before [] where
  used _ := by simp
  fresh := nofun
  nodup := List.nodup_nil

theorem Uses.one {before : ℕ → Bool} {n : ℕ} (h : before n = false) :
    Uses before (Function.update before n true) [n] where
  used m := by
    rw [List.mem_singleton]
    by_cases hm : m = n
    · simp [hm]
    · simp [hm]
  fresh m hm := by rwa [List.mem_singleton.1 hm]
  nodup := List.pairwise_singleton _ n

theorem Uses.trans {before between after : ℕ → Bool} {nonces more : List ℕ}
    (h : Uses before between nonces) (h' : Uses between after more) :
    Uses before after (nonces ++ more) where
  used n := by rw [h'.used, h.used, List.mem_append, or_assoc]
  fresh n hn := by
    rcases List.mem_append.1 hn with hn | hn
    · exact h.fresh n hn
    · have hunused := h'.fresh n hn
      by_contra hused
      rw [(h.used n).2 (.inl (by simpa using hused))] at hunused
      cases hunused
  nodup := by
    refine List.nodup_append.2 ⟨h.nodup, h'.nodup, fun n hn m hm heq => ?_⟩
    have hunused := h'.fresh m hm
    rw [← heq, (h.used n).2 (.inr hn)] at hunused
    cases hunused

theorem Uses.perm {before after : ℕ → Bool} {nonces more : List ℕ} (h : Uses before after nonces)
    (hperm : nonces.Perm more) : Uses before after more where
  used n := by rw [h.used, hperm.mem_iff]
  fresh n hn := h.fresh n (hperm.mem_iff.2 hn)
  nodup := hperm.nodup h.nodup

/-- The new claims account for what has changed. -/
structure Adds (E : Recover S) (chainId : ℕ) (trusted : Address → Prop) (w w' : World)
    (new : List Claimed) : Prop where
  events : w'.events = w.events ++ new
  supply : w'.whone.totalSupply = w.whone.totalSupply + (new.map Claimed.amount).sum
  nonces : Uses w.whone.usedNonces w'.whone.usedNonces (new.map Claimed.nonce)
  fees : w'.whone.totalFeesCollected =
    w.whone.totalFeesCollected + (new.map Claimed.feePaid).sum
  sent : w'.sent = w.sent + (new.map Claimed.feePaid).sum
  ether : w'.ether = w.ether
  signed : ∀ e ∈ new, Signed E chainId trusted e
  authority : trusted w'.whone.signingAuthority

theorem Adds.nil (h : trusted w.whone.signingAuthority) : Adds E chainId trusted w w [] where
  events := (List.append_nil _).symm
  supply := rfl
  nonces := Uses.nil
  fees := rfl
  sent := rfl
  ether := rfl
  signed := nofun
  authority := h

theorem Adds.trans (h : Adds E chainId trusted w w₁ new) (h' : Adds E chainId trusted w₁ w₂ more) :
    Adds E chainId trusted w w₂ (new ++ more) where
  events := by rw [h'.events, h.events, List.append_assoc]
  supply := by rw [h'.supply, h.supply, List.map_append, List.sum_append, Nat.add_assoc]
  nonces := by
    rw [List.map_append]
    exact h.nonces.trans h'.nonces
  fees := by rw [h'.fees, h.fees, List.map_append, List.sum_append, Nat.add_assoc]
  sent := by rw [h'.sent, h.sent, List.map_append, List.sum_append, Nat.add_assoc]
  ether := h'.ether.trans h.ether
  signed e he := (List.mem_append.1 he).elim (h.signed e) (h'.signed e)
  authority := h'.authority

/-- With the nonce used and the supply minted. -/
def Claim.minted (c : Claim S) (w : World) : World :=
  { w with
    whone := { w.whone with
      usedNonces := Function.update w.whone.usedNonces c.nonce true
      totalSupply := w.whone.totalSupply + c.amount }
    ether := w.ether + c.value }

theorem Claim.start_eq (h : c.start E chainId w = some w₁) :
    w.whone.usedNonces c.nonce = false ∧
      E ⟨chainId, c.sender, c.honeAccount, c.amount, c.nonce⟩ c.signature =
        some w.whone.signingAuthority ∧ w₁ = c.minted w := by
  simp only [Claim.start, Option.bind_eq_bind, Option.bind_eq_some_iff, Option.pure_def,
    Option.some.injEq, addChecked, Option.ite_none_right_eq_some] at h
  obtain ⟨_, -, _, hunused, _, -, _, -, recovered, hrecovered, _, hauthority, _, -, supply,
    ⟨-, rfl⟩, rfl⟩ := h
  rw [(Option.guard_eq_some' _).1 hauthority] at hrecovered
  exact ⟨(Option.guard_eq_some' _).1 hunused, hrecovered, rfl⟩

theorem send_eq {amount : ℕ} (h : send amount w = some w₁) :
    amount ≤ w.ether ∧
      w₁ = { w with ether := w.ether - amount, sent := w.sent + amount } := by
  simp only [send, Option.bind_eq_bind, Option.bind_eq_some_iff, Option.pure_def,
    Option.some.injEq] at h
  obtain ⟨_, hle, rfl⟩ := h
  exact ⟨(Option.guard_eq_some' _).1 hle, rfl⟩

theorem Claim.collected_eq {total after : ℕ} (h : c.collected total = some after) :
    after = total + c.value := by
  unfold Claim.collected at h
  split at h
  · rw [addChecked, Option.ite_none_right_eq_some] at h
    exact (Option.some.inj h.2).symm
  · have hzero : c.value = 0 := by omega
    rw [hzero, Nat.add_zero]
    exact (Option.some.inj h).symm

theorem Claim.finish_eq (h : c.finish w = some w₁) :
    w₁ = { w with
      whone := { w.whone with totalFeesCollected := w.whone.totalFeesCollected + c.value }
      events := w.events ++ [⟨c.sender, c.amount, c.nonce, c.value⟩] } := by
  simp only [Claim.finish, Option.bind_eq_bind, Option.bind_eq_some_iff, Option.pure_def,
    Option.some.injEq] at h
  obtain ⟨total, htotal, rfl⟩ := h
  rw [c.collected_eq htotal]

theorem Claim.start_authority (hauthority : trusted w.whone.signingAuthority)
    (h : c.start E chainId w = some w₁) : trusted w₁.whone.signingAuthority := by
  rw [(c.start_eq h).2.2]
  exact hauthority

/-- Whatever the treasury and the pool do when they are paid, the claim comes to what they add
and one more. -/
theorem Claim.adds {w₄ w₅ w₆ w₇ : World} {first second : List Claimed}
    (hauthority : trusted w.whone.signingAuthority) (hstart : c.start E chainId w = some w₂)
    (hhalf : send (c.value / 2) w₂ = some w₃) (hfirst : Adds E chainId trusted w₃ w₄ first)
    (hrest : send (c.value - c.value / 2) w₄ = some w₅)
    (hsecond : Adds E chainId trusted w₅ w₆ second) (hfinish : c.finish w₆ = some w₇) :
    Adds E chainId trusted w w₇ (first ++ second ++ [⟨c.sender, c.amount, c.nonce, c.value⟩]) := by
  obtain ⟨hunused, hsigned, rfl⟩ := Claim.start_eq hstart
  obtain ⟨hle, rfl⟩ := send_eq hhalf
  obtain ⟨hle', rfl⟩ := send_eq hrest
  rw [c.finish_eq hfinish]
  have hfees : c.value / 2 + (c.value - c.value / 2) = c.value := by omega
  constructor
  · simp only [hsecond.events, hfirst.events, Claim.minted, List.append_assoc]
  · simp only [hsecond.supply, hfirst.supply, Claim.minted, List.map_append, List.map_cons,
      List.map_nil, List.sum_append, List.sum_singleton]
    omega
  · rw [List.map_append, List.map_append]
    exact ((Uses.one hunused).trans (hfirst.nonces.trans hsecond.nonces)).perm
      List.perm_append_comm
  · simp only [hsecond.fees, hfirst.fees, Claim.minted, List.map_append, List.map_cons,
      List.map_nil, List.sum_append, List.sum_singleton]
    omega
  · simp only [hsecond.sent, hfirst.sent, Claim.minted, List.map_append, List.map_cons,
      List.map_nil, List.sum_append, List.sum_singleton]
    omega
  · have hether := hfirst.ether
    have hether' := hsecond.ether
    dsimp only [Claim.minted] at *
    omega
  · intro e he
    rcases List.mem_append.1 he with he | he
    · exact (List.mem_append.1 he).elim (hfirst.signed e) (hsecond.signed e)
    · rw [List.mem_singleton.1 he]
      exact ⟨_, c.honeAccount, c.signature, hauthority, hsigned⟩
  · exact hsecond.authority

theorem Setter.adds {sender : Address} {call : Setter}
    (hauthority : trusted w.whone.signingAuthority)
    (hnext : ∀ a, call = .setSigningAuthority a → trusted a)
    (h : call.run sender w = some w₁) : Adds E chainId trusted w w₁ [] := by
  cases call <;>
    simp only [Setter.run, Option.bind_eq_bind, Option.bind_eq_some_iff, Option.pure_def,
      Option.some.injEq] at h
  case setSigningAuthority a =>
    obtain ⟨_, -, _, -, rfl⟩ := h
    exact { Adds.nil hauthority with authority := hnext a rfl }
  case setClaimFee fee =>
    obtain ⟨_, -, rfl⟩ := h
    exact { Adds.nil hauthority with }
  all_goals
    obtain ⟨_, -, _, -, rfl⟩ := h
    exact { Adds.nil hauthority with }

/-- A run adds the claims that it logs. -/
theorem Runs.adds (h : Runs E chainId trusted w w₁) :
    trusted w.whone.signingAuthority → ∃ new, Adds E chainId trusted w w₁ new := by
  induction h with
  | done w => exact fun hauthority => ⟨[], Adds.nil hauthority⟩
  | set sender call _ hnext hcall ih =>
    intro hauthority
    obtain ⟨new, hnew⟩ := ih hauthority
    exact ⟨_, hnew.trans (Setter.adds hnew.authority hnext hcall)⟩
  | claimFree c _ hstart hvalue hfinish ih =>
    intro hauthority
    obtain ⟨new, hnew⟩ := ih hauthority
    -- As if nothing had been sent, and no call come of it.
    have hnil : Adds E chainId trusted _ _ [] :=
      Adds.nil (c.start_authority hnew.authority hstart)
    refine ⟨_, hnew.trans (c.adds hnew.authority hstart ?_ hnil ?_ hnil hfinish)⟩
    all_goals rw [hvalue]; rfl
  | claim c _ hstart _ hhalf _ hrest _ hfinish ih ihfirst ihsecond =>
    intro hauthority
    obtain ⟨new, hnew⟩ := ih hauthority
    have hstarted := c.start_authority hnew.authority hstart
    obtain ⟨first, hfirst⟩ := ihfirst (by rw [(send_eq hhalf).2]; exact hstarted)
    obtain ⟨second, hsecond⟩ := ihsecond (by rw [(send_eq hrest).2]; exact hfirst.authority)
    exact ⟨_, hnew.trans (c.adds hnew.authority hstart hhalf hfirst hrest hsecond hfinish)⟩

end Adds

/-! ## Claims add up -/

section AddUp

variable {S : Type} {E : Recover S} {chainId : ℕ} {trusted : Address → Prop}

/-- However calls come, also those made out of other claims: what has been minted is what the
claims logged say, each of another nonce and signed by a trusted authority, the used nonces are
theirs, and the fees have been passed on. -/
theorem claims_add_up {sender authority : Address} {s : Storage} {w : World}
    (hs : construct sender authority = some s) (hauthority : trusted authority)
    (h : Runs E chainId trusted ⟨s, 0, 0, []⟩ w) :
    w.whone.totalSupply = (w.events.map Claimed.amount).sum ∧
    (w.events.map Claimed.nonce).Nodup ∧
    (∀ n, w.whone.usedNonces n = true ↔ n ∈ w.events.map Claimed.nonce) ∧
    (∀ e ∈ w.events, Signed E chainId trusted e) ∧
    w.whone.totalFeesCollected = (w.events.map Claimed.feePaid).sum ∧
    w.sent = w.whone.totalFeesCollected ∧ w.ether = 0 := by
  simp only [construct, Option.bind_eq_bind, Option.bind_eq_some_iff, Option.pure_def,
    Option.some.injEq] at hs
  obtain ⟨_, -, rfl⟩ := hs
  obtain ⟨new, hnew⟩ := h.adds hauthority
  have hevents : w.events = new := hnew.events
  rw [hevents]
  refine ⟨?_, hnew.nonces.nodup, ?_, hnew.signed, ?_, ?_, hnew.ether⟩
  · rw [hnew.supply, Nat.zero_add]
  · intro n
    rw [hnew.nonces.used]
    simp
  · rw [hnew.fees, Nat.zero_add]
  · rw [hnew.sent, hnew.fees]

/-- The signatures of `7`. -/
def everSeven : Recover Unit := fun _ _ => some 7

/-- The treasury claims in the middle of a claim. -/
def outer : Claim Unit := ⟨5, 10 ^ 14, 1, 30, 1, ()⟩

def inner : Claim Unit := ⟨1, 3 * 10 ^ 14, 1, 12, 2, ()⟩

def deployed : World where
  whone := { owner := 1, signingAuthority := 7, treasury := 1, stakerPool := 1 }

theorem claims_add_up_nested :
    ∃ w : World, w.events = [⟨1, 12, 2, 3 * 10 ^ 14⟩, ⟨5, 30, 1, 10 ^ 14⟩] ∧
      w.whone.totalSupply = 42 ∧ w.sent = 4 * 10 ^ 14 := by
  have hrun : ∃ w, Runs everSeven 1 (· = 7) deployed w ∧
      w.events = [⟨1, 12, 2, 3 * 10 ^ 14⟩, ⟨5, 30, 1, 10 ^ 14⟩] :=
    ⟨_, .claim outer (.done _) rfl (by decide) rfl
      (.claim inner (.done _) rfl (by decide) rfl (.done _) rfl (.done _) rfl) rfl (.done _) rfl,
      rfl⟩
  obtain ⟨w, hrun, hevents⟩ := hrun
  have h := @claims_add_up Unit everSeven 1 (· = 7) 1 7 deployed.whone w rfl rfl hrun
  rw [hevents] at h
  refine ⟨w, hevents, h.1, ?_⟩
  rw [h.2.2.2.2.2.1, h.2.2.2.2.1]
  rfl

end AddUp

end HoneNode.Whone
