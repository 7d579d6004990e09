import HoneNode.Exchange.Solvency

/-!
# Solidity.TokenSale — wHONE out of a pool, at a price

`wHONESale` and `wHONEBondingCurve` sell from a pool of wHONE for stablecoins that go
to the treasury. They differ in how they find the price: the one has it from its owner,
for the other it rises with what was sold. The rest is one contract.

1. **The contract**, over how it is priced.
2. **One call**: what a purchase pays and takes (`bought_of_buy`).
3. **Runs**: where the pool went (`pool_accounted`), and why nobody gains by buying in
   parts (`parts_buy_no_more`).
-/

namespace HoneNode.TokenSale

open Option (bind_eq_some_iff map_eq_some_iff getD_some)
open Exchange Trace

/-! ## Prices -/

/-- How a sale is priced: from what its owner sets and what was sold. More sold is no lower
price. -/
structure Pricing (π : Type) where
  currentPrice : π → (totalSold : ℕ) → Option ℕ
  /-- What the constructor and the setter ask for. -/
  valid : π → Bool
  mono : ∀ {ρ : π} {a b p q : ℕ}, a ≤ b → currentPrice ρ a = some p → currentPrice ρ b = some q →
    p ≤ q

/-- `pricePerToken` of `wHONESale`. -/
def wHONESale : Pricing ℕ where
  currentPrice pricePerToken _ := some pricePerToken
  valid newPrice := 0 < newPrice
  mono _ hp hq := (Option.some.inj (hp.symm.trans hq)).le

structure CurveParameters where
  (basePrice priceIncrement : ℕ)

/-- `basePrice + tokensSoldWhole * priceIncrement` of `wHONEBondingCurve`. -/
def wHONEBondingCurve : Pricing CurveParameters where
  currentPrice c totalSold := do
    let tokensSoldWhole := totalSold / 10 ^ 10
    addChecked c.basePrice (← mulChecked tokensSoldWhole c.priceIncrement)
  valid _ := true
  mono {c a b p q} hab hp hq := by
    obtain ⟨x, hx, hp⟩ := bind_eq_some_iff.1 hp
    obtain ⟨y, hy, hq⟩ := bind_eq_some_iff.1 hq
    have hxy : x ≤ y := by
      rw [mulChecked_eq hx, mulChecked_eq hy]
      exact Nat.mul_le_mul_right _ (Nat.div_le_div_right hab)
    unfold addChecked at hp hq
    split at hp
    · split at hq
      · cases hp
        cases hq
        exact Nat.add_le_add_left hxy _
      · cases hq
    · cases hp

/-! ## The contract -/

structure Storage (π : Type) where
  (whone treasury owner : Address)
  pricing : π
  acceptedStablecoins : Address → Bool := fun _ => false
  stablecoinDecimals : Address → ℕ := fun _ => 0
  saleActive : Bool := true
  totalSold : ℕ := 0

/-- The contract and all tokens. -/
structure World (π T : Type) where
  sale : Storage π
  tokens : Address → T

/-- Into six decimals. -/
def normalizeStablecoin (decimals amount : ℕ) : Option ℕ :=
  if 6 < decimals then do divChecked amount (← pow10 (decimals - 6))
  else if decimals < 6 then do mulChecked amount (← pow10 (6 - decimals))
  else some amount

section Contract

variable {π T : Type} (P : Pricing π) (E : Erc20 T) (self : Address)

def construct (sender whone treasury : Address) (pricing : π) : Option (Storage π) := do
  guard (whone ≠ 0)
  guard (treasury ≠ 0)
  guard (P.valid pricing)
  return { whone, treasury, owner := sender, pricing }

def available (w : World π T) : ℕ := E.balanceOf (w.tokens w.sale.whone) self

/-- What an amount of a stablecoin buys. -/
def whoneFor (sale : Storage π) (stablecoin : Address) (stablecoinAmount : ℕ) : Option ℕ := do
  let normalized ← normalizeStablecoin (sale.stablecoinDecimals stablecoin) stablecoinAmount
  let price ← P.currentPrice sale.pricing sale.totalSold
  divChecked (← mulChecked normalized (10 ^ 10)) price

def setToken (token : Address) (t : T) (w : World π T) : World π T :=
  { w with tokens := Function.update w.tokens token t }

def buy (sender stablecoin : Address) (stablecoinAmount : ℕ) (w : World π T) :
    Option (World π T) := do
  guard w.sale.saleActive
  guard (w.sale.acceptedStablecoins stablecoin)
  guard (0 < stablecoinAmount)
  let whoneAmount ← whoneFor P w.sale stablecoin stablecoinAmount
  guard (0 < whoneAmount)
  guard (whoneAmount ≤ available E self w)
  let t ← E.transferFrom (w.tokens stablecoin) self sender w.sale.treasury stablecoinAmount
  let w := setToken stablecoin t w
  let t ← E.transfer (w.tokens w.sale.whone) self sender whoneAmount
  let w := setToken w.sale.whone t w
  let totalSold ← addChecked w.sale.totalSold whoneAmount
  return { w with sale := { w.sale with totalSold } }

def deposit (sender : Address) (amount : ℕ) (w : World π T) : Option (World π T) := do
  let t ← E.transferFrom (w.tokens w.sale.whone) self sender self amount
  return setToken w.sale.whone t w

/-- The check of the pool is that of `wHONESale`; without it the transfer reverts. -/
def withdraw (sender : Address) (amount : ℕ) (w : World π T) : Option (World π T) := do
  guard (sender = w.sale.owner)
  guard (amount ≤ available E self w)
  let t ← E.transfer (w.tokens w.sale.whone) self w.sale.treasury amount
  return setToken w.sale.whone t w

end Contract

/-- A call from outside. -/
inductive Call (π : Type) where
  | buy (sender stablecoin : Address) (stablecoinAmount : ℕ)
  | deposit (sender : Address) (amount : ℕ)
  | withdraw (sender : Address) (amount : ℕ)
  | setPrice (sender : Address) (pricing : π)
  | addStablecoin (sender token : Address) (decimals : ℕ)
  | removeStablecoin (sender token : Address)
  | toggleSale (sender : Address) (active : Bool)
  | setTreasury (sender newTreasury : Address)

section Calls

variable {π T : Type} (P : Pricing π) (E : Erc20 T) (self : Address)

/-- What the owner does to the storage. -/
def ownerCall (sale : Storage π) : Call π → Option (Storage π)
  | .setPrice sender pricing => do
    guard (sender = sale.owner)
    guard (P.valid pricing)
    return { sale with pricing }
  | .addStablecoin sender token decimals => do
    guard (sender = sale.owner)
    return { sale with
      acceptedStablecoins := Function.update sale.acceptedStablecoins token true
      stablecoinDecimals := Function.update sale.stablecoinDecimals token decimals }
  | .removeStablecoin sender token => do
    guard (sender = sale.owner)
    return { sale with
      acceptedStablecoins := Function.update sale.acceptedStablecoins token false }
  | .toggleSale sender active => do
    guard (sender = sale.owner)
    return { sale with saleActive := active }
  | .setTreasury sender newTreasury => do
    guard (sender = sale.owner)
    guard (newTreasury ≠ 0)
    return { sale with treasury := newTreasury }
  | _ => none

/-- What a call leaves; none if it reverts. -/
def run (w : World π T) : Call π → Option (World π T)
  | .buy sender stablecoin amount => buy P E self sender stablecoin amount w
  | .deposit sender amount => deposit E self sender amount w
  | .withdraw sender amount => withdraw E self sender amount w
  | call => (ownerCall P w.sale call).map fun sale => { w with sale }

/-- The contract from a state on. Between its calls nobody takes wHONE out of the pool, and what
comes in besides deposits is a gift. -/
def contract (w₀ : World π T) : Component (World π T) (Call π) where
  init w := w = w₀
  step w call := (run P E self w call).getD w
  other w w' := w'.sale = w.sale ∧ available E self w ≤ available E self w'

end Calls

/-! ## What goes in and out -/

section Flows

variable {π T : Type} (P : Pricing π) (E : Erc20 T) (self : Address)

def Call.sender : Call π → Address
  | .buy sender _ _ | .deposit sender _ | .withdraw sender _ | .setPrice sender _
  | .addStablecoin sender _ _ | .removeStablecoin sender _ | .toggleSale sender _
  | .setTreasury sender _ => sender

/-- The caller and the treasury are not the contract. -/
def Outside (w : World π T) (call : Call π) : Prop := w.sale.treasury ≠ self ∧ call.sender ≠ self

def accepted (c : World π T × Call π) : Bool := (run P E self c.1 c.2).isSome

/-- The wHONE that a call sold. -/
def sold (c : World π T × Call π) : ℕ :=
  ((run P E self c.1 c.2).getD c.1).sale.totalSold - c.1.sale.totalSold

def deposited (c : World π T × Call π) : ℕ := match c.2 with
  | .deposit _ amount => if accepted P E self c then amount else 0
  | _ => 0

def withdrawn (c : World π T × Call π) : ℕ := match c.2 with
  | .withdraw _ amount => if accepted P E self c then amount else 0
  | _ => 0

/-- The stablecoin that a purchase paid. -/
def paid (c : World π T × Call π) : ℕ := match c.2 with
  | .buy _ _ amount => if accepted P E self c then amount else 0
  | _ => 0

/-- What a purchase took for its payment. -/
def bought (c : World π T × Call π) : ℕ := match c.2 with
  | .buy _ stablecoin amount =>
    if accepted P E self c then (whoneFor P c.1.sale stablecoin amount).getD 0 else 0
  | _ => 0

/-- That is what the payment buys at the price in force, rounded down. -/
def Priced (c : World π T × Call π) : Prop :=
  ∀ sender stablecoin amount, c.2 = .buy sender stablecoin amount → accepted P E self c = true →
    ∃ normalized price,
      normalizeStablecoin (c.1.sale.stablecoinDecimals stablecoin) amount = some normalized ∧
      P.currentPrice c.1.sale.pricing c.1.sale.totalSold = some price ∧
      bought P E self c * price ≤ normalized * 10 ^ 10 ∧
      normalized * 10 ^ 10 < (bought P E self c + 1) * price

/-- An amount of a token that goes from one account to another. -/
structure Transfer where
  (token src dst : Address) (amount : ℕ)

/-- What a call moves: a purchase pays the treasury and brings the buyer wHONE. -/
def transfers (c : World π T × Call π) : List Transfer :=
  if accepted P E self c then match c.2 with
    | .buy sender stablecoin amount =>
      [⟨stablecoin, sender, c.1.sale.treasury, amount⟩,
        ⟨c.1.sale.whone, self, sender, bought P E self c⟩]
    | .deposit sender amount => [⟨c.1.sale.whone, sender, self, amount⟩]
    | .withdraw _ amount => [⟨c.1.sale.whone, self, c.1.sale.treasury, amount⟩]
    | _ => []
  else []

def sent (token account : Address) (l : List Transfer) : ℕ :=
  (l.map fun m => if token = m.token ∧ account = m.src then m.amount else 0).sum

def received (token account : Address) (l : List Transfer) : ℕ :=
  (l.map fun m => if token = m.token ∧ account = m.dst then m.amount else 0).sum

/-- The world after a call. -/
def after (c : World π T × Call π) : World π T := (run P E self c.1 c.2).getD c.1

/-- In every token every account has more what it received, less what it sent, and no more and
no less. -/
def Booked (c : World π T × Call π) : Prop :=
  ∀ token account,
    E.balanceOf ((after P E self c).tokens token) account +
        sent token account (transfers P E self c) =
      E.balanceOf (c.1.tokens token) account + received token account (transfers P E self c)

/-- What came into the pool between the calls of a run, to now. -/
def gifts (w₀ : World π T) : List (World π T × Call π) → World π T → ℕ
  | [], w => available E self w - available E self w₀
  | c :: hist, w => available E self w - available E self (after P E self c) + gifts w₀ hist c.1

end Flows

/-! ## One call -/

section Step

variable {π T : Type} {P : Pricing π} {E : Erc20 T} {self : Address} {w w' : World π T}
  {sender stablecoin src dst : Address} {amount : ℕ}

/-- One account of one token, after an amount of some token has moved. -/
theorem balance_setToken {token : Address} {t : T}
    (h : Moved (E.balanceOf (w.tokens token)) (E.balanceOf t) src dst amount)
    (other account : Address) :
    E.balanceOf ((setToken token t w).tokens other) account +
        (if other = token ∧ account = src then amount else 0) =
      E.balanceOf (w.tokens other) account +
        if other = token ∧ account = dst then amount else 0 := by
  unfold setToken
  by_cases htoken : other = token
  · subst htoken
    simp only [true_and, Function.update_self]
    exact h.balance account
  · simp only [htoken, false_and, if_false, Function.update_of_ne, ne_eq, not_false_eq_true]

theorem whoneFor_eq {n : ℕ} (h : whoneFor P w.sale stablecoin amount = some n) :
    ∃ normalized price,
      normalizeStablecoin (w.sale.stablecoinDecimals stablecoin) amount = some normalized ∧
      P.currentPrice w.sale.pricing w.sale.totalSold = some price ∧ 0 < price ∧
      n * price ≤ normalized * 10 ^ 10 ∧ normalized * 10 ^ 10 < (n + 1) * price := by
  obtain ⟨normalized, hnormalized, h⟩ := bind_eq_some_iff.1 h
  obtain ⟨price, hprice, h⟩ := bind_eq_some_iff.1 h
  obtain ⟨product, hproduct, h⟩ := bind_eq_some_iff.1 h
  have hpos : 0 < price := by
    refine Nat.pos_of_ne_zero fun hzero => ?_
    unfold divChecked at h
    rw [if_pos hzero] at h
    cases h
  have hn := divChecked_eq h
  rw [mulChecked_eq hproduct] at hn
  refine ⟨normalized, price, hnormalized, hprice, hpos, ?_, ?_⟩
  · rw [hn]
    exact Nat.div_mul_le_self _ _
  · rw [hn, Nat.mul_comm _ price]
    exact Nat.lt_mul_div_succ _ hpos

/-- What a purchase changes. -/
theorem bought_of_buy (h : buy P E self sender stablecoin amount w = some w') :
    ∃ n, whoneFor P w.sale stablecoin amount = some n ∧
      w'.sale = { w.sale with totalSold := w.sale.totalSold + n } ∧
      ∀ token account, E.balanceOf (w'.tokens token) account +
          sent token account [⟨stablecoin, sender, w.sale.treasury, amount⟩,
            ⟨w.sale.whone, self, sender, n⟩] =
        E.balanceOf (w.tokens token) account +
          received token account [⟨stablecoin, sender, w.sale.treasury, amount⟩,
            ⟨w.sale.whone, self, sender, n⟩] := by
  obtain ⟨_, -, h⟩ := bind_eq_some_iff.1 h
  obtain ⟨_, -, h⟩ := bind_eq_some_iff.1 h
  obtain ⟨_, -, h⟩ := bind_eq_some_iff.1 h
  obtain ⟨n, hn, h⟩ := bind_eq_some_iff.1 h
  obtain ⟨_, -, h⟩ := bind_eq_some_iff.1 h
  obtain ⟨_, -, h⟩ := bind_eq_some_iff.1 h
  obtain ⟨t, hpay, h⟩ := bind_eq_some_iff.1 h
  obtain ⟨t', hout, h⟩ := bind_eq_some_iff.1 h
  obtain ⟨total, htotal, h⟩ := bind_eq_some_iff.1 h
  cases h
  refine ⟨n, hn, ?_, fun token account => ?_⟩
  · unfold addChecked at htotal
    split at htotal
    · cases htotal
      rfl
    · cases htotal
  · have hpaid := balance_setToken (E.moved_transferFrom hpay) token account
    have hgiven : _ + (if token = w.sale.whone ∧ account = self then n else 0) =
        E.balanceOf ((setToken stablecoin t w).tokens token) account +
          if token = w.sale.whone ∧ account = sender then n else 0 :=
      balance_setToken (E.moved_transfer hout) token account
    simp only [sent, received, List.map_cons, List.map_nil, List.sum_cons, List.sum_nil]
    dsimp only [setToken] at hpaid hgiven ⊢
    omega

theorem deposited_of_deposit (h : deposit E self sender amount w = some w') :
    w'.sale = w.sale ∧ ∀ token account, E.balanceOf (w'.tokens token) account +
        sent token account [⟨w.sale.whone, sender, self, amount⟩] =
      E.balanceOf (w.tokens token) account +
        received token account [⟨w.sale.whone, sender, self, amount⟩] := by
  obtain ⟨t, hin, h⟩ := bind_eq_some_iff.1 h
  cases h
  exact ⟨rfl, balance_setToken (E.moved_transferFrom hin)⟩

theorem withdrawn_of_withdraw (h : withdraw E self sender amount w = some w') :
    w'.sale = w.sale ∧ ∀ token account, E.balanceOf (w'.tokens token) account +
        sent token account [⟨w.sale.whone, self, w.sale.treasury, amount⟩] =
      E.balanceOf (w.tokens token) account +
        received token account [⟨w.sale.whone, self, w.sale.treasury, amount⟩] := by
  obtain ⟨_, -, h⟩ := bind_eq_some_iff.1 h
  obtain ⟨_, -, h⟩ := bind_eq_some_iff.1 h
  obtain ⟨t, hout, h⟩ := bind_eq_some_iff.1 h
  cases h
  exact ⟨rfl, balance_setToken (E.moved_transfer hout)⟩

/-- The owner moves no token and sells nothing. -/
theorem ownerCall_keeps {sale : Storage π} {call : Call π}
    (h : ownerCall P w.sale call = some sale) :
    sale.whone = w.sale.whone ∧ sale.totalSold = w.sale.totalSold := by
  cases call with
  | buy | deposit | withdraw => cases h
  | setPrice | setTreasury =>
    obtain ⟨_, -, h⟩ := bind_eq_some_iff.1 h
    obtain ⟨_, -, h⟩ := bind_eq_some_iff.1 h
    cases h
    exact ⟨rfl, rfl⟩
  | addStablecoin | removeStablecoin | toggleSale =>
    obtain ⟨_, -, h⟩ := bind_eq_some_iff.1 h
    cases h
    exact ⟨rfl, rfl⟩

variable (call : Call π)

/-- Every call is booked. -/
theorem booked_of_call : Booked P E self (w, call) := by
  intro token account
  unfold after transfers accepted
  dsimp only
  cases hrun : run P E self w call with
  | none => rfl
  | some w' =>
    dsimp only [Option.isSome_some, getD_some]
    rw [if_pos rfl]
    cases call with
    | buy sender stablecoin amount =>
      obtain ⟨n, hn, -, hbalance⟩ := bought_of_buy hrun
      have hbought : bought P E self (w, .buy sender stablecoin amount) = n := by
        unfold bought accepted
        dsimp only
        rw [hrun, hn]
        rfl
      dsimp only
      rw [hbought]
      exact hbalance token account
    | deposit => exact (deposited_of_deposit hrun).2 token account
    | withdraw => exact (withdrawn_of_withdraw hrun).2 token account
    | setPrice | addStablecoin | removeStablecoin | toggleSale | setTreasury =>
      obtain ⟨sale, -, rfl⟩ := map_eq_some_iff.1 hrun
      rfl

/-- The total of sales, and the wHONE that is sold. -/
theorem total_of_call :
    (after P E self (w, call)).sale.totalSold = w.sale.totalSold + bought P E self (w, call) ∧
      (after P E self (w, call)).sale.whone = w.sale.whone := by
  unfold after bought accepted
  dsimp only
  cases hrun : run P E self w call with
  | none => cases call <;> exact ⟨rfl, rfl⟩
  | some w' =>
    cases call with
    | buy sender stablecoin amount =>
      obtain ⟨n, hn, hsale, -⟩ := bought_of_buy hrun
      dsimp only
      rw [getD_some, hsale, hn]
      exact ⟨rfl, rfl⟩
    | deposit =>
      rw [getD_some, (deposited_of_deposit hrun).1]
      exact ⟨rfl, rfl⟩
    | withdraw =>
      rw [getD_some, (withdrawn_of_withdraw hrun).1]
      exact ⟨rfl, rfl⟩
    | setPrice | addStablecoin | removeStablecoin | toggleSale | setTreasury =>
      obtain ⟨sale, hsale, rfl⟩ := map_eq_some_iff.1 hrun
      exact ⟨(ownerCall_keeps hsale).2, (ownerCall_keeps hsale).1⟩

/-- What a call does to the pool. -/
theorem pool_of_call (hout : Outside self w call) :
    available E self (after P E self (w, call)) + bought P E self (w, call) +
        withdrawn P E self (w, call) =
      available E self w + deposited P E self (w, call) := by
  obtain ⟨htreasury, hsender⟩ := hout
  have hbooked : Booked P E self (w, call) := booked_of_call call
  specialize hbooked w.sale.whone self
  unfold available
  rw [(total_of_call call).2]
  unfold transfers at hbooked
  unfold bought withdrawn deposited at *
  cases hok : accepted P E self (w, call) with
  | false =>
    cases call <;> simpa [hok, sent, received] using hbooked
  | true =>
    have hnot := Ne.symm hsender
    cases call <;> simp only [Call.sender] at hnot <;>
      simpa [hok, sent, received, Ne.symm htreasury, hnot] using hbooked

/-- A purchase is priced. -/
theorem priced_of_call : Priced P E self (w, call) := by
  rintro sender stablecoin amount rfl hok
  obtain ⟨w', hrun⟩ := Option.isSome_iff_exists.1 hok
  obtain ⟨n, hn, -⟩ := bought_of_buy hrun
  obtain ⟨normalized, price, hnormalized, hprice, -, hlow, hhigh⟩ := whoneFor_eq hn
  have hbought : bought P E self (w, .buy sender stablecoin amount) = n := by
    unfold bought
    dsimp only
    rw [hok, hn]
    rfl
  rw [hbought]
  exact ⟨normalized, price, hnormalized, hprice, hlow, hhigh⟩

end Step

/-! ## Runs -/

section Runs

variable {π T : Type} {P : Pricing π} {E : Erc20 T} {self : Address} {w₀ w : World π T}
  {hist : List (World π T × Call π)}

/-- The total is what the purchases took, each at the price in force; of the pool, the deposits
and the gifts nothing is missing but that and what the owner withdrew; and every call moves
what it says and nothing else. -/
theorem pool_accounted (hrun : Run (contract P E self w₀) (Outside self) hist w) :
    w.sale.totalSold = w₀.sale.totalSold + (hist.map (bought P E self)).sum ∧
      available E self w + (hist.map (bought P E self)).sum + (hist.map (withdrawn P E self)).sum =
        available E self w₀ + (hist.map (deposited P E self)).sum + gifts P E self w₀ hist w ∧
      ∀ c ∈ hist, Priced P E self c ∧ Booked P E self c := by
  refine ⟨?_, ?_, fun c _ => ⟨priced_of_call c.2, booked_of_call c.2⟩⟩
  · induction hrun with
    | start h =>
      subst h
      exact (Nat.add_zero _).symm
    | @step hist w call hrun hout ih =>
      rw [List.map_cons, List.sum_cons]
      refine ((total_of_call call).1).trans ?_
      rw [ih]
      omega
    | other _ hs ih => rw [hs.1, ih]
  · -- the gifts of the last stretch are what has come in since the last call
    suffices hall : available E self w + (hist.map (bought P E self)).sum +
        (hist.map (withdrawn P E self)).sum = available E self w₀ +
          (hist.map (deposited P E self)).sum + gifts P E self w₀ hist w ∧
        available E self ((hist.head?.map (after P E self)).getD w₀) ≤ available E self w from
      hall.1
    induction hrun with
    | start h =>
      subst h
      exact ⟨by simp [gifts], le_rfl⟩
    | @step hist w call hrun hout ih =>
      have hpool := pool_of_call (P := P) (E := E) call hout
      refine ⟨?_, le_rfl⟩
      simp only [List.map_cons, List.sum_cons, gifts]
      change available E self (after P E self (w, call)) + _ + _ = _ + _ +
        (available E self (after P E self (w, call)) -
          available E self (after P E self (w, call)) + _)
      omega
    | @other hist w w' _ hs ih =>
      obtain ⟨hbooks, hlast⟩ := ih
      refine ⟨?_, hlast.trans hs.2⟩
      have hmore := hs.2
      cases hist with
      | nil =>
        simp only [gifts] at hbooks ⊢
        simp only [List.head?_nil, Option.map_none, Option.getD_none] at hlast
        omega
      | cons c hist =>
        simp only [gifts] at hbooks ⊢
        simp only [List.head?_cons, Option.map_some, getD_some] at hlast
        omega

/-! ### Buying in parts -/

/-- Purchases are for one stablecoin, and neither its decimals nor the owner's price change. -/
def Steady (stablecoin : Address) (_ : World π T) : Call π → Prop
  | .buy _ coin _ => coin = stablecoin
  | .setPrice _ _ => False
  | .addStablecoin _ token _ => token ≠ stablecoin
  | _ => True

/-- Two payments come to no more normalized than their sum. -/
theorem normalize_add {decimals a b n : ℕ} (h : normalizeStablecoin decimals (a + b) = some n) :
    ∃ m k, normalizeStablecoin decimals a = some m ∧ normalizeStablecoin decimals b = some k ∧
      m + k ≤ n := by
  unfold normalizeStablecoin at h ⊢
  by_cases hmany : 6 < decimals
  · rw [if_pos hmany] at h
    rw [if_pos hmany, if_pos hmany]
    obtain ⟨d, hd, h⟩ := bind_eq_some_iff.1 h
    have hpos : d ≠ 0 := by
      rw [pow10_eq hd]
      exact (Nat.pow_pos (by decide)).ne'
    have hn := divChecked_eq h
    refine ⟨a / d, b / d, ?_, ?_, ?_⟩
    · exact bind_eq_some_iff.2 ⟨d, hd, if_neg hpos⟩
    · exact bind_eq_some_iff.2 ⟨d, hd, if_neg hpos⟩
    · rw [hn]
      exact Nat.div_add_div_le_add_div
  · rw [if_neg hmany] at h
    rw [if_neg hmany, if_neg hmany]
    by_cases hfew : decimals < 6
    · rw [if_pos hfew] at h
      rw [if_pos hfew, if_pos hfew]
      obtain ⟨d, hd, h⟩ := bind_eq_some_iff.1 h
      have hn := mulChecked_eq h
      have hfits : (a + b) * d < 2 ^ 256 := by
        by_contra hbig
        unfold mulChecked at h
        rw [if_neg hbig] at h
        cases h
      rw [Nat.add_mul] at hn hfits
      refine ⟨a * d, b * d, ?_, ?_, hn.ge⟩
      · exact bind_eq_some_iff.2 ⟨d, hd, if_pos (by omega)⟩
      · exact bind_eq_some_iff.2 ⟨d, hd, if_pos (by omega)⟩
    · rw [if_neg hfew] at h
      rw [if_neg hfew, if_neg hfew]
      exact ⟨a, b, rfl, rfl, (Option.some.inj h).le⟩

/-- What stays in a steady run, and what its purchases have come to. -/
structure Parts (P : Pricing π) (E : Erc20 T) (pool stablecoin : Address) (price₀ : ℕ)
    (w₀ : World π T) (hist : List (World π T × Call π)) (w : World π T) : Prop where
  pricing : w.sale.pricing = w₀.sale.pricing
  decimals : w.sale.stablecoinDecimals stablecoin = w₀.sale.stablecoinDecimals stablecoin
  total : w₀.sale.totalSold ≤ w.sale.totalSold
  covered : ∀ n, normalizeStablecoin (w₀.sale.stablecoinDecimals stablecoin)
    (hist.map (paid P E pool)).sum = some n →
      (hist.map (sold P E pool)).sum * price₀ ≤ n * 10 ^ 10

/-- A call that is no purchase. -/
theorem Parts.still {stablecoin : Address} {price₀ : ℕ} {call : Call π}
    (h : Parts P E self stablecoin price₀ w₀ hist w) {w' : World π T}
    (hrun : (run P E self w call).getD w = w') (hpaid : paid P E self (w, call) = 0)
    (hpricing : w'.sale.pricing = w.sale.pricing)
    (hdecimals : w'.sale.stablecoinDecimals stablecoin = w.sale.stablecoinDecimals stablecoin)
    (htotal : w'.sale.totalSold = w.sale.totalSold) :
    Parts P E self stablecoin price₀ w₀ ((w, call) :: hist) w' := by
  have hsold : sold P E self (w, call) = 0 := by
    unfold sold
    rw [hrun, htotal]
    exact Nat.sub_self _
  refine ⟨hpricing.trans h.pricing, hdecimals.trans h.decimals, h.total.trans htotal.ge, ?_⟩
  rw [List.map_cons, List.map_cons, List.sum_cons, List.sum_cons, hpaid, hsold, Nat.zero_add,
    Nat.zero_add]
  exact h.covered

/-- A purchase is no cheaper than at the start, and its payment adds to the others. -/
theorem Parts.buy {stablecoin sender : Address} {price₀ amount : ℕ}
    (h : Parts P E self stablecoin price₀ w₀ hist w)
    (hprice : P.currentPrice w₀.sale.pricing w₀.sale.totalSold = some price₀) {w' : World π T}
    (hrun : run P E self w (.buy sender stablecoin amount) = some w') :
    Parts P E self stablecoin price₀ w₀ ((w, .buy sender stablecoin amount) :: hist) w' := by
  obtain ⟨n, hn, hsale, -⟩ := bought_of_buy hrun
  obtain ⟨normalized, price, hnormalized, hcurrent, -, hlow, -⟩ := whoneFor_eq hn
  have hsold : sold P E self (w, .buy sender stablecoin amount) = n := by
    unfold sold
    dsimp only
    rw [hrun, getD_some, hsale]
    exact Nat.add_sub_cancel_left _ _
  have hpaid : paid P E self (w, .buy sender stablecoin amount) = amount := by
    unfold paid accepted
    dsimp only
    rw [hrun]
    rfl
  rw [h.pricing] at hcurrent
  have hge : price₀ ≤ price := P.mono h.total hprice hcurrent
  refine ⟨?_, ?_, ?_, fun m hm => ?_⟩
  · rw [hsale]
    exact h.pricing
  · rw [hsale]
    exact h.decimals
  · rw [hsale]
    exact h.total.trans (Nat.le_add_right _ _)
  · rw [List.map_cons, List.sum_cons, hpaid] at hm
    rw [List.map_cons, List.sum_cons, hsold]
    obtain ⟨k, before, hk, hbefore, hsum⟩ := normalize_add hm
    rw [h.decimals, hk] at hnormalized
    cases hnormalized
    have hold := h.covered before hbefore
    have hnew : n * price₀ ≤ normalized * 10 ^ 10 := (Nat.mul_le_mul_left n hge).trans hlow
    calc (n + (hist.map (sold P E self)).sum) * price₀
        = n * price₀ + (hist.map (sold P E self)).sum * price₀ := Nat.add_mul _ _ _
      _ ≤ normalized * 10 ^ 10 + before * 10 ^ 10 := Nat.add_le_add hnew hold
      _ = (normalized + before) * 10 ^ 10 := (Nat.add_mul _ _ _).symm
      _ ≤ m * 10 ^ 10 := Nat.mul_le_mul_right _ hsum

theorem parts_of_call {stablecoin : Address} {price₀ : ℕ} {call : Call π}
    (h : Parts P E self stablecoin price₀ w₀ hist w) (hsteady : Steady stablecoin w call)
    (hprice : P.currentPrice w₀.sale.pricing w₀.sale.totalSold = some price₀) :
    Parts P E self stablecoin price₀ w₀ ((w, call) :: hist)
      ((run P E self w call).getD w) := by
  cases hrun : run P E self w call with
  | none =>
    have hpaid : paid P E self (w, call) = 0 := by
      unfold paid accepted
      dsimp only
      rw [hrun]
      cases call <;> rfl
    exact h.still (congrArg (·.getD w) hrun) hpaid rfl rfl rfl
  | some w' =>
    have hw' : (run P E self w call).getD w = w' := by
      rw [hrun]
      rfl
    rw [getD_some]
    cases call with
    | buy sender coin amount =>
      cases hsteady
      exact h.buy hprice hrun
    | deposit sender amount =>
      have hsale := (deposited_of_deposit hrun).1
      exact h.still hw' rfl (by rw [hsale]) (by rw [hsale]) (by rw [hsale])
    | withdraw sender amount =>
      have hsale := (withdrawn_of_withdraw hrun).1
      exact h.still hw' rfl (congrArg _ hsale) (by rw [hsale]) (congrArg _ hsale)
    | setPrice => cases hsteady
    | addStablecoin sender token decimals =>
      obtain ⟨sale, hsale, rfl⟩ := map_eq_some_iff.1 hrun
      obtain ⟨_, -, hsale⟩ := bind_eq_some_iff.1 hsale
      cases hsale
      exact h.still hw' rfl rfl (Function.update_of_ne (Ne.symm hsteady) _ _) rfl
    | removeStablecoin | toggleSale =>
      obtain ⟨sale, hsale, rfl⟩ := map_eq_some_iff.1 hrun
      obtain ⟨_, -, hsale⟩ := bind_eq_some_iff.1 hsale
      cases hsale
      exact h.still hw' rfl rfl rfl rfl
    | setTreasury =>
      obtain ⟨sale, hsale, rfl⟩ := map_eq_some_iff.1 hrun
      obtain ⟨_, -, hsale⟩ := bind_eq_some_iff.1 hsale
      obtain ⟨_, -, hsale⟩ := bind_eq_some_iff.1 hsale
      cases hsale
      exact h.still hw' rfl rfl rfl rfl

/-- However many purchases there are, and whoever makes them, together they take no more than one
purchase of all they paid, at the price of the start. -/
theorem parts_buy_no_more {stablecoin : Address} {price₀ normalized : ℕ}
    (hrun : Run (contract P E self w₀) (Steady stablecoin) hist w)
    (hprice : P.currentPrice w₀.sale.pricing w₀.sale.totalSold = some price₀) (hpos : 0 < price₀)
    (hpaid : normalizeStablecoin (w₀.sale.stablecoinDecimals stablecoin)
      (hist.map (paid P E self)).sum = some normalized) :
    (hist.map (sold P E self)).sum ≤ normalized * 10 ^ 10 / price₀ := by
  have hparts : Parts P E self stablecoin price₀ w₀ hist w := by
    clear hpaid
    induction hrun with
    | start h =>
      subst h
      exact ⟨rfl, rfl, le_rfl, fun n _ => by simp⟩
    | step call _ hsteady ih => exact parts_of_call ih hsteady hprice
    | other _ hs ih =>
      obtain ⟨hpricing, hdecimals, htotal, hcovered⟩ := ih
      rw [← hs.1] at hpricing hdecimals htotal
      exact ⟨hpricing, hdecimals, htotal, hcovered⟩
  exact (Nat.le_div_iff_mul_le hpos).2 (hparts.covered normalized hpaid)

end Runs

/-! ### A booth on the curve -/

/-- wHONE at 1 is sold by 9 for USDT at 2, which a buyer at 5 has. -/
def booth : World CurveParameters (Address → ℕ) where
  sale := {
    whone := 1, treasury := 3, owner := 8, pricing := ⟨1, 1⟩
    acceptedStablecoins := fun token => token = 2, stablecoinDecimals := fun _ => 6 }
  tokens token account :=
    if token = 1 ∧ account = 9 then 10 ^ 12 else if token = 2 ∧ account = 5 then 100 else 0

/-- The buyer comes twice, and the second time the price is four times as high. -/
def visits : List (Call CurveParameters) := [.buy 5 2 3, .buy 5 2 3]

theorem pool_accounted_booth :
    let c := contract wHONEBondingCurve plain 9 booth
    let w := c.exec booth visits
    w.sale.totalSold = 37500000000 ∧ available plain 9 w + 37500000000 = 10 ^ 12 ∧
      w.tokens 1 5 = 37500000000 ∧ w.tokens 2 3 = 6 ∧
      ∀ call ∈ c.record booth visits [], Booked wHONEBondingCurve plain 9 call := by
  intro c w
  have hlegal : Legal c (Outside 9) booth visits := by
    refine ⟨⟨?_, ?_⟩, ⟨?_, ?_⟩, trivial⟩ <;> decide +kernel
  obtain ⟨-, hpool, hcalls⟩ := pool_accounted (Run.exec (.start rfl) hlegal)
  have hsums : w.sale.totalSold = 37500000000 ∧ w.tokens 1 5 = 37500000000 ∧ w.tokens 2 3 = 6 ∧
      ((c.record booth visits []).map (bought wHONEBondingCurve plain 9)).sum = 37500000000 ∧
      ((c.record booth visits []).map (withdrawn wHONEBondingCurve plain 9)).sum = 0 ∧
      ((c.record booth visits []).map (deposited wHONEBondingCurve plain 9)).sum = 0 ∧
      gifts wHONEBondingCurve plain 9 booth (c.record booth visits []) w = 0 ∧
      available plain 9 booth = 10 ^ 12 := by decide +kernel
  obtain ⟨htotal, hbuyer, htreasury, hsold, hgone, hin, hgifts, hstart⟩ := hsums
  rw [hsold, hgone, hin, hgifts, hstart] at hpool
  exact ⟨htotal, hpool, hbuyer, htreasury, fun call hcall => (hcalls call hcall).2⟩

theorem parts_buy_no_more_booth :
    let c := contract wHONEBondingCurve plain 9 booth
    ((c.record booth visits []).map (sold wHONEBondingCurve plain 9)).sum ≤ 6 * 10 ^ 10 / 1 := by
  intro c
  have hlegal : Legal c (Steady 2) booth visits := ⟨rfl, rfl, trivial⟩
  exact parts_buy_no_more (Run.exec (.start rfl) hlegal) (by decide) (by decide) (by decide +kernel)

end HoneNode.TokenSale
