import HoneNode.Lib.Fifo

/-!
# Exchange.Contract — the hybrid exchange

Depositors queue wHONE for sale, buyers pay in a stablecoin at a price from a
bonding curve or an oracle, and the queue is sold from its front. Arithmetic is
checked: a call that overflows reverts, and a reverted call changes nothing.
-/

namespace HoneNode.Exchange

/-! ## Words -/

def addChecked (a b : ℕ) : Option ℕ := if a + b < 2 ^ 256 then some (a + b) else none

def subChecked (a b : ℕ) : Option ℕ := if b ≤ a then some (a - b) else none

def mulChecked (a b : ℕ) : Option ℕ := if a * b < 2 ^ 256 then some (a * b) else none

def divChecked (a b : ℕ) : Option ℕ := if b = 0 then none else some (a / b)

/-- `10 ** e`. -/
def pow10 (e : ℕ) : Option ℕ := if 10 ^ e < 2 ^ 256 then some (10 ^ e) else none

/-! ## Tokens -/

abbrev Address := Fin (2 ^ 160)

instance neZero_address : NeZero (2 ^ 160) := ⟨by decide⟩

instance lawfulBEq_address : LawfulBEq Address := inferInstance

/-- An amount went from one account to another, which may be the same. -/
def Moved (before after : Address → ℕ) (src dst : Address) (amount : ℕ) : Prop :=
  amount ≤ before src ∧
    let taken := Function.update before src (before src - amount)
    after = Function.update taken dst (taken dst + amount)

/-- A standard token: a transfer reverts or moves exactly the amount. -/
structure Erc20 (T : Type) where
  balanceOf : T → Address → ℕ
  transfer : T → (sender dst : Address) → (amount : ℕ) → Option T
  transferFrom : T → (spender src dst : Address) → (amount : ℕ) → Option T
  moved_transfer : ∀ {t t' : T} {sender dst : Address} {amount : ℕ},
    transfer t sender dst amount = some t' → Moved (balanceOf t) (balanceOf t') sender dst amount
  moved_transferFrom : ∀ {t t' : T} {spender src dst : Address} {amount : ℕ},
    transferFrom t spender src dst amount = some t' →
      Moved (balanceOf t) (balanceOf t') src dst amount

/-! ## The state -/

structure SellerDeposit where
  seller : Address
  amount : ℕ
deriving DecidableEq, Repr

inductive PricingState where
  | bondingCurve | ammAligned
deriving DecidableEq, Repr

/-- The storage of the contract. -/
structure Storage where
  (whone shindevlinWallet owner : Address)
  (shindevlinFeeNumerator shindevlinFeeDenominator : ℕ)
  (initialPrice6Decimals priceIncrement6Decimals : ℕ)
  totalWhoneSoldByContract : ℕ := 0
  whoneQueue : List SellerDeposit := []
  head : ℕ := 0
  currentPricingState : PricingState := .bondingCurve
  stablecoinDecimals : Address → ℕ

/-- The contract and all tokens. -/
structure World (T : Type) where
  ex : Storage
  tokens : Address → T

/-- The constructor; the stablecoins are USDT, USDC and DAI. -/
def construct (sender whone usdt usdc dai wallet : Address)
    (numerator denominator initialPrice priceIncrement : ℕ) (priceFeed : Address) :
    Option Storage := do
  guard (whone ≠ 0)
  guard (wallet ≠ 0)
  guard (0 < denominator)
  guard (priceFeed ≠ 0)
  let assign (token : Address) (decimals : ℕ) (f : Address → ℕ) : Address → ℕ :=
    if token ≠ 0 then Function.update f token decimals else f
  return {
    whone, shindevlinWallet := wallet, owner := sender
    shindevlinFeeNumerator := numerator, shindevlinFeeDenominator := denominator
    initialPrice6Decimals := initialPrice, priceIncrement6Decimals := priceIncrement
    stablecoinDecimals := assign dai 18 (assign usdc 6 (assign usdt 6 fun _ => 0)) }

/-! ## Views -/

def whoneDecimalsFactor : ℕ := 10 ^ 10

section Views

variable (ex : Storage)

def normalizeStablecoinTo6Decimals (stablecoin : Address) (amount : ℕ) : Option ℕ := do
  let decimals := ex.stablecoinDecimals stablecoin
  guard (0 < decimals)
  if decimals = 6 then return amount
  if 6 < decimals then divChecked amount (← pow10 (decimals - 6))
  else mulChecked amount (← pow10 (6 - decimals))

def convert6DecimalsToStablecoinDecimals (stablecoin : Address) (amount6 : ℕ) : Option ℕ := do
  let decimals := ex.stablecoinDecimals stablecoin
  guard (0 < decimals)
  if decimals = 6 then return amount6
  if 6 < decimals then mulChecked amount6 (← pow10 (decimals - 6))
  else divChecked amount6 (← pow10 (6 - decimals))

/-- The price feed answers with a price and its decimals, or reverts. -/
def getWhonePrice6Decimals (feed : Option (ℤ × ℕ)) : Option ℕ :=
  match ex.currentPricingState with
  | .bondingCurve => do
    let sold := ex.totalWhoneSoldByContract / whoneDecimalsFactor
    addChecked ex.initialPrice6Decimals (← mulChecked sold ex.priceIncrement6Decimals)
  | .ammAligned => do
    let (answer, oracleDecimals) ← feed
    guard (0 < answer)
    divChecked answer.toNat (← pow10 (← subChecked oracleDecimals 6))

def availableWhoneInQueue : Option ℕ :=
  (ex.whoneQueue.drop ex.head).foldlM (fun total d => addChecked total d.amount) 0

end Views

/-! ## Calls -/

section Calls

variable {T : Type} (E : Erc20 T) (self : Address)

/-- A call of a token's `transfer` by the contract. -/
def payOut (token dst : Address) (amount : ℕ) (w : World T) : Option (World T) :=
  (E.transfer (w.tokens token) self dst amount).map fun t =>
    { w with tokens := Function.update w.tokens token t }

/-- A call of a token's `transferFrom` to the contract. -/
def payIn (token src : Address) (amount : ℕ) (w : World T) : Option (World T) :=
  (E.transferFrom (w.tokens token) self src self amount).map fun t =>
    { w with tokens := Function.update w.tokens token t }

def depositWhoneForSale (sender : Address) (amount : ℕ) (w : World T) : Option (World T) := do
  guard (0 < amount)
  let w ← payIn E self w.ex.whone sender amount w
  return { w with ex := { w.ex with whoneQueue := w.ex.whoneQueue ++ [⟨sender, amount⟩] } }

/-- What was taken from a deposit, and what it brought. -/
structure Fill where
  index : ℕ
  seller : Address
  (take shareNative feeNative : ℕ)

/-- The loop of a sale. -/
structure Sale (T : Type) where
  world : World T
  whoneRemaining : ℕ
  fills : List Fill := []

/-- What a take is worth, split into the seller's share and the fee. -/
def proceeds (ex : Storage) (stablecoin : Address) (price take : ℕ) : Option (ℕ × ℕ) := do
  let val6 ← divChecked (← mulChecked take price) whoneDecimalsFactor
  let fee6 ← divChecked (← mulChecked val6 ex.shindevlinFeeNumerator) ex.shindevlinFeeDenominator
  let share6 ← subChecked val6 fee6
  let feeNative ← convert6DecimalsToStablecoinDecimals ex stablecoin fee6
  let shareNative ← convert6DecimalsToStablecoinDecimals ex stablecoin share6
  return (shareNative, feeNative)

/-- A deposit that is used up stays in the array behind the head. -/
def fillNext (stablecoin : Address) (price : ℕ) (deposit : SellerDeposit) (s : Sale T) :
    Option (Sale T) := do
  let ex := s.world.ex
  let take := if deposit.amount ≤ s.whoneRemaining then deposit.amount else s.whoneRemaining
  let ex' := if deposit.amount ≤ s.whoneRemaining then { ex with head := ex.head + 1 }
    else { ex with whoneQueue :=
      ex.whoneQueue.set ex.head { deposit with amount := deposit.amount - take } }
  let (shareNative, feeNative) ← proceeds ex stablecoin price take
  let w ← payOut E self stablecoin deposit.seller shareNative { s.world with ex := ex' }
  let w ← payOut E self stablecoin ex.shindevlinWallet feeNative w
  return {
    world := w, whoneRemaining := s.whoneRemaining - take
    fills := s.fills ++ [⟨ex.head, deposit.seller, take, shareNative, feeNative⟩] }

/-- `while (whoneRemaining > 0 && head < whoneQueue.length)`. -/
def fillWhile (stablecoin : Address) (price : ℕ) : ℕ → Sale T → Option (Sale T)
  | 0, s => some s
  | rounds + 1, s =>
    if 0 < s.whoneRemaining then
      match s.world.ex.whoneQueue[s.world.ex.head]? with
      | none => some s
      | some deposit => do
        let s' ← fillNext E self stablecoin price deposit s
        fillWhile stablecoin price rounds s'
    else some s

/-- A purchase, with its price and what it took. -/
structure Bought (T : Type) where
  world : World T
  (price whoneAmountToBuyer : ℕ)
  fills : List Fill

def buyWhoneWithStablecoin (sender stablecoin : Address) (stablecoinAmount minWhoneAmount : ℕ)
    (feed : Option (ℤ × ℕ)) (w : World T) : Option (Bought T) := do
  guard (0 < stablecoinAmount)
  guard (w.ex.head < w.ex.whoneQueue.length)
  guard (0 < w.ex.stablecoinDecimals stablecoin)
  let w ← payIn E self stablecoin sender stablecoinAmount w
  let stablecoinAmount6 ← normalizeStablecoinTo6Decimals w.ex stablecoin stablecoinAmount
  let price ← getWhonePrice6Decimals w.ex feed
  guard (0 < price)
  let whoneAmountToBuyer ←
    divChecked (← mulChecked stablecoinAmount6 whoneDecimalsFactor) price
  guard (minWhoneAmount ≤ whoneAmountToBuyer)
  guard (whoneAmountToBuyer ≤ (← availableWhoneInQueue w.ex))
  let sale ← fillWhile E self stablecoin price (w.ex.whoneQueue.length - w.ex.head)
    { world := w, whoneRemaining := whoneAmountToBuyer }
  let w ← payOut E self w.ex.whone sender whoneAmountToBuyer sale.world
  let sold ← addChecked w.ex.totalWhoneSoldByContract whoneAmountToBuyer
  return {
    world := { w with ex := { w.ex with totalWhoneSoldByContract := sold } }
    price, whoneAmountToBuyer, fills := sale.fills }

/-- `while (head < whoneQueue.length && whoneQueue[head].amount == 0) head++`. -/
def skipEmpty (queue : List SellerDeposit) : ℕ → ℕ → ℕ
  | 0, head => head
  | rounds + 1, head => match queue[head]? with
    | none => head
    | some d => if d.amount = 0 then skipEmpty queue rounds (head + 1) else head

def withdrawOwnWhone (sender : Address) (index amount : ℕ) (w : World T) : Option (World T) := do
  let ex := w.ex
  guard (ex.head ≤ index ∧ index < ex.whoneQueue.length)
  let deposit ← ex.whoneQueue[index]?
  guard (deposit.seller = sender)
  guard (0 < amount ∧ amount ≤ deposit.amount)
  let queue := ex.whoneQueue.set index { deposit with amount := deposit.amount - amount }
  let w ← payOut E self ex.whone sender amount { w with ex := { ex with whoneQueue := queue } }
  if deposit.amount - amount = 0 ∧ index = ex.head then
    return { w with ex := { w.ex with head := skipEmpty queue (queue.length - ex.head) ex.head } }
  return w

end Calls

/-! ## The owner -/

section Owner

variable (sender : Address) (ex : Storage)

def transitionToAmmAligned : Option Storage := do
  guard (sender = ex.owner)
  guard (ex.currentPricingState = .bondingCurve)
  return { ex with currentPricingState := .ammAligned }

def setBondingCurveParameters (initialPrice priceIncrement : ℕ) : Option Storage := do
  guard (sender = ex.owner)
  guard (ex.currentPricingState = .bondingCurve)
  return { ex with
    initialPrice6Decimals := initialPrice, priceIncrement6Decimals := priceIncrement }

def setFeeParameters (numerator denominator : ℕ) : Option Storage := do
  guard (sender = ex.owner)
  guard (0 < denominator)
  return { ex with
    shindevlinFeeNumerator := numerator, shindevlinFeeDenominator := denominator }

def addOrUpdateStablecoin (token : Address) (decimals : ℕ) : Option Storage := do
  guard (sender = ex.owner)
  guard (token ≠ 0)
  return { ex with stablecoinDecimals := Function.update ex.stablecoinDecimals token decimals }

def removeStablecoin (token : Address) : Option Storage := do
  guard (sender = ex.owner)
  return { ex with stablecoinDecimals := Function.update ex.stablecoinDecimals token 0 }

end Owner

end HoneNode.Exchange
