import HoneNode.Json
import HoneNode.Lib.Text
import Mathlib.Data.Finset.Basic
import Mathlib.Data.Int.DivMod

/-!
# Market.State — the state of the market and its entries

The market service holds its stores, products, orders and offers in memory and
changes them by ledger entries only (`state.rs`). An entry is a JSON value; an
arm reads the fields it knows and takes a default for the others. No arm checks
whether the entry is admissible.
-/

namespace HoneNode.Market

/-! ## Records -/

structure ShippingAccount where
  (carrier accountIdMasked defaultService : String)
  linkedAt : ℕ

inductive StoreStatus where
  | active
  | closed
deriving DecidableEq

structure Store where
  (seller name : String)
  (bannerCid descriptionCid : Option String)
  categories : List String
  (capacity usedCapacity : ℕ)
  stakeAmount : F64
  status : StoreStatus
  openedAt : ℕ
  score : F64
  shippingAccounts : List ShippingAccount
  torEnabled : Bool
  onionAddress : Option String

structure ProductQA where
  (qaId asker question : String)
  answer : Option String
  askedEpoch : ℕ
  answeredEpoch : Option ℕ

inductive ProductStatus where
  | active
  | delisted
deriving DecidableEq

structure Product where
  (productId seller title : String)
  description : Option String
  price : F64
  token : String
  imageCid : Option String
  inventory : Option ℕ
  categories : List String
  status : ProductStatus
  createdEpoch : ℕ
  autoDeliver : Bool
  deliveryCid : Option String
  salePrice : Option F64
  saleEndsEpoch : Option ℕ
  questions : List ProductQA
  (minPrice suggestedPrice : Option F64)
  tipEnabled : Bool
  (condition conditionNotes : Option String)
  expectedDeliveryEpoch : Option ℕ
  specs : Option Json
  imageCids : List String
  bumpedUntilEpoch : Option ℕ

/-- The sweep also looks for `placed`, which no entry sets. -/
inductive OrderStatus where
  | pending
  | placed
  | fulfilled
  | delivered
  | cancelled
  | disputed
deriving DecidableEq

structure Order where
  (orderId buyer seller productId : String)
  quantity : ℕ
  (unitPrice total : F64)
  token : String
  escrowId : Option String
  escrowLocked : Bool
  escrowAmount : F64
  status : OrderStatus
  fulfillmentCid : Option String
  (placedEpoch fulfillDeadlineEpoch : ℕ)
  (shippingAddress carrier trackingNumber shippingService shippingNote : Option String)
  tipAmount : Option F64
  licenseKey : Option String
  fulfilledEpoch : Option ℕ

inductive OfferStatus where
  | pending
  | countered
  | accepted
  | rejected
deriving DecidableEq

structure Offer where
  (offerId productId buyer seller : String)
  amount : F64
  counterAmount : Option F64
  (message counterMessage : Option String)
  status : OfferStatus
  (createdEpoch expiresEpoch : ℕ)
  orderId : Option String

/-- `reputation` has the weighted sum and the weight of a target. -/
structure MarketState where
  stores : Kv String Store
  products : Kv String Product
  orders : Kv String Order
  reputation : Kv String (ℤ × ℤ)
  offers : Kv String Offer
  wishlists : Kv String (Finset String)
  storeFollowers : Kv String (Finset String)
  reputationReplies : Kv String String
  memoKeys : Kv String String

/-- `MarketState::default`. -/
def MarketState.fresh : MarketState := ⟨∅, ∅, ∅, ∅, ∅, ∅, ∅, ∅, ∅⟩

/-! ## Numbers -/

def maxU32 : ℕ := 2 ^ 32 - 1

/-- `as u32`. -/
def asU32 (n : ℕ) : ℕ := n % 2 ^ 32

/-- `i64` arithmetic of a release build. -/
def wrapI64 (n : ℤ) : ℤ := n.bmod (2 ^ 64)

def zeroF64 : F64 := 0

/-- `(sum / count * 5.0).clamp(0.0, 5.0)`. -/
def scoreOf (sum count : ℤ) : F64 :=
  let x := sum.toInt64.toFloat / count.toInt64.toFloat * 5.0
  (if x < 0.0 then 0.0 else if 5.0 < x then 5.0 else x).toBits

/-! ## Fields -/

/-- A text, empty where it is missing. -/
def s (e : Json) (key : String) : String := (e.index key).asStr.getD ""

def arrStrings (v : Json) : List String := (v.asArray.getD []).filterMap Json.asStr

/-- An account id with only its last four bytes shown; the slice may panic. -/
def masked (accountId : String) : Option String :=
  let bytes := accountId.utf8ByteSize
  if bytes ≤ 4 then some (String.ofList (List.replicate bytes '*'))
  else if Text.isBoundary accountId (bytes - 4) then
    some ("****" ++ String.ofList
      (accountId.toList.drop (Text.takeBytes accountId (bytes - 4)).toList.length))
  else none

/-- `get_mut`: the record of a key is changed, where there is one. -/
def modify {ν : Type} (m : Kv String ν) (key : String) (f : ν → ν) : Kv String ν :=
  match m.get key with
  | some v => m.put key (f v)
  | none => m

namespace MarketState

/-! ## Stores -/

def applyStoreOpen (m : MarketState) (e : Json) : MarketState :=
  let seller := s e "from"
  let sd := e.index "store_data"
  let store : Store := {
    seller := seller
    name := (sd.index "name").asStr.getD seller
    bannerCid := (sd.index "banner_cid").asStr
    descriptionCid := (sd.index "description_cid").asStr
    categories := arrStrings (sd.index "categories")
    capacity := asU32 ((sd.index "capacity").asU64.getD 0)
    usedCapacity := 0
    stakeAmount := (sd.index "stake_amount").asF64.getD zeroF64
    status := .active
    openedAt := (e.index "timestamp").asU64.getD 0
    score := zeroF64
    shippingAccounts := []
    torEnabled := false
    onionAddress := none }
  { m with stores := m.stores.put seller store }

def applyStoreUpdate (m : MarketState) (e : Json) : MarketState :=
  let sd := e.index "store_data"
  let update (store : Store) : Store :=
    let onion := (sd.index "onion_address").asStr
    { store with
      name := (sd.index "name").asStr.getD store.name
      bannerCid := (sd.index "banner_cid").asStr.or store.bannerCid
      descriptionCid := (sd.index "description_cid").asStr.or store.descriptionCid
      categories := if (sd.index "categories").asArray.isSome then arrStrings (sd.index "categories")
        else store.categories
      onionAddress := onion.or store.onionAddress
      torEnabled := if (sd.index "tor_enabled").asBool = some false then false
        else onion.isSome || store.torEnabled }
  { m with stores := modify m.stores (s e "from") update }

def applyStoreClose (m : MarketState) (e : Json) : MarketState :=
  { m with stores := modify m.stores (s e "from") fun store => { store with status := .closed } }

def applyShippingLink (m : MarketState) (e : Json) : Option MarketState :=
  let sd := e.index "store_data"
  let carrier := s sd "carrier"
  let accountId := s sd "account_id"
  if carrier = "" ∨ accountId = "" then some m
  else (masked accountId).map fun mask =>
    let account : ShippingAccount := {
      carrier := carrier
      accountIdMasked := mask
      defaultService := (sd.index "default_service").asStr.getD "ground"
      linkedAt := (e.index "timestamp").asU64.getD 0 }
    let link (store : Store) : Store :=
      let accounts := store.shippingAccounts
      -- the first account of the carrier is changed, else one is added
      match accounts.findIdx? (·.carrier = carrier) with
      | some i => { store with shippingAccounts := accounts.set i account }
      | none => { store with shippingAccounts := accounts ++ [account] }
    { m with stores := modify m.stores (s e "from") link }

def applyShippingUnlink (m : MarketState) (e : Json) : MarketState :=
  let carrier := s (e.index "store_data") "carrier"
  let unlink (store : Store) : Store :=
    { store with shippingAccounts := store.shippingAccounts.filter (·.carrier ≠ carrier) }
  { m with stores := modify m.stores (s e "from") unlink }

/-! ## Products -/

def applyProductCreate (m : MarketState) (e : Json) : MarketState :=
  let seller := s e "from"
  let pd := e.index "product_data"
  let productId := s pd "product_id"
  let product : Product := {
    productId := productId
    seller := seller
    title := s pd "title"
    description := (pd.index "description").asStr
    price := (pd.index "price").asF64.getD zeroF64
    token := (pd.index "token").asStr.getD "HONE"
    imageCid := (pd.index "image_cid").asStr
    inventory := (pd.index "inventory").asU64.map asU32
    categories := arrStrings (pd.index "categories")
    status := .active
    createdEpoch := (e.index "epoch").asU64.getD 0
    autoDeliver := (pd.index "auto_deliver").asBool.getD false
    deliveryCid := (pd.index "delivery_cid").asStr
    salePrice := (pd.index "sale_price").asF64
    saleEndsEpoch := (pd.index "sale_ends_epoch").asU64
    questions := []
    minPrice := (pd.index "min_price").asF64
    suggestedPrice := (pd.index "suggested_price").asF64
    tipEnabled := (pd.index "tip_enabled").asBool.getD false
    condition := (pd.index "condition").asStr
    conditionNotes := (pd.index "condition_notes").asStr
    expectedDeliveryEpoch := (pd.index "expected_delivery_epoch").asU64
    specs := if (pd.index "specs").isNull then none else some (pd.index "specs")
    imageCids := arrStrings (pd.index "image_cids")
    bumpedUntilEpoch := (pd.index "bumped_until_epoch").asU64 }
  if productId = "" then m
  else { m with
    stores := modify m.stores seller fun store =>
      { store with usedCapacity := min (store.usedCapacity + 1) maxU32 }
    products := m.products.put productId product }

def applyProductUpdate (m : MarketState) (e : Json) : MarketState :=
  let pd := e.index "product_data"
  let update (product : Product) : Product :=
    { product with
      title := (pd.index "title").asStr.getD product.title
      description := (pd.index "description").asStr.or product.description
      price := (pd.index "price").asF64.getD product.price
      imageCid := (pd.index "image_cid").asStr.or product.imageCid
      inventory := match (pd.index "inventory").asI64 with
        | some inv => if inv < 0 then none else some (asU32 inv.toNat)
        | none => product.inventory
      autoDeliver := (pd.index "auto_deliver").asBool.getD product.autoDeliver
      deliveryCid := (pd.index "delivery_cid").asStr.or product.deliveryCid
      salePrice := (pd.index "sale_price").asF64.or product.salePrice
      saleEndsEpoch := (pd.index "sale_ends_epoch").asU64.or product.saleEndsEpoch
      minPrice := (pd.index "min_price").asF64.or product.minPrice
      suggestedPrice := (pd.index "suggested_price").asF64.or product.suggestedPrice
      tipEnabled := (pd.index "tip_enabled").asBool.getD product.tipEnabled
      condition := (pd.index "condition").asStr.or product.condition
      conditionNotes := (pd.index "condition_notes").asStr.or product.conditionNotes
      expectedDeliveryEpoch :=
        (pd.index "expected_delivery_epoch").asU64.or product.expectedDeliveryEpoch
      specs := if (pd.index "specs").isNull then product.specs else some (pd.index "specs")
      imageCids := if (pd.index "image_cids").asArray.isSome then arrStrings (pd.index "image_cids")
        else product.imageCids
      bumpedUntilEpoch := (pd.index "bumped_until_epoch").asU64.or product.bumpedUntilEpoch }
  { m with products := modify m.products (s pd "product_id") update }

/-- The seller's store gives the slot back, whatever the status of the product was. -/
def applyProductDelist (m : MarketState) (e : Json) : MarketState :=
  let productId := s (e.index "product_data") "product_id"
  match m.products.get productId with
  | none => m
  | some product => { m with
    products := m.products.put productId { product with status := .delisted }
    stores := modify m.stores product.seller fun store =>
      { store with usedCapacity := store.usedCapacity - 1 } }

def applyProductBump (m : MarketState) (e : Json) : MarketState :=
  let pd := e.index "product_data"
  { m with products := modify m.products (s pd "product_id") fun product =>
    { product with
      bumpedUntilEpoch := (pd.index "bumped_until_epoch").asU64.or product.bumpedUntilEpoch } }

def applyQaAsk (m : MarketState) (e : Json) : MarketState :=
  let pd := e.index "product_data"
  let productId := s pd "product_id"
  let qa : ProductQA := {
    qaId := s pd "qa_id"
    asker := s e "from"
    question := s pd "question"
    answer := none
    askedEpoch := (e.index "epoch").asU64.getD 0
    answeredEpoch := none }
  if productId = "" ∨ qa.qaId = "" then m
  else { m with products := modify m.products productId fun product =>
    { product with questions := product.questions ++ [qa] } }

def applyQaAnswer (m : MarketState) (e : Json) : MarketState :=
  let pd := e.index "product_data"
  let qaId := s pd "qa_id"
  let answer (qa : ProductQA) : ProductQA :=
    { qa with
      answer := (pd.index "answer").asStr
      answeredEpoch := some ((e.index "epoch").asU64.getD 0) }
  let answered (product : Product) : Product :=
    match product.questions.findIdx? (·.qaId = qaId) with
    | some i => { product with questions := product.questions.modify i answer }
    | none => product
  { m with products := modify m.products (s pd "product_id") answered }

/-! ## Orders -/

/-- The inventory is lowered as far as it goes. -/
def applyOrderPlace (m : MarketState) (e : Json) : MarketState :=
  let od := e.index "order_data"
  let orderId := s od "order_id"
  let quantity := asU32 ((od.index "quantity").asU64.getD 1)
  let placedEpoch := (e.index "epoch").asU64.getD 0
  let order : Order := {
    orderId := orderId
    buyer := s e "from"
    seller := s e "to"
    productId := s od "product_id"
    quantity := quantity
    unitPrice := (od.index "unit_price").asF64.getD zeroF64
    total := (od.index "total").asF64.getD zeroF64
    token := (od.index "token").asStr.getD "HONE"
    escrowId := (od.index "escrow_id").asStr
    escrowLocked := true
    escrowAmount := (od.index "total").asF64.getD zeroF64
    status := .pending
    fulfillmentCid := none
    placedEpoch := placedEpoch
    fulfillDeadlineEpoch := (placedEpoch + 4800) % 2 ^ 64
    shippingAddress := (od.index "shipping_address").asStr
    carrier := none
    trackingNumber := none
    shippingService := none
    shippingNote := none
    tipAmount := (od.index "tip_amount").asF64
    licenseKey := none
    fulfilledEpoch := none }
  let sell (product : Product) : Product :=
    { product with inventory := product.inventory.map (· - quantity) }
  if orderId = "" then m
  else { m with
    products := match (od.index "product_id").asStr with
      | some productId => modify m.products productId sell
      | none => m.products
    orders := m.orders.put orderId order }

/-- The order that an entry names is changed. -/
def changeOrder (m : MarketState) (e : Json) (f : Order → Order) : MarketState :=
  match ((e.index "order_data").index "order_id").asStr with
  | some orderId => { m with orders := modify m.orders orderId f }
  | none => m

def applyOrderFulfill (m : MarketState) (e : Json) : MarketState :=
  let od := e.index "order_data"
  m.changeOrder e fun order =>
    { order with
      status := .fulfilled
      fulfilledEpoch := some ((e.index "epoch").asU64.getD 0)
      fulfillmentCid := (od.index "fulfillment_cid").asStr
      carrier := (od.index "carrier").asStr
      trackingNumber := (od.index "tracking_number").asStr
      shippingService := (od.index "shipping_service").asStr
      shippingNote := (od.index "shipping_note").asStr
      licenseKey := (od.index "license_key").asStr.or order.licenseKey }

def applyOrderDelivered (m : MarketState) (e : Json) : MarketState :=
  m.changeOrder e fun order => { order with status := .delivered, escrowLocked := false }

/-- The quantity goes back to the product, whatever the status of the order was. -/
def applyOrderCancel (m : MarketState) (e : Json) : MarketState :=
  match ((e.index "order_data").index "order_id").asStr with
  | none => m
  | some orderId => match m.orders.get orderId with
    | none => m
    | some order => { m with
      orders := m.orders.put orderId { order with status := .cancelled, escrowLocked := false }
      products := modify m.products order.productId fun product =>
        { product with inventory := product.inventory.map fun inv => asU32 (inv + order.quantity) } }

def applyOrderDispute (m : MarketState) (e : Json) : MarketState :=
  m.changeOrder e fun order => { order with status := .disputed }

/-! ## Offers -/

def applyOfferPlace (m : MarketState) (e : Json) : MarketState :=
  let od := e.index "order_data"
  let offerId := s od "offer_id"
  let productId := s od "product_id"
  let createdEpoch := (e.index "epoch").asU64.getD 0
  let offer : Offer := {
    offerId := offerId
    productId := productId
    buyer := s e "from"
    seller := ((m.products.get productId).map Product.seller).getD ""
    amount := (od.index "amount").asF64.getD zeroF64
    counterAmount := none
    message := (od.index "message").asStr
    counterMessage := none
    status := .pending
    createdEpoch := createdEpoch
    expiresEpoch := (od.index "expires_epoch").asU64.getD ((createdEpoch + 2880) % 2 ^ 64)
    orderId := none }
  if offerId = "" then m else { m with offers := m.offers.put offerId offer }

/-- The offer that an entry names is changed. -/
def changeOffer (m : MarketState) (e : Json) (f : Offer → Offer) : MarketState :=
  match ((e.index "order_data").index "offer_id").asStr with
  | some offerId => { m with offers := modify m.offers offerId f }
  | none => m

def applyOfferCounter (m : MarketState) (e : Json) : MarketState :=
  let od := e.index "order_data"
  m.changeOffer e fun offer =>
    { offer with
      status := .countered
      counterAmount := (od.index "counter_amount").asF64
      counterMessage := (od.index "counter_message").asStr }

def applyOfferAccept (m : MarketState) (e : Json) : MarketState :=
  let orderId := ((e.index "order_data").index "order_id").asStr
  m.changeOffer e fun offer =>
    { offer with status := .accepted, orderId := orderId.or offer.orderId }

def applyOfferReject (m : MarketState) (e : Json) : MarketState :=
  m.changeOffer e fun offer => { offer with status := .rejected }

/-! ## Wishlists, followers, reputation, keys -/

def applyWishlistAdd (m : MarketState) (e : Json) : MarketState :=
  let buyer := s e "from"
  match ((e.index "product_data").index "product_id").asStr with
  | some productId => { m with
    wishlists := m.wishlists.put buyer (insert productId ((m.wishlists.get buyer).getD ∅)) }
  | none => m

def applyWishlistRemove (m : MarketState) (e : Json) : MarketState :=
  match ((e.index "product_data").index "product_id").asStr with
  | some productId => { m with
    wishlists := modify m.wishlists (s e "from") fun set => set.erase productId }
  | none => m

def applyFollowStore (m : MarketState) (e : Json) : MarketState :=
  match ((e.index "store_data").index "seller").asStr with
  | some seller => { m with
    storeFollowers := m.storeFollowers.put seller
      (insert (s e "from") ((m.storeFollowers.get seller).getD ∅)) }
  | none => m

def applyUnfollowStore (m : MarketState) (e : Json) : MarketState :=
  match ((e.index "store_data").index "seller").asStr with
  | some seller => { m with
    storeFollowers := modify m.storeFollowers seller fun set => set.erase (s e "from") }
  | none => m

def applyReputationReply (m : MarketState) (e : Json) : MarketState :=
  let rd := e.index "reputation_data"
  match (rd.index "vote_id").asStr, (rd.index "reply").asStr with
  | some voteId, some reply => { m with
    reputationReplies := m.reputationReplies.put voteId reply }
  | _, _ => m

def applyReputationVote (m : MarketState) (e : Json) : MarketState :=
  let rd := e.index "reputation_data"
  let targetId := s rd "target_id"
  let vote := (rd.index "vote").asI64.getD 0
  let weight := (rd.index "weight").asI64.getD 1
  let old := (m.reputation.get targetId).getD (0, 0)
  let sum := wrapI64 (old.1 + wrapI64 (vote * weight))
  let count := wrapI64 (old.2 + weight)
  if targetId = "" then m
  else { m with
    reputation := m.reputation.put targetId (sum, count)
    stores := if s rd "target_type" = "store" ∧ 0 < count then
        modify m.stores targetId fun store => { store with score := scoreOf sum count }
      else m.stores }

def applyMemoKeyRegister (m : MarketState) (e : Json) : MarketState :=
  match ((e.index "memo_key_data").index "memo_pubkey").asStr with
  | some pubkey =>
    if pubkey = "" then m else { m with memoKeys := m.memoKeys.put (s e "from") pubkey }
  | none => m

/-! ## Entries -/

/-- The only arm that may panic is the one that masks an account id. -/
def applyEntry (m : MarketState) (entry : Json) : Option MarketState :=
  match (entry.index "type").asStr with
  | some "STORE_OPEN" => some (m.applyStoreOpen entry)
  | some "STORE_UPDATE" => some (m.applyStoreUpdate entry)
  | some "STORE_CLOSE" => some (m.applyStoreClose entry)
  | some "PRODUCT_CREATE" => some (m.applyProductCreate entry)
  | some "PRODUCT_UPDATE" => some (m.applyProductUpdate entry)
  | some "PRODUCT_DELIST" => some (m.applyProductDelist entry)
  | some "PRODUCT_BUMP" => some (m.applyProductBump entry)
  | some "ORDER_PLACE" => some (m.applyOrderPlace entry)
  | some "ORDER_FULFILL" => some (m.applyOrderFulfill entry)
  | some "ORDER_DELIVERED" => some (m.applyOrderDelivered entry)
  | some "ORDER_CANCEL" => some (m.applyOrderCancel entry)
  | some "ORDER_DISPUTE" => some (m.applyOrderDispute entry)
  | some "REPUTATION_VOTE" => some (m.applyReputationVote entry)
  | some "REPUTATION_REPLY" => some (m.applyReputationReply entry)
  | some "STORE_SHIPPING_LINK" => m.applyShippingLink entry
  | some "STORE_SHIPPING_UNLINK" => some (m.applyShippingUnlink entry)
  | some "PRODUCT_QA_ASK" => some (m.applyQaAsk entry)
  | some "PRODUCT_QA_ANSWER" => some (m.applyQaAnswer entry)
  | some "OFFER_PLACE" => some (m.applyOfferPlace entry)
  | some "OFFER_COUNTER" => some (m.applyOfferCounter entry)
  | some "OFFER_ACCEPT" => some (m.applyOfferAccept entry)
  | some "OFFER_REJECT" => some (m.applyOfferReject entry)
  | some "WISHLIST_ADD" => some (m.applyWishlistAdd entry)
  | some "WISHLIST_REMOVE" => some (m.applyWishlistRemove entry)
  | some "FOLLOW_STORE" => some (m.applyFollowStore entry)
  | some "UNFOLLOW_STORE" => some (m.applyUnfollowStore entry)
  | some "MEMO_KEY_REGISTER" => some (m.applyMemoKeyRegister entry)
  | _ => some m

end MarketState

end HoneNode.Market
