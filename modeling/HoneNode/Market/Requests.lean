import HoneNode.Market.State
import HoneNode.Lib.Trace

/-!
# Market.Requests — what the requests check and what they write

A request looks at the state under a read lock, releases it and persists its
entries one after the other (`routes/`); the sweep does the same for the orders
past their deadline. So between the look and the write, and between two writes
of one request, every other request may write.
-/

namespace HoneNode.Market

/-! ## Ledger entries -/

structure LedgerEntry where
  entryType : String
  (from_ to_ : Option String)
  token : String
  amount : F64
  epoch : ℕ
  (signature signedBy memo : Option String)
  timestamp : ℕ
  (storeData productData orderData reputationData memoKeyData : Option Json)

/-- What the clock says when an entry is made. -/
structure Stamp where
  (epoch timestamp : ℕ)

def LedgerEntry.new (entryType sender : String) (stamp : Stamp) : LedgerEntry where
  entryType := entryType
  from_ := some sender
  to_ := none
  token := "HONE"
  amount := zeroF64
  epoch := stamp.epoch
  signature := none
  signedBy := none
  memo := none
  timestamp := stamp.timestamp
  storeData := none
  productData := none
  orderData := none
  reputationData := none
  memoKeyData := none

/-- Numbers that are not finite become null. -/
def finite (x : F64) : Bool := decide (x.toNat / 2 ^ 52 % 2 ^ 11 ≠ 2047)

def jsonF64 (x : F64) : Json := if finite x then .float x else .null

def jsonOpt {α : Type} (f : α → Json) (x : Option α) : Json := x.elim .null f

def jsonNat (n : ℕ) : Json := .num n

/-- `serde_json::to_value`: an empty payload is left out. -/
def LedgerEntry.toValue (e : LedgerEntry) : Json :=
  .obj ([("type", .str e.entryType), ("from", jsonOpt .str e.from_), ("to", jsonOpt .str e.to_),
      ("token", .str e.token), ("amount", jsonF64 e.amount), ("epoch", jsonNat e.epoch),
      ("signature", jsonOpt .str e.signature), ("signed_by", jsonOpt .str e.signedBy),
      ("memo", jsonOpt .str e.memo), ("timestamp", jsonNat e.timestamp)] ++
    [("store_data", e.storeData), ("product_data", e.productData), ("order_data", e.orderData),
      ("reputation_data", e.reputationData), ("memo_key_data", e.memoKeyData)].filterMap
        fun field => field.2.map (field.1, ·))

/-! ## Bodies -/

structure OpenStoreRequest where
  (name bannerCid descriptionCid : Option String)
  categories : Option (List String)
  initialCapacity : Option UInt32
  stakePaidUsd : Option F64

structure CreateProductRequest where
  (slug title : String)
  description : Option String
  price : F64
  (token imageCid : Option String)
  inventory : Option UInt32
  categories : Option (List String)
  autoDeliver : Option Bool
  deliveryCid : Option String
  salePrice : Option F64
  saleEndsEpoch : Option ℕ
  (minPrice suggestedPrice : Option F64)
  tipEnabled : Option Bool
  (condition conditionNotes : Option String)
  expectedDeliveryEpoch : Option ℕ
  specs : Option Json
  imageCids : Option (List String)

structure PlaceOrderRequest where
  productId : String
  quantity : Option UInt32
  (token shippingAddress : Option String)
  tipAmount : Option F64

structure FulfillOrderRequest where
  (fulfillmentCid carrier trackingNumber shippingService shippingNote : Option String)

structure PlaceOfferRequest where
  productId : String
  amount : F64
  message : Option String

structure CounterOfferRequest where
  amount : F64
  message : Option String

/-! ## Writes -/

def buildProductId (seller slug : String) : String := seller ++ "/" ++ slug

/-- An order is placed by its buyer, or by whoever accepts an offer. -/
inductive Origin where
  | direct (shippingAddress : Option String) (tipAmount : Option F64)
  | offer (offerId : String)

/-- The entries that the requests persist, each with what its handler puts into it. -/
inductive Write where
  | storeOpen (seller : String) (stamp : Stamp) (name : String) (capacity : UInt32)
    (stakeAmount stakePaidUsd : F64) (body : OpenStoreRequest)
  | storeClose (seller : String) (stamp : Stamp)
  | productCreate (seller : String) (stamp : Stamp) (body : CreateProductRequest)
  | productDelist (seller : String) (stamp : Stamp) (productId : String)
  | orderPlace (buyer seller : String) (stamp : Stamp) (orderId escrowId productId : String)
    (quantity : UInt32) (unitPrice total : F64) (token : String) (origin : Origin)
  | orderFulfill (seller : String) (stamp : Stamp) (orderId : String) (body : FulfillOrderRequest)
    (licenseKey : Option String)
  | autoFulfill (seller : String) (stamp : Stamp) (orderId cid licenseKey : String)
  | orderDelivered (buyer : String) (stamp : Stamp) (orderId : String)
  | orderCancel (party : String) (stamp : Stamp) (orderId : String) (reason : Option String)
  | orderDispute (buyer : String) (stamp : Stamp) (orderId : String) (memo : Option String)
  | offerPlace (buyer seller : String) (stamp : Stamp) (offerId : String) (body : PlaceOfferRequest)
  | offerCounter (seller : String) (stamp : Stamp) (offerId : String) (body : CounterOfferRequest)
  | offerAccept (username : String) (stamp : Stamp) (offerId orderId : String)
  | offerReject (username : String) (stamp : Stamp) (offerId : String)

def jsonStrings (items : List String) : Json := .arr (items.map .str)

def Origin.fields : Origin → List (String × Json)
  | .direct shippingAddress tipAmount =>
    [("shipping_address", jsonOpt .str shippingAddress), ("tip_amount", jsonOpt jsonF64 tipAmount)]
  | .offer offerId => [("shipping_address", .null), ("offer_id", .str offerId)]

def createData (seller : String) (body : CreateProductRequest) : Json := .obj [
  ("product_id", .str (buildProductId seller body.slug)),
  ("title", .str body.title),
  ("description", jsonOpt .str body.description),
  ("price", jsonF64 body.price),
  ("token", .str (body.token.getD "HONE")),
  ("image_cid", jsonOpt .str body.imageCid),
  ("inventory", jsonOpt (fun n => jsonNat n.toNat) body.inventory),
  ("categories", jsonStrings (body.categories.getD [])),
  ("auto_deliver", .bool (body.autoDeliver.getD false)),
  ("delivery_cid", jsonOpt .str body.deliveryCid),
  ("sale_price", jsonOpt jsonF64 body.salePrice),
  ("sale_ends_epoch", jsonOpt jsonNat body.saleEndsEpoch),
  ("min_price", jsonOpt jsonF64 body.minPrice),
  ("suggested_price", jsonOpt jsonF64 body.suggestedPrice),
  ("tip_enabled", .bool (body.tipEnabled.getD false)),
  ("condition", jsonOpt .str body.condition),
  ("condition_notes", jsonOpt .str body.conditionNotes),
  ("expected_delivery_epoch", jsonOpt jsonNat body.expectedDeliveryEpoch),
  ("specs", body.specs.getD .null),
  ("image_cids", jsonStrings (body.imageCids.getD []))]

def fulfillData (orderId : String) (body : FulfillOrderRequest) (licenseKey : Option String) :
    Json := .obj [
  ("order_id", .str orderId),
  ("fulfillment_cid", jsonOpt .str body.fulfillmentCid),
  ("carrier", jsonOpt .str body.carrier),
  ("tracking_number", jsonOpt .str body.trackingNumber),
  ("shipping_service", jsonOpt .str body.shippingService),
  ("shipping_note", jsonOpt .str body.shippingNote),
  ("license_key", jsonOpt .str licenseKey)]

def Write.entry : Write → LedgerEntry
  | .storeOpen seller stamp name capacity stakeAmount stakePaidUsd body =>
    { LedgerEntry.new "STORE_OPEN" seller stamp with storeData := some (.obj [
      ("action", .str "open"), ("name", .str name), ("banner_cid", jsonOpt .str body.bannerCid),
      ("description_cid", jsonOpt .str body.descriptionCid),
      ("categories", jsonStrings (body.categories.getD [])),
      ("capacity", jsonNat capacity.toNat), ("stake_amount", jsonF64 stakeAmount),
      ("stake_paid_usd", jsonF64 stakePaidUsd)]) }
  | .storeClose seller stamp =>
    { LedgerEntry.new "STORE_CLOSE" seller stamp with
      storeData := some (.obj [("action", .str "close")]) }
  | .productCreate seller stamp body =>
    { LedgerEntry.new "PRODUCT_CREATE" seller stamp with productData := some (createData seller body) }
  | .productDelist seller stamp productId =>
    { LedgerEntry.new "PRODUCT_DELIST" seller stamp with
      productData := some (.obj [("product_id", .str productId)]) }
  | .orderPlace buyer seller stamp orderId escrowId productId quantity unitPrice total token origin =>
    { LedgerEntry.new "ORDER_PLACE" buyer stamp with
      to_ := some seller
      token := token
      amount := total
      orderData := some (.obj ([("order_id", .str orderId), ("product_id", .str productId),
        ("quantity", jsonNat quantity.toNat), ("unit_price", jsonF64 unitPrice),
        ("total", jsonF64 total), ("token", .str token), ("escrow_id", .str escrowId)] ++
          origin.fields)) }
  | .orderFulfill seller stamp orderId body licenseKey =>
    { LedgerEntry.new "ORDER_FULFILL" seller stamp with
      orderData := some (fulfillData orderId body licenseKey) }
  | .autoFulfill seller stamp orderId cid licenseKey =>
    { LedgerEntry.new "ORDER_FULFILL" seller stamp with orderData := some (.obj [
      ("order_id", .str orderId), ("fulfillment_cid", .str cid), ("auto_delivered", .bool true),
      ("license_key", .str licenseKey)]) }
  | .orderDelivered buyer stamp orderId =>
    { LedgerEntry.new "ORDER_DELIVERED" buyer stamp with
      orderData := some (.obj [("order_id", .str orderId)]) }
  | .orderCancel party stamp orderId reason =>
    { LedgerEntry.new "ORDER_CANCEL" party stamp with
      orderData := some (.obj (("order_id", .str orderId) ::
        (reason.map fun r => ("reason", Json.str r)).toList)) }
  | .orderDispute buyer stamp orderId memo =>
    { LedgerEntry.new "ORDER_DISPUTE" buyer stamp with
      orderData := some (.obj [("order_id", .str orderId), ("memo", jsonOpt .str memo)]) }
  | .offerPlace buyer seller stamp offerId body =>
    { LedgerEntry.new "OFFER_PLACE" buyer stamp with
      to_ := some seller
      orderData := some (.obj [("offer_id", .str offerId), ("product_id", .str body.productId),
        ("amount", jsonF64 body.amount), ("message", jsonOpt .str body.message),
        ("expires_epoch", jsonNat (stamp.epoch + 2880))]) }
  | .offerCounter seller stamp offerId body =>
    { LedgerEntry.new "OFFER_COUNTER" seller stamp with
      orderData := some (.obj [("offer_id", .str offerId), ("counter_amount", jsonF64 body.amount),
        ("counter_message", jsonOpt .str body.message)]) }
  | .offerAccept username stamp offerId orderId =>
    { LedgerEntry.new "OFFER_ACCEPT" username stamp with
      orderData := some (.obj [("offer_id", .str offerId), ("order_id", .str orderId)]) }
  | .offerReject username stamp offerId =>
    { LedgerEntry.new "OFFER_REJECT" username stamp with
      orderData := some (.obj [("offer_id", .str offerId)]) }

/-! ## Checks -/

/-- The status code and the body of a refused request. -/
abbrev Refusal := ℕ × Json

abbrev Checked := Except Refusal (List Write)

def refuse (code : ℕ) (text : String) : Checked := .error (code, .obj [("error", .str text)])

/-- What a request draws and reads of the clock; a purchase reads it three times. -/
structure Drawn where
  (orderId escrowId offerId : String)
  saleEpoch : ℕ
  stamp : Stamp
  fulfillAt : Stamp

def negative (x : F64) : Bool := decide (2 ^ 63 < x.toNat) && decide (x.toNat ≤ 0xFFF0000000000000)

/-- `^[a-z0-9][a-z0-9\-]{0,62}$`. -/
def validSlug (slug : String) : Bool :=
  let alnum (c : Char) : Bool := c.isLower || c.isDigit
  match slug.toList with
  | [] => false
  | c :: cs => alnum c && cs.all (fun c => alnum c || c = '-') && decide (cs.length ≤ 62)

def round10 (x : Float) : F64 := ((x * 1e10).round / 1e10).toBits

def stakeForCapacity (capacity : UInt32) : F64 := (capacity.toFloat * 1.0).toBits

/-- `unwrap_or(0.0).max(0.0)`. -/
def atLeastZero (x : Option F64) : F64 :=
  let x := Float.ofBits (x.getD zeroF64)
  (if 0.0 ≤ x then x else 0.0).toBits

variable (sha256Hex : String → String)

def licenseKey (orderId seller : String) : String := sha256Hex (orderId ++ "|" ++ seller)

section Handlers

variable (m : MarketState) (user : String) (d : Drawn)

def openStore (body : OpenStoreRequest) : Checked :=
  if (m.stores.get user).any (·.status = .active) then refuse 409 "store already open"
  else
    let name := (body.name.filter (· ≠ "")).getD user
    let capacity := min (max (body.initialCapacity.getD 10) 1) 10000
    .ok [.storeOpen user d.stamp name capacity (stakeForCapacity capacity)
      (atLeastZero body.stakePaidUsd) body]

def closeStore (seller : String) : Checked :=
  if user ≠ seller then refuse 403 "not your store"
  else .ok [.storeClose seller d.stamp]

/-- The two looks at the state are one here. -/
def createProduct (body : CreateProductRequest) : Checked :=
  match (m.stores.get user).filter (·.status = .active) with
  | none => refuse 400 "open a store first"
  | some store =>
    if store.capacity ≤ store.usedCapacity then refuse 422 "store capacity full"
    else if ¬ validSlug body.slug then
      refuse 400 "invalid slug — lowercase alphanumeric and dashes only"
    else if negative body.price then refuse 400 "price must be >= 0"
    else if body.title = "" then refuse 400 "title required"
    else if (m.products.get (buildProductId user body.slug)).any (·.status = .active) then
      refuse 409 "product_id already exists"
    else .ok [.productCreate user d.stamp body]

/-- Nothing is said of the status of the product. -/
def delistProduct (productId : String) : Checked :=
  match m.products.get productId with
  | none => refuse 404 "product not found"
  | some product =>
    if product.seller ≠ user then refuse 403 "not your product"
    else .ok [.productDelist user d.stamp productId]

def effectivePrice (product : Product) (epoch : ℕ) : F64 :=
  match product.salePrice, product.saleEndsEpoch with
  | some sale, some ends => if epoch < ends then sale else product.price
  | _, _ => product.price

/-- Digital goods are fulfilled by a second entry. -/
def placeOrder (body : PlaceOrderRequest) : Checked :=
  let quantity := max (body.quantity.getD 1) 1
  match (m.products.get body.productId).filter (·.status = .active) with
  | none => refuse 404 "product not found or unlisted"
  | some product =>
    if product.inventory.any (· < quantity.toNat) then
      .error (422, .obj [("error", .str "insufficient inventory"),
        ("available", jsonOpt jsonNat product.inventory)])
    else if user = product.seller then refuse 400 "cannot buy your own product"
    else
      let unitPrice := effectivePrice product d.saleEpoch
      let total := round10 (Float.ofBits unitPrice * quantity.toFloat)
      let orderId := "ord-" ++ d.orderId
      let place := Write.orderPlace user product.seller d.stamp orderId ("esc-" ++ d.escrowId)
        body.productId quantity unitPrice total (body.token.getD product.token)
        (.direct body.shippingAddress body.tipAmount)
      match product.autoDeliver, product.deliveryCid with
      | true, some cid => .ok [place, .autoFulfill product.seller d.fulfillAt orderId cid
          (licenseKey sha256Hex orderId product.seller)]
      | _, _ => .ok [place]

def fulfillOrder (orderId : String) (body : FulfillOrderRequest) : Checked :=
  match m.orders.get orderId with
  | none => refuse 404 "order not found"
  | some order =>
    if order.seller ≠ user then refuse 403 "not your order to fulfill"
    else if order.status ≠ .pending then refuse 422 "order not in pending state"
    else .ok [.orderFulfill user d.stamp orderId body
      (body.fulfillmentCid.map fun _ => licenseKey sha256Hex orderId user)]

def deliverOrder (orderId : String) : Checked :=
  match m.orders.get orderId with
  | none => refuse 404 "order not found"
  | some order =>
    if order.buyer ≠ user then refuse 403 "not your order"
    else if order.status ≠ .fulfilled then refuse 422 "order not fulfilled yet"
    else .ok [.orderDelivered user d.stamp orderId]

def cancelOrder (orderId : String) : Checked :=
  match m.orders.get orderId with
  | none => refuse 404 "order not found"
  | some order =>
    if order.buyer ≠ user ∧ order.seller ≠ user then refuse 403 "not your order"
    else if order.status ≠ .pending ∧ order.status ≠ .fulfilled then
      refuse 422 "order cannot be cancelled in current state"
    else .ok [.orderCancel user d.stamp orderId none]

def disputeOrder (orderId : String) (memo : Option String) : Checked :=
  match m.orders.get orderId with
  | none => refuse 404 "order not found"
  | some order =>
    if order.buyer ≠ user then refuse 403 "only the buyer can dispute"
    else if order.status ≠ .pending ∧ order.status ≠ .fulfilled then
      refuse 422 "order cannot be disputed in current state"
    else .ok [.orderDispute user d.stamp orderId memo]

def placeOffer (body : PlaceOfferRequest) : Checked :=
  if negative body.amount then refuse 400 "amount must be >= 0"
  else match (m.products.get body.productId).filter (·.status = .active) with
    | none => refuse 404 "product not found or unlisted"
    | some product =>
      if product.seller = user then refuse 400 "cannot make offer on your own product"
      else .ok [.offerPlace user product.seller d.stamp ("ofr-" ++ d.offerId) body]

def counterOffer (offerId : String) (body : CounterOfferRequest) : Checked :=
  match m.offers.get offerId with
  | none => refuse 404 "offer not found"
  | some offer =>
    if offer.seller ≠ user then refuse 403 "not your offer to counter"
    else if offer.status ≠ .pending then refuse 422 "offer is not in pending state"
    else .ok [.offerCounter user d.stamp offerId body]

/-- Neither the inventory nor the expiry is looked at. -/
def acceptOffer (offerId : String) : Checked :=
  match m.offers.get offerId with
  | none => refuse 404 "offer not found"
  | some offer =>
    let amount := if offer.seller = user then offer.amount
      else offer.counterAmount.getD offer.amount
    let token := ((m.products.get offer.productId).map Product.token).getD "HONE"
    let orderId := "ord-" ++ d.orderId
    let writes := [
      Write.offerAccept user d.stamp offerId orderId,
      Write.orderPlace offer.buyer offer.seller d.stamp orderId ("esc-" ++ d.escrowId)
        offer.productId 1 amount (round10 (Float.ofBits amount)) token (.offer offerId)]
    if offer.seller = user then
      if offer.status ≠ .pending then refuse 422 "offer is not pending" else .ok writes
    else if offer.buyer = user then
      if offer.status ≠ .countered then refuse 422 "no counter offer to accept" else .ok writes
    else refuse 403 "not your offer"

def rejectOffer (offerId : String) : Checked :=
  match m.offers.get offerId with
  | none => refuse 404 "offer not found"
  | some offer =>
    if offer.buyer ≠ user ∧ offer.seller ≠ user then refuse 403 "not your offer"
    else if offer.status ≠ .pending ∧ offer.status ≠ .countered then
      refuse 422 "offer cannot be rejected in current state"
    else .ok [.offerReject user d.stamp offerId]

end Handlers

/-- The orders that the sweep cancels, each on its own: the order of a map is arbitrary. -/
def expired (m : MarketState) (stamp : Stamp) : List (List Write) :=
  ((m.orders.bindings.map Prod.snd).filter fun order =>
    (order.status = .pending || order.status = .placed) && 0 < order.fulfillDeadlineEpoch &&
      order.fulfillDeadlineEpoch < stamp.epoch && order.buyer ≠ "").map fun order =>
    [.orderCancel order.buyer stamp order.orderId (some "fulfill_deadline_expired")]

/-! ## The service -/

inductive Request where
  | openStore (body : OpenStoreRequest)
  | closeStore (seller : String)
  | createProduct (body : CreateProductRequest)
  | delistProduct (productId : String)
  | placeOrder (body : PlaceOrderRequest)
  | fulfillOrder (orderId : String) (body : FulfillOrderRequest)
  | deliverOrder (orderId : String)
  | cancelOrder (orderId : String)
  | disputeOrder (orderId : String) (memo : Option String)
  | placeOffer (body : PlaceOfferRequest)
  | counterOffer (offerId : String) (body : CounterOfferRequest)
  | acceptOffer (offerId : String)
  | rejectOffer (offerId : String)

def check (m : MarketState) (user : String) (d : Drawn) : Request → Checked
  | .openStore body => openStore m user d body
  | .closeStore seller => closeStore user d seller
  | .createProduct body => createProduct m user d body
  | .delistProduct productId => delistProduct m user d productId
  | .placeOrder body => placeOrder sha256Hex m user d body
  | .fulfillOrder orderId body => fulfillOrder sha256Hex m user d orderId body
  | .deliverOrder orderId => deliverOrder m user d orderId
  | .cancelOrder orderId => cancelOrder m user d orderId
  | .disputeOrder orderId memo => disputeOrder m user d orderId memo
  | .placeOffer body => placeOffer m user d body
  | .counterOffer offerId body => counterOffer m user d offerId body
  | .acceptOffer offerId => acceptOffer m user d offerId
  | .rejectOffer offerId => rejectOffer m user d offerId

/-- The state, what each request in flight still has to persist, and what has been persisted,
the latest first. -/
structure Service where
  market : MarketState
  threads : List (List Write)
  ledger : List Write

def Service.start : Service := ⟨.fresh, [], []⟩

inductive Op where
  | request (user : String) (d : Drawn) (r : Request)
  | sweep (stamp : Stamp)
  | persist (thread : ℕ)

/-- What the thread persists next. -/
def Service.next (sv : Service) (thread : ℕ) : Option (Write × List Write) :=
  match sv.threads[thread]? with
  | some (w :: rest) => some (w, rest)
  | _ => none

/-- A request that fails to persist stops, as one that is never continued. -/
def Service.step (sv : Service) : Op → Service
  | .request user d r => match check sha256Hex sv.market user d r with
    | .ok writes => { sv with threads := sv.threads ++ [writes] }
    | .error _ => sv
  | .sweep stamp => { sv with threads := sv.threads ++ expired sv.market stamp }
  | .persist thread => match sv.next thread with
    | none => sv
    | some (w, rest) => {
      market := (sv.market.applyEntry w.entry.toValue).getD sv.market
      threads := sv.threads.set thread rest
      ledger := w :: sv.ledger }

def service : Trace.Component Service Op where
  init sv := sv = .start
  step := Service.step sha256Hex

end HoneNode.Market
