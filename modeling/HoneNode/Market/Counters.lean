import HoneNode.Market.Effects

/-!
# Market.Counters — inventory and capacity against the records

`inventory` and `used_capacity` are adjusted blindly when an entry is applied,
while the guards were looked up earlier. A product that was listed with an
inventory has sold what is missing of it, and a store has as many active
products as it uses slots, as long as the entry still fits the state in which
it is applied.
-/

namespace HoneNode.Market

open Trace

/-! ## What the counters count -/

/-- The quantity in the orders of a product that are not cancelled. -/
def sold (orders : Kv String Order) (productId : String) : ℕ :=
  orders.sumBy fun _ order =>
    if order.productId = productId ∧ order.status ≠ .cancelled then order.quantity else 0

/-- The number of active products of a seller. -/
def listed (products : Kv String Product) (seller : String) : ℕ :=
  products.sumBy fun _ product =>
    if product.seller = seller ∧ product.status = .active then 1 else 0

/-- The inventory that the last listing of a product gave it. -/
def createdWith (ledger : List Write) (productId : String) : Option (Option ℕ) :=
  ledger.findSome? fun
    | .productCreate seller _ body =>
      if buildProductId seller body.slug = productId then some (body.inventory.map UInt32.toNat)
      else none
    | _ => none

/-- Nothing is oversold, no stock is invented, and the slots are those of the active products. -/
structure Matched (sv : Service) : Prop where
  stock : ∀ productId product created, sv.market.products.get productId = some product →
    createdWith sv.ledger productId = some (some created) →
      ∃ inventory, product.inventory = some inventory ∧
        inventory + sold sv.market.orders productId = created
  slots : ∀ seller store, sv.market.stores.get seller = some store → store.status = .active →
    store.usedCapacity = listed sv.market.products seller ∧ store.usedCapacity ≤ store.capacity

/-! ## When a write fits -/

/-- The write still fits the state in which it is applied. -/
def Timely (m : MarketState) : Write → Prop
  | .storeOpen seller _ _ _ _ _ _ => listed m.products seller = 0
  | .productCreate seller _ body =>
    (∀ store ∈ m.stores.get seller, store.usedCapacity < store.capacity) ∧
    (∀ product ∈ m.products.get (buildProductId seller body.slug), product.status ≠ .active) ∧
    (body.inventory ≠ none → sold m.orders (buildProductId seller body.slug) = 0)
  | .productDelist _ _ productId =>
    ∀ product ∈ m.products.get productId, product.status = .active
  | .orderPlace _ _ _ orderId _ productId quantity _ _ _ _ => m.orders.get orderId = none ∧
    ∀ product ∈ m.products.get productId, ∀ inventory ∈ product.inventory,
      quantity.toNat ≤ inventory
  | w => ∀ target ∈ w.orderTarget, ∀ order ∈ m.orders.get target.1, order.status ≠ .cancelled

/-- A thread persists only a write that still fits. -/
def Fits (sv : Service) : Op → Prop
  | .persist thread => ∀ next ∈ sv.next thread, Timely sv.market next.1
  | _ => True

instance (m : MarketState) : DecidablePred (Timely m)
  | .storeOpen .. => inferInstanceAs (Decidable (_ = _))
  | .productCreate .. => inferInstanceAs (Decidable (_ ∧ _ ∧ (_ → _)))
  | .productDelist .. => inferInstanceAs (Decidable (∀ _ ∈ _, _))
  | .orderPlace .. => inferInstanceAs (Decidable (_ ∧ _))
  | .storeClose .. | .orderFulfill .. | .autoFulfill .. | .orderDelivered .. | .orderCancel ..
  | .orderDispute .. | .offerPlace .. | .offerCounter .. | .offerAccept .. | .offerReject .. =>
    inferInstanceAs (Decidable (∀ _ ∈ _, _))

instance (sv : Service) : DecidablePred (Fits sv)
  | .persist _ => inferInstanceAs (Decidable (∀ _ ∈ _, _))
  | .request .. | .sweep .. => .isTrue trivial

/-! ## The invariant -/

/-- What was created is what is left and what is sold; a closed store counts its products too. -/
structure Counted (stores : Kv String Store) (products : Kv String Product)
    (orders : Kv String Order) (ledger : List Write) : Prop where
  stock : ∀ productId product, products.get productId = some product →
    createdWith ledger productId = some (product.inventory.map (· + sold orders productId)) ∧
      ∀ inventory, product.inventory = some inventory → inventory + sold orders productId < 2 ^ 32
  slots : ∀ seller store, stores.get seller = some store →
    store.usedCapacity = listed products seller ∧ store.usedCapacity ≤ store.capacity ∧
      store.capacity < 2 ^ 32

section Step

variable {stores : Kv String Store} {products : Kv String Product} {orders : Kv String Order}
  {ledger : List Write}

theorem createdWith_create {seller : String} {stamp : Stamp} {body : CreateProductRequest}
    (productId : String) : createdWith (.productCreate seller stamp body :: ledger) productId =
      if buildProductId seller body.slug = productId then some (body.inventory.map UInt32.toNat)
      else createdWith ledger productId := by
  unfold createdWith
  rw [List.findSome?_cons]
  by_cases hid : buildProductId seller body.slug = productId
  · simp only [if_pos hid]
  · simp only [if_neg hid]

/-! ### Stores and products -/

theorem Counted.storeOpen {seller : String} {store : Store}
    (h : Counted stores products orders ledger) (hnone : listed products seller = 0)
    (hused : store.usedCapacity = 0) (hcap : store.capacity < 2 ^ 32) :
    Counted (stores.put seller store) products orders ledger := by
  refine ⟨h.stock, fun seller' store' hstore' => ?_⟩
  rw [Kv.get_put] at hstore'
  by_cases hseller : seller = seller'
  · rw [if_pos hseller] at hstore'
    cases hstore'
    subst hseller
    refine ⟨hused.trans hnone.symm, ?_, hcap⟩
    rw [hused]
    exact Nat.zero_le _
  · rw [if_neg hseller] at hstore'
    exact h.slots seller' store' hstore'

theorem Counted.storeClose (h : Counted stores products orders ledger) (seller : String) :
    Counted (modify stores seller fun store => { store with status := .closed }) products orders
      ledger := by
  refine ⟨h.stock, fun seller' store' hstore' => ?_⟩
  rw [get_modify] at hstore'
  by_cases hseller : seller = seller'
  · rw [if_pos hseller] at hstore'
    obtain ⟨store, hstore, rfl⟩ := Option.map_eq_some_iff.1 hstore'
    exact h.slots seller' store hstore
  · rw [if_neg hseller] at hstore'
    exact h.slots seller' store' hstore'

variable {productId : String} {product : Product}

/-- An active product counts for its seller, if no active one was in its place. -/
theorem listed_put (hunlisted : ∀ old ∈ products.get productId, old.status ≠ .active)
    (hactive : product.status = .active) (seller : String) :
    listed (products.put productId product) seller =
      listed products seller + if product.seller = seller then 1 else 0 := by
  have hput := Kv.sumBy_put (fun _ (product : Product) =>
    if product.seller = seller ∧ product.status = .active then 1 else 0) products productId product
  have hold : ((products.get productId).elim 0 fun product =>
      if product.seller = seller ∧ product.status = .active then 1 else 0) = 0 := by
    cases hget : products.get productId with
    | none => rfl
    | some old => exact if_neg fun hcount => hunlisted old hget hcount.2
  rw [hold, hactive] at hput
  simp only [and_true, Nat.add_zero] at hput
  exact hput

theorem Counted.productCreate {seller : String} {stamp : Stamp} {body : CreateProductRequest}
    (h : Counted stores products orders ledger)
    (hroom : ∀ store ∈ stores.get seller, store.usedCapacity < store.capacity)
    (hunlisted : ∀ old ∈ products.get (buildProductId seller body.slug), old.status ≠ .active)
    (hunsold : body.inventory ≠ none → sold orders (buildProductId seller body.slug) = 0)
    (hseller : product.seller = seller) (hactive : product.status = .active)
    (hinventory : product.inventory = body.inventory.map UInt32.toNat) :
    Counted (modify stores seller fun store =>
        { store with usedCapacity := min (store.usedCapacity + 1) maxU32 })
      (products.put (buildProductId seller body.slug) product) orders
      (.productCreate seller stamp body :: ledger) := by
  constructor
  · intro productId product' hproduct'
    rw [Kv.get_put] at hproduct'
    rw [createdWith_create]
    by_cases hid : buildProductId seller body.slug = productId
    · rw [if_pos hid] at hproduct' ⊢
      cases hproduct'
      subst hid
      rw [hinventory]
      cases hbody : body.inventory with
      | none => exact ⟨rfl, nofun⟩
      | some n =>
        have hsome : body.inventory ≠ none := by
          rw [hbody]
          exact Option.some_ne_none n
        rw [hunsold hsome]
        refine ⟨rfl, ?_⟩
        rintro inventory heq
        cases heq
        exact n.toNat_lt
    · rw [if_neg hid] at hproduct' ⊢
      exact h.stock productId product' hproduct'
  · intro seller' store' hstore'
    rw [get_modify] at hstore'
    rw [listed_put hunlisted hactive, hseller]
    by_cases hsame : seller = seller'
    · subst hsame
      rw [if_pos rfl] at hstore' ⊢
      obtain ⟨store, hstore, rfl⟩ := Option.map_eq_some_iff.1 hstore'
      obtain ⟨hused, -, hcap⟩ := h.slots seller store hstore
      have hlt := hroom store hstore
      have hnext : min (store.usedCapacity + 1) maxU32 = store.usedCapacity + 1 := by
        unfold maxU32
        omega
      dsimp only
      rw [hnext]
      exact ⟨congrArg (· + 1) hused, hlt, hcap⟩
    · rw [if_neg hsame] at hstore' ⊢
      exact h.slots seller' store' hstore'

theorem Counted.productDelist
    (h : Counted stores products orders ledger) (hproduct : products.get productId = some product)
    (hactive : product.status = .active) :
    Counted (modify stores product.seller fun store =>
        { store with usedCapacity := store.usedCapacity - 1 })
      (products.put productId { product with status := .delisted }) orders ledger := by
  constructor
  · intro productId' product' hproduct'
    rw [Kv.get_put] at hproduct'
    by_cases hid : productId = productId'
    · rw [if_pos hid] at hproduct'
      cases hproduct'
      subst hid
      exact h.stock productId product hproduct
    · rw [if_neg hid] at hproduct'
      exact h.stock productId' product' hproduct'
  · intro seller store' hstore'
    rw [get_modify] at hstore'
    have hlisted : listed (products.put productId { product with status := .delisted }) seller +
        (if product.seller = seller then 1 else 0) = listed products seller := by
      have hput := Kv.sumBy_put (fun _ (product : Product) =>
        if product.seller = seller ∧ product.status = .active then 1 else 0)
        products productId { product with status := .delisted }
      rw [hproduct, Option.elim_some, hactive] at hput
      simp only [and_true, reduceCtorEq, and_false, if_false, Nat.add_zero] at hput
      exact hput
    by_cases hseller : product.seller = seller
    · rw [if_pos hseller] at hstore' hlisted
      obtain ⟨store, hstore, rfl⟩ := Option.map_eq_some_iff.1 hstore'
      obtain ⟨hused, hle, hcap⟩ := h.slots seller store hstore
      dsimp only
      exact ⟨by omega, by omega, hcap⟩
    · rw [if_neg hseller] at hstore' hlisted
      obtain ⟨hused, hle, hcap⟩ := h.slots seller store' hstore'
      exact ⟨by omega, hle, hcap⟩

/-! ### Orders -/

theorem listed_modify (f : ℕ → ℕ) (seller : String) :
    listed (modify products productId fun product =>
      { product with inventory := product.inventory.map f }) seller = listed products seller :=
  sumBy_modify_of_eq fun _ => rfl

/-- A change of the inventory and of what is sold that belong together. -/
theorem Counted.trade {orders' : Kv String Order} {f : ℕ → ℕ}
    (h : Counted stores products orders ledger)
    (hothers : ∀ productId', productId ≠ productId' → sold orders' productId' = sold orders productId')
    (htrade : ∀ product ∈ products.get productId, ∀ inventory ∈ product.inventory,
      inventory + sold orders productId < 2 ^ 32 →
        f inventory + sold orders' productId = inventory + sold orders productId) :
    Counted stores (modify products productId fun product =>
        { product with inventory := product.inventory.map f }) orders' ledger := by
  constructor
  · intro productId' product' hproduct'
    rw [get_modify] at hproduct'
    by_cases hsame : productId = productId'
    · subst hsame
      rw [if_pos rfl] at hproduct'
      obtain ⟨product, hproduct, rfl⟩ := Option.map_eq_some_iff.1 hproduct'
      obtain ⟨hcreated, hbound⟩ := h.stock productId product hproduct
      rw [hcreated]
      cases hinventory : product.inventory with
      | none => exact ⟨rfl, nofun⟩
      | some inventory =>
        have hlt := hbound inventory hinventory
        have hsum := htrade product hproduct inventory hinventory hlt
        refine ⟨congrArg (some ∘ some) hsum.symm, ?_⟩
        intro left hleft
        cases hleft
        exact hsum ▸ hlt
    · rw [if_neg hsame] at hproduct'
      rw [hothers productId' hsame]
      exact h.stock productId' product' hproduct'
  · intro seller store hstore
    rw [listed_modify f]
    exact h.slots seller store hstore

theorem Counted.orderPlace {orderId productId : String} {order : Order}
    (h : Counted stores products orders ledger) (hfresh : orders.get orderId = none)
    (hstock : ∀ product ∈ products.get productId, ∀ inventory ∈ product.inventory,
      order.quantity ≤ inventory)
    (hid : order.productId = productId) (hpending : order.status = .pending) :
    Counted stores (modify products productId fun product =>
        { product with inventory := product.inventory.map (· - order.quantity) })
      (orders.put orderId order) ledger := by
  have hsold : ∀ productId', sold (orders.put orderId order) productId' =
      sold orders productId' + if productId = productId' then order.quantity else 0 := by
    intro productId'
    have hput := Kv.sumBy_put (fun _ (order : Order) =>
        if order.productId = productId' ∧ order.status ≠ .cancelled then order.quantity else 0)
      orders orderId order
    rw [hfresh, hid, hpending] at hput
    simp only [Option.elim_none, Nat.add_zero, ne_eq, reduceCtorEq, not_false_eq_true,
      and_true] at hput
    exact hput
  refine h.trade (fun productId' hne => ?_) fun product hproduct inventory hinventory _ => ?_
  · rw [hsold, if_neg hne]
    rfl
  · have hle := hstock product hproduct inventory hinventory
    rw [hsold, if_pos rfl]
    omega

/-- What a move of an order does to what is sold of its product. -/
theorem sold_modify {orderId : String} {order : Order} {f : Order → Order} {target : OrderStatus}
    (hget : orders.get orderId = some order) (hopen : order.status ≠ .cancelled)
    (hf : MovesTo target order (f order)) (productId : String) :
    sold (modify orders orderId f) productId +
        (if order.productId = productId ∧ target = .cancelled then order.quantity else 0) =
      sold orders productId := by
  have hsum := sumBy_modify (fun _ (order : Order) =>
      if order.productId = productId ∧ order.status ≠ .cancelled then order.quantity else 0)
    orders orderId f
  rw [hget, Option.elim_some, Option.elim_some, hf.productId, hf.quantity, hf.status] at hsum
  change sold (modify orders orderId f) productId + _ = sold orders productId + _ at hsum
  by_cases hid : order.productId = productId
  · by_cases htarget : target = .cancelled
    · simp only [hid, hopen, htarget, ne_eq, not_true_eq_false, not_false_eq_true, and_self,
        and_false, if_true, if_false] at hsum ⊢
      omega
    · simp only [hid, hopen, htarget, ne_eq, not_false_eq_true, and_self, and_false, if_true,
        if_false] at hsum ⊢
      omega
  · simp only [hid, false_and, if_false] at hsum ⊢
    exact hsum

theorem Counted.orderMove {m : MarketState} {orderId : String} {target : OrderStatus}
    {f : Order → Order} (h : Counted m.stores m.products m.orders ledger)
    (hf : ∀ order, MovesTo target order (f order))
    (hopen : ∀ order ∈ m.orders.get orderId, order.status ≠ .cancelled) :
    Counted m.stores (if target = .cancelled then restocked m orderId else m.products)
      (modify m.orders orderId f) ledger := by
  cases hget : m.orders.get orderId with
  | none =>
    have hproducts : (if target = .cancelled then restocked m orderId else m.products) =
        m.products := by
      unfold restocked
      rw [hget]
      exact ite_self _
    have horders : modify m.orders orderId f = m.orders := by
      unfold modify
      rw [hget]
    rw [hproducts, horders]
    exact h
  | some order =>
    have hsold := sold_modify hget (hopen order hget) (hf order)
    by_cases htarget : target = .cancelled
    · subst htarget
      simp only [and_true] at hsold
      rw [if_pos rfl]
      unfold restocked
      rw [hget]
      refine h.trade (fun productId' hne => ?_) fun product hproduct inventory hinventory hlt => ?_
      · have hsold' := hsold productId'
        rw [if_neg hne] at hsold'
        exact hsold'
      · have hsold' := hsold order.productId
        rw [if_pos rfl] at hsold'
        have hback : asU32 (inventory + order.quantity) = inventory + order.quantity :=
          Nat.mod_eq_of_lt (by omega)
        rw [hback]
        omega
    · simp only [htarget, and_false, if_false, Nat.add_zero] at hsold
      rw [if_neg htarget]
      refine ⟨fun productId product hproduct => ?_, h.slots⟩
      rw [hsold productId]
      exact h.stock productId product hproduct

/-! ### Writes -/

theorem Counted.write {m m' : MarketState} {w : Write}
    (h : Counted m.stores m.products m.orders ledger) (hfits : Timely m w)
    (hafter : after m w = some m') : Counted m'.stores m'.products m'.orders (w :: ledger) := by
  have hmove : ∀ orderId target, w.orderTarget = some (orderId, target) →
      (∀ order ∈ m.orders.get orderId, order.status ≠ .cancelled) →
      Counted m'.stores m'.products m'.orders ledger := by
    intro orderId target htarget hopen
    obtain ⟨f, hf, heq⟩ := after_orderTarget m htarget
    cases hafter.symm.trans heq
    exact h.orderMove hf hopen
  have hoffer : ∀ offerId target, w.offerTarget = some (offerId, target) →
      Counted m'.stores m'.products m'.orders ledger := by
    intro offerId target htarget
    obtain ⟨f, -, heq⟩ := after_offerTarget m htarget
    cases hafter.symm.trans heq
    exact h
  cases w with
  | storeOpen seller stamp name capacity stakeAmount stakePaidUsd body =>
    obtain ⟨store, hused, hcap, heq⟩ := after_storeOpen m stamp seller name capacity stakeAmount
      stakePaidUsd body
    cases hafter.symm.trans heq
    obtain ⟨hstock, hslots⟩ := h.storeOpen hfits hused hcap
    exact ⟨hstock, hslots⟩
  | storeClose seller stamp =>
    cases hafter.symm.trans (after_storeClose m stamp seller)
    obtain ⟨hstock, hslots⟩ := h.storeClose seller
    exact ⟨hstock, hslots⟩
  | productCreate seller stamp body =>
    obtain ⟨product, hseller, hactive, hinventory, heq⟩ := after_productCreate m stamp seller body
    cases hafter.symm.trans heq
    obtain ⟨hroom, hunlisted, hunsold⟩ := hfits
    exact h.productCreate hroom hunlisted hunsold hseller hactive hinventory
  | productDelist seller stamp productId =>
    have heq := hafter.symm.trans (after_productDelist m stamp seller productId)
    cases hget : m.products.get productId with
    | none =>
      rw [hget] at heq
      cases heq
      exact ⟨h.stock, h.slots⟩
    | some product =>
      rw [hget] at heq
      cases heq
      obtain ⟨hstock, hslots⟩ := h.productDelist hget (hfits product hget)
      exact ⟨hstock, hslots⟩
  | orderPlace buyer seller stamp orderId escrowId productId quantity unitPrice total token origin =>
    obtain ⟨order, hid, hquantity, hpending, -, heq⟩ := after_orderPlace m stamp buyer seller orderId
      escrowId productId quantity unitPrice total token origin
    rw [asU32_toNat, ← hquantity] at heq
    obtain ⟨hfresh, hstock⟩ := hfits
    rw [← hquantity] at hstock
    by_cases hempty : orderId = ""
    · rw [if_pos hempty] at heq
      cases hafter.symm.trans heq
      exact ⟨h.stock, h.slots⟩
    · rw [if_neg hempty] at heq
      cases hafter.symm.trans heq
      obtain ⟨hstock', hslots'⟩ := h.orderPlace hfresh hstock hid hpending
      exact ⟨hstock', hslots'⟩
  | orderFulfill seller stamp orderId body key =>
    obtain ⟨hstock, hslots⟩ := hmove orderId .fulfilled rfl (hfits _ rfl)
    exact ⟨hstock, hslots⟩
  | autoFulfill seller stamp orderId cid key =>
    obtain ⟨hstock, hslots⟩ := hmove orderId .fulfilled rfl (hfits _ rfl)
    exact ⟨hstock, hslots⟩
  | orderDelivered buyer stamp orderId =>
    obtain ⟨hstock, hslots⟩ := hmove orderId .delivered rfl (hfits _ rfl)
    exact ⟨hstock, hslots⟩
  | orderCancel party stamp orderId reason =>
    obtain ⟨hstock, hslots⟩ := hmove orderId .cancelled rfl (hfits _ rfl)
    exact ⟨hstock, hslots⟩
  | orderDispute buyer stamp orderId memo =>
    obtain ⟨hstock, hslots⟩ := hmove orderId .disputed rfl (hfits _ rfl)
    exact ⟨hstock, hslots⟩
  | offerPlace buyer seller stamp offerId body =>
    obtain ⟨offer, -, heq⟩ := after_offerPlace m stamp buyer seller offerId body
    by_cases hempty : offerId = ""
    · rw [if_pos hempty] at heq
      cases hafter.symm.trans heq
      exact ⟨h.stock, h.slots⟩
    · rw [if_neg hempty] at heq
      cases hafter.symm.trans heq
      exact ⟨h.stock, h.slots⟩
  | offerCounter seller stamp offerId body =>
    obtain ⟨hstock, hslots⟩ := hoffer offerId .countered rfl
    exact ⟨hstock, hslots⟩
  | offerAccept username stamp offerId orderId =>
    obtain ⟨hstock, hslots⟩ := hoffer offerId .accepted rfl
    exact ⟨hstock, hslots⟩
  | offerReject username stamp offerId =>
    obtain ⟨hstock, hslots⟩ := hoffer offerId .rejected rfl
    exact ⟨hstock, hslots⟩

end Step

/-! ## Runs -/

theorem Counted.start : Counted ∅ ∅ ∅ [] := by
  constructor
  · intro productId product h
    cases h
  · intro seller store h
    cases h

theorem Counted.matched {sv : Service}
    (h : Counted sv.market.stores sv.market.products sv.market.orders sv.ledger) : Matched sv := by
  constructor
  · intro productId product created hproduct hcreated
    have hstock := (h.stock productId product hproduct).1
    rw [hcreated] at hstock
    obtain ⟨inventory, hinventory, hsum⟩ := Option.map_eq_some_iff.1 (Option.some.inj hstock).symm
    exact ⟨inventory, hinventory, hsum⟩
  · intro seller store hstore hactive
    obtain ⟨hused, hle, -⟩ := h.slots seller store hstore
    exact ⟨hused, hle⟩

variable {sha256Hex : String → String}

/-- The counters match the records in every state of a run whose writes all still fit. -/
theorem counters_match {hist : List (Service × Op)} {sv : Service}
    (h : Run (service sha256Hex) Fits hist sv) : Matched sv := by
  refine Counted.matched (Run.invariant
    (I := fun sv => Counted sv.market.stores sv.market.products sv.market.orders sv.ledger)
    ?_ ?_ ?_ h)
  · rintro sv rfl
    exact Counted.start
  · intro sv op hfits hcounted
    dsimp only [service]
    cases op with
    | request user d r =>
      rw [step_request]
      exact hcounted
    | sweep stamp => exact hcounted
    | persist thread =>
      cases hnext : sv.next thread with
      | none =>
        rw [step_persist_none sha256Hex hnext]
        exact hcounted
      | some next =>
        obtain ⟨m', hafter, hstep⟩ := step_persist sha256Hex hnext
        rw [hstep]
        exact hcounted.write (hfits next hnext) hafter
  · rintro sv sv' rfl hcounted
    exact hcounted

/-! ## A shop -/

def teaShop : OpenStoreRequest := ⟨some "Ann's teas", none, none, none, some 10, none⟩

/-- Five packets at 5 HONE each. -/
def tea : CreateProductRequest where
  slug := "tea"
  title := "Tea"
  description := none
  price := 0x4014000000000000
  token := none
  imageCid := none
  inventory := some 5
  categories := none
  autoDeliver := none
  deliveryCid := none
  salePrice := none
  saleEndsEpoch := none
  minPrice := none
  suggestedPrice := none
  tipEnabled := none
  condition := none
  conditionNotes := none
  expectedDeliveryEpoch := none
  specs := none
  imageCids := none

def drawnAt (orderId : String) : Drawn :=
  ⟨orderId, "9f1d2c3b4a5e6f70", "0a1b2c3d4e5f6071", 20, ⟨20, 1777633800000⟩, ⟨20, 1777633800000⟩⟩

def threePackets : PlaceOrderRequest := ⟨"ann/tea", some 3, none, none, none⟩

def bobsDraw : Drawn := drawnAt "1c9e6f1b2d3a4c5d8e7f9a0b"

def carlsDraw : Drawn := drawnAt "7d4b0a9c8e6f4f2a9b1c3d5e"

def listing : List Op := [
  .request "ann" bobsDraw (.openStore teaShop), .persist 0,
  .request "ann" bobsDraw (.createProduct tea), .persist 1]

/-- Bob buys and cancels, then Carl buys. -/
def inTurn : List Op := listing ++ [
  .request "bob" bobsDraw (.placeOrder threePackets), .persist 2,
  .request "bob" bobsDraw (.cancelOrder "ord-1c9e6f1b2d3a4c5d8e7f9a0b"), .persist 3,
  .request "carl" carlsDraw (.placeOrder threePackets), .persist 4]

/-- Bob and Carl are both checked before one of them is persisted. -/
def race : List Op := listing ++ [
  .request "bob" bobsDraw (.placeOrder threePackets),
  .request "carl" carlsDraw (.placeOrder threePackets), .persist 2, .persist 3]

def market : Component Service Op := service fun _ => ""

theorem counters_match_inTurn : Matched (market.exec .start inTurn) :=
  counters_match (Run.exec (.start rfl) (show Legal market Fits .start inTurn by decide))

/-- Two buyers are sold six packets of five. -/
theorem racing_buyers_oversell :
    Run market (fun _ _ => True) (market.record .start race []) (market.exec .start race) ∧
    createdWith (market.exec .start race).ledger "ann/tea" = some (some 5) ∧
    sold (market.exec .start race).market.orders "ann/tea" = 6 ∧
    ((market.exec .start race).market.products.get "ann/tea").map Product.inventory =
      some (some 0) ∧
    ¬ Matched (market.exec .start race) := by
  have hcreated : createdWith (market.exec .start race).ledger "ann/tea" = some (some 5) := rfl
  have hsold : sold (market.exec .start race).market.orders "ann/tea" = 6 := rfl
  have hleft : ((market.exec .start race).market.products.get "ann/tea").map Product.inventory =
    some (some 0) := rfl
  refine ⟨Run.exec (.start rfl) (legal_true _ _), hcreated, hsold, hleft, fun hmatched => ?_⟩
  obtain ⟨product, hproduct, hnone⟩ := Option.map_eq_some_iff.1 hleft
  obtain ⟨inventory, hinventory, hsum⟩ := hmatched.stock _ product 5 hproduct hcreated
  rw [hnone] at hinventory
  rw [hsold, ← Option.some.inj hinventory] at hsum
  exact absurd hsum (by decide)

end HoneNode.Market
