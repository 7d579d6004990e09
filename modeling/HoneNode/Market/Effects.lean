import HoneNode.Market.Requests

/-!
# Market.Effects — what each write does to the state

One lemma for each write: which records it touches and what of them changes.
The counters and the life cycle are derived from these alone.
-/

namespace HoneNode.Market

/-! ## Changing a record -/

section Modify

variable {ν : Type} {m : Kv String ν} {key : String} {f : ν → ν}

theorem get_modify (m : Kv String ν) (key : String) (f : ν → ν) (k : String) :
    (modify m key f).get k = if key = k then (m.get k).map f else m.get k := by
  unfold modify
  cases hget : m.get key with
  | none =>
    by_cases hk : key = k
    · subst hk
      rw [if_pos rfl, hget]
      rfl
    · rw [if_neg hk]
  | some v =>
    by_cases hk : key = k
    · subst hk
      rw [if_pos rfl, hget]
      exact Kv.get_put_self _ _ _
    · rw [if_neg hk]
      exact Kv.get_put_of_ne _ _ hk

/-- A change counts the new record in place of the old one. -/
theorem sumBy_modify (count : String → ν → ℕ) (m : Kv String ν) (key : String) (f : ν → ν) :
    (modify m key f).sumBy count + (m.get key).elim 0 (count key) =
      m.sumBy count + (m.get key).elim 0 fun v => count key (f v) := by
  unfold modify
  cases hget : m.get key with
  | none => rfl
  | some v =>
    have hput := Kv.sumBy_put count m key (f v)
    rw [hget] at hput
    exact hput

theorem sumBy_modify_of_eq {count : String → ν → ℕ} (h : ∀ v, count key (f v) = count key v) :
    (modify m key f).sumBy count = m.sumBy count := by
  have hsum := sumBy_modify count m key f
  have hsame : ((m.get key).elim 0 fun v => count key (f v)) = (m.get key).elim 0 (count key) := by
    cases m.get key with
    | none => rfl
    | some v => exact h v
  omega

end Modify

/-! ## Stores and products -/

/-- The state after a write is persisted. -/
def after (m : MarketState) (w : Write) : Option MarketState := m.applyEntry w.entry.toValue

section Effects

variable (m : MarketState) (stamp : Stamp)

theorem after_storeOpen (seller name : String) (capacity : UInt32) (stakeAmount stakePaidUsd : F64)
    (body : OpenStoreRequest) : ∃ store : Store, store.usedCapacity = 0 ∧
      store.capacity < 2 ^ 32 ∧
      after m (.storeOpen seller stamp name capacity stakeAmount stakePaidUsd body) =
        some { m with stores := m.stores.put seller store } :=
  ⟨_, rfl, Nat.mod_lt _ (by decide), rfl⟩

theorem after_storeClose (seller : String) :
    after m (.storeClose seller stamp) = some { m with
      stores := modify m.stores seller fun store => { store with status := .closed } } :=
  rfl

theorem asU32_toNat (n : UInt32) : asU32 n.toNat = n.toNat := Nat.mod_eq_of_lt n.toNat_lt

theorem buildProductId_ne (seller slug : String) : buildProductId seller slug ≠ "" := by
  unfold buildProductId
  simp

theorem after_productCreate (seller : String) (body : CreateProductRequest) :
    ∃ product : Product, product.seller = seller ∧ product.status = .active ∧
      product.inventory = body.inventory.map UInt32.toNat ∧
      after m (.productCreate seller stamp body) = some { m with
        stores := modify m.stores seller fun store =>
          { store with usedCapacity := min (store.usedCapacity + 1) maxU32 }
        products := m.products.put (buildProductId seller body.slug) product } := by
  refine ⟨_, ?_, ?_, ?_, congrArg some (if_neg (buildProductId_ne seller body.slug))⟩
  · rfl
  · rfl
  · change ((jsonOpt (fun n : UInt32 => jsonNat n.toNat) body.inventory).asU64.map asU32) = _
    cases body.inventory with
    | none => rfl
    | some n => exact congrArg some (asU32_toNat n)

theorem after_productDelist (seller productId : String) :
    after m (.productDelist seller stamp productId) =
      some (match m.products.get productId with
        | none => m
        | some product => { m with
          products := m.products.put productId { product with status := .delisted }
          stores := modify m.stores product.seller fun store =>
            { store with usedCapacity := store.usedCapacity - 1 } }) :=
  rfl

/-! ## Orders -/

theorem after_orderPlace (buyer seller orderId escrowId productId : String) (quantity : UInt32)
    (unitPrice total : F64) (token : String) (origin : Origin) :
    ∃ order : Order, order.productId = productId ∧ order.quantity = quantity.toNat ∧
      order.status = .pending ∧ order.escrowLocked = true ∧
      after m (.orderPlace buyer seller stamp orderId escrowId productId quantity unitPrice total
          token origin) =
        some (if orderId = "" then m else { m with
          products := modify m.products productId fun product =>
            { product with inventory := product.inventory.map (· - asU32 quantity.toNat) }
          orders := m.orders.put orderId order }) :=
  ⟨_, rfl, asU32_toNat quantity, rfl, rfl, rfl⟩

/-- The order that a write moves, and where. -/
def Write.orderTarget : Write → Option (String × OrderStatus)
  | .orderFulfill _ _ orderId _ _ => some (orderId, .fulfilled)
  | .autoFulfill _ _ orderId _ _ => some (orderId, .fulfilled)
  | .orderDelivered _ _ orderId => some (orderId, .delivered)
  | .orderCancel _ _ orderId _ => some (orderId, .cancelled)
  | .orderDispute _ _ orderId _ => some (orderId, .disputed)
  | _ => none

/-- An order has come to its end. -/
def OrderStatus.settled : OrderStatus → Bool
  | .delivered | .cancelled => true
  | _ => false

/-- What a move of an order keeps; the escrow is unlocked where the order is settled. -/
structure MovesTo (target : OrderStatus) (order order' : Order) : Prop where
  productId : order'.productId = order.productId
  quantity : order'.quantity = order.quantity
  status : order'.status = target
  escrowLocked : order'.escrowLocked = (order.escrowLocked && !target.settled)

/-- The products after the cancellation of an order. -/
def restocked (orderId : String) : Kv String Product :=
  match m.orders.get orderId with
  | none => m.products
  | some order => modify m.products order.productId fun product =>
    { product with inventory := product.inventory.map fun inv => asU32 (inv + order.quantity) }

theorem after_orderTarget {w : Write} {orderId : String} {status : OrderStatus}
    (h : w.orderTarget = some (orderId, status)) :
    ∃ f : Order → Order, (∀ order, MovesTo status order (f order)) ∧
      after m w = some { m with
        orders := modify m.orders orderId f
        products := if status = .cancelled then restocked m orderId else m.products } := by
  cases w with
  | orderFulfill seller stamp orderId body key =>
    cases h
    refine ⟨_, ?_, rfl⟩
    exact fun order => ⟨rfl, rfl, rfl, (Bool.and_true _).symm⟩
  | autoFulfill seller stamp orderId cid key =>
    cases h
    refine ⟨_, ?_, rfl⟩
    exact fun order => ⟨rfl, rfl, rfl, (Bool.and_true _).symm⟩
  | orderDelivered buyer stamp orderId =>
    cases h
    refine ⟨_, ?_, rfl⟩
    exact fun order => ⟨rfl, rfl, rfl, (Bool.and_false _).symm⟩
  | orderDispute buyer stamp orderId memo =>
    cases h
    refine ⟨_, ?_, rfl⟩
    exact fun order => ⟨rfl, rfl, rfl, (Bool.and_true _).symm⟩
  | orderCancel party stamp orderId reason =>
    cases h
    refine ⟨fun order => { order with status := .cancelled, escrowLocked := false },
      fun order => ⟨rfl, rfl, rfl, (Bool.and_false _).symm⟩, ?_⟩
    have hcancel : after m (.orderCancel party stamp orderId reason) =
        some (match m.orders.get orderId with
          | none => m
          | some order => { m with
            orders := m.orders.put orderId { order with status := .cancelled, escrowLocked := false }
            products := modify m.products order.productId fun product =>
              { product with
                inventory := product.inventory.map fun inv => asU32 (inv + order.quantity) } }) :=
      rfl
    rw [hcancel, if_pos rfl]
    unfold modify restocked
    cases m.orders.get orderId with
    | none => rfl
    | some order => rfl
  | _ => cases h

/-! ## Offers -/

theorem after_offerPlace (buyer seller offerId : String) (body : PlaceOfferRequest) :
    ∃ offer : Offer, offer.status = .pending ∧
      after m (.offerPlace buyer seller stamp offerId body) =
        some (if offerId = "" then m else { m with offers := m.offers.put offerId offer }) :=
  ⟨_, rfl, rfl⟩

/-- The offer that a write moves, and where. -/
def Write.offerTarget : Write → Option (String × OfferStatus)
  | .offerCounter _ _ offerId _ => some (offerId, .countered)
  | .offerAccept _ _ offerId _ => some (offerId, .accepted)
  | .offerReject _ _ offerId => some (offerId, .rejected)
  | _ => none

theorem after_offerTarget {w : Write} {offerId : String} {status : OfferStatus}
    (h : w.offerTarget = some (offerId, status)) :
    ∃ f : Offer → Offer, (∀ offer, (f offer).status = status ∧
        (f offer).expiresEpoch = offer.expiresEpoch) ∧
      after m w = some { m with offers := modify m.offers offerId f } := by
  cases w with
  | offerCounter seller stamp offerId body =>
    cases h
    refine ⟨_, ?_, rfl⟩
    exact fun offer => ⟨rfl, rfl⟩
  | offerAccept username stamp offerId orderId =>
    cases h
    refine ⟨_, ?_, rfl⟩
    exact fun offer => ⟨rfl, rfl⟩
  | offerReject username stamp offerId =>
    cases h
    refine ⟨_, ?_, rfl⟩
    exact fun offer => ⟨rfl, rfl⟩
  | _ => cases h

/-- No write of a request panics. -/
theorem after_isSome (w : Write) : ∃ m', after m w = some m' := by
  cases w with
  | _ => exact ⟨_, rfl⟩

end Effects

/-! ## Steps -/

section Steps

variable (sha256Hex : String → String) {sv : Service}

/-- A request only adds its thread, if it is not refused. -/
theorem step_request (user : String) (d : Drawn) (r : Request) :
    sv.step sha256Hex (.request user d r) = { sv with
      threads := sv.threads ++ ((check sha256Hex sv.market user d r).toOption).toList } := by
  unfold Service.step
  dsimp only
  cases check sha256Hex sv.market user d r with
  | error e =>
    change sv = { sv with threads := sv.threads ++ [] }
    rw [List.append_nil]
  | ok writes => rfl

theorem step_persist {thread : ℕ} {w : Write} {rest : List Write}
    (h : sv.next thread = some (w, rest)) : ∃ m', after sv.market w = some m' ∧
      sv.step sha256Hex (.persist thread) = ⟨m', sv.threads.set thread rest, w :: sv.ledger⟩ := by
  obtain ⟨m', hm'⟩ := after_isSome sv.market w
  refine ⟨m', hm', ?_⟩
  unfold after at hm'
  unfold Service.step
  dsimp only
  rw [h]
  dsimp only
  rw [hm', Option.getD_some]

theorem step_persist_none {thread : ℕ} (h : sv.next thread = none) :
    sv.step sha256Hex (.persist thread) = sv := by
  unfold Service.step
  dsimp only
  rw [h]

end Steps

end HoneNode.Market
