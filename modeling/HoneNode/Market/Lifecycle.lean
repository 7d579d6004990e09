import HoneNode.Market.Counters
import HoneNode.Lib.LifeCycle

/-!
# Market.Lifecycle — how orders and offers move

A handler looks at the status and an entry writes one, whatever it is by then.
As long as the guard of the handler still holds when its entry is applied, an
order is settled once and its escrow is unlocked there, and an offer leads to
one order at most. `accept_offer` has no guard for the expiry.
-/

namespace HoneNode.Market

open Trace LifeCycle

/-! ## The life cycles -/

/-- Pending, fulfilled, delivered; an open order may be cancelled or disputed. -/
def OrderStatus.next : OrderStatus → List OrderStatus
  | .pending => [.fulfilled, .cancelled, .disputed]
  | .fulfilled => [.delivered, .cancelled, .disputed]
  | _ => []

def OfferStatus.next : OfferStatus → List OfferStatus
  | .pending => [.countered, .accepted, .rejected]
  | .countered => [.accepted, .rejected]
  | _ => []

def OfferStatus.closed : OfferStatus → Bool
  | .accepted | .rejected => true
  | _ => false

def orderCycle : Cycle Order OrderStatus := ⟨Order.status, .pending, OrderStatus.next⟩

def offerCycle : Cycle Offer OfferStatus := ⟨Offer.status, .pending, OfferStatus.next⟩

/-- The write places the order of an accepted offer. -/
def placesFor (offerId : String) : Write → Bool
  | .orderPlace _ _ _ _ _ _ _ _ _ _ (.offer id) => decide (id = offerId)
  | _ => false

/-- One step: nothing moves but along its cycle, and an offer is accepted in time. -/
structure Proceeds (sv sv' : Service) : Prop where
  orders : Advances orderCycle sv.market.orders sv'.market.orders
  offers : Advances offerCycle sv.market.offers sv'.market.offers
  inTime : ∀ offerId offer offer', sv.market.offers.get offerId = some offer →
    sv'.market.offers.get offerId = some offer' → offer.status ≠ .accepted →
      offer'.status = .accepted → ∃ username stamp orderId,
        sv'.ledger = .offerAccept username stamp offerId orderId :: sv.ledger ∧
          stamp.epoch ≤ offer.expiresEpoch

/-- What holds of a run with its history and of the state that it reaches. -/
structure Orderly (sha256Hex : String → String) (hist : List (Service × Op)) (sv : Service) :
    Prop where
  steps : ∀ t op, (t, op) ∈ hist → Proceeds t (t.step sha256Hex op)
  settled : ∀ t op, (t, op) ∈ hist → ∀ orderId order, t.market.orders.get orderId = some order →
    order.status.settled = true →
      ∃ order', sv.market.orders.get orderId = some order' ∧ order'.status = order.status
  escrow : ∀ orderId order, sv.market.orders.get orderId = some order →
    order.escrowLocked = !order.status.settled
  closed : ∀ t op, (t, op) ∈ hist → ∀ offerId offer, t.market.offers.get offerId = some offer →
    offer.status.closed = true →
      ∃ offer', sv.market.offers.get offerId = some offer' ∧ offer'.status = offer.status
  oneOrder : ∀ offerId, sv.ledger.countP (placesFor offerId) ≤ 1

/-! ## When the guards still hold -/

/-- The guard of the handler holds of the state in which the write is applied, new ids are new,
and an offer is accepted before it expires. -/
def Guarded (m : MarketState) : Write → Prop
  | .orderPlace _ _ _ orderId _ _ _ _ _ _ _ => m.orders.get orderId = none
  | .orderFulfill _ _ orderId _ _ | .autoFulfill _ _ orderId _ _ =>
    ∀ order ∈ m.orders.get orderId, order.status = .pending
  | .orderDelivered _ _ orderId => ∀ order ∈ m.orders.get orderId, order.status = .fulfilled
  | .orderCancel _ _ orderId _ | .orderDispute _ _ orderId _ =>
    ∀ order ∈ m.orders.get orderId, order.status = .pending ∨ order.status = .fulfilled
  | .offerPlace _ _ _ offerId _ => m.offers.get offerId = none
  | .offerCounter _ _ offerId _ => ∀ offer ∈ m.offers.get offerId, offer.status = .pending
  | .offerAccept _ stamp offerId _ => ∃ offer ∈ m.offers.get offerId,
    (offer.status = .pending ∨ offer.status = .countered) ∧ stamp.epoch ≤ offer.expiresEpoch
  | .offerReject _ _ offerId =>
    ∀ offer ∈ m.offers.get offerId, offer.status = .pending ∨ offer.status = .countered
  | .storeOpen .. | .storeClose .. | .productCreate .. | .productDelist .. => True

instance (m : MarketState) : DecidablePred (Guarded m)
  | .orderPlace .. => decidable_of_iff ((m.orders.get _).isNone = true) Option.isNone_iff_eq_none
  | .offerPlace .. => decidable_of_iff ((m.offers.get _).isNone = true) Option.isNone_iff_eq_none
  | .orderFulfill .. | .autoFulfill .. | .orderDelivered .. | .orderCancel .. | .orderDispute ..
  | .offerCounter .. | .offerReject .. => inferInstanceAs (Decidable (∀ _ ∈ _, _))
  | .offerAccept .. => inferInstanceAs (Decidable (∃ _ ∈ _, _))
  | .storeOpen .. | .storeClose .. | .productCreate .. | .productDelist .. => .isTrue trivial

/-- A thread persists only a write whose guard still holds. -/
def Current (sv : Service) : Op → Prop
  | .persist thread => ∀ next ∈ sv.next thread, Guarded sv.market next.1
  | _ => True

instance (sv : Service) : DecidablePred (Current sv)
  | .persist _ => inferInstanceAs (Decidable (∀ _ ∈ _, _))
  | .request .. | .sweep .. => .isTrue trivial

section Writes

variable {m m' : MarketState} {w : Write}

theorem next_of_orderTarget {orderId : String} {target : OrderStatus}
    (h : w.orderTarget = some (orderId, target)) (hguard : Guarded m w) :
    ∀ order ∈ m.orders.get orderId, target ∈ order.status.next := by
  have hopen : ∀ {status : OrderStatus}, status = .pending ∨ status = .fulfilled →
      OrderStatus.cancelled ∈ status.next ∧ OrderStatus.disputed ∈ status.next := by
    rintro status (rfl | rfl)
    · decide
    · decide
  intro order horder
  cases w with
  | orderFulfill seller stamp orderId body key =>
    cases h
    rw [hguard order horder]
    decide
  | autoFulfill seller stamp orderId cid key =>
    cases h
    rw [hguard order horder]
    decide
  | orderDelivered buyer stamp orderId =>
    cases h
    rw [hguard order horder]
    decide
  | orderCancel party stamp orderId reason =>
    cases h
    exact (hopen (hguard order horder)).1
  | orderDispute buyer stamp orderId memo =>
    cases h
    exact (hopen (hguard order horder)).2
  | _ => cases h

theorem next_of_offerTarget {offerId : String} {target : OfferStatus}
    (h : w.offerTarget = some (offerId, target)) (hguard : Guarded m w) :
    ∀ offer ∈ m.offers.get offerId, target ∈ offer.status.next := by
  have hopen : ∀ {status : OfferStatus}, status = .pending ∨ status = .countered →
      OfferStatus.accepted ∈ status.next ∧ OfferStatus.rejected ∈ status.next := by
    rintro status (rfl | rfl)
    · decide
    · decide
  intro offer hoffer
  cases w with
  | offerCounter seller stamp offerId body =>
    cases h
    rw [hguard offer hoffer]
    decide
  | offerAccept username stamp offerId orderId =>
    cases h
    obtain ⟨offer', hoffer', hstatus, -⟩ := hguard
    cases hoffer.symm.trans hoffer'
    exact (hopen hstatus).1
  | offerReject username stamp offerId =>
    cases h
    exact (hopen (hguard offer hoffer)).2
  | _ => cases h

/-- What a write does to the orders and offers while its guard holds. -/
inductive Change (m m' : MarketState) (w : Write) : Prop where
  | still (horders : m'.orders = m.orders) (hoffers : m'.offers = m.offers)
  | placed (orderId : String) (order : Order) (hfresh : m.orders.get orderId = none)
    (hpending : order.status = .pending) (hlocked : order.escrowLocked = true)
    (horders : m'.orders = m.orders.put orderId order) (hoffers : m'.offers = m.offers)
  | moved (orderId : String) (target : OrderStatus) (f : Order → Order)
    (hnext : ∀ order ∈ m.orders.get orderId, target ∈ order.status.next)
    (hf : ∀ order, MovesTo target order (f order))
    (horders : m'.orders = modify m.orders orderId f) (hoffers : m'.offers = m.offers)
  | offered (offerId : String) (offer : Offer) (hfresh : m.offers.get offerId = none)
    (hpending : offer.status = .pending) (horders : m'.orders = m.orders)
    (hoffers : m'.offers = m.offers.put offerId offer)
  | answered (offerId : String) (target : OfferStatus) (f : Offer → Offer)
    (htarget : w.offerTarget = some (offerId, target))
    (hnext : ∀ offer ∈ m.offers.get offerId, target ∈ offer.status.next)
    (hf : ∀ offer, (f offer).status = target) (horders : m'.orders = m.orders)
    (hoffers : m'.offers = modify m.offers offerId f)

theorem change_of_guarded (hguard : Guarded m w) (hafter : after m w = some m') :
    Change m m' w := by
  have hmove : ∀ orderId target, w.orderTarget = some (orderId, target) → Change m m' w := by
    intro orderId target htarget
    obtain ⟨f, hf, heq⟩ := after_orderTarget m htarget
    cases hafter.symm.trans heq
    exact .moved orderId target f (next_of_orderTarget htarget hguard) hf rfl rfl
  have hanswer : ∀ offerId target, w.offerTarget = some (offerId, target) → Change m m' w := by
    intro offerId target htarget
    obtain ⟨f, hf, heq⟩ := after_offerTarget m htarget
    cases hafter.symm.trans heq
    exact .answered offerId target f htarget (next_of_offerTarget htarget hguard)
      (fun offer => (hf offer).1) rfl rfl
  cases w with
  | storeOpen seller stamp name capacity stakeAmount stakePaidUsd body =>
    obtain ⟨store, -, -, heq⟩ := after_storeOpen m stamp seller name capacity stakeAmount
      stakePaidUsd body
    cases hafter.symm.trans heq
    exact .still rfl rfl
  | storeClose seller stamp =>
    cases hafter.symm.trans (after_storeClose m stamp seller)
    exact .still rfl rfl
  | productCreate seller stamp body =>
    obtain ⟨product, -, -, -, heq⟩ := after_productCreate m stamp seller body
    cases hafter.symm.trans heq
    exact .still rfl rfl
  | productDelist seller stamp productId =>
    have heq := hafter.symm.trans (after_productDelist m stamp seller productId)
    cases hget : m.products.get productId with
    | none =>
      rw [hget] at heq
      cases heq
      exact .still rfl rfl
    | some product =>
      rw [hget] at heq
      cases heq
      exact .still rfl rfl
  | orderPlace buyer seller stamp orderId escrowId productId quantity unitPrice total token origin =>
    obtain ⟨order, -, -, hpending, hlocked, heq⟩ := after_orderPlace m stamp buyer seller orderId
      escrowId productId quantity unitPrice total token origin
    by_cases hempty : orderId = ""
    · rw [if_pos hempty] at heq
      cases hafter.symm.trans heq
      exact .still rfl rfl
    · rw [if_neg hempty] at heq
      cases hafter.symm.trans heq
      exact .placed orderId order hguard hpending hlocked rfl rfl
  | orderFulfill seller stamp orderId body key => exact hmove orderId .fulfilled rfl
  | autoFulfill seller stamp orderId cid key => exact hmove orderId .fulfilled rfl
  | orderDelivered buyer stamp orderId => exact hmove orderId .delivered rfl
  | orderCancel party stamp orderId reason => exact hmove orderId .cancelled rfl
  | orderDispute buyer stamp orderId memo => exact hmove orderId .disputed rfl
  | offerPlace buyer seller stamp offerId body =>
    obtain ⟨offer, hpending, heq⟩ := after_offerPlace m stamp buyer seller offerId body
    by_cases hempty : offerId = ""
    · rw [if_pos hempty] at heq
      cases hafter.symm.trans heq
      exact .still rfl rfl
    · rw [if_neg hempty] at heq
      cases hafter.symm.trans heq
      exact .offered offerId offer hguard hpending rfl rfl
  | offerCounter seller stamp offerId body => exact hanswer offerId .countered rfl
  | offerAccept username stamp offerId orderId => exact hanswer offerId .accepted rfl
  | offerReject username stamp offerId => exact hanswer offerId .rejected rfl

/-! ## One write -/

theorem advances_modify {ν τ : Type} {c : Cycle ν τ} {records : Kv String ν} {key : String}
    {f : ν → ν} (h : ∀ r ∈ records.get key, c.status (f r) ∈ c.next (c.status r)) :
    Advances c records (modify records key f) := by
  unfold modify
  cases hget : records.get key with
  | none => exact Advances.refl c records
  | some r => exact Advances.put_next hget (h r hget)

theorem Change.orders (h : Change m m' w) : Advances orderCycle m.orders m'.orders := by
  cases h with
  | still horders => exact horders ▸ Advances.refl _ _
  | placed orderId order hfresh hpending hlocked horders =>
    exact horders ▸ Advances.put_start hfresh hpending
  | moved orderId target f hnext hf horders =>
    refine horders ▸ advances_modify fun order horder => ?_
    change (f order).status ∈ _
    rw [(hf order).status]
    exact hnext order horder
  | offered offerId offer hfresh hpending horders => exact horders ▸ Advances.refl _ _
  | answered offerId target f htarget hnext hf horders => exact horders ▸ Advances.refl _ _

theorem Change.offers (h : Change m m' w) : Advances offerCycle m.offers m'.offers := by
  cases h with
  | still horders hoffers => exact hoffers ▸ Advances.refl _ _
  | placed orderId order hfresh hpending hlocked horders hoffers =>
    exact hoffers ▸ Advances.refl _ _
  | moved orderId target f hnext hf horders hoffers => exact hoffers ▸ Advances.refl _ _
  | offered offerId offer hfresh hpending horders hoffers =>
    exact hoffers ▸ Advances.put_start hfresh hpending
  | answered offerId target f htarget hnext hf horders hoffers =>
    refine hoffers ▸ advances_modify fun offer hoffer => ?_
    change (f offer).status ∈ _
    rw [hf offer]
    exact hnext offer hoffer

/-- An offer is accepted by its own entry only. -/
theorem Change.accepted (h : Change m m' w) {offerId : String} {offer offer' : Offer}
    (hget : m.offers.get offerId = some offer) (hget' : m'.offers.get offerId = some offer')
    (hopen : offer.status ≠ .accepted) (haccepted : offer'.status = .accepted) :
    w.offerTarget = some (offerId, .accepted) := by
  have hsame : m'.offers.get offerId ≠ m.offers.get offerId := by
    intro heq
    rw [hget, hget'] at heq
    cases heq
    exact hopen haccepted
  cases h with
  | still horders hoffers => exact absurd (hoffers ▸ rfl) hsame
  | placed orderId order hfresh hpending hlocked horders hoffers =>
    exact absurd (hoffers ▸ rfl) hsame
  | moved orderId target f hnext hf horders hoffers => exact absurd (hoffers ▸ rfl) hsame
  | offered offerId' offer₁ hfresh hpending horders hoffers =>
    refine absurd ?_ hsame
    rw [hoffers]
    refine Kv.get_put_of_ne _ _ ?_
    rintro rfl
    rw [hfresh] at hget
    cases hget
  | answered offerId' target f htarget hnext hf horders hoffers =>
    rw [hoffers, get_modify] at hget' hsame
    by_cases hid : offerId' = offerId
    · rw [if_pos hid, hget] at hget'
      cases hget'
      rw [hf offer] at haccepted
      rw [htarget, hid, haccepted]
    · rw [if_neg hid] at hsame
      exact absurd rfl hsame

/-- The escrow of an order is locked until the order is settled. -/
def Locked (orders : Kv String Order) : Prop :=
  ∀ orderId order, orders.get orderId = some order → order.escrowLocked = !order.status.settled

theorem OrderStatus.open_of_next {status target : OrderStatus} (h : target ∈ status.next) :
    status.settled = false := by
  cases status with
  | pending => rfl
  | fulfilled => rfl
  | _ => cases h

theorem Change.locked (h : Change m m' w) (hlocked : Locked m.orders) : Locked m'.orders := by
  cases h with
  | still horders => exact horders ▸ hlocked
  | offered offerId offer hfresh hpending horders => exact horders ▸ hlocked
  | answered offerId target f htarget hnext hf horders => exact horders ▸ hlocked
  | placed orderId order hfresh hpending hnew horders =>
    rw [horders]
    intro orderId' order' horder'
    rw [Kv.get_put] at horder'
    by_cases hid : orderId = orderId'
    · rw [if_pos hid] at horder'
      cases horder'
      rw [hnew, hpending]
      rfl
    · rw [if_neg hid] at horder'
      exact hlocked orderId' order' horder'
  | moved orderId target f hnext hf horders =>
    rw [horders]
    intro orderId' order' horder'
    rw [get_modify] at horder'
    by_cases hid : orderId = orderId'
    · subst hid
      rw [if_pos rfl] at horder'
      obtain ⟨order, horder, rfl⟩ := Option.map_eq_some_iff.1 horder'
      rw [(hf order).escrowLocked, (hf order).status, hlocked orderId order horder,
        OrderStatus.open_of_next (hnext order horder)]
      rfl
    · rw [if_neg hid] at horder'
      exact hlocked orderId' order' horder'

end Writes

/-! ## One order for an offer -/

/-- The thread is about to place the order of an offer that it has accepted. -/
def armed (offerId : String) (thread : List Write) : Bool := thread.head?.any (placesFor offerId)

/-- What a handler returns: no order of an offer, or one right after its acceptance. -/
def Opens (thread : List Write) : Prop :=
  (∀ w ∈ thread, ∀ offerId, placesFor offerId w = false) ∨
    ∃ username stamp offerId orderId place,
      thread = [.offerAccept username stamp offerId orderId, place] ∧
        ∀ id, placesFor id place = true → id = offerId

/-- What may be left of it. -/
def Shaped (thread : List Write) : Prop := Opens thread ∨ ∃ w, thread = [w]

def acceptances (offers : Kv String Offer) (offerId : String) : ℕ :=
  if (offers.get offerId).any (·.status = .accepted) then 1 else 0

/-- The orders of an offer, placed or about to be, are as many as its acceptances. -/
structure Once (sv : Service) : Prop where
  shaped : ∀ thread ∈ sv.threads, Shaped thread
  once : ∀ offerId, sv.ledger.countP (placesFor offerId) +
    sv.threads.countP (armed offerId) ≤ acceptances sv.market.offers offerId

theorem opens_single {w : Write} (h : ∀ offerId, placesFor offerId w = false) : Opens [w] := by
  refine .inl fun w' hw' => ?_
  rw [List.mem_singleton.1 hw']
  exact h

variable {writes : List Write} {m : MarketState}

theorem refuse_ne {code : ℕ} {text : String} :
    refuse code text ≠ .ok writes := nofun

theorem not_armed_of_opens {thread : List Write} (h : Opens thread) (offerId : String) :
    armed offerId thread = false := by
  rcases h with hquiet | ⟨username, stamp, offerId', orderId, place, rfl, -⟩
  · cases thread with
    | nil => rfl
    | cons w rest => exact hquiet w List.mem_cons_self offerId
  · rfl

theorem opens_placeOrder {sha256Hex : String → String} {user : String} {d : Drawn}
    {body : PlaceOrderRequest}
    (h : placeOrder sha256Hex m user d body = .ok writes) : Opens writes := by
  unfold placeOrder at h
  dsimp only at h
  split at h
  · exact absurd h refuse_ne
  split at h
  · cases h
  split at h
  · exact absurd h refuse_ne
  split at h
  · cases h
    refine .inl fun w hw offerId => ?_
    rcases List.mem_cons.1 hw with rfl | hw
    · rfl
    · rw [List.mem_singleton.1 hw]
      rfl
  · cases h
    exact opens_single fun _ => rfl

theorem opens_acceptOffer {user offerId : String} {d : Drawn}
    (h : acceptOffer m user d offerId = .ok writes) : Opens writes := by
  have hpair : ∀ {stamp orderId buyer seller escrowId productId quantity unitPrice total token},
      Opens [.offerAccept user stamp offerId orderId, .orderPlace buyer seller stamp orderId
        escrowId productId quantity unitPrice total token (.offer offerId)] :=
    .inr ⟨_, _, _, _, _, rfl, fun id hid => (of_decide_eq_true hid).symm⟩
  unfold acceptOffer at h
  dsimp only at h
  repeat' split at h
  all_goals first
    | exact absurd h refuse_ne
    | cases h
      exact hpair

theorem opens_check {sha256Hex : String → String} {user : String} {d : Drawn}
    {r : Request} (h : check sha256Hex m user d r = .ok writes) :
    Opens writes := by
  cases r with
  | placeOrder body => exact opens_placeOrder h
  | acceptOffer offerId => exact opens_acceptOffer h
  | _ =>
    -- every other handler returns one entry, after its guards
    simp only [check, openStore, closeStore, createProduct, delistProduct, fulfillOrder,
      deliverOrder, cancelOrder, disputeOrder, placeOffer, counterOffer, rejectOffer] at h
    repeat' split at h
    all_goals first
      | exact absurd h refuse_ne
      | cases h
        exact opens_single fun _ => rfl

theorem opens_expired {stamp : Stamp} :
    ∀ thread ∈ expired m stamp, Opens thread := by
  intro thread hthread
  obtain ⟨order, -, rfl⟩ := List.mem_map.1 hthread
  exact opens_single fun _ => rfl

section Steps

variable {sha256Hex : String → String} {sv : Service}

/-- New threads have nothing armed. -/
theorem Once.append {threads : List (List Write)} (h : Once sv)
    (hopens : ∀ thread ∈ threads, Opens thread) :
    Once { sv with threads := sv.threads ++ threads } := by
  constructor
  · intro thread hthread
    rcases List.mem_append.1 hthread with hold | hnew
    · exact h.shaped thread hold
    · exact .inl (hopens thread hnew)
  · intro offerId
    have hzero : threads.countP (armed offerId) = 0 := by
      rw [List.countP_eq_zero]
      intro thread hthread harmed
      rw [not_armed_of_opens (hopens thread hthread)] at harmed
      cases harmed
    have hbound := h.once offerId
    change _ + (sv.threads ++ threads).countP (armed offerId) ≤ _
    rw [List.countP_append, hzero]
    exact hbound

theorem acceptances_mono {offers offers' : Kv String Offer} (h : Advances offerCycle offers offers')
    (offerId : String) : acceptances offers offerId ≤ acceptances offers' offerId := by
  unfold acceptances
  cases hget : offers.get offerId with
  | none => exact Nat.zero_le _
  | some offer =>
    by_cases haccepted : offer.status = .accepted
    · obtain ⟨offer', hoffer', hsame⟩ := h.final hget
        (show OfferStatus.next offer.status = [] by rw [haccepted]; rfl)
      have hstatus : offer'.status = .accepted := hsame.trans haccepted
      rw [hoffer']
      simp [haccepted, hstatus]
    · simp [haccepted]

theorem Once.persist {thread : ℕ} {w : Write} {rest : List Write} {m' : MarketState}
    (h : Once sv) (hnext : sv.next thread = some (w, rest)) (hguard : Guarded sv.market w)
    (hafter : after sv.market w = some m') :
    Once ⟨m', sv.threads.set thread rest, w :: sv.ledger⟩ := by
  have hchange := change_of_guarded hguard hafter
  obtain ⟨hlt, hthread⟩ : ∃ hlt : thread < sv.threads.length, sv.threads[thread] = w :: rest := by
    unfold Service.next at hnext
    split at hnext
    · next w' rest' hget =>
      cases hnext
      exact List.getElem?_eq_some_iff.1 hget
    · cases hnext
  have hmem : w :: rest ∈ sv.threads := hthread ▸ List.getElem_mem hlt
  constructor
  · intro thread' hthread'
    rcases List.mem_or_eq_of_mem_set hthread' with hold | rfl
    · exact h.shaped thread' hold
    · rcases h.shaped _ hmem with (hquiet | ⟨_, _, _, _, place, heq, -⟩) | ⟨w', heq⟩
      · exact .inl (.inl fun w' hw' => hquiet w' (List.mem_cons_of_mem _ hw'))
      · cases heq
        exact .inr ⟨place, rfl⟩
      · cases heq
        refine .inl (.inl fun w'' hw'' => ?_)
        cases hw''
  · intro offerId
    have hbound := h.once offerId
    have hle := List.boole_getElem_le_countP (p := armed offerId) hlt
    -- what the thread was about to place is placed; what it is about to place now is new
    have hsum : (w :: sv.ledger).countP (placesFor offerId) +
        (sv.threads.set thread rest).countP (armed offerId) =
        sv.ledger.countP (placesFor offerId) + sv.threads.countP (armed offerId) +
          if armed offerId rest = true then 1 else 0 := by
      have hhead : armed offerId (w :: rest) = placesFor offerId w := rfl
      rw [hthread, hhead] at hle
      rw [List.countP_set hlt, hthread, hhead, List.countP_cons]
      omega
    change (w :: sv.ledger).countP _ + (sv.threads.set thread rest).countP _ ≤
      acceptances m'.offers offerId
    rw [hsum]
    by_cases harmed : armed offerId rest = true
    · rw [if_pos harmed]
      rcases h.shaped _ hmem with
        (hquiet | ⟨username, stamp, id, orderId, place, heq, hplace⟩) | ⟨w', heq⟩
      · cases rest with
        | nil => cases harmed
        | cons w' rest' =>
          have hplaces : placesFor offerId w' = true := harmed
          rw [hquiet w' (List.mem_cons_of_mem _ List.mem_cons_self)] at hplaces
          cases hplaces
      · cases heq
        obtain rfl := hplace offerId harmed
        have htarget : (Write.offerAccept username stamp offerId orderId).offerTarget =
          some (offerId, .accepted) := rfl
        obtain ⟨offer, hoffer, hstatus, -⟩ := hguard
        have hopen : offer.status ≠ .accepted := by
          rcases hstatus with hstatus | hstatus
          · rw [hstatus]
            decide
          · rw [hstatus]
            decide
        have hnone : acceptances sv.market.offers offerId = 0 := by
          unfold acceptances
          rw [Option.mem_def.1 hoffer]
          simp [hopen]
        have hone : acceptances m'.offers offerId = 1 := by
          obtain ⟨f, hf, heq⟩ := after_offerTarget sv.market htarget
          cases hafter.symm.trans heq
          unfold acceptances
          rw [get_modify, if_pos rfl, Option.mem_def.1 hoffer]
          simp [(hf offer).1]
        rw [hone]
        omega
      · cases heq
        cases harmed
    · rw [if_neg harmed]
      exact hbound.trans (acceptances_mono hchange.offers offerId)

/-! ## Runs -/

theorem proceeds_of_eq {sv' : Service} (h : sv'.market = sv.market) : Proceeds sv sv' := by
  refine ⟨h ▸ Advances.refl _ _, h ▸ Advances.refl _ _, ?_⟩
  intro offerId offer offer' hoffer hoffer' hopen haccepted
  rw [h, hoffer] at hoffer'
  cases hoffer'
  exact absurd haccepted hopen

theorem proceeds_step {op : Op} (h : Current sv op) : Proceeds sv (sv.step sha256Hex op) := by
  cases op with
  | request user d r =>
    rw [step_request]
    exact proceeds_of_eq rfl
  | sweep stamp => exact proceeds_of_eq rfl
  | persist thread =>
    cases hnext : sv.next thread with
    | none =>
      rw [step_persist_none sha256Hex hnext]
      exact proceeds_of_eq rfl
    | some next =>
      obtain ⟨w, rest⟩ := next
      obtain ⟨m', hafter, hstep⟩ := step_persist sha256Hex hnext
      have hguard : Guarded sv.market w := h (w, rest) hnext
      have hchange := change_of_guarded hguard hafter
      rw [hstep]
      refine ⟨hchange.orders, hchange.offers, ?_⟩
      intro offerId offer offer' hoffer hoffer' hopen haccepted
      have htarget := hchange.accepted hoffer hoffer' hopen haccepted
      cases w with
      | offerAccept username stamp offerId' orderId =>
        cases htarget
        obtain ⟨offer₁, hoffer₁, -, hintime⟩ := hguard
        cases hoffer.symm.trans hoffer₁
        exact ⟨username, stamp, orderId, rfl, hintime⟩
      | _ => cases htarget

theorem once_step {op : Op} (h : Once sv) (hcurrent : Current sv op) :
    Once (sv.step sha256Hex op) := by
  cases op with
  | request user d r =>
    rw [step_request]
    refine h.append fun thread hthread => ?_
    cases hcheck : check sha256Hex sv.market user d r with
    | error e =>
      rw [hcheck] at hthread
      cases hthread
    | ok writes =>
      rw [hcheck] at hthread
      rw [List.mem_singleton.1 hthread]
      exact opens_check hcheck
  | sweep stamp => exact h.append opens_expired
  | persist thread =>
    cases hnext : sv.next thread with
    | none =>
      rw [step_persist_none sha256Hex hnext]
      exact h
    | some next =>
      obtain ⟨m', hafter, hstep⟩ := step_persist sha256Hex hnext
      rw [hstep]
      exact h.persist hnext (hcurrent next hnext) hafter

theorem locked_step {op : Op} (h : Locked sv.market.orders) (hcurrent : Current sv op) :
    Locked (sv.step sha256Hex op).market.orders := by
  cases op with
  | request user d r =>
    rw [step_request]
    exact h
  | sweep stamp => exact h
  | persist thread =>
    cases hnext : sv.next thread with
    | none =>
      rw [step_persist_none sha256Hex hnext]
      exact h
    | some next =>
      obtain ⟨m', hafter, hstep⟩ := step_persist sha256Hex hnext
      rw [hstep]
      exact (change_of_guarded (hcurrent next hnext) hafter).locked h

/-- In a run in which every guard still holds when its entry is applied, orders and offers keep
to their life cycles. -/
theorem lifecycle_kept {hist : List (Service × Op)}
    (h : Run (service sha256Hex) Current hist sv) : Orderly sha256Hex hist sv := by
  have hinv : Locked sv.market.orders ∧ Once sv := by
    refine Run.invariant (I := fun sv => Locked sv.market.orders ∧ Once sv) ?_ ?_ ?_ h
    · rintro sv rfl
      refine ⟨fun orderId order horder => ?_, ⟨nofun, fun offerId => Nat.zero_le _⟩⟩
      cases horder
    · exact fun sv op hcurrent hsv => ⟨locked_step hsv.1 hcurrent, once_step hsv.2 hcurrent⟩
    · rintro sv sv' rfl hsv
      exact hsv
  constructor
  · exact fun t op hmem => proceeds_step (h.of_mem hmem).1
  · intro t op hmem orderId order horder hsettled
    refine final_of_run (c := orderCycle) (fun sv : Service => sv.market.orders)
      (fun sv op hcurrent => (proceeds_step hcurrent).orders) ?_ h hmem horder ?_
    · rintro sv sv' rfl
      exact Advances.refl _ _
    · change OrderStatus.next order.status = []
      cases hstatus : order.status with
      | delivered => rfl
      | cancelled => rfl
      | _ =>
        rw [hstatus] at hsettled
        cases hsettled
  · exact hinv.1
  · intro t op hmem offerId offer hoffer hclosed
    refine final_of_run (c := offerCycle) (fun sv : Service => sv.market.offers)
      (fun sv op hcurrent => (proceeds_step hcurrent).offers) ?_ h hmem hoffer ?_
    · rintro sv sv' rfl
      exact Advances.refl _ _
    · change OfferStatus.next offer.status = []
      cases hstatus : offer.status with
      | accepted => rfl
      | rejected => rfl
      | _ =>
        rw [hstatus] at hclosed
        cases hclosed
  · intro offerId
    have hbound := hinv.2.once offerId
    have hone : acceptances sv.market.offers offerId ≤ 1 := by
      unfold acceptances
      split
      · exact Nat.le_refl _
      · exact Nat.zero_le _
    omega

end Steps

/-! ## An order and an offer -/

def packet : PlaceOrderRequest := ⟨"ann/tea", none, none, none, none⟩

def bobsOrder : String := "ord-1c9e6f1b2d3a4c5d8e7f9a0b"

def shipped : List Op := listing ++ [
  .request "bob" bobsDraw (.placeOrder packet), .persist 2,
  .request "ann" bobsDraw (.fulfillOrder bobsOrder ⟨none, some "ups", none, none, none⟩), .persist 3]

/-- The packet arrives, and Ann takes Carl's offer of 4 HONE for another one. -/
def allInTurn : List Op := shipped ++ [
  .request "bob" bobsDraw (.deliverOrder bobsOrder), .persist 4,
  .request "carl" carlsDraw (.placeOffer ⟨"ann/tea", 0x4010000000000000, none⟩), .persist 5,
  .request "ann" carlsDraw (.acceptOffer "ofr-0a1b2c3d4e5f6071"), .persist 6, .persist 6]

theorem lifecycle_kept_allInTurn :
    Orderly (fun _ => "") (market.record .start allInTurn []) (market.exec .start allInTurn) :=
  lifecycle_kept (Run.exec (.start rfl) (show Legal market Current .start allInTurn by decide))

/-- Bob confirms the receipt while Ann cancels, and both are checked before one is persisted. -/
def released : List Op := shipped ++ [
  .request "bob" bobsDraw (.deliverOrder bobsOrder),
  .request "ann" bobsDraw (.cancelOrder bobsOrder), .persist 4]

/-- The escrow of the order is released to the seller, and then refunded. -/
theorem delivered_order_cancelled :
    let t := market.exec .start released
    let sv := market.step t (.persist 5)
    Run market (fun _ _ => True) ((t, .persist 5) :: market.record .start released []) sv ∧
    (t.market.orders.get bobsOrder).map Order.status = some .delivered ∧
    (sv.market.orders.get bobsOrder).map Order.status = some .cancelled ∧
    ¬ Orderly (fun _ => "") ((t, .persist 5) :: market.record .start released []) sv := by
  intro t sv
  have hbefore : (t.market.orders.get bobsOrder).map Order.status = some .delivered := rfl
  have hafter : (sv.market.orders.get bobsOrder).map Order.status = some .cancelled := rfl
  refine ⟨.step _ (Run.exec (.start rfl) (legal_true _ _)) trivial, hbefore, hafter,
    fun horderly => ?_⟩
  obtain ⟨order, horder, hstatus⟩ := Option.map_eq_some_iff.1 hbefore
  obtain ⟨order', horder', hsame⟩ := horderly.settled t _ List.mem_cons_self bobsOrder order horder
    (by rw [hstatus]; rfl)
  rw [horder', Option.map_some, hsame, hstatus] at hafter
  cases hafter

end HoneNode.Market
