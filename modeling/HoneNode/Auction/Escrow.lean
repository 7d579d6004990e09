import HoneNode.Auction.Calls

/-!
# Auction.Escrow — the money of the auction house

The top bid of a live auction is held by its record alone. Opening an id anew
drops the record, and a payment that overflows is dropped with it; where
neither happens, balances and top bids together stay what they were, and each
bid is let go once: to its bidder when it is outbid, to the opener when the
auction is settled.
-/

namespace HoneNode.Auction

open Prog Within Trace

/-- Native balances and the top bids of live auctions. -/
def money (s : Chain) : ℕ := s.nativeBalances + s.escrowOf .auction

/-- The auction house from a chain on, its calls in any order. -/
def house (start : Chain) : Component Chain AuctionOp where
  init := (· = start)
  step := fun s op => (op.run s).2

/-- The bid that a record holds, if it is live. -/
def held (auction : AuctionState) : Option (String × ℕ) :=
  if isLive auction then auction.topBidder.map (·, auction.topBid) else none

/-- The bid that stands on an auction. -/
def standing (s : Chain) (id : String) : Option (String × ℕ) :=
  (s.stateGet .auction id).bind held

/-! ## What a call has to keep to -/

/-- The opener has room for the price, if there is one to pay. -/
def Payable (auction : AuctionState) (s : Chain) : Prop :=
  auction.topBidder.isSome → s.getBalance auction.opener nativeToken + auction.topBid < 2 ^ 64

instance (auction : AuctionState) (s : Chain) : Decidable (Payable auction s) :=
  inferInstanceAs (Decidable (_ → _))

/-- An auction is opened over no standing bid, and refunds and payments do not overflow. -/
def Safe (s : Chain) (op : AuctionOp) : Prop :=
  (∀ kind ∈ op.lot, isFree s kind → standing s op.auctionId = none) ∧
    ∀ auction ∈ s.stateGet .auction op.auctionId, isLive auction →
      (∀ bid ∈ op.offer, auction.topBid < bid.2 →
        Refundable auction (s.debited bid.1 nativeToken bid.2)) ∧
      ∀ epoch ∈ op.closing, auction.endEpoch < epoch → Payable auction s

instance (s : Chain) (op : AuctionOp) : Decidable (Safe s op) :=
  inferInstanceAs (Decidable (_ ∧ ∀ auction ∈ s.stateGet .auction op.auctionId, _))

/-! ## Bids and what becomes of them -/

/-- The call went through. -/
def accepted (c : Chain × AuctionOp) : Bool := (c.2.run c.1).1.isOk

/-- The bid that a call placed. -/
def placed (c : Chain × AuctionOp) : Option (String × ℕ) := if accepted c then c.2.offer else none

/-- A bid that is let go, and who gets the money. -/
structure Release where
  (bidder : String) (amount : ℕ) (payee : String)

/-- The bid a call let go: back to its bidder on a higher bid, to the opener on a settlement. -/
def released (c : Chain × AuctionOp) : Option Release :=
  (c.1.stateGet .auction c.2.auctionId).bind fun auction =>
    auction.topBidder.bind fun bidder =>
      if !accepted c then none
      else if c.2.offer.isSome then some ⟨bidder, auction.topBid, bidder⟩
      else if c.2.closing.isSome then some ⟨bidder, auction.topBid, auction.opener⟩
      else none

def placedOn (id : String) (hist : List (Chain × AuctionOp)) : List (String × ℕ) :=
  (hist.filter (·.2.auctionId = id)).filterMap placed

def releasedOn (id : String) (hist : List (Chain × AuctionOp)) : List (String × ℕ) :=
  (hist.filter (·.2.auctionId = id)).filterMap fun c => (released c).map fun r => (r.bidder, r.amount)

/-- What a call took from a balance row. -/
def debitOf (k : String) (c : Chain × AuctionOp) : ℕ :=
  (placed c).elim 0 fun bid => if k = balanceKey bid.1 nativeToken then bid.2 else 0

/-- What a call paid into a balance row. -/
def creditOf (k : String) (c : Chain × AuctionOp) : ℕ :=
  (released c).elim 0 fun r => if k = balanceKey r.payee nativeToken then r.amount else 0

/-- The money is all there, every bid stands or was let go once, and every row moved by the
bids taken from it and the bids let go to it. -/
structure Accounted (start : Chain) (hist : List (Chain × AuctionOp)) (s : Chain) : Prop where
  money : money s = money start
  bids : ∀ id, placedOn id hist = (standing s id).toList ++ releasedOn id hist
  rows : ∀ k, s.row k + (hist.map (debitOf k)).sum = start.row k + (hist.map (creditOf k)).sum

/-! ## One call -/

/-- Without a bidder there is no bid. -/
def Sane (s : Chain) : Prop :=
  ∀ key auction, s.stateGet .auction key = some auction → auction.topBidder = none →
    auction.topBid = 0

/-- What a safe call keeps. -/
structure Step (s : Chain) (op : AuctionOp) (s' : Chain) : Prop where
  sane : Sane s'
  money : Auction.money s' = Auction.money s
  bids : ∀ id, (if op.auctionId = id then (placed (s, op)).toList else []) ++
      (standing s id).toList = (standing s' id).toList ++
    if op.auctionId = id then ((released (s, op)).map fun r => (r.bidder, r.amount)).toList else []
  rows : ∀ k, s'.row k + debitOf k (s, op) = s.row k + creditOf k (s, op)

section Step

variable {s s' t : Chain} {op : AuctionOp} {id : String} {auction : AuctionState}

theorem escrowed_auction (auction : AuctionState) :
    escrowed .auction auction = if isLive auction then auction.topBid else 0 := by
  rw [escrowed, isLive]
  cases auction.settled || auction.cancelled <;> rfl

theorem Stored.escrowOf (h : Stored s s' id auction) :
    s'.escrowOf .auction + s.escrowAt .auction id = s.escrowOf .auction + escrowed .auction auction := by
  have hset := escrowOf_stateSet s (f := .auction) id auction
  unfold Chain.escrowOf at hset ⊢
  rw [Chain.stateSet_state, Function.update_self] at hset
  rw [h]
  exact hset

theorem Stored.standing (h : Stored s s' id auction) (key : String) :
    standing s' key = if id = key then held auction else standing s key := by
  unfold Auction.standing
  rw [h.stateGet]
  split <;> rfl

theorem Stored.sane (h : Stored s s' id auction) (hs : Sane s)
    (hnone : auction.topBidder = none → auction.topBid = 0) : Sane s' := by
  intro key a hget
  rw [h.stateGet] at hget
  split at hget
  · obtain rfl : auction = a := Option.some.inj hget
    exact hnone
  · exact hs key a hget

/-- A call that replaces the record of its auction. -/
theorem Step.of_stored (auction : AuctionState) (h : Stored s s' op.auctionId auction) (hs : Sane s)
    (hnone : auction.topBidder = none → auction.topBid = 0)
    (hmoney : s'.nativeBalances + escrowed .auction auction =
      s.nativeBalances + s.escrowAt .auction op.auctionId)
    (hbids : (placed (s, op)).toList ++ (Auction.standing s op.auctionId).toList =
      (held auction).toList ++ ((released (s, op)).map fun r => (r.bidder, r.amount)).toList)
    (hrows : ∀ k, s'.row k + debitOf k (s, op) = s.row k + creditOf k (s, op)) :
    Step s op s' where
  sane := h.sane hs hnone
  money := by
    have hescrow := h.escrowOf
    unfold Auction.money
    omega
  bids := by
    intro id
    rw [h.standing]
    split
    · next hid =>
      subst hid
      exact hbids
    · simp
  rows := hrows

/-- A call that was refused. -/
theorem Step.of_noted (h : Noted s s') (hs : Sane s) (hno : accepted (s, op) = false) :
    Step s op s' where
  sane := fun key a hget => hs key a ((h.stateGet (by decide) key).symm.trans hget)
  money := by
    unfold Auction.money Chain.nativeBalances Chain.escrowOf
    rw [h.balances, h.state .auction (by decide)]
  bids := by
    intro id
    have hplaced : placed (s, op) = none := by simp [placed, hno]
    have hreleased : released (s, op) = none := by simp [released, hno]
    rw [hplaced, hreleased]
    unfold Auction.standing
    rw [h.stateGet (by decide)]
    simp
  rows := by
    intro k
    have hplaced : placed (s, op) = none := by simp [placed, hno]
    have hreleased : released (s, op) = none := by simp [released, hno]
    unfold debitOf creditOf Chain.row
    rw [hplaced, hreleased, h.balances]
    rfl

/-- A live record holds its top bid. -/
theorem escrowAt_of_live (hget : s.stateGet .auction id = some auction)
    (hlive : isLive auction = true) : s.escrowAt .auction id = auction.topBid := by
  rw [escrowAt_of_get hget, escrowed_auction, if_pos hlive]

theorem escrowAt_of_standing (hs : Sane s) (hnone : standing s id = none) :
    s.escrowAt .auction id = 0 := by
  unfold standing at hnone
  cases hget : s.stateGet .auction id with
  | none =>
    unfold Chain.escrowAt
    rw [hget, Option.elim_none]
  | some auction =>
    rw [escrowAt_of_get hget, escrowed_auction]
    split
    · next hlive =>
      rw [hget, Option.bind_some, held, if_pos hlive, Option.map_eq_none_iff] at hnone
      exact hs id auction hget hnone
    · rfl

theorem step_opened {kind : AuctionKind} {opener : String} {minBid endEpoch epoch : ℕ}
    (hs : Sane s) (hnote : Noted s t) (hlot : op.lot = some kind)
    (hnone : standing s op.auctionId = none) :
    Step s op (marked kind op.auctionId (t.stateSet .auction op.auctionId
      (.opened op.auctionId kind opener minBid endEpoch epoch))) := by
  have hoffer : op.offer = none := by
    cases op <;> first | rfl | cases hlot
  have hclosing : op.closing = none := by
    cases op <;> first | rfl | cases hlot
  have hplaced : placed (s, op) = none := by
    simp [placed, hoffer]
  have hreleased : released (s, op) = none := by
    unfold released
    simp [hoffer, hclosing]
  have hbal : (marked kind op.auctionId (t.stateSet .auction op.auctionId
      (.opened op.auctionId kind opener minBid endEpoch epoch))).balances = s.balances := by
    rw [← hnote.balances]
    cases kind <;> rfl
  refine Step.of_stored (.opened op.auctionId kind opener minBid endEpoch epoch) ?_ hs
    (fun _ => rfl) ?_ ?_ ?_
  · exact stored_marked hnote _ _ _
  · rw [escrowAt_of_standing hs hnone, escrowed_auction]
    unfold Chain.nativeBalances
    rw [hbal]
    rfl
  · rw [hplaced, hreleased, hnone]
    rfl
  · intro k
    unfold debitOf creditOf Chain.row
    rw [hplaced, hreleased, hbal]
    rfl

/-! A higher bid and the refund of the one before. -/

theorem nativeBalances_refunded (hnone : auction.topBidder = none → auction.topBid = 0) :
    (refunded auction t).nativeBalances = t.nativeBalances + auction.topBid := by
  unfold refunded
  cases htop : auction.topBidder with
  | none => rw [hnone htop, Nat.add_zero]
  | some prev =>
    dsimp only
    split
    · exact nativeBalances_credited t prev auction.topBid
    · omega

theorem row_refunded (auction : AuctionState) (t : Chain) (k : String) :
    (refunded auction t).row k = t.row k + auction.topBidder.elim 0 fun prev =>
      if k = balanceKey prev nativeToken then auction.topBid else 0 := by
  unfold refunded
  cases auction.topBidder with
  | none => rfl
  | some prev =>
    dsimp only [Option.elim_some]
    split
    · exact t.row_credited prev nativeToken auction.topBid k
    · split <;> omega

theorem row_debited_add {bidder : String} {amount : ℕ}
    (hfunds : amount ≤ s.getBalance bidder nativeToken) (k : String) :
    (s.debited bidder nativeToken amount).row k +
      (if k = balanceKey bidder nativeToken then amount else 0) = s.row k := by
  rw [row_debited]
  split
  · next hk =>
    rw [hk, ← getBalance_eq_row]
    omega
  · rfl

theorem step_bid {bidder : String} {amount : ℕ} (hs : Sane s) (hnote : Noted s t)
    (hok : accepted (s, op) = true) (hoffer : op.offer = some (bidder, amount))
    (hget : s.stateGet .auction op.auctionId = some auction) (hlive : isLive auction = true)
    (hfunds : amount ≤ s.getBalance bidder nativeToken) :
    Step s op ((refunded auction (t.debited bidder nativeToken amount)).stateSet .auction
      op.auctionId (outbid bidder amount auction)) := by
  have hplaced : placed (s, op) = some (bidder, amount) := by
    simp [placed, hok, hoffer]
  have hreleased : released (s, op) =
      auction.topBidder.map fun prev => ⟨prev, auction.topBid, prev⟩ := by
    unfold released
    rw [hget, Option.bind_some]
    cases auction.topBidder <;> simp [hok, hoffer]
  have hstanding : standing s op.auctionId = auction.topBidder.map (·, auction.topBid) := by
    rw [standing, hget, Option.bind_some, held, if_pos hlive]
  have hfunds' : amount ≤ t.getBalance bidder nativeToken := by
    rw [hnote.getBalance]
    exact hfunds
  have hlive' : isLive (outbid bidder amount auction) = true := hlive
  refine Step.of_stored (outbid bidder amount auction) ?_ hs ?_ ?_ ?_ ?_
  · refine stored_stateSet ?_ _ _
    rw [state_refunded]
    exact hnote.state .auction (by decide)
  · intro hnone
    cases hnone
  · have hdebit := nativeBalances_debited hfunds'
    have hrefund := nativeBalances_refunded (t := t.debited bidder nativeToken amount)
      (hs _ _ hget)
    have hbal : t.nativeBalances = s.nativeBalances := by
      unfold Chain.nativeBalances
      rw [hnote.balances]
    rw [escrowAt_of_live hget hlive, escrowed_auction, if_pos hlive']
    change (refunded auction (t.debited bidder nativeToken amount)).nativeBalances + amount = _
    omega
  · rw [hplaced, hreleased, hstanding, held, if_pos hlive']
    cases auction.topBidder <;> rfl
  · intro k
    have hrow := row_debited_add hfunds' k
    have hrefund := row_refunded auction (t.debited bidder nativeToken amount) k
    have hbal : t.row k = s.row k := by
      unfold Chain.row
      rw [hnote.balances]
    have hcredit : creditOf k (s, op) = auction.topBidder.elim 0 fun prev =>
        if k = balanceKey prev nativeToken then auction.topBid else 0 := by
      unfold creditOf
      rw [hreleased]
      cases auction.topBidder <;> rfl
    have hdebit : debitOf k (s, op) =
        if k = balanceKey bidder nativeToken then amount else 0 := by
      unfold debitOf
      rw [hplaced, Option.elim_some]
    rw [Chain.row_stateSet, hrefund, hcredit, hdebit]
    omega

/-! The end of an auction. -/

/-- An offer and a settlement are different entries. -/
theorem offer_of_closing {epoch : ℕ} (h : op.closing = some epoch) : op.offer = none := by
  cases op <;> first | rfl | cases h

theorem step_sold {epoch : ℕ} {winner : String} (hs : Sane s) (hok : accepted (s, op) = true)
    (hclosing : op.closing = some epoch)
    (hget : s.stateGet .auction op.auctionId = some auction) (hlive : isLive auction = true)
    (hwinner : auction.topBidder = some winner)
    (hroom : s.getBalance auction.opener nativeToken + auction.topBid < 2 ^ 64) :
    Step s op ((awarded auction.kind winner (paid auction s)).stateSet .auction op.auctionId
      { auction with settled := true }) := by
  have hoffer := offer_of_closing hclosing
  have hplaced : placed (s, op) = none := by
    simp [placed, hoffer]
  have hreleased : released (s, op) = some ⟨winner, auction.topBid, auction.opener⟩ := by
    unfold released
    simp [hget, hwinner, hok, hoffer, hclosing]
  have hstanding : standing s op.auctionId = some (winner, auction.topBid) := by
    rw [standing, hget, Option.bind_some, held, if_pos hlive, hwinner, Option.map_some]
  have hpaid : paid auction s = s.credited auction.opener nativeToken auction.topBid :=
    if_pos hroom
  have hbal : (awarded auction.kind winner (paid auction s)).balances =
      (s.credited auction.opener nativeToken auction.topBid).balances := by
    rw [hpaid]
    unfold awarded
    split <;> rfl
  have hsane := hs _ _ hget
  refine Step.of_stored { auction with settled := true } ?_ hs hsane ?_ ?_ ?_
  · refine stored_stateSet ?_ _ _
    rw [state_awarded, state_paid]
  · have hcredit := nativeBalances_credited s auction.opener auction.topBid
    rw [escrowAt_of_live hget hlive, escrowed_auction]
    unfold Chain.nativeBalances at hcredit ⊢
    rw [Chain.stateSet_balances, hbal]
    exact hcredit
  · rw [hplaced, hreleased, hstanding]
    rfl
  · intro k
    have hcredit := s.row_credited auction.opener nativeToken auction.topBid k
    unfold debitOf creditOf
    rw [hplaced, hreleased, Chain.row_stateSet, Option.elim_none, Option.elim_some]
    unfold Chain.row at hcredit ⊢
    rw [hbal]
    exact hcredit

/-- Closing an auction that nobody has bid on. -/
theorem step_closed {closed : AuctionState} (hs : Sane s) (hoffer : op.offer = none)
    (hget : s.stateGet .auction op.auctionId = some auction) (hlive : isLive auction = true)
    (hnone : auction.topBidder = none) (hclosed : isLive closed = false)
    (hsame : closed.topBidder = none → closed.topBid = 0) :
    Step s op (s.stateSet .auction op.auctionId closed) := by
  have hplaced : placed (s, op) = none := by
    simp [placed, hoffer]
  have hreleased : released (s, op) = none := by
    unfold released
    simp [hget, hnone]
  have hstanding : standing s op.auctionId = none := by
    rw [standing, hget, Option.bind_some, held, if_pos hlive, hnone, Option.map_none]
  refine Step.of_stored closed ?_ hs hsame ?_ ?_ ?_
  · exact stored_stateSet rfl _ _
  · rw [escrowAt_of_live hget hlive, hs _ _ hget hnone, escrowed_auction, hclosed]
    rfl
  · rw [hplaced, hreleased, hstanding, held, hclosed]
    rfl
  · intro k
    unfold debitOf creditOf
    rw [hplaced, hreleased]
    rfl

/-- A safe call keeps the accounts. -/
theorem step_run (hs : Sane s) (hsafe : Safe s op) : Step s op (op.run s).2 := by
  have hcall := call s op
  have hok : accepted (s, op) = (op.run s).1.isOk := rfl
  generalize op.run s = r at hcall hok
  cases hcall with
  | refused msg hnote => exact .of_noted hnote hs hok
  | opened kind opener minBid endEpoch epoch hnote hlot hfree =>
    exact step_opened hs hnote hlot (hsafe.1 kind hlot hfree)
  | bid hnote hoffer hget hlive hmore hfunds hrefund =>
    exact step_bid hs hnote hok hoffer hget hlive hfunds
  | @lost t bidder amount auction msg hnote hoffer hget hlive hmore hrefund =>
    -- the refund has room, so the bid is not lost
    refine absurd ?_ hrefund
    have hroom := (hsafe.2 auction hget hlive).1 _ hoffer hmore
    intro prev hprev hpos
    rw [(hnote.debited bidder nativeToken amount).getBalance]
    exact hroom prev hprev hpos
  | unsold hclosing hget hlive hover hnone =>
    have hsane := hs _ _ hget
    exact step_closed hs (offer_of_closing hclosing) hget hlive hnone rfl hsane
  | @sold epoch auction winner hclosing hget hlive hover hwinner =>
    refine step_sold hs hok hclosing hget hlive hwinner ?_
    exact (hsafe.2 auction hget hlive).2 epoch hclosing hover (by rw [hwinner]; rfl)
  | cancelled hcancel hget hlive hnone =>
    have hsane := hs _ _ hget
    have hoffer : op.offer = none := by
      cases op <;> first | rfl | cases hcancel
    exact step_closed hs hoffer hget hlive hnone (by simp [isLive]) hsane

end Step

/-! ## Runs -/

section Runs

variable {start s s' : Chain} {op : AuctionOp} {hist : List (Chain × AuctionOp)}

theorem placedOn_cons (id : String) (c : Chain × AuctionOp) (hist : List (Chain × AuctionOp)) :
    placedOn id (c :: hist) =
      (if c.2.auctionId = id then (placed c).toList else []) ++ placedOn id hist := by
  unfold placedOn
  rw [List.filter_cons]
  by_cases hid : c.2.auctionId = id
  · rw [if_pos (by simpa using hid), if_pos hid, List.filterMap_cons]
    cases placed c <;> rfl
  · rw [if_neg (by simpa using hid), if_neg hid, List.nil_append]

theorem releasedOn_cons (id : String) (c : Chain × AuctionOp) (hist : List (Chain × AuctionOp)) :
    releasedOn id (c :: hist) = (if c.2.auctionId = id then
        ((released c).map fun r => (r.bidder, r.amount)).toList else []) ++ releasedOn id hist := by
  unfold releasedOn
  rw [List.filter_cons]
  by_cases hid : c.2.auctionId = id
  · rw [if_pos (by simpa using hid), if_pos hid, List.filterMap_cons]
    cases released c <;> rfl
  · rw [if_neg (by simpa using hid), if_neg hid, List.nil_append]

theorem Accounted.step (h : Accounted start hist s) (hstep : Step s op s') :
    Accounted start ((s, op) :: hist) s' where
  money := hstep.money.trans h.money
  bids := by
    intro id
    rw [placedOn_cons, releasedOn_cons, h.bids id, ← List.append_assoc, hstep.bids id,
      List.append_assoc]
  rows := by
    intro k
    have hrow := hstep.rows k
    have hrest := h.rows k
    rw [List.map_cons, List.map_cons, List.sum_cons, List.sum_cons]
    omega

/-- In every run of safe calls the money is constant, and each bid is let go once or stands. -/
theorem house_conserves_money (hnone : ∀ key, start.stateGet .auction key = none)
    (h : Run (house start) Safe hist s) : Accounted start hist s := by
  have hkept : Sane s ∧ Accounted start hist s := by
    induction h with
    | @start s hs =>
      obtain rfl : s = start := hs
      refine ⟨?_, rfl, ?_, fun k => rfl⟩
      · intro key auction hget
        rw [hnone key] at hget
        cases hget
      · intro id
        rw [standing, hnone id]
        rfl
    | step op _ hsafe ih =>
      have hstep := step_run ih.1 hsafe
      exact ⟨hstep.sane, ih.2.step hstep⟩
    | other _ hs ih =>
      rw [show _ = _ from hs]
      exact ih
  exact hkept.2

end Runs

/-! ### Two bidders -/

/-- A name that ann bids on and bob gets. -/
def nameSold : List AuctionOp :=
  [.nameOpen ⟨"a1", "long-enough", "opal", 10, 5, 1, 1, "opal", none⟩,
    .nameBid ⟨"a1", "ann", 100, 2, 1, "ann", none⟩,
    .nameBid ⟨"a1", "bob", 150, 3, 1, "bob", none⟩,
    .nameSettle ⟨"a1", "opal", 6, 2, "opal", none⟩]

/-- After the sale the id is used again, for a lot nobody bids on. -/
theorem house_conserves_money_sold :
    let ops := nameSold ++ [.freeportOpen ⟨"a1", "track", "t7", "opal", 10, 9, 7, 3, "opal", none⟩,
      .cancel ⟨"a1", "opal", 7, 4, "opal", none⟩]
    let M := house biddersFunded
    let hist := M.record biddersFunded ops []
    let s := M.exec biddersFunded ops
    (releasedOn "a1" hist = [("bob", 150), ("ann", 100)] ∧ s.getBalance "ann" nativeToken = 500 ∧
      s.getBalance "bob" nativeToken = 350 ∧ s.getBalance "opal" nativeToken = 150) ∧
    Accounted biddersFunded hist s := by
  intro ops M hist s
  have hlegal : Legal M Safe biddersFunded ops := by decide
  refine ⟨by decide, ?_⟩
  exact house_conserves_money (fun _ => rfl) ((Run.start rfl).exec hlegal)

/-- Opening the id again drops the bid that stands; a sale to an opener whose balance is full
pays nobody. -/
theorem bid_lost_by_reopening :
    let M := house biddersFunded
    let bid := M.exec biddersFunded (nameSold.take 2)
    let reopened := M.exec bid [.nameOpen ⟨"a1", "long-enough", "opal", 10, 5, 2, 2, "opal", none⟩]
    let full := bid.setBalance "opal" nativeToken (2 ^ 64 - 1)
    let settled := (house full).exec full [.nameSettle ⟨"a1", "opal", 6, 2, "opal", none⟩]
    (money bid = 1000 ∧ standing bid "a1" = some ("ann", 100)) ∧
      (money reopened = 900 ∧ standing reopened "a1" = none ∧
        reopened.getBalance "ann" nativeToken = 400) ∧
      money full = 1000 + (2 ^ 64 - 1) ∧ money settled = 900 + (2 ^ 64 - 1) := by
  decide

end HoneNode.Auction
