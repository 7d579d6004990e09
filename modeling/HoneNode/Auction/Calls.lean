import HoneNode.Rewards.Holdings
import HoneNode.Lib.Trace

/-!
# Auction.Calls — what each auction call does

The entries of name and freeport auctions, and what one of them can do: be
refused, open a lot, take a bid and refund the one before it, settle or cancel.
A bid whose refund overflows is refused after the bidder has paid. Opening does
not look at what the id already holds.
-/

namespace HoneNode.Auction

open Entry Prog Within

inductive AuctionOp where
  | nameOpen (p : NameAuctionOpen)
  | freeportOpen (p : FreeportAuctionOpen)
  | nameBid (p : NameAuctionBid)
  | freeportBid (p : FreeportAuctionBid)
  | nameSettle (p : NameAuctionSettle)
  | freeportSettle (p : FreeportAuctionSettle)
  | cancel (p : NameAuctionCancel)

namespace AuctionOp

def run (s : Chain) : AuctionOp → Except Fault Unit × Chain
  | .nameOpen p => (applyNameAuctionOpen p).run s
  | .freeportOpen p => (applyFreeportAuctionOpen p).run s
  | .nameBid p => (applyNameAuctionBid p).run s
  | .freeportBid p => (applyFreeportAuctionBid p).run s
  | .nameSettle p => (applyNameAuctionSettle p).run s
  | .freeportSettle p => (applyFreeportAuctionSettle p).run s
  | .cancel p => (applyNameAuctionCancel p).run s

/-- The auction the entry is about. -/
def auctionId : AuctionOp → String
  | .nameOpen p => p.auctionId
  | .freeportOpen p => p.auctionId
  | .nameBid p => p.auctionId
  | .freeportBid p => p.auctionId
  | .nameSettle p => p.auctionId
  | .freeportSettle p => p.auctionId
  | .cancel p => p.auctionId

/-- What an entry puts up. -/
def lot : AuctionOp → Option AuctionKind
  | .nameOpen p => some (.name p.name)
  | .freeportOpen p => some (.freeport p.itemType p.itemId)
  | _ => none

/-- The bidder and the amount of a bid. -/
def offer : AuctionOp → Option (String × ℕ)
  | .nameBid p => some (p.bidder, p.amount)
  | .freeportBid p => some (p.bidder, p.amount)
  | _ => none

/-- The epoch of a settlement. -/
def closing : AuctionOp → Option ℕ
  | .nameSettle p => some p.epoch
  | .freeportSettle p => some p.epoch
  | _ => none

/-- Who cancels. -/
def canceller : AuctionOp → Option String
  | .cancel p => some p.opener
  | _ => none

end AuctionOp

/-- Neither settled nor cancelled. -/
def isLive (auction : AuctionState) : Bool := !(auction.settled || auction.cancelled)

/-- A name can be put up while nobody owns it. -/
def isFree (s : Chain) : AuctionKind → Bool
  | .name name => (s.stateGet .nameOwner name).isNone
  | .freeport _ _ => true

/-- The outbid bidder has its bid back. -/
def refunded (auction : AuctionState) (s : Chain) : Chain :=
  match auction.topBidder with
  | some prev => if 0 < auction.topBid then s.credited prev nativeToken auction.topBid else s
  | none => s

/-- The record with a new top bid. -/
def outbid (bidder : String) (amount : ℕ) (auction : AuctionState) : AuctionState :=
  { auction with prevBidder := auction.topBidder, prevBid := auction.topBid,
                 topBidder := some bidder, topBid := amount }

/-- The refund of the bid before, if there is one to give, does not overflow. -/
def Refundable (auction : AuctionState) (s : Chain) : Prop :=
  ∀ prev ∈ auction.topBidder, 0 < auction.topBid →
    s.getBalance prev nativeToken + auction.topBid < 2 ^ 64

instance (auction : AuctionState) (s : Chain) : Decidable (Refundable auction s) :=
  inferInstanceAs (Decidable (∀ prev ∈ auction.topBidder, _))

/-- The opener has its money, if that does not overflow. -/
def paid (auction : AuctionState) (s : Chain) : Chain :=
  if s.getBalance auction.opener nativeToken + auction.topBid < 2 ^ 64 then
    s.credited auction.opener nativeToken auction.topBid
  else s

/-- The winner has the lot. -/
def awarded (kind : AuctionKind) (winner : String) (s : Chain) : Chain :=
  match kind with
  | .name name =>
    ((s.stateSet .nameOwner name winner).stateSet .accountName winner name).stateDelete
      .nameAuctionActive name
  | .freeport itemType itemId => s.stateSet .freeportOwner s!"{itemType}:{itemId}" winner

/-- A name that is put up is marked. -/
def marked (kind : AuctionKind) (id : String) (s : Chain) : Chain :=
  match kind with
  | .name name => s.stateSet .nameAuctionActive name id
  | .freeport _ _ => s

section Records

variable {s s' : Chain} {id : String} {auction : AuctionState}

/-- The record under one id was replaced. -/
def Stored (s s' : Chain) (id : String) (auction : AuctionState) : Prop :=
  s'.state .auction = (s.state .auction).put id auction

theorem Stored.stateGet (h : Stored s s' id auction) (key : String) :
    s'.stateGet .auction key = if id = key then some auction else s.stateGet .auction key := by
  have hset := s.stateGet_stateSet .auction id key auction
  refine (stateGet_of_state ?_ key).trans hset
  rw [h, Chain.stateSet_state, Function.update_self]

theorem stored_stateSet {t : Chain} (h : t.state .auction = s.state .auction) (id : String)
    (auction : AuctionState) : Stored s (t.stateSet .auction id auction) id auction := by
  unfold Stored
  rw [Chain.stateSet_state, Function.update_self, h]

/-- The mark of an opened name is another record. -/
theorem stored_marked {t : Chain} (h : Noted s t) (kind : AuctionKind) (id : String)
    (auction : AuctionState) :
    Stored s (marked kind id (t.stateSet .auction id auction)) id auction := by
  have hstore := stored_stateSet (h.state .auction (by decide)) id auction
  unfold Stored at hstore ⊢
  rw [← hstore]
  cases kind with
  | name name => exact state_stateSet_of_ne _ (by decide) _ _
  | freeport itemType itemId => rfl

theorem state_refunded (auction : AuctionState) (t : Chain) :
    (refunded auction t).state = t.state := by
  unfold refunded
  split
  · split <;> rfl
  · rfl

theorem state_paid (auction : AuctionState) (s : Chain) : (paid auction s).state = s.state := by
  unfold paid
  split <;> rfl

/-- Giving the lot away leaves the records. -/
theorem state_awarded (kind : AuctionKind) (winner : String) (s : Chain) :
    (awarded kind winner s).state .auction = s.state .auction := by
  unfold awarded
  split
  · rw [Chain.state_stateDelete_of_ne _ (by decide), state_stateSet_of_ne _ (by decide),
      state_stateSet_of_ne _ (by decide)]
  · rw [state_stateSet_of_ne _ (by decide)]

end Records

/-! ## One call -/

/-- What a call can do, and what it ends with. -/
inductive Call (s : Chain) (op : AuctionOp) : Except Fault Unit × Chain → Prop where
  | refused {t : Chain} (msg : String) (hnote : Noted s t) : Call s op (.error (.err msg), t)
  | opened {t : Chain} (kind : AuctionKind) (opener : String) (minBid endEpoch epoch : ℕ)
      (hnote : Noted s t) (hlot : op.lot = some kind)
      (hfree : isFree s kind = true) :
      Call s op (.ok (), marked kind op.auctionId (t.stateSet .auction op.auctionId
        (.opened op.auctionId kind opener minBid endEpoch epoch)))
  | bid {t : Chain} {bidder : String} {amount : ℕ} {auction : AuctionState} (hnote : Noted s t)
      (hoffer : op.offer = some (bidder, amount))
      (hget : s.stateGet .auction op.auctionId = some auction) (hlive : isLive auction = true)
      (hmore : auction.topBid < amount) (hfunds : amount ≤ s.getBalance bidder nativeToken)
      (hrefund : Refundable auction (t.debited bidder nativeToken amount)) :
      Call s op (.ok (), (refunded auction (t.debited bidder nativeToken amount)).stateSet .auction
        op.auctionId (outbid bidder amount auction))
  | lost {t : Chain} {bidder : String} {amount : ℕ} {auction : AuctionState} (msg : String)
      (hnote : Noted s t) (hoffer : op.offer = some (bidder, amount))
      (hget : s.stateGet .auction op.auctionId = some auction) (hlive : isLive auction = true)
      (hmore : auction.topBid < amount)
      (hrefund : ¬ Refundable auction (t.debited bidder nativeToken amount)) :
      Call s op (.error (.err msg), t.debited bidder nativeToken amount)
  | unsold {epoch : ℕ} {auction : AuctionState} (hclosing : op.closing = some epoch)
      (hget : s.stateGet .auction op.auctionId = some auction) (hlive : isLive auction = true)
      (hover : auction.endEpoch < epoch) (hnone : auction.topBidder = none) :
      Call s op (.ok (), s.stateSet .auction op.auctionId { auction with settled := true })
  | sold {epoch : ℕ} {auction : AuctionState} {winner : String} (hclosing : op.closing = some epoch)
      (hget : s.stateGet .auction op.auctionId = some auction) (hlive : isLive auction = true)
      (hover : auction.endEpoch < epoch) (hwinner : auction.topBidder = some winner) :
      Call s op (.ok (), (awarded auction.kind winner (paid auction s)).stateSet .auction
        op.auctionId { auction with settled := true })
  | cancelled {auction : AuctionState} (hcancel : op.canceller = some auction.opener)
      (hget : s.stateGet .auction op.auctionId = some auction) (hlive : isLive auction = true)
      (hnone : auction.topBidder = none) :
      Call s op (.ok (), s.stateSet .auction op.auctionId { auction with cancelled := true })

section Calls

variable {s : Chain} {op : AuctionOp}

theorem Call.of_refused {r : Except Fault Unit × Chain} (h : Refused s r) : Call s op r := by
  obtain ⟨msg, rfl⟩ := h
  exact .refused msg (noted_refl s)

theorem isLive_iff {auction : AuctionState} :
    isLive auction = true ↔ ¬ auction.settled = true ∧ ¬ auction.cancelled = true := by
  unfold isLive
  simp

/-- A bid on the chain after its bidder was noted. -/
theorem call_applyBid {t : Chain} {bidder : String} {amount : ℕ} (epoch : ℕ) (hnote : Noted s t)
    (hoffer : op.offer = some (bidder, amount)) :
    Call s op ((applyBid op.auctionId bidder amount epoch).run t) := by
  have hrefused : ∀ {r : Except Fault Unit × Chain}, Refused t r → Call s op r := by
    rintro r ⟨msg, rfl⟩
    exact .refused msg hnote
  unfold applyBid
  rw [run_stateGet_bind]
  rcases refused_or_orBail (s := t) (t.stateGet .auction op.auctionId) _ _ with
    h | ⟨auction, hget, h⟩
  · exact hrefused h
  rw [h]
  rcases refused_or_ensure (s := t) (¬ auction.settled ∧ ¬ auction.cancelled) _ _ with
    h | ⟨hlive, h⟩
  · exact hrefused h
  rw [h]
  rcases refused_or_ensure (s := t) (epoch ≤ auction.endEpoch) _ _ with h | ⟨-, h⟩
  · exact hrefused h
  rw [h]
  rcases refused_or_ensure (s := t) (auction.topBid < amount ∧ auction.minBid ≤ amount) _ _ with
    h | ⟨hmore, h⟩
  · exact hrefused h
  rw [h]
  rw [hnote.stateGet (by decide)] at hget
  rcases refused_or_debit (s := t) bidder nativeToken amount _ _ with h | ⟨hfunds, h⟩
  · exact hrefused h
  rw [h]
  rw [hnote.getBalance] at hfunds
  dsimp only
  have hlive := isLive_iff.2 hlive
  cases htop : auction.topBidder with
  | none =>
    have hrefund : Refundable auction (t.debited bidder nativeToken amount) := by
      intro prev hprev
      rw [htop] at hprev
      cases hprev
    have hcall := Call.bid hnote hoffer hget hlive hmore.1 hfunds hrefund
    simp only [refunded, outbid, htop] at hcall
    exact hcall
  | some prev =>
    by_cases hrefund : Refundable auction (t.debited bidder nativeToken amount)
    · have hcall := Call.bid hnote hoffer hget hlive hmore.1 hfunds hrefund
      simp only [refunded, outbid, htop] at hcall
      rw [run_bind_ok]
      · exact hcall
      · rw [run_when, run_credit]
        split
        · next hpos => rw [if_pos (hrefund prev htop hpos)]
        · rfl
    · have hover : 0 < auction.topBid ∧ ¬ (t.debited bidder nativeToken amount).getBalance prev
          nativeToken + auction.topBid < 2 ^ 64 := by
        unfold Refundable at hrefund
        simpa [htop] using hrefund
      rw [run_bind_error (by rw [run_when, if_pos hover.1, run_credit, if_neg hover.2])]
      exact .lost _ hnote hoffer hget hlive hmore.1 hrefund

theorem call_applySettle {epoch : ℕ} (hclosing : op.closing = some epoch) :
    Call s op ((applySettle op.auctionId epoch).run s) := by
  unfold applySettle
  rw [run_stateGet_bind]
  rcases refused_or_orBail (s := s) (s.stateGet .auction op.auctionId) _ _ with
    h | ⟨auction, hget, h⟩
  · exact .of_refused h
  rw [h]
  rcases refused_or_ensure (s := s) (¬ auction.settled ∧ ¬ auction.cancelled) _ _ with
    h | ⟨hlive, h⟩
  · exact .of_refused h
  rw [h]
  rcases refused_or_ensure (s := s) (auction.endEpoch < epoch) _ _ with h | ⟨hover, h⟩
  · exact .of_refused h
  rw [h]
  dsimp only
  have hlive := isLive_iff.2 hlive
  cases htop : auction.topBidder with
  | none =>
    have hcall := Call.unsold hclosing hget hlive hover htop
    simp only [htop] at hcall
    exact hcall
  | some winner =>
    have hcall := Call.sold hclosing hget hlive hover htop
    have hpay : (ignoreErr (credit auction.opener nativeToken auction.topBid) :
        Prog {} Unit).run s = (.ok (), paid auction s) := by
      rw [run_ignoreErr, run_credit]
      unfold paid
      split <;> rfl
    cases hkind : auction.kind with
    | name name =>
      simp only [awarded, htop, hkind] at hcall
      exact (run_bind_ok hpay).symm ▸ hcall
    | freeport itemType itemId =>
      simp only [awarded, htop, hkind] at hcall
      exact (run_bind_ok hpay).symm ▸ hcall

theorem call_cancel (p : NameAuctionCancel) :
    Call s (.cancel p) ((applyNameAuctionCancel p).run s) := by
  unfold applyNameAuctionCancel
  rw [run_stateGet_bind]
  rcases refused_or_orBail (s := s) (s.stateGet .auction p.auctionId) _ _ with
    h | ⟨auction, hget, h⟩
  · exact .of_refused h
  rw [h]
  rcases refused_or_ensure (s := s) (auction.opener = p.opener) _ _ with h | ⟨hopener, h⟩
  · exact .of_refused h
  rw [h]
  rcases refused_or_ensure (s := s) (¬ auction.settled ∧ ¬ auction.cancelled) _ _ with
    h | ⟨hlive, h⟩
  · exact .of_refused h
  rw [h]
  rcases refused_or_ensure (s := s) (auction.topBidder.isNone = true) _ _ with h | ⟨hnone, h⟩
  · exact .of_refused h
  rw [h, run_stateSet]
  exact .cancelled (congrArg some hopener.symm) hget (isLive_iff.2 hlive) (Option.isNone_iff_eq_none.1 hnone)

/-- Every call is one of these. -/
theorem call (s : Chain) (op : AuctionOp) : Call s op (op.run s) := by
  cases op with
  | nameOpen p =>
    have hnote := noted s p.opener p.epoch
    dsimp only [AuctionOp.run]
    unfold applyNameAuctionOpen
    rw [run_touchAlive_bind, run_ensureAccount_bind,
      run_stateGet_bind]
    rcases refused_or_ensure (s := (s.touched p.opener p.epoch).withAccount p.opener p.epoch)
      ((((s.touched p.opener p.epoch).withAccount p.opener p.epoch).stateGet .nameOwner
        p.name).isNone = true) _ _ with ⟨msg, h⟩ | ⟨hfree, h⟩
    · rw [h]
      exact .refused msg hnote
    rw [h, run_stateSet_bind, run_stateSet]
    refine .opened (.name p.name) _ _ _ _ hnote rfl ?_
    dsimp only [isFree]
    rw [← hnote.stateGet (by decide)]
    exact hfree
  | freeportOpen p =>
    exact .opened (.freeport p.itemType p.itemId) _ _ _ _ (noted s p.seller p.epoch) rfl rfl
  | nameBid p => exact call_applyBid p.epoch (noted s p.bidder p.epoch) rfl
  | freeportBid p => exact call_applyBid p.epoch (noted s p.bidder p.epoch) rfl
  | nameSettle p => exact call_applySettle rfl
  | freeportSettle p => exact call_applySettle rfl
  | cancel p => exact call_cancel p

end Calls

/-- Two accounts that can bid. -/
def biddersFunded : Chain :=
  (({} : Chain).setBalance "ann" nativeToken 500).setBalance "bob" nativeToken 500

end HoneNode.Auction
