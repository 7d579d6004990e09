import HoneNode.Env
import HoneNode.Lib.Tally

/-!
# Apply.Market — auctions, the bridge, agent tasks, sessions

Name and freeport auctions, wrapped HONE, the prepaid credit of the agent task
market, the agent registry, and the markets for finished and live sessions.
-/

namespace HoneNode

open Entry Prog Within

/-! ## Auctions -/

/-- The floor of a name auction, by the length of the name in bytes. -/
def nameMinBid (name : String) : ℕ :=
  match name.utf8ByteSize with
  | 1 => 10000000 * 100000000
  | 2 => 1000000 * 100000000
  | 3 | 4 => 100000 * 100000000
  | 5 | 6 | 7 | 8 | 9 => 1000 * 100000000
  | _ => 0

/-- A fresh auction without bids. -/
def AuctionState.opened (auctionId : String) (kind : AuctionKind) (opener : String)
    (minBid endEpoch epoch : ℕ) : AuctionState :=
  { auctionId := auctionId, kind := kind, opener := opener, minBid := minBid, endEpoch := endEpoch,
    topBidder := none, topBid := 0, prevBidder := none, prevBid := 0, settled := false,
    cancelled := false, openedEpoch := epoch }

def applyNameAuctionOpen (p : NameAuctionOpen) : Prog {} Unit := do
  touchAlive p.opener p.epoch
  ensureAccount p.opener p.epoch
  let owner ← stateGet .nameOwner p.name
  ensure owner.isNone s!"name '{p.name}' is already registered"
  stateSet .auction p.auctionId
    (.opened p.auctionId (.name p.name) p.opener (max p.minBid (nameMinBid p.name)) p.endEpoch
      p.epoch)
  stateSet .nameAuctionActive p.name p.auctionId

def applyFreeportAuctionOpen (p : FreeportAuctionOpen) : Prog {} Unit := do
  touchAlive p.seller p.epoch
  ensureAccount p.seller p.epoch
  stateSet .auction p.auctionId
    (.opened p.auctionId (.freeport p.itemType p.itemId) p.seller p.minBid p.endEpoch p.epoch)

/-- A higher bid is escrowed and the outbid one refunded. -/
def applyBid (auctionId bidder : String) (amount epoch : ℕ) :
    Prog { pays := {balanceKey bidder nativeToken} } Unit := do
  let found ← stateGet .auction auctionId
  let auction ← orBail found s!"auction '{auctionId}' not found"
  ensure (¬ auction.settled ∧ ¬ auction.cancelled) "auction is closed"
  ensure (epoch ≤ auction.endEpoch) "auction has ended"
  ensure (auction.topBid < amount ∧ auction.minBid ≤ amount)
    s!"bid {amount} does not exceed current top bid {auction.topBid} or min bid {auction.minBid}"
  debit bidder nativeToken amount
  match auction.topBidder with
  | some prev =>
    when (0 < auction.topBid) (credit prev nativeToken auction.topBid)
  | none => pure ()
  stateSet .auction auctionId
    { auction with prevBidder := auction.topBidder, prevBid := auction.topBid,
                   topBidder := some bidder, topBid := amount }

def applyNameAuctionBid (p : NameAuctionBid) :
    Prog { pays := {balanceKey p.bidder nativeToken} } Unit := do
  touchAlive p.bidder p.epoch
  ensureAccount p.bidder p.epoch
  applyBid p.auctionId p.bidder p.amount p.epoch

def applyFreeportAuctionBid (p : FreeportAuctionBid) :
    Prog { pays := {balanceKey p.bidder nativeToken} } Unit := do
  touchAlive p.bidder p.epoch
  ensureAccount p.bidder p.epoch
  applyBid p.auctionId p.bidder p.amount p.epoch

/-- The opener is paid, if that does not overflow, and the winner gets the lot. -/
def applySettle (auctionId : String) (epoch : ℕ) : Prog {} Unit := do
  let found ← stateGet .auction auctionId
  let auction ← orBail found s!"auction '{auctionId}' not found"
  ensure (¬ auction.settled ∧ ¬ auction.cancelled) "auction already closed"
  ensure (auction.endEpoch < epoch)
    s!"auction has not ended yet (epoch {epoch} <= end {auction.endEpoch})"
  match auction.topBidder with
  | some winner => do
    ignoreErr (credit auction.opener nativeToken auction.topBid)
    match auction.kind with
    | .name name => do
      stateSet .nameOwner name winner
      stateSet .accountName winner name
      stateDelete .nameAuctionActive name
    | .freeport itemType itemId => stateSet .freeportOwner s!"{itemType}:{itemId}" winner
  | none => pure ()
  stateSet .auction auctionId { auction with settled := true }

def applyNameAuctionSettle (p : NameAuctionSettle) : Prog {} Unit :=
  applySettle p.auctionId p.epoch

def applyFreeportAuctionSettle (p : FreeportAuctionSettle) : Prog {} Unit :=
  applySettle p.auctionId p.epoch

def applyNameAuctionCancel (p : NameAuctionCancel) : Prog {} Unit := do
  let found ← stateGet .auction p.auctionId
  let auction ← orBail found s!"auction '{p.auctionId}' not found"
  ensure (auction.opener = p.opener) "only the opener can cancel"
  ensure (¬ auction.settled ∧ ¬ auction.cancelled) "auction already closed"
  ensure auction.topBidder.isNone "cannot cancel — bids already received"
  stateSet .auction p.auctionId { auction with cancelled := true }

/-! ## The bridge -/

def whoneToken : String := "wHONE"
def bridgeCapHunits : ℕ := 4200000 * 100000000

/-- Wrapped supply as the bridge counts it. -/
def bridgeSupply (s : Chain) : ℕ := (s.stateGet .bridgeSupply "").getD 0

/-- Each external transaction funds the custodian once. -/
def applyBridgeFund (p : BridgeFund) : Prog {} Unit := do
  let done ← stateGet .bridgeFundTx p.externalTxHash
  ensure done.isNone s!"external tx '{p.externalTxHash}' already processed"
  let supply ← inspect bridgeSupply
  ensure (wrapAdd supply p.amountHunits ≤ bridgeCapHunits)
    s!"bridge cap exceeded: {supply} + {p.amountHunits} > {bridgeCapHunits}"
  credit p.custodian whoneToken p.amountHunits
  stateSet .bridgeSupply "" (wrapAdd supply p.amountHunits)
  stateSet .bridgeFundTx p.externalTxHash p.epoch
  stateSet .bridgeFund s!"{p.epoch}:{p.externalTxHash}"
    ⟨p.bridgeId, p.custodian, p.amountHunits, p.externalTxHash, p.chain, p.epoch⟩

def applyBridgeWrap (p : BridgeWrap) :
    Prog { pays := {balanceKey p.account nativeToken} } Unit := do
  let supply ← inspect bridgeSupply
  ensure (wrapAdd supply p.amountHunits ≤ bridgeCapHunits) "bridge cap exceeded"
  debit p.account nativeToken p.amountHunits
  credit p.account whoneToken p.amountHunits
  stateSet .bridgeSupply "" (wrapAdd supply p.amountHunits)
  stateSet .bridgeWrap s!"{p.account}:{p.epoch}"
    ⟨p.account, p.amountHunits, p.externalAddress, p.chain, p.epoch⟩

def applyBridgeUnwrap (env : Env) (p : BridgeUnwrap) :
    Prog { pays := {balanceKey p.account whoneToken} } Unit := do
  debit p.account whoneToken p.amountHunits
  let supply ← inspect bridgeSupply
  stateSet .bridgeSupply "" (supply - p.amountHunits)
  let requestId := env.sha256Hex s!"unwrap:{p.account}:{p.epoch}:{p.recipientExternal}"
  let queue ← stateGet .bridgeUnlockQueue ""
  stateSet .bridgeUnlockQueue "" (queue.getD [] ++
    [⟨requestId, p.recipientExternal, p.amountHunits, p.epoch, p.chain, false⟩])
  logPrefix env.info requestId 12

/-- Mark the first request of that id as fulfilled. -/
def fulfil (requestId : String) : List UnlockRequest → List UnlockRequest
  | [] => []
  | r :: rest =>
    if r.requestId = requestId then { r with fulfilled := true } :: rest
    else r :: fulfil requestId rest

def applyBridgeUnlock (env : Env) (p : BridgeUnlock) : Prog {} Unit := do
  let stored ← stateGet .bridgeUnlockQueue ""
  let queue := stored.getD []
  let request ← orBail (queue.find? (·.requestId = p.requestId))
    s!"unlock request '{p.requestId}' not found"
  ensure (¬ request.fulfilled) s!"request '{p.requestId}' already fulfilled"
  stateSet .bridgeUnlockQueue "" (fulfil p.requestId queue)
  stateSet .bridgeUnlock s!"{p.requestId}:{p.epoch}"
    ⟨p.requestId, p.custodian, p.externalTxHash, p.epoch⟩
  logPrefix env.info p.requestId 12

/-! ## Agent tasks -/

/-- Prepaid credit of a requester. -/
def getCredit (account : String) (s : Chain) : ℕ := (s.stateGet .agentCredit account).getD 0

def loadTask {W : Footprint} (taskId : String) : Prog W AgentTask := do
  let found ← stateGet .agentTask taskId
  orBail found s!"task '{taskId}' not found"

/-- A task is saved under the id it carries. -/
def saveTask {W : Footprint} (task : AgentTask) : Prog W Unit :=
  stateSet .agentTask task.taskId task

def agentBidKey (taskId agent : String) : String := s!"{taskId}:{agent}"

def applyAgentCreditDeposit (p : AgentCreditDeposit) :
    Prog { pays := {balanceKey p.account nativeToken} } Unit := do
  debit p.account nativeToken p.amount
  let have_ ← inspect (getCredit p.account)
  stateSet .agentCredit p.account (satAdd have_ p.amount)

def applyAgentCreditWithdraw (p : AgentCreditWithdraw) : Prog {} Unit := do
  let have_ ← inspect (getCredit p.account)
  ensure (p.amount ≤ have_) s!"insufficient agent credit (have {have_}, need {p.amount})"
  stateSet .agentCredit p.account (have_ - p.amount)
  credit p.account nativeToken p.amount

def applyAgentTaskPost (p : AgentTaskPost) : Prog {} Unit := do
  let existing ← stateGet .agentTask p.taskId
  ensure existing.isNone s!"task '{p.taskId}' already exists"
  let have_ ← inspect (getCredit p.requester)
  ensure (p.maxFee ≤ have_) s!"insufficient agent credit (have {have_}, need {p.maxFee})"
  stateSet .agentCredit p.requester (have_ - p.maxFee)
  saveTask
    { taskId := p.taskId, requester := p.requester, description := p.description,
      toolsAllowed := p.toolsAllowed, maxFee := p.maxFee, agreedFee := 0,
      minVerifiers := p.minVerifiers, bidWindowEpochs := p.bidWindowEpochs,
      deadlineEpoch := p.deadlineEpoch, postedEpoch := p.epoch, status := .open, agent := none,
      resultHash := none, outputCid := none, commits := [], reveals := [] }

def applyAgentTaskBid (p : AgentTaskBid) : Prog {} Unit := do
  let task ← loadTask p.taskId
  ensure (task.status = .open) "task is not accepting bids"
  ensure (p.proposedFee ≤ task.maxFee) "proposed_fee exceeds max_fee"
  ensure (p.epoch ≤ wrapAdd task.postedEpoch task.bidWindowEpochs) "bid window has closed"
  stateSet .agentTaskBid (agentBidKey p.taskId p.agent) p.proposedFee

def applyAgentTaskAssign (p : AgentTaskAssign) : Prog {} Unit := do
  let task ← loadTask p.taskId
  ensure (task.status = .open) "task is not open for assignment"
  ensure (p.fee ≤ task.maxFee) "fee exceeds max_fee"
  let found ← stateGet .agentTaskBid (agentBidKey p.taskId p.agent)
  let bid ← orBail found s!"agent '{p.agent}' has not bid on task '{p.taskId}'"
  ensure (p.fee ≤ bid) "assigned fee exceeds agent's bid"
  saveTask { task with agent := some p.agent, agreedFee := p.fee, status := .assigned }

def applyAgentTaskSubmit (env : Env) (p : AgentTaskSubmit) : Prog {} Unit := do
  let task ← loadTask p.taskId
  ensure (task.status = .assigned) "task is not in Assigned state"
  ensure (task.agent = some p.agent) "only the assigned agent can submit"
  saveTask { task with resultHash := some p.resultHash, outputCid := some p.outputCid,
                       status := .submitted }
  logPrefix env.info p.resultHash 12

def applyAgentTaskVerifierCommit (p : AgentTaskVerifierCommit) : Prog {} Unit := do
  let task ← loadTask p.taskId
  ensure (task.status = .submitted ∨ task.status = .verifying) "task is not awaiting verification"
  ensure (∀ c ∈ task.commits, c.verifier ≠ p.verifier)
    s!"verifier '{p.verifier}' already committed"
  saveTask { task with commits := task.commits ++ [⟨p.verifier, p.commitHash, p.epoch⟩],
                       status := .verifying }

def applyAgentTaskVerifierReveal (env : Env) (p : AgentTaskVerifierReveal) :
    Prog {} Unit := do
  let task ← loadTask p.taskId
  ensure (task.status = .verifying) "task is not in Verifying state"
  let commit ← orBail (task.commits.find? (·.verifier = p.verifier))
    s!"no commit found for verifier '{p.verifier}'"
  ensure (commit.commitHash = env.sha256Hex (p.resultHash ++ p.salt))
    s!"reveal does not match commit for verifier '{p.verifier}'"
  ensure (∀ r ∈ task.reveals, r.verifier ≠ p.verifier)
    s!"verifier '{p.verifier}' already revealed"
  saveTask { task with reveals := task.reveals ++ [⟨p.verifier, p.resultHash, p.salt⟩] }

/-- Settle a task once enough verifiers have revealed: the hash most of them report
wins, ties going by the order the hash map is visited in. -/
def trySettle {W : Footprint} (order : Tally.HashOrder (String × ℕ)) (taskId : String) :
    Prog W Unit := do
  let task ← loadTask taskId
  match task.agent, task.resultHash with
  | some agent, some agentHash =>
    if task.status ≠ .verifying ∨ task.reveals.length < task.minVerifiers then pure ()
    else
      let votes := Tally.tally (task.reveals.map (·.resultHash))
      match Tally.maxByKey Prod.snd (order.visit votes) with
      | none => fail (.panic "called Option::unwrap() on a None value")
      | some (winningHash, _) => do
        let winners := (task.reveals.filter (·.resultHash = winningHash)).map (·.verifier)
        let verifierCutTotal := satMul task.agreedFee 10 / 100
        let agentFee := if agentHash = winningHash then task.agreedFee - verifierCutTotal else 0
        let perVerifier := if winners = [] then 0 else verifierCutTotal / winners.length
        let refund := task.maxFee - agentFee - satMul perVerifier winners.length
        when (0 < agentFee) (ignoreErr (credit agent nativeToken agentFee))
        winners.forM fun v =>
          when (0 < perVerifier) (ignoreErr (credit v nativeToken perVerifier))
        when (0 < refund) do
          let have_ ← inspect (getCredit task.requester)
          stateSet .agentCredit task.requester (satAdd have_ refund)
        saveTask { task with status := .settled }
  | _, _ => pure ()

/-! ## Agent registry -/

/-- Registering again keeps the first epoch and the counters. -/
def applyAgentRegister (p : AgentRegister) : Prog {} Unit := do
  let existing ← stateGet .agentRegistry p.account
  stateSet .agentRegistry p.account
    { account := p.account, name := p.name, description := p.description, tools := p.tools,
      model := p.model, minFee := p.minFee,
      registeredEpoch := (existing.map (·.registeredEpoch)).getD p.epoch, updatedEpoch := p.epoch,
      tasksCompleted := (existing.map (·.tasksCompleted)).getD 0,
      tasksVerified := (existing.map (·.tasksVerified)).getD 0, active := true }

def applyAgentDeregister (p : AgentDeregister) : Prog {} Unit := do
  let found ← stateGet .agentRegistry p.account
  let reg ← orBail found s!"agent '{p.account}' not registered"
  ensure reg.active "agent already deregistered"
  stateSet .agentRegistry p.account { reg with active := false }

/-! ## Session market -/

def applySessionListingCreate (p : SessionListingCreate) : Prog {} Unit := do
  let existing ← stateGet .sessionListing p.listingId
  ensure existing.isNone s!"listing '{p.listingId}' already exists"
  stateSet .sessionListing p.listingId
    ⟨p.listingId, p.seller, p.priceHunits, p.model, p.summaryHash, p.turnCount, p.epoch,
      wrapAdd p.epoch 720, .active, none⟩

/-- The market keeps 2%, computed with a wrapping product. -/
def applySessionListingBuy (p : SessionListingBuy) :
    Prog { pays := {balanceKey p.buyer nativeToken} } Unit := do
  let found ← stateGet .sessionListing p.listingId
  let listing ← orBail found s!"listing '{p.listingId}' not found"
  ensure (listing.status = .active) s!"listing '{p.listingId}' is not active"
  ensure (p.epoch ≤ listing.expiresEpoch) s!"listing '{p.listingId}' has expired"
  ensure (p.buyer ≠ listing.seller) "cannot buy your own listing"
  debit p.buyer nativeToken listing.priceHunits
  let fee := wrapMul listing.priceHunits 200 / 10000
  credit listing.seller nativeToken (listing.priceHunits - fee)
  when (0 < fee) (credit recycleFund nativeToken fee)
  stateSet .sessionListing p.listingId { listing with status := .sold, buyer := some p.buyer }

def applySessionListingCancel (p : SessionListingCancel) : Prog {} Unit := do
  let found ← stateGet .sessionListing p.listingId
  let listing ← orBail found s!"listing '{p.listingId}' not found"
  ensure (listing.seller = p.seller) "only the seller can cancel"
  ensure (listing.status = .active) "listing is not active"
  stateSet .sessionListing p.listingId { listing with status := .cancelled }

/-! ## Agent sessions -/

def applyAgentSessionOpen (p : AgentSessionOpen) :
    Prog { pays := {balanceKey p.client nativeToken} } Unit := do
  let serverPubkey ← stateGet .serverPubkey ""
  let existing ← stateGet .agentSession p.sessionId
  ensure existing.isNone s!"session '{p.sessionId}' already exists"
  debit p.client nativeToken p.feeEscrow
  stateSet .agentSession p.sessionId
    ⟨p.sessionId, p.client, p.clientPubkey, serverPubkey.getD "", p.model, p.epoch,
      wrapAdd p.epoch 2880, 0, p.feeEscrow, .open, p.systemPrompt, [], none⟩

/-- The fees of the turns taken go to the recycle fund, the rest of the escrow back. -/
def applyAgentSessionClose (p : AgentSessionClose) : Prog {} Unit := do
  let found ← stateGet .agentSession p.sessionId
  let session ← orBail found s!"session '{p.sessionId}' not found"
  ensure (session.client = p.client) "only the session owner can close it"
  ensure (session.status = .open) "session is not open"
  let feesUsed := satMul session.turnCount 500
  let refund := session.feeEscrow - feesUsed
  when (0 < refund) (credit p.client nativeToken refund)
  let protocolFee := min feesUsed session.feeEscrow
  when (0 < protocolFee) (credit recycleFund nativeToken protocolFee)
  stateSet .agentSession p.sessionId { session with status := .closed, feeEscrow := 0 }

end HoneNode
