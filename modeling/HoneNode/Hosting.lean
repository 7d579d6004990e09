import HoneNode.Rewards.Holdings
import HoneNode.Lib.Trace

/-!
# Hosting — requests for a hosted node, and their refunds

A request is stored under the name of its service node and its id, one after the
other with nothing in between, and a service account takes for its own whatever
begins with its name. A refund is a credit and then a debit, each of them ignored
if it fails. Where names and ids do not run into each other and the service
account can pay, every request is settled once, by its own service node, and a
refund moves money without making any.
-/

namespace HoneNode.Hosting

open Prog Within Trace

def hostingPriceHunits : ℕ := 500000000

def hostingDurationEpochs : ℕ := 86400

def hostingRequestPrefix : String := "hosting_req:"

inductive RequestStatus where
  | pending | active | refunded
deriving DecidableEq

structure HostingRequest where
  (requestId buyer serviceNode : String) (priceHunits durationEpochs : ℕ)
  (status : RequestStatus) (createdMs : ℕ) (containerId : Option String)
  (provisionedMs : Option ℕ) (error : Option String)

/-- The store, and for every service account what its tick has scanned and not handled. -/
structure Store where
  chain : Chain := {}
  requests : Kv String HostingRequest := Kv.empty
  scanned : Kv String (List (String × HostingRequest)) := Kv.empty

/-! ## The code -/

def hostingKey (serviceNode requestId : String) : String :=
  hostingRequestPrefix ++ serviceNode ++ requestId

def placeHostingRequest (buyer serviceNode requestId : String) (nowMs : ℕ) (s : Store) : Store :=
  let req : HostingRequest := ⟨requestId, buyer, serviceNode, hostingPriceHunits,
    hostingDurationEpochs, .pending, nowMs, none, none, none⟩
  { s with requests := s.requests.put (hostingKey serviceNode requestId) req }

/-- The scan at the start of `process_hosting_requests`, once the last tick is through. -/
def scanRequests (service : String) (s : Store) : Store :=
  match s.scanned.get service with
  | some (_ :: _) => s
  | _ =>
    let pairs := s.requests.scan (hasPrefix (hostingRequestPrefix ++ service))
    { s with scanned := s.scanned.put service pairs }

def refund (buyer service : String) (price : ℕ) :
    Prog { pays := {balanceKey service nativeToken} } Unit := do
  ignoreErr (credit buyer nativeToken price)
  ignoreErr (debit service nativeToken price (Footprint.hone_pays service))

/-- The chain after a refund, whatever has become of its two halves. -/
def refunded (buyer service : String) (price : ℕ) (chain : Chain) : Chain :=
  ((refund buyer service price).run chain).2

/-- The first eight bytes of the id are cut off for the log. -/
def cutsId (requestId : String) : Bool :=
  decide (requestId.utf8ByteSize < 8) || isBoundary requestId 8

/-- The request after its provisioning: the container's id, or the error. -/
def settled (nowMs : ℕ) (req : HostingRequest) : Except String String → HostingRequest
  | .ok id => { req with status := .active, containerId := some id, provisionedMs := some nowMs }
  | .error e => { req with status := .refunded, error := some e }

/-- The store after a provisioning; a failed one is refunded. -/
def settle (service key : String) (req : HostingRequest) (nowMs : ℕ) (s : Store)
    (outcome : Except String String) : Store :=
  let requests := s.requests.put key (settled nowMs req outcome)
  match outcome with
  | .ok _ => { s with requests := requests }
  | .error _ =>
    { s with chain := refunded req.buyer service hostingPriceHunits s.chain, requests := requests }

/-- The requests a tick passes over. -/
def skips (req : HostingRequest) : Bool :=
  decide (req.status ≠ .pending) || decide (req.buyer = "") || decide (req.requestId = "")

/-- One turn of the loop in `process_hosting_requests`. A cut inside a character ends the task,
which then stays where it is. -/
def handleNext (service : String) (outcome : Except String String) (nowMs : ℕ) (s : Store) :
    Store :=
  match s.scanned.get service with
  | some ((key, req) :: rest) =>
    if skips req then { s with scanned := s.scanned.put service rest }
    else if cutsId req.requestId then
      settle service key req nowMs { s with scanned := s.scanned.put service rest } outcome
    else s
  | _ => s

inductive HostingOp where
  | place (buyer serviceNode requestId : String) (nowMs : ℕ)
  | scan (service : String)
  | handle (service : String) (outcome : Except String String) (nowMs : ℕ)
  | stop (service : String)

def HostingOp.apply (s : Store) : HostingOp → Store
  | .place buyer serviceNode requestId nowMs =>
    placeHostingRequest buyer serviceNode requestId nowMs s
  | .scan service => scanRequests service s
  | .handle service outcome nowMs => handleNext service outcome nowMs s
  | .stop service => { s with scanned := s.scanned.put service [] }

/-- Any number of service accounts over one store, turn by turn; the rest of the node moves
balances. -/
def hosting : Component Store HostingOp where
  init s := s.requests = Kv.empty ∧ s.scanned = Kv.empty
  step := HostingOp.apply
  other s s' := s'.requests = s.requests ∧ s'.scanned = s.scanned

/-! ## What should hold -/

/-- The request that the next turn of the account settles. -/
def settling (s : Store) (service : String) : Option (String × HostingRequest) :=
  match s.scanned.get service with
  | some (b :: _) => if skips b.2 || !cutsId b.2.requestId then none else some b
  | _ => none

def settledKey : Store × HostingOp → Option String
  | (s, .handle service _ _) => (settling s service).map (·.1)
  | _ => none

def outcomeStatus : Except String String → RequestStatus
  | .ok _ => .active
  | .error _ => .refunded

structure Accounted (hist : List (Store × HostingOp)) (s : Store) : Prop where
  /-- A request is settled by its own service node. -/
  own : ∀ t service outcome nowMs, (t, .handle service outcome nowMs) ∈ hist → ∀ key req,
    settling t service = some (key, req) → req.serviceNode = service
  /-- No request is settled twice. -/
  once : (hist.filterMap settledKey).Nodup
  /-- A settled request stays as it was settled. -/
  ended : ∀ t service outcome nowMs, (t, .handle service outcome nowMs) ∈ hist → ∀ key req,
    settling t service = some (key, req) →
      ∃ r, s.requests.get key = some r ∧ r.status = outcomeStatus outcome
  /-- Only settled requests are active or refunded. -/
  reached : ∀ key r, s.requests.get key = some r → r.status ≠ .pending →
    key ∈ hist.filterMap settledKey
  /-- Every request that was placed is there. -/
  kept : ∀ t buyer serviceNode requestId nowMs,
    (t, .place buyer serviceNode requestId nowMs) ∈ hist →
      ∃ r, s.requests.get (hostingKey serviceNode requestId) = some r ∧ r.buyer = buyer ∧
        r.serviceNode = serviceNode ∧ r.requestId = requestId ∧ r.createdMs = nowMs
  /-- A refund moves the price from the service account to the buyer. -/
  refunds : ∀ t service e nowMs, (t, .handle service (.error e) nowMs) ∈ hist → ∀ key req,
    settling t service = some (key, req) →
      (handleNext service (.error e) nowMs t).chain.holdings = t.chain.holdings ∧
      ∀ a, native (handleNext service (.error e) nowMs t).chain a +
          (if service = a then hostingPriceHunits else 0) =
        native t.chain a + if req.buyer = a then hostingPriceHunits else 0

/-! ## When it does -/

/-- The credit and the debit of a refund both go through. -/
def Refundable (chain : Chain) (buyer service : String) : Prop :=
  native chain buyer + hostingPriceHunits < 2 ^ 64 ∧
    (buyer = service ∨ hostingPriceHunits ≤ native chain service)

/-- A request is placed under a free name and id; a scan meets no pending request of another
service node whose name and id begin with its own name; a failed request can be refunded. -/
def Clear (s : Store) : HostingOp → Prop
  | .place _ serviceNode requestId _ => s.requests.get (hostingKey serviceNode requestId) = none
  | .scan service => ∀ b ∈ s.requests.bindings, b.2.status = .pending →
      hasPrefix service (b.2.serviceNode ++ b.2.requestId) → b.2.serviceNode = service
  | .handle service (.error _) _ =>
    ∀ b ∈ settling s service, Refundable s.chain b.2.buyer service
  | _ => True

instance (chain : Chain) (buyer service : String) : Decidable (Refundable chain buyer service) :=
  inferInstanceAs (Decidable (_ ∧ _))

instance (s : Store) (op : HostingOp) : Decidable (Clear s op) :=
  match op with
  | .place _ _ _ _ => inferInstanceAs (Decidable (_ = _))
  | .scan _ => inferInstanceAs (Decidable (∀ b ∈ s.requests.bindings, _))
  | .handle service (.error _) _ => inferInstanceAs (Decidable (∀ b ∈ settling s service, _))
  | .handle _ (.ok _) _ => inferInstanceAs (Decidable True)
  | .stop _ => inferInstanceAs (Decidable True)

section Steps

variable {s t : Store} {service key : String} {req : HostingRequest}
  {outcome : Except String String} {nowMs : ℕ}

/-- What is stored is stored under its name and id, and what is scanned is still as it was. -/
structure Ordered (s : Store) : Prop where
  keyed : ∀ key r, s.requests.get key = some r → key = hostingKey r.serviceNode r.requestId
  distinct : ∀ service l, s.scanned.get service = some l → (l.map Prod.fst).Nodup
  current : ∀ service l, s.scanned.get service = some l → ∀ b ∈ l, b.2.status = .pending →
    b.2.serviceNode = service ∧ s.requests.get b.1 = some b.2

theorem settling_eq_some (h : settling s service = some (key, req)) :
    ∃ rest, s.scanned.get service = some ((key, req) :: rest) ∧ skips req = false ∧
      cutsId req.requestId = true := by
  unfold settling at h
  split at h
  · next b rest hget =>
    split at h
    · cases h
    · next hnot =>
      cases h
      rw [Bool.or_eq_true, not_or, Bool.not_eq_true, Bool.not_eq_true, Bool.not_eq_false'] at hnot
      exact ⟨rest, hget, hnot.1, hnot.2⟩
  · cases h

theorem settledKey_handle : settledKey (s, .handle service outcome nowMs) =
    (settling s service).map (·.1) := rfl

theorem pending_of_not_skips (h : skips req = false) : req.status = .pending := by
  unfold skips at h
  rw [Bool.or_eq_false_iff, Bool.or_eq_false_iff] at h
  exact not_not.1 (of_decide_eq_false h.1.1)

/-- A turn that settles. -/
theorem handleNext_of_settling (outcome : Except String String) (nowMs : ℕ)
    (h : settling s service = some (key, req)) :
    ∃ rest, s.scanned.get service = some ((key, req) :: rest) ∧ req.status = .pending ∧
      handleNext service outcome nowMs s =
        settle service key req nowMs { s with scanned := s.scanned.put service rest } outcome := by
  obtain ⟨rest, hget, hskips, hcuts⟩ := settling_eq_some h
  refine ⟨rest, hget, pending_of_not_skips hskips, ?_⟩
  unfold handleNext
  rw [hget]
  dsimp only
  rw [hskips, if_neg Bool.false_ne_true, if_pos hcuts]

/-- A turn that settles nothing at most passes over a request. -/
theorem handleNext_of_none (h : settling s service = none) :
    handleNext service outcome nowMs s = s ∨ ∃ b rest, s.scanned.get service = some (b :: rest) ∧
      handleNext service outcome nowMs s = { s with scanned := s.scanned.put service rest } := by
  unfold settling at h
  unfold handleNext
  split at h
  · next b rest hget =>
    rw [hget]
    dsimp only
    by_cases hskips : skips b.2 = true
    · exact .inr ⟨b, rest, rfl, if_pos hskips⟩
    · rw [if_neg hskips]
      by_cases hcuts : cutsId b.2.requestId = true
      · rw [Bool.not_eq_true] at hskips
        rw [hskips, hcuts] at h
        cases h
      · exact .inl (if_neg hcuts)
  · next hnone =>
    refine .inl ?_
    split
    · next hget => exact absurd hget (hnone _ _)
    · rfl

/-- What the money does is no matter to what is stored and scanned. -/
theorem settle_eq (service key : String) (req : HostingRequest) (nowMs : ℕ) (s : Store)
    (outcome : Except String String) : ∃ chain, settle service key req nowMs s outcome =
    ⟨chain, s.requests.put key (settled nowMs req outcome), s.scanned⟩ := by
  cases outcome with
  | ok id => exact ⟨s.chain, rfl⟩
  | error e => exact ⟨refunded req.buyer service hostingPriceHunits s.chain, rfl⟩

theorem requests_settle : (settle service key req nowMs s outcome).requests =
    s.requests.put key (settled nowMs req outcome) := by
  obtain ⟨chain, heq⟩ := settle_eq service key req nowMs s outcome
  rw [heq]

theorem scanned_settle : (settle service key req nowMs s outcome).scanned = s.scanned := by
  obtain ⟨chain, heq⟩ := settle_eq service key req nowMs s outcome
  rw [heq]

theorem chain_settle_error {e : String} :
    (settle service key req nowMs s (.error e)).chain =
      refunded req.buyer service hostingPriceHunits s.chain := by
  have heq : settle service key req nowMs s (.error e) =
      ⟨refunded req.buyer service hostingPriceHunits s.chain,
        s.requests.put key (settled nowMs req (.error e)), s.scanned⟩ := rfl
  rw [heq]

theorem serviceNode_settled : (settled nowMs req outcome).serviceNode = req.serviceNode := by
  cases outcome <;> rfl

theorem requestId_settled : (settled nowMs req outcome).requestId = req.requestId := by
  cases outcome <;> rfl

theorem status_settled : (settled nowMs req outcome).status = outcomeStatus outcome := by
  cases outcome <;> rfl

theorem hasPrefix_hostingKey {service serviceNode requestId : String} :
    hasPrefix (hostingRequestPrefix ++ service) (hostingKey serviceNode requestId) =
      hasPrefix service (serviceNode ++ requestId) := by
  unfold hasPrefix hostingKey
  rw [String.append_assoc, String.toList_append, String.toList_append, Bool.eq_iff_iff,
    List.isPrefixOf_iff_prefix, List.isPrefixOf_iff_prefix, List.prefix_append_right_inj]

/-! ### What a step keeps in order -/

theorem ordered_place {buyer serviceNode requestId : String} (h : Ordered s)
    (hfree : s.requests.get (hostingKey serviceNode requestId) = none) :
    Ordered (placeHostingRequest buyer serviceNode requestId nowMs s) := by
  constructor
  · intro key r hget
    by_cases heq : hostingKey serviceNode requestId = key
    · subst heq
      unfold placeHostingRequest at hget
      rw [Kv.get_put_self] at hget
      cases hget
      rfl
    · unfold placeHostingRequest at hget
      rw [Kv.get_put_of_ne _ _ heq] at hget
      exact h.keyed key r hget
  · exact h.distinct
  · intro service l hl b hb hpending
    obtain ⟨hown, hstored⟩ := h.current service l hl b hb hpending
    refine ⟨hown, ?_⟩
    have hne : hostingKey serviceNode requestId ≠ b.1 := by
      intro heq
      rw [heq, hstored] at hfree
      cases hfree
    unfold placeHostingRequest
    rw [Kv.get_put_of_ne _ _ hne]
    exact hstored

/-- One account's list replaced by one that is in order. -/
theorem Ordered.put_scanned (h : Ordered s) {l : List (String × HostingRequest)}
    (hdistinct : (l.map Prod.fst).Nodup)
    (hcurrent : ∀ b ∈ l, b.2.status = .pending →
      b.2.serviceNode = service ∧ s.requests.get b.1 = some b.2) :
    Ordered { s with scanned := s.scanned.put service l } := by
  refine ⟨h.keyed, ?_, ?_⟩
  · intro service' l' hget
    by_cases heq : service = service'
    · subst heq
      rw [Kv.get_put_self] at hget
      cases hget
      exact hdistinct
    · rw [Kv.get_put_of_ne _ _ heq] at hget
      exact h.distinct service' l' hget
  · intro service' l' hget
    by_cases heq : service = service'
    · subst heq
      rw [Kv.get_put_self] at hget
      cases hget
      exact hcurrent
    · rw [Kv.get_put_of_ne _ _ heq] at hget
      exact h.current service' l' hget

theorem Ordered.tail (h : Ordered s) {b : String × HostingRequest}
    {rest : List (String × HostingRequest)} (hget : s.scanned.get service = some (b :: rest)) :
    Ordered { s with scanned := s.scanned.put service rest } := by
  refine h.put_scanned ?_ ?_
  · exact (List.nodup_cons.1 (h.distinct service _ hget)).2
  · exact fun b' hb' => h.current service _ hget b' (List.mem_cons_of_mem _ hb')

theorem ordered_scan (h : Ordered s) (hclear : Clear s (.scan service)) :
    Ordered (scanRequests service s) := by
  unfold scanRequests
  split
  · exact h
  · refine h.put_scanned ?_ ?_
    · have hsorted := s.requests.sorted.filter
        fun b => hasPrefix (hostingRequestPrefix ++ service) b.1
      exact List.pairwise_map.2 (hsorted.imp fun hlt => hlt.ne)
    · intro b hb hpending
      obtain ⟨hstored, hprefix⟩ := Kv.mem_scan.1 hb
      refine ⟨?_, hstored⟩
      rw [h.keyed _ _ hstored, hasPrefix_hostingKey] at hprefix
      exact hclear b ((Kv.lookup_eq_some_iff s.requests.sorted).1 hstored) hpending hprefix

theorem ordered_handle (h : Ordered s) : Ordered (handleNext service outcome nowMs s) := by
  cases hsettling : settling s service with
  | none =>
    rcases handleNext_of_none hsettling with
      heq | ⟨b, rest, hget, heq⟩
    · rw [heq]
      exact h
    · rw [heq]
      exact h.tail hget
  | some b =>
    obtain ⟨key, req⟩ := b
    obtain ⟨rest, hget, hpending, heq⟩ := handleNext_of_settling outcome nowMs hsettling
    obtain ⟨hown, hstored⟩ := h.current service _ hget _ List.mem_cons_self hpending
    have htail := h.tail hget
    rw [heq]
    refine ⟨?_, ?_, ?_⟩
    · intro key' r hget'
      rw [requests_settle] at hget'
      by_cases hkey : key = key'
      · subst hkey
        rw [Kv.get_put_self] at hget'
        cases hget'
        rw [serviceNode_settled, requestId_settled]
        exact h.keyed key req hstored
      · rw [Kv.get_put_of_ne _ _ hkey] at hget'
        exact h.keyed key' r hget'
    · rw [scanned_settle]
      exact htail.distinct
    · rw [scanned_settle, requests_settle]
      intro service' l hl b hb hpend
      obtain ⟨hown', hstored'⟩ := htail.current service' l hl b hb hpend
      refine ⟨hown', ?_⟩
      have hne : key ≠ b.1 := by
        intro hkey
        rw [← hkey] at hstored'
        -- the other entry is this request, so it is in the same list, behind itself
        have hsame : b.2 = req := Option.some.inj (hstored'.symm.trans hstored)
        have hservice : service = service' := by rw [← hown, ← hown', hsame]
        subst hservice
        change (s.scanned.put service rest).get service = some l at hl
        rw [Kv.get_put_self] at hl
        cases hl
        exact (List.nodup_cons.1 (h.distinct service _ hget)).1
          (List.mem_map.2 ⟨b, hb, hkey.symm⟩)
      rw [Kv.get_put_of_ne _ _ hne]
      exact hstored'

/-! ### Refunds -/

/-- What is credited to one account and debited from another has moved. -/
theorem holdings_moved {chain : Chain} {buyer : String} {n : ℕ}
    (h : n ≤ (chain.credited buyer nativeToken n).getBalance service nativeToken) :
    ((chain.credited buyer nativeToken n).debited service nativeToken n).holdings =
        chain.holdings ∧
      ∀ a, native ((chain.credited buyer nativeToken n).debited service nativeToken n) a +
          (if service = a then n else 0) =
        native chain a + if buyer = a then n else 0 := by
  constructor
  · have hdebit := holdings_debited_native h
    rw [holdings_credited_native] at hdebit
    exact Nat.add_right_cancel hdebit
  · intro a
    rw [native_debited, ← native_credited]
    by_cases heq : service = a
    · subst heq
      rw [if_pos rfl, Nat.sub_add_cancel h]
    · rw [if_neg heq]
      rfl

/-- A refund that goes through moves the price. -/
theorem holdings_refunded {chain : Chain} {buyer : String} {n : ℕ}
    (hfits : native chain buyer + n < 2 ^ 64) (hpays : buyer = service ∨ n ≤ native chain service) :
    (refunded buyer service n chain).holdings = chain.holdings ∧
      ∀ a, native (refunded buyer service n chain) a + (if service = a then n else 0) =
        native chain a + if buyer = a then n else 0 := by
  have hcover : n ≤ (chain.credited buyer nativeToken n).getBalance service nativeToken := by
    change n ≤ native (chain.credited buyer nativeToken n) service
    rw [native_credited]
    rcases hpays with heq | hle
    · rw [if_pos heq]
      exact Nat.le_add_left _ _
    · exact hle.trans (Nat.le_add_right _ _)
  have hcredit : (ignoreErr (credit buyer nativeToken n) :
      Prog { pays := {balanceKey service nativeToken} } Unit).run chain =
        (.ok (), chain.credited buyer nativeToken n) := by
    rw [run_ignoreErr, run_credit, if_pos hfits]
  unfold refunded refund
  rw [run_bind_ok hcredit, run_ignoreErr, run_debit, if_pos hcover]
  exact holdings_moved hcover

/-! ### What a step keeps of the accounts -/

variable {hist : List (Store × HostingOp)}

/-- Settled requests stay, so the accounts carry over when a step keeps what is stored. -/
theorem Accounted.of_requests (h : Accounted hist s) (hreq : t.requests = s.requests) :
    Accounted hist t := by
  refine ⟨h.own, h.once, ?_, ?_, ?_, h.refunds⟩
  · rw [hreq]
    exact h.ended
  · rw [hreq]
    exact h.reached
  · rw [hreq]
    exact h.kept

/-- A step that neither places nor settles is one more line of the history. -/
theorem Accounted.cons_quiet {op : HostingOp} (h : Accounted hist s)
    (hsettled : settledKey (t, op) = none)
    (hplace : ∀ buyer serviceNode requestId nowMs, op ≠ .place buyer serviceNode requestId nowMs) :
    Accounted ((t, op) :: hist) s := by
  have hnone : ∀ {t' service outcome nowMs key req},
      (t', HostingOp.handle service outcome nowMs) ∈ (t, op) :: hist →
        settling t' service = some (key, req) → (t', .handle service outcome nowMs) ∈ hist := by
    intro t' service outcome nowMs key req hmem hs
    rcases List.mem_cons.1 hmem with heq | hmem
    · cases heq
      rw [settledKey_handle, hs] at hsettled
      cases hsettled
    · exact hmem
  have hfilter : ((t, op) :: hist).filterMap settledKey = hist.filterMap settledKey :=
    List.filterMap_cons_none hsettled
  refine ⟨?_, ?_, ?_, ?_, ?_, ?_⟩
  · exact fun t' service outcome nowMs hmem key req hs => h.own _ _ _ _ (hnone hmem hs) _ _ hs
  · rw [hfilter]
    exact h.once
  · exact fun t' service outcome nowMs hmem key req hs => h.ended _ _ _ _ (hnone hmem hs) _ _ hs
  · rw [hfilter]
    exact h.reached
  · intro t' buyer serviceNode requestId nowMs hmem
    rcases List.mem_cons.1 hmem with heq | hmem
    · cases heq
      exact absurd rfl (hplace _ _ _ _)
    · exact h.kept _ _ _ _ _ hmem
  · exact fun t' service e nowMs hmem key req hs => h.refunds _ _ _ _ (hnone hmem hs) _ _ hs

theorem accounted_place {buyer serviceNode requestId : String} (h : Accounted hist s)
    (hfree : s.requests.get (hostingKey serviceNode requestId) = none) :
    Accounted ((s, .place buyer serviceNode requestId nowMs) :: hist)
      (placeHostingRequest buyer serviceNode requestId nowMs s) := by
  have hkeep : ∀ key r, s.requests.get key = some r →
      (placeHostingRequest buyer serviceNode requestId nowMs s).requests.get key = some r := by
    intro key r hget
    have hne : hostingKey serviceNode requestId ≠ key := by
      rintro rfl
      rw [hfree] at hget
      cases hget
    unfold placeHostingRequest
    rw [Kv.get_put_of_ne _ _ hne]
    exact hget
  have hhandle : ∀ {t service outcome nowMs'},
      (t, HostingOp.handle service outcome nowMs') ∈
        (s, HostingOp.place buyer serviceNode requestId nowMs) :: hist →
      (t, .handle service outcome nowMs') ∈ hist := by
    intro t service outcome nowMs' hmem
    rcases List.mem_cons.1 hmem with heq | hmem
    · cases heq
    · exact hmem
  refine ⟨?_, h.once, ?_, ?_, ?_, ?_⟩
  · exact fun t service outcome nowMs' hmem => h.own _ _ _ _ (hhandle hmem)
  · intro t service outcome nowMs' hmem key req hs
    obtain ⟨r, hget, hstatus⟩ := h.ended _ _ _ _ (hhandle hmem) _ _ hs
    exact ⟨r, hkeep _ _ hget, hstatus⟩
  · intro key r hget hstatus
    by_cases heq : hostingKey serviceNode requestId = key
    · subst heq
      unfold placeHostingRequest at hget
      rw [Kv.get_put_self] at hget
      cases hget
      exact absurd rfl hstatus
    · unfold placeHostingRequest at hget
      rw [Kv.get_put_of_ne _ _ heq] at hget
      exact h.reached key r hget hstatus
  · intro t buyer' serviceNode' requestId' nowMs' hmem
    rcases List.mem_cons.1 hmem with heq | hmem
    · cases heq
      refine ⟨_, Kv.get_put_self _ _ _, rfl, rfl, rfl, rfl⟩
    · obtain ⟨r, hget, hfields⟩ := h.kept _ _ _ _ _ hmem
      exact ⟨r, hkeep _ _ hget, hfields⟩
  · exact fun t service e nowMs' hmem => h.refunds _ _ _ _ (hhandle hmem)

/-- A turn that settles: the request is the account's own and has not been settled before. -/
theorem accounted_settle (h : Accounted hist s) (hordered : Ordered s)
    (hsettling : settling s service = some (key, req))
    (hclear : Clear s (.handle service outcome nowMs)) :
    Accounted ((s, .handle service outcome nowMs) :: hist) (handleNext service outcome nowMs s) := by
  obtain ⟨rest, hget, hpending, heq⟩ := handleNext_of_settling outcome nowMs hsettling
  obtain ⟨hown, hstored⟩ := hordered.current service _ hget _ List.mem_cons_self hpending
  have hnew : key ∉ hist.filterMap settledKey := by
    intro hin
    obtain ⟨⟨t, op⟩, hmem, hkey⟩ := List.mem_filterMap.1 hin
    -- whatever settled the key before left it settled
    cases op with
    | handle service' outcome' nowMs' =>
      obtain ⟨⟨key', req'⟩, hs, rfl⟩ := Option.map_eq_some_iff.1 hkey
      obtain ⟨r, hr, hstatus⟩ := h.ended _ _ _ _ hmem _ _ hs
      have hsame : r = req := Option.some.inj (hr.symm.trans hstored)
      rw [hsame, hpending] at hstatus
      cases outcome' <;> cases hstatus
    | place => cases hkey
    | scan => cases hkey
    | stop => cases hkey
  have hfilter : ((s, HostingOp.handle service outcome nowMs) :: hist).filterMap settledKey =
      key :: hist.filterMap settledKey := by
    refine List.filterMap_cons_some ?_
    rw [settledKey_handle, hsettling]
    rfl
  have hafter : (handleNext service outcome nowMs s).requests =
      s.requests.put key (settled nowMs req outcome) := by
    rw [heq, requests_settle]
  refine ⟨?_, ?_, ?_, ?_, ?_, ?_⟩
  · intro t service' outcome' nowMs' hmem key' req' hs
    rcases List.mem_cons.1 hmem with hhead | hmem
    · cases hhead
      rw [hsettling] at hs
      cases hs
      exact hown
    · exact h.own _ _ _ _ hmem _ _ hs
  · rw [hfilter]
    exact List.nodup_cons.2 ⟨hnew, h.once⟩
  · intro t service' outcome' nowMs' hmem key' req' hs
    rw [hafter]
    rcases List.mem_cons.1 hmem with hhead | hmem
    · cases hhead
      rw [hsettling] at hs
      cases hs
      exact ⟨_, Kv.get_put_self _ _ _, status_settled⟩
    · obtain ⟨r, hr, hstatus⟩ := h.ended _ _ _ _ hmem _ _ hs
      have hne : key ≠ key' := by
        rintro rfl
        refine hnew (List.mem_filterMap.2 ⟨_, hmem, ?_⟩)
        rw [settledKey_handle, hs]
        rfl
      exact ⟨r, by rw [Kv.get_put_of_ne _ _ hne]; exact hr, hstatus⟩
  · intro key' r hr hstatus
    rw [hfilter]
    rw [hafter] at hr
    by_cases hkey : key = key'
    · exact List.mem_cons.2 (.inl hkey.symm)
    · rw [Kv.get_put_of_ne _ _ hkey] at hr
      exact List.mem_cons_of_mem _ (h.reached key' r hr hstatus)
  · intro t buyer serviceNode requestId nowMs' hmem
    rcases List.mem_cons.1 hmem with hhead | hmem
    · cases hhead
    obtain ⟨r, hr, hbuyer, hservice, hid, hcreated⟩ := h.kept _ _ _ _ _ hmem
    rw [hafter]
    by_cases hkey : key = hostingKey serviceNode requestId
    · rw [hkey, Kv.get_put_self]
      rw [← hkey, hstored] at hr
      cases hr
      refine ⟨_, rfl, ?_⟩
      cases outcome <;> exact ⟨hbuyer, hservice, hid, hcreated⟩
    · rw [Kv.get_put_of_ne _ _ hkey]
      exact ⟨r, hr, hbuyer, hservice, hid, hcreated⟩
  · intro t service' e nowMs' hmem key' req' hs
    rcases List.mem_cons.1 hmem with hhead | hmem
    · cases hhead
      rw [hsettling] at hs
      cases hs
      have hchain : (handleNext service (.error e) nowMs s).chain =
          refunded req.buyer service hostingPriceHunits s.chain := by
        rw [heq, chain_settle_error]
      have hrefundable : Refundable s.chain req.buyer service := hclear (key, req) hsettling
      rw [hchain]
      exact holdings_refunded hrefundable.1 hrefundable.2
    · exact h.refunds _ _ _ _ hmem _ _ hs

end Steps

/-! ## Runs -/

section Runs

variable {hist : List (Store × HostingOp)} {s : Store}

theorem requests_scan (service : String) (s : Store) :
    (scanRequests service s).requests = s.requests := by
  unfold scanRequests
  split <;> rfl

theorem accounted_run (h : Run hosting Clear hist s) : Ordered s ∧ Accounted hist s := by
  induction h with
  | @start s hinit =>
    obtain ⟨hrequests, hscanned⟩ := hinit
    refine ⟨⟨?_, ?_, ?_⟩, ⟨nofun, List.nodup_nil, nofun, ?_, nofun, nofun⟩⟩
    · intro key r hget
      rw [hrequests] at hget
      cases hget
    · intro service l hget
      rw [hscanned] at hget
      cases hget
    · intro service l hget
      rw [hscanned] at hget
      cases hget
    · intro key r hget
      rw [hrequests] at hget
      cases hget
  | @step hist s op _ hclear ih =>
    obtain ⟨hordered, hacc⟩ := ih
    cases op with
    | place buyer serviceNode requestId nowMs =>
      exact ⟨ordered_place hordered hclear, accounted_place hacc hclear⟩
    | scan service =>
      exact ⟨ordered_scan hordered hclear,
        (hacc.cons_quiet rfl fun _ _ _ _ => HostingOp.noConfusion).of_requests
          (requests_scan service s)⟩
    | handle service outcome nowMs =>
      refine ⟨ordered_handle hordered, ?_⟩
      cases hsettling : settling s service with
      | some b => exact accounted_settle hacc hordered hsettling hclear
      | none =>
        have hquiet : settledKey (s, .handle service outcome nowMs) = none := by
          rw [settledKey_handle, hsettling]
          rfl
        refine (hacc.cons_quiet hquiet fun _ _ _ _ => HostingOp.noConfusion).of_requests ?_
        change (handleNext service outcome nowMs s).requests = s.requests
        rcases handleNext_of_none hsettling with
          heq | ⟨b, rest, -, heq⟩
        · rw [heq]
        · rw [heq]
    | stop service =>
      exact ⟨hordered.put_scanned List.nodup_nil (by simp),
        (hacc.cons_quiet rfl fun _ _ _ _ => HostingOp.noConfusion).of_requests rfl⟩
  | other _ hother ih =>
    obtain ⟨hordered, hacc⟩ := ih
    obtain ⟨hrequests, hscanned⟩ := hother
    refine ⟨⟨?_, ?_, ?_⟩, hacc.of_requests hrequests⟩
    · rw [hrequests]
      exact hordered.keyed
    · rw [hscanned]
      exact hordered.distinct
    · rw [hscanned, hrequests]
      exact hordered.current

/-- In every run whose steps are clear each request is settled at most once, by its own service
node, no request is lost, and refunds make no money. -/
theorem requests_accounted (h : Run hosting Clear hist s) : Accounted hist s :=
  (accounted_run h).2

/-- The service node has the price of two requests. -/
def fundedStore : Store :=
  { chain := ({} : Chain).setBalance "ann" nativeToken (2 * hostingPriceHunits) }

/-- One request is provisioned and one refunded. -/
def twoRequests : List HostingOp :=
  [.place "bob" "ann" "r1" 1, .place "cal" "ann" "r2" 2, .scan "ann",
    .handle "ann" (.ok "c1") 3, .handle "ann" (.error "no docker") 4]

theorem requests_accounted_two :
    Accounted (hosting.record fundedStore twoRequests []) (hosting.exec fundedStore twoRequests) :=
  requests_accounted (Run.exec (.start ⟨rfl, rfl⟩) (by decide))

/-- A request for another service node is met by one whose name begins it, and who cannot pay. -/
def foreignRequest : List HostingOp :=
  [.place "bob" "ann1" "r1" 1, .scan "ann", .handle "ann" (.error "no docker") 2]

/-- The refund of a request for `ann1` by `ann`, who has nothing, gives the buyer five HONE that
nobody loses. -/
theorem foreign_refund_mints :
    Run hosting (fun _ _ => True) (hosting.record {} foreignRequest [])
      (hosting.exec {} foreignRequest) ∧
    native (hosting.exec {} foreignRequest).chain "bob" = hostingPriceHunits ∧
    native (hosting.exec {} foreignRequest).chain "ann" = 0 ∧
    ¬ Accounted (hosting.record {} foreignRequest []) (hosting.exec {} foreignRequest) := by
  refine ⟨Run.exec (.start ⟨rfl, rfl⟩) (legal_true _ _), by decide, by decide, fun hacc => ?_⟩
  have hown := hacc.own _ _ _ _ List.mem_cons_self (hostingKey "ann1" "r1")
    ⟨"r1", "bob", "ann1", hostingPriceHunits, hostingDurationEpochs, .pending, 1, none, none, none⟩
    (by rfl)
  exact absurd hown (by decide)

end Runs

end HoneNode.Hosting
