import HoneNode.Inference.Escrow
import HoneNode.Json
import HoneNode.Tx.Frame

/-!
# Transport — the LoRaWAN and the UDP multicast listener

Both listeners decode a datagram and hand the entries in it to `apply_entry`, not
to `validate_and_apply`: no signature, nonce or fee is looked at, and the LoRaWAN
listener takes every kind of entry, those of the node itself included. Decoding is
done by other crates and is a parameter here. What a datagram does is then a fold
over the entries it carries, and the question when it does no more than an
unsigned submission would is asked entry by entry.
-/

namespace HoneNode.Transport

open Entry Prog Within Tx

/-- What the listeners decode with. -/
structure Wire where
  /-- `serde_json::from_slice` to a value. -/
  parse : Bytes → Option Json
  /-- `serde_json::from_value` to an entry. -/
  entryOfJson : Json → Option LedgerEntry
  /-- `serde_json::from_slice` to an entry. -/
  entryOfBytes : Bytes → Option LedgerEntry
  /-- The `entry_hash:` rows of the store, which no code of the node writes. -/
  entryRow : String → Option Bytes

/-- What a datagram leaves behind. -/
structure Outcome where
  chain : Chain
  /-- The entries sent on to libp2p. -/
  sent : List LedgerEntry := []
  /-- A panic ends the task of the listener. -/
  panicked : Bool := false

/-- Go on with the chain as it is now, unless the task has ended. -/
def Outcome.andThen (o : Outcome) (next : Chain → Outcome) : Outcome :=
  if o.panicked then o
  else
    let o' := next o.chain
    { o' with sent := o.sent ++ o'.sent }

section Listeners

variable (env : Env) (w : Wire)

/-- An entry that is turned down is dropped without a word. -/
def applyAndBroadcast (m : Moment) (e : LedgerEntry) (s : Chain) : Outcome :=
  match applyEntry env m.now e s with
  | (.ok (), s') => { chain := s', sent := [e] }
  | (.error (.err _), s') => { chain := s' }
  | (.error (.panic _), s') => { chain := s', panicked := true }

/-! ## LoRaWAN -/

/-- How an inline entry begins. -/
def inlineStart : Bytes := Text.bytes "\x7b\"entry\":"

/-- A payload of 32 bytes is the hash of an entry in the store, others hold their entry. -/
def handleLoraPayload (m : Moment) (payload : Bytes) (s : Chain) : Outcome :=
  if payload.length = 32 then
    match w.entryRow (hexEncode payload) with
    | some entryBytes => match w.entryOfBytes entryBytes with
      | some e => applyAndBroadcast env m e s
      | none => { chain := s }
    | none => { chain := s }
  else if inlineStart.isPrefixOf payload then
    match w.parse payload with
    | none => { chain := s }
    | some json => match json.get "entry" with
      | none => { chain := s }
      | some value => match w.entryOfJson value with
        | some e => applyAndBroadcast env m e s
        | none => { chain := s }
  else { chain := s }

/-- The loop over `rxpk`; every packet finds the clock further on. -/
def handlePackets : (ℕ → Moment) → List Json → Chain → Outcome
  | _, [], s => { chain := s }
  | clock, pkt :: rest, s =>
    let next := handlePackets (fun n => clock (n + 1)) rest
    match (pkt.get "data").bind Json.asStr with
    | none => next s
    | some data => match env.base64Decode data with
      | none => next s
      | some payload => (handleLoraPayload env w (clock 0) payload s).andThen next

def processPushData (clock : ℕ → Moment) (jsonBytes : Bytes) (s : Chain) : Outcome :=
  match w.parse jsonBytes with
  | none => { chain := s }
  | some json => match (json.get "rxpk").bind Json.asArray with
    | none => { chain := s }
    | some rxpk => handlePackets env w clock rxpk s

/-! ## UDP multicast -/

def isLightEntry : LedgerEntry → Bool
  | .inferenceJobBid _ => true
  | _ => false

def handleDatagram (m : Moment) (data : Bytes) (s : Chain) : Outcome :=
  match w.parse data with
  | none => { chain := s }
  | some json =>
    if (json.get "chain_id").bind Json.asStr ≠ some env.chainId then { chain := s }
    else match json.get "entry" with
      | none => { chain := s }
      | some value => match w.entryOfJson value with
        | none => { chain := s }
        | some e => if isLightEntry e then applyAndBroadcast env m e s else { chain := s }

/-! ## Datagrams -/

inductive Datagram where
  | pushData (jsonBytes : Bytes)
  | multicast (data : Bytes)

def receive (clock : ℕ → Moment) : Datagram → Chain → Outcome
  | .pushData jsonBytes => processPushData env w clock jsonBytes
  | .multicast data => handleDatagram env w (clock 0) data

/-- The entry in a LoRa payload. -/
def loraEntry (payload : Bytes) : Option LedgerEntry :=
  if payload.length = 32 then (w.entryRow (hexEncode payload)).bind w.entryOfBytes
  else if inlineStart.isPrefixOf payload then
    ((w.parse payload).bind (·.get "entry")).bind w.entryOfJson
  else none

/-- The entries of a packet loop, each with the moment it is handled at. -/
def packetEntries : (ℕ → Moment) → List Json → List (Moment × LedgerEntry)
  | _, [] => []
  | clock, pkt :: rest =>
    let payload := ((pkt.get "data").bind Json.asStr).bind env.base64Decode
    ((payload.bind (loraEntry w)).map (clock 0, ·)).toList ++
      packetEntries (fun n => clock (n + 1)) rest

/-- The entry in a multicast datagram of this chain, if it is a light one. -/
def multicastEntry (data : Bytes) : Option LedgerEntry :=
  (w.parse data).bind fun json =>
    if (json.get "chain_id").bind Json.asStr ≠ some env.chainId then none
    else ((json.get "entry").bind w.entryOfJson).filter (isLightEntry ·)

/-- The entries that a datagram carries to `apply_entry`. -/
def entries (clock : ℕ → Moment) : Datagram → List (Moment × LedgerEntry)
  | .pushData jsonBytes =>
    packetEntries env w clock
      (((w.parse jsonBytes).bind fun json => (json.get "rxpk").bind Json.asArray).getD [])
  | .multicast data => ((multicastEntry env w data).map (clock 0, ·)).toList

/-- One entry after the other, up to a panic. -/
def applyAll : List (Moment × LedgerEntry) → Chain → Outcome
  | [], s => { chain := s }
  | (m, e) :: rest, s => (applyAndBroadcast env m e s).andThen (applyAll rest)

end Listeners

/-! ## A datagram is the entries it carries -/

section Carried

variable {env : Env} {w : Wire} {s : Chain}

@[simp] theorem chain_applyAndBroadcast (m : Moment) (e : LedgerEntry) :
    (applyAndBroadcast env m e s).chain = (applyEntry env m.now e s).2 := by
  unfold applyAndBroadcast
  rcases applyEntry env m.now e s with ⟨(_ | _) | _, s'⟩ <;> rfl

theorem andThen_quiet (o : Outcome) : o.andThen (fun s => { chain := s }) = o := by
  obtain ⟨t, sent, panicked⟩ := o
  unfold Outcome.andThen
  cases panicked with
  | true => rfl
  | false => simp

theorem handleLoraPayload_eq (m : Moment) (payload : Bytes) :
    handleLoraPayload env w m payload s = match loraEntry w payload with
      | some e => applyAndBroadcast env m e s
      | none => { chain := s } := by
  unfold handleLoraPayload loraEntry
  split
  · cases hrow : w.entryRow (hexEncode payload) with
    | none => rfl
    | some entryBytes => simp only [Option.bind_some]
  · split
    · cases hjson : w.parse payload with
      | none => rfl
      | some json =>
        simp only [Option.bind_some]
        cases hvalue : json.get "entry" with
        | none => rfl
        | some value => simp only [Option.bind_some]
    · rfl

theorem handlePackets_eq (clock : ℕ → Moment) (rxpk : List Json) :
    handlePackets env w clock rxpk s = applyAll env (packetEntries env w clock rxpk) s := by
  induction rxpk generalizing clock s with
  | nil => rfl
  | cons pkt rest ih =>
    have hnext : handlePackets env w (fun n => clock (n + 1)) rest =
        applyAll env (packetEntries env w (fun n => clock (n + 1)) rest) := funext fun _ => ih _
    unfold handlePackets packetEntries
    rw [hnext]
    cases hdata : (pkt.get "data").bind Json.asStr with
    | none => rfl
    | some data =>
      simp only [Option.bind_some]
      cases hpayload : env.base64Decode data with
      | none => rfl
      | some payload =>
        simp only [Option.bind_some, handleLoraPayload_eq]
        cases loraEntry w payload <;> rfl

theorem handleDatagram_eq (m : Moment) (data : Bytes) :
    handleDatagram env w m data s = match multicastEntry env w data with
      | some e => applyAndBroadcast env m e s
      | none => { chain := s } := by
  unfold handleDatagram multicastEntry
  cases hjson : w.parse data with
  | none => rfl
  | some json =>
    simp only [Option.bind_some]
    split
    · rfl
    · cases hvalue : json.get "entry" with
      | none => rfl
      | some value =>
        simp only [Option.bind_some]
        cases he : w.entryOfJson value with
        | none => rfl
        | some e =>
          simp only [Option.filter_some]
          split <;> rfl

/-- Receiving a datagram is applying its entries one after the other. -/
theorem receive_eq (clock : ℕ → Moment) (d : Datagram) :
    receive env w clock d s = applyAll env (entries env w clock d) s := by
  cases d with
  | pushData jsonBytes =>
    show processPushData env w clock jsonBytes s = applyAll env (packetEntries env w clock _) s
    unfold processPushData
    cases hjson : w.parse jsonBytes with
    | none => rfl
    | some json =>
      simp only [Option.bind_some]
      cases hrxpk : (json.get "rxpk").bind Json.asArray with
      | none => rfl
      | some rxpk => exact handlePackets_eq clock rxpk
  | multicast data =>
    show handleDatagram env w (clock 0) data s = applyAll env (Option.toList _) s
    rw [handleDatagram_eq]
    cases hentry : multicastEntry env w data with
    | none => rfl
    | some e => exact (andThen_quiet _).symm

end Carried

/-! ## No more than an unsigned submission -/

/-- From `s` to `t` the entry did nothing, or what it would have done as an unsigned
submission; and it minted, spent and sealed nothing. -/
structure AddsNoAuthority (env : Env) (m : Moment) (e : LedgerEntry) (s t : Chain) : Prop where
  validated : t = s ∨ t = (validateAndApply env m e none s).2
  unminted : isSystemEntry e = true → ∀ k, t.row k ≤ s.row k
  /-- The transfer of an external signer is the one that carries its signature in it. -/
  unspent : (∀ p, e ≠ .externalSignerTransfer p) →
    (∀ k, s.row k ≤ t.row k) ∧ ∀ a, s.getStake a ≤ t.getStake a
  unsealed : ∀ p, e = .epochSeal p → t.currentEpoch ≤ s.currentEpoch

/-- The entries in turn lead from `s` to `t`, none with more than that. -/
inductive Admitted (env : Env) : List (Moment × LedgerEntry) → Chain → Chain → Prop
  | nil (s : Chain) : Admitted env [] s s
  | cons {m : Moment} {e : LedgerEntry} {rest : List (Moment × LedgerEntry)} {s t u : Chain}
      (first : AddsNoAuthority env m e s t) (more : Admitted env rest t u) :
      Admitted env ((m, e) :: rest) s u

/-- The datagram does no more than unsigned submissions of its entries would. -/
def Unprivileged (env : Env) (w : Wire) (clock : ℕ → Moment) (d : Datagram) (s : Chain) : Prop :=
  Admitted env (entries env w clock d) s (receive env w clock d s).chain

/-! ### When it is so -/

/-- The entries for which `apply_entry` has an empty arm. -/
def isRecorded : LedgerEntry → Bool
  | .contractDeploy _ | .contractCall _ | .blobStore _ | .storeUpdate _ | .productCreate _
  | .productUpdate _ | .orderPlace _ | .orderFulfill _ | .orderCancel _ | .orderDispute _
  | .escrowRelease _ | .flashSale _ | .sensorKeyRegister _ | .sensorVouch _
  | .deviceKeyRegister _ | .linkGitPruneProof _ | .linkGitStorageExtend _ | .trackerHint _
  | .agentTaskSettle _ => true
  | _ => false

/-- The entry passes every check unsigned, and then `validate_and_apply` has nothing to do
but apply it: no contract, no nonce, no fee. It is no system entry and takes nothing from
anybody. -/
structure Cleared (env : Env) (m : Moment) (s : Chain) (e : LedgerEntry) : Prop where
  accepted : preflight env s e none = .ok ()
  plain : isPlain e = true
  user : isSystemEntry e = false
  unnumbered : bumped e = none
  unpaid : entryWeight e = 0 ∨ entryFeePayer e = none ∧ ∀ p, e ≠ .accountCreate p
  idle : (∃ p, e = .externalSignerTransfer p) ∨
    (arm env m.now e).footprint.pays = ∅ ∧ (arm env m.now e).footprint.unstakes = ∅

/-- The bid meets the conditions that its own arm sets. -/
def BidOpen (s : Chain) (p : InferenceJobBid) : Prop :=
  ∃ job, s.stateGet .inferJob p.jobId = some job ∧ job.status = .posted ∧
    s.currentEpoch < wrapAdd job.postedEpoch job.bidWindowEpochs ∧
    p.bidder ≠ job.requester ∧ p.fee ≤ job.maxFee ∧
    (p.role = "worker" ∨ p.role = "verifier") ∧
    job.minReputation ≤ (getReputation p.bidder s).score ∧
    s.stateGet .inferBid (inferBidKey p.jobId p.bidder) = none

/-- Applying the entry as it is does no harm. A bid may be turned down by its arm, or pass
the checks unsigned with neither a nonce to advance nor a fee to take. -/
def Harmless (env : Env) (m : Moment) (s : Chain) : LedgerEntry → Prop
  | .inferenceJobBid p => ¬ BidOpen s p ∨
      preflight env s (.inferenceJobBid p) none = .ok () ∧
        deductFee env (.inferenceJobBid p) (advance (.inferenceJobBid p) s) = s
  | e => isRecorded e = true ∨ Cleared env m s e

/-- Every entry is harmless on the chain it finds. -/
inductive AllHarmless (env : Env) : List (Moment × LedgerEntry) → Chain → Prop
  | nil (s : Chain) : AllHarmless env [] s
  | cons {m : Moment} {e : LedgerEntry} {rest : List (Moment × LedgerEntry)} {s : Chain}
      (first : Harmless env m s e) (more : AllHarmless env rest (applyEntry env m.now e s).2) :
      AllHarmless env ((m, e) :: rest) s

section Entries

variable {env : Env} {m : Moment} {s t : Chain} {e : LedgerEntry}

theorem applyEntry_of_recorded (h : isRecorded e = true) :
    applyEntry env m.now e s = (.ok (), s) := by
  unfold isRecorded at h
  split at h
  all_goals first | rfl | cases h

theorem addsNoAuthority_refl (env : Env) (m : Moment) (e : LedgerEntry) (s : Chain) :
    AddsNoAuthority env m e s s where
  validated := .inl rfl
  unminted := fun _ _ => le_rfl
  unspent := fun _ => ⟨fun _ => le_rfl, fun _ => le_rfl⟩
  unsealed := fun _ _ => le_rfl

/-- What a plain entry that passes the checks leaves. -/
theorem chain_of_preflight (hpre : preflight env s e none = .ok ()) (hplain : isPlain e = true) :
    (validateAndApply env m e none s).2 = match applyEntry env m.now e s with
      | (.error _, t) => t
      | (.ok (), t) => deductFee env e (advance e t) := by
  unfold validateAndApply
  rw [hpre, commit_of_plain hplain]
  rcases applyEntry env m.now e s with ⟨_ | _, t⟩ <;> rfl

theorem deductFee_of_unpaid
    (h : entryWeight e = 0 ∨ entryFeePayer e = none ∧ ∀ p, e ≠ .accountCreate p) :
    deductFee env e t = t := by
  unfold deductFee
  rcases h with hweight | ⟨hpayer, hcreate⟩
  · have hfee : totalFee env t e = 0 := by simp [totalFee, satMul, hweight]
    rw [if_pos hfee]
  · split
    · rfl
    · split
      · exact absurd rfl (hcreate _)
      · rw [hpayer]

theorem Cleared.addsNoAuthority (h : Cleared env m s e) :
    AddsNoAuthority env m e s (applyEntry env m.now e s).2 where
  validated := by
    have hchain := chain_of_preflight (m := m) h.accepted h.plain
    have hbump : ∀ t, advance e t = t := by
      intro t
      unfold advance
      rw [h.unnumbered]
    right
    rw [hchain]
    rcases applyEntry env m.now e s with ⟨_ | _, t⟩
    · rfl
    · show t = deductFee env e (advance e t)
      rw [hbump, deductFee_of_unpaid h.unpaid]
  unminted := by
    intro hsys
    rw [h.user] at hsys
    cases hsys
  unspent := by
    intro hsigner
    have hreach := applyEntry_permits env m.now s e
    rcases h.idle with ⟨p, rfl⟩ | ⟨hpays, hunstakes⟩
    · exact absurd rfl (hsigner p)
    · constructor
      · intro k
        exact hreach.balance k (by rw [hpays]; exact Set.notMem_empty k)
      · intro a
        exact hreach.stake a (by rw [hunstakes]; exact Set.notMem_empty a)
  unsealed := by
    rintro p rfl
    have huser := h.user
    cases huser

/-- An entry that changes the chain without passing the checks breaks the rule. -/
theorem preflight_of_addsNoAuthority (h : AddsNoAuthority env m e s t) (hne : t ≠ s) :
    preflight env s e none = .ok () := by
  by_contra hpre
  obtain ⟨msg, hval⟩ := validateAndApply_of_preflight_ne m hpre
  rcases h.validated with hsame | hsame
  · exact hne hsame
  · exact hne (by rw [hsame, hval])

end Entries

/-! ### Bids -/

section Bids

variable {env : Env} {m : Moment} {s t : Chain} {p : InferenceJobBid}

/-- The chain with the bid on it. -/
def placed (p : InferenceJobBid) (s : Chain) : Chain :=
  s.stateSet .inferBid (inferBidKey p.jobId p.bidder) ⟨p.jobId, p.bidder, p.fee, p.role, p.epoch⟩

theorem run_bid_of_open (h : BidOpen s p) :
    (applyInferenceJobBid p).run s = (.ok (), placed p s) := by
  obtain ⟨job, hjob, hposted, hwindow, hother, hfee, hrole, hrep, hfresh⟩ := h
  have hbid : (s.stateGet .inferBid (inferBidKey p.jobId p.bidder)).isNone = true := by
    rw [hfresh]
    rfl
  unfold applyInferenceJobBid
  rw [run_bind_ok (Escrow.run_getJob hjob), run_ensure_bind hposted,
    run_inspect_bind, run_ensure_bind hwindow,
    run_ensure_bind hother, run_ensure_bind hfee,
    run_ensure_bind hrole, run_inspect_bind,
    run_ensure_bind hrep, run_stateGet_bind,
    run_ensure_bind hbid]
  rfl

theorem refused_bid (h : ¬ BidOpen s p) : Refused s ((applyInferenceJobBid p).run s) := by
  unfold applyInferenceJobBid
  cases hjob : s.stateGet .inferJob p.jobId with
  | none => exact ⟨_, run_bind_error (Escrow.run_getJob_none hjob)⟩
  | some job =>
    -- each condition is refused on its own; together they would make the bid open
    rw [run_bind_ok (Escrow.run_getJob hjob)]
    refine (refused_or_ensure _ _ _).elim id ?_
    rintro ⟨hposted, hrun⟩
    rw [hrun, run_inspect_bind]
    refine (refused_or_ensure _ _ _).elim id ?_
    rintro ⟨hwindow, hrun⟩
    rw [hrun]
    refine (refused_or_ensure _ _ _).elim id ?_
    rintro ⟨hother, hrun⟩
    rw [hrun]
    refine (refused_or_ensure _ _ _).elim id ?_
    rintro ⟨hfee, hrun⟩
    rw [hrun]
    refine (refused_or_ensure _ _ _).elim id ?_
    rintro ⟨hrole, hrun⟩
    rw [hrun, run_inspect_bind]
    refine (refused_or_ensure _ _ _).elim id ?_
    rintro ⟨hrep, hrun⟩
    rw [hrun, run_stateGet_bind]
    refine (refused_or_ensure _ _ _).elim id ?_
    rintro ⟨hfresh, hrun⟩
    exact absurd ⟨job, hjob, hposted, hwindow, hother, hfee, hrole, hrep,
      Option.isNone_iff_eq_none.1 hfresh⟩ h

theorem placed_ne (h : BidOpen s p) : placed p s ≠ s := by
  obtain ⟨-, -, -, -, -, -, -, -, hfresh⟩ := h
  intro heq
  have hget := congrArg (·.stateGet .inferBid (inferBidKey p.jobId p.bidder)) heq
  simp only [placed, stateGet_stateSet, if_true, hfresh] at hget
  cases hget

/-! The nonce and the fee do not look at bids, and bids not at them. -/

theorem bumpNonce_placed (account : String) :
    (placed p s).bumpNonce account = placed p (s.bumpNonce account) := by
  have hget : (placed p s).getAccount account = s.getAccount account := rfl
  unfold Chain.bumpNonce
  rw [hget]
  cases s.getAccount account <;> rfl

theorem payFee_placed (payer : String) (fee : ℕ) :
    payFee payer fee (placed p s) = placed p (payFee payer fee s) := by
  unfold payFee
  have hbalance : (placed p s).getBalance payer nativeToken = s.getBalance payer nativeToken := rfl
  have hfund : ((placed p s).debited payer nativeToken fee).getBalance recycleFund nativeToken =
      (s.debited payer nativeToken fee).getBalance recycleFund nativeToken := rfl
  simp only [hbalance, hfund]
  split
  · split <;> rfl
  · rfl

theorem deductFee_placed (e : LedgerEntry) :
    deductFee env e (placed p s) = placed p (deductFee env e s) := by
  have hfee : totalFee env (placed p s) e = totalFee env s e := by
    unfold totalFee readBaseFee Chain.param placed
    rw [s.stateGet_stateSet_of_ne (by decide)]
  unfold deductFee
  rw [hfee]
  split
  · rfl
  · split
    · exact payFee_placed _ _
    · split
      · exact payFee_placed _ _
      · rfl

theorem placed_inj (hstate : t.state = s.state) (h : placed p t = placed p s) : t = s := by
  obtain ⟨accounts, balances, stakes, epochs, state, currentEpoch⟩ := t
  obtain ⟨accounts', balances', stakes', epochs', state', currentEpoch'⟩ := s
  simp only [placed, Chain.stateSet, Chain.mk.injEq] at h ⊢
  exact ⟨h.1, h.2.1, h.2.2.1, h.2.2.2.1, hstate, h.2.2.2.2.2⟩

/-- What the listeners do with a bid is what an unsigned submission does, exactly when the
bid is refused, or free of checks, nonce and fee. -/
theorem bid_addsNoAuthority_iff :
    AddsNoAuthority env m (.inferenceJobBid p) s
      (applyEntry env m.now (.inferenceJobBid p) s).2 ↔ Harmless env m s (.inferenceJobBid p) := by
  have happ : applyEntry env m.now (.inferenceJobBid p) s = (applyInferenceJobBid p).run s :=
    applyEntry_of_ne_transfer (by simp)
  by_cases hopen : BidOpen s p
  · have hrun := happ.trans (run_bid_of_open hopen)
    have hdue : deductFee env (.inferenceJobBid p) (advance (.inferenceJobBid p) (placed p s)) =
        placed p (deductFee env (.inferenceJobBid p) (advance (.inferenceJobBid p) s)) := by
      show deductFee env _ ((placed p s).bumpNonce p.bidder) = _
      rw [bumpNonce_placed, deductFee_placed]
      rfl
    rw [hrun]
    constructor
    · intro h
      right
      have hpre := preflight_of_addsNoAuthority h (placed_ne hopen)
      refine ⟨hpre, ?_⟩
      have hval := chain_of_preflight (m := m) hpre rfl
      rw [hrun] at hval
      rcases h.validated with hsame | hsame
      · exact absurd hsame (placed_ne hopen)
      · rw [hval] at hsame
        have hstate : (deductFee env (.inferenceJobBid p)
            (advance (.inferenceJobBid p) s)).state = s.state := by simp
        exact placed_inj hstate (hdue.symm.trans hsame.symm)
    · rintro (hclosed | ⟨hpre, hfree⟩)
      · exact absurd hopen hclosed
      · have hval := chain_of_preflight (m := m) hpre rfl
        rw [hrun] at hval
        have hsame : placed p s = (validateAndApply env m (.inferenceJobBid p) none s).2 := by
          rw [hval]
          exact (hdue.trans (congrArg (placed p) hfree)).symm
        exact ⟨.inr hsame, nofun, fun _ => ⟨fun _ => le_rfl, fun _ => le_rfl⟩, nofun⟩
  · obtain ⟨msg, hrun⟩ := refused_bid hopen
    rw [happ, hrun]
    exact ⟨fun _ => .inl hopen, fun _ => addsNoAuthority_refl env m _ s⟩

end Bids

/-! ## Datagrams, entry by entry -/

section Runs

variable {env : Env} {w : Wire} {m : Moment} {s : Chain} {e : LedgerEntry}

theorem Harmless.addsNoAuthority (h : Harmless env m s e) :
    AddsNoAuthority env m e s (applyEntry env m.now e s).2 := by
  unfold Harmless at h
  split at h
  · next p => exact bid_addsNoAuthority_iff.2 h
  · rcases h with hrecorded | hcleared
    · rw [applyEntry_of_recorded hrecorded]
      exact addsNoAuthority_refl env m _ s
    · exact hcleared.addsNoAuthority

theorem admitted_refl (l : List (Moment × LedgerEntry)) (s : Chain) : Admitted env l s s := by
  induction l with
  | nil => exact .nil s
  | cons x rest ih => exact .cons (addsNoAuthority_refl env x.1 x.2 s) ih

/-- Harmless entries are admitted, all of them or up to a panic. -/
theorem admitted_of_allHarmless {l : List (Moment × LedgerEntry)} (h : AllHarmless env l s) :
    Admitted env l s (applyAll env l s).chain := by
  induction h with
  | nil s => exact .nil s
  | cons hfirst _ ih =>
    refine .cons hfirst.addsNoAuthority ?_
    unfold applyAll Outcome.andThen
    split
    · rw [chain_applyAndBroadcast]
      exact admitted_refl _ _
    · dsimp only
      rw [chain_applyAndBroadcast]
      exact ih

theorem admitted_singleton {t : Chain} :
    Admitted env [(m, e)] s t ↔ AddsNoAuthority env m e s t := by
  constructor
  · intro h
    cases h with
    | cons hfirst hmore =>
      cases hmore
      exact hfirst
  · intro h
    exact .cons h (.nil t)

section Single

variable {clock : ℕ → Moment} {d : Datagram} (h : entries env w clock d = [(m, e)])

include h

theorem chain_of_single : (receive env w clock d s).chain = (applyEntry env m.now e s).2 := by
  have hall : applyAll env [(m, e)] s = applyAndBroadcast env m e s := andThen_quiet _
  rw [receive_eq, h, hall, chain_applyAndBroadcast]

theorem unprivileged_of_single : Unprivileged env w clock d s ↔
    AddsNoAuthority env m e s (applyEntry env m.now e s).2 := by
  unfold Unprivileged
  rw [chain_of_single h, h, admitted_singleton]

end Single

/-- Only bids come in by multicast. -/
theorem multicastEntry_eq_bid {data : Bytes} (h : multicastEntry env w data = some e) :
    ∃ p, e = .inferenceJobBid p := by
  unfold multicastEntry at h
  obtain ⟨json, -, h⟩ := Option.bind_eq_some_iff.1 h
  split at h
  · cases h
  · have hlight := (Option.filter_eq_some_iff.1 h).2
    unfold isLightEntry at hlight
    split at hlight
    · exact ⟨_, rfl⟩
    · cases hlight

theorem entries_multicast (clock : ℕ → Moment) (data : Bytes) :
    entries env w clock (.multicast data) = [] ∨
      ∃ p, entries env w clock (.multicast data) = [(clock 0, .inferenceJobBid p)] := by
  cases hentry : multicastEntry env w data with
  | none =>
    left
    simp only [entries, hentry, Option.map_none, Option.toList_none]
  | some e =>
    obtain ⟨p, rfl⟩ := multicastEntry_eq_bid hentry
    right
    exact ⟨p, by simp only [entries, hentry, Option.map_some, Option.toList_some]⟩

end Runs

/-! ## Four datagrams -/

section Samples

/-- A JSON text and the value it stands for. -/
structure Spoken where
  (text : String) (value : Json)

/-- The entries of the samples, read from their fields. -/
def readEntry (j : Json) : Option LedgerEntry := do
  let text (key : String) := (j.get key).bind Json.asStr
  let num (key : String) := match j.get key with
    | some (.num n) => some n.toNat
    | _ => none
  match ← text "type" with
  | "GENESIS_ALLOC" => some (.genesisAlloc ⟨← text "account", ← num "amount", ← text "token"⟩)
  | "TRANSFER" => some (.transfer ⟨← text "from", ← text "to", ← num "amount", ← text "token",
      text "memo", ← num "epoch", ← text "signed_by", ← num "nonce", none⟩)
  | "EPOCH_SEAL" => some (.epochSeal ⟨← text "node_id", ← num "epoch", ← num "timestamp",
      ← text "seal_hash", text "signature", none⟩)
  | "LINK_GIT_SERVE_HEARTBEAT" => some (.linkGitServeHeartbeat
      ⟨← text "repo_id", ← text "owner", ← text "requester_hash", ← num "epoch"⟩)
  | "INFERENCE_JOB_BID" => some (.inferenceJobBid ⟨← text "job_id", ← text "bidder",
      ← num "fee", ← text "role", ← num "epoch", ← num "nonce", ← text "signed_by"⟩)
  | _ => none

/-- A wire that knows the listed texts, on a node without `entry_hash:` rows. -/
def speaking (spoken : List Spoken) : Wire where
  parse := fun b => (spoken.find? fun x => Text.bytes x.text = b).map (·.value)
  entryOfJson := readEntry
  entryOfBytes := fun _ => none
  entryRow := fun _ => none

/-- A PUSH_DATA body with one packet. -/
def pushOf (data : String) : Spoken where
  text := "\x7b\"rxpk\":[\x7b\"data\":\"" ++ data ++ "\"\x7d]\x7d"
  value := .obj [("rxpk", .arr [.obj [("data", .str data)]])]

/-- Coins for a stranger. -/
def allocText : Spoken where
  text := "\x7b\"entry\":\x7b\"type\":\"GENESIS_ALLOC\",\"account\":\"eve\",\"amount\":5,"
    ++ "\"token\":\"HONE\"\x7d\x7d"
  value :=
    .obj [("entry", .obj [("type", .str "GENESIS_ALLOC"), ("account", .str "eve"),
      ("amount", .num 5), ("token", .str "HONE")])]

/-- Somebody else's coins. -/
def transferText : Spoken where
  text := "\x7b\"entry\":\x7b\"type\":\"TRANSFER\",\"from\":\"alice\",\"to\":\"eve\","
    ++ "\"amount\":7,\"token\":\"HONE\",\"memo\":null,\"epoch\":0,\"signed_by\":\"alice\","
    ++ "\"nonce\":1\x7d\x7d"
  value :=
    .obj [("entry", .obj [("type", .str "TRANSFER"), ("from", .str "alice"), ("to", .str "eve"),
      ("amount", .num 7), ("token", .str "HONE"), ("memo", .null), ("epoch", .num 0),
      ("signed_by", .str "alice"), ("nonce", .num 1)])]

/-- An epoch from the future. -/
def sealText : Spoken where
  text := "\x7b\"entry\":\x7b\"type\":\"EPOCH_SEAL\",\"node_id\":\"eve\",\"epoch\":9,"
    ++ "\"timestamp\":0,\"seal_hash\":\"00\",\"signature\":null\x7d\x7d"
  value :=
    .obj [("entry", .obj [("type", .str "EPOCH_SEAL"), ("node_id", .str "eve"),
      ("epoch", .num 9), ("timestamp", .num 0), ("seal_hash", .str "00"), ("signature", .null)])]

/-- A repository was served. -/
def heartbeatText : Spoken where
  text := "\x7b\"entry\":\x7b\"type\":\"LINK_GIT_SERVE_HEARTBEAT\",\"repo_id\":\"repo\","
    ++ "\"owner\":\"alice\",\"requester_hash\":\"ab\",\"epoch\":0\x7d\x7d"
  value :=
    .obj [("entry", .obj [("type", .str "LINK_GIT_SERVE_HEARTBEAT"), ("repo_id", .str "repo"),
      ("owner", .str "alice"), ("requester_hash", .str "ab"), ("epoch", .num 0)])]

/-- A bid without the balance for its fee. -/
def bidText : Spoken where
  text := "\x7b\"chain_id\":\"hone\",\"entry\":\x7b\"type\":\"INFERENCE_JOB_BID\","
    ++ "\"job_id\":\"j\",\"bidder\":\"eve\",\"fee\":1,\"role\":\"worker\",\"epoch\":0,"
    ++ "\"nonce\":1,\"signed_by\":\"eve\"\x7d\x7d"
  value :=
    .obj [("chain_id", .str "hone"), ("entry", .obj [("type", .str "INFERENCE_JOB_BID"),
      ("job_id", .str "j"), ("bidder", .str "eve"), ("fee", .num 1), ("role", .str "worker"),
      ("epoch", .num 0), ("nonce", .num 1), ("signed_by", .str "eve")])]

/-! The payloads in base64. -/

def allocData : String :=
  "eyJlbnRyeSI6eyJ0eXBlIjoiR0VORVNJU19BTExPQyIsImFjY291bnQiOiJldmUiLCJhbW91bnQiOjUsInRv"
    ++ "a2VuIjoiSE9ORSJ9fQ=="

def transferData : String :=
  "eyJlbnRyeSI6eyJ0eXBlIjoiVFJBTlNGRVIiLCJmcm9tIjoiYWxpY2UiLCJ0byI6ImV2ZSIsImFtb3VudCI6"
    ++ "NywidG9rZW4iOiJIT05FIiwibWVtbyI6bnVsbCwiZXBvY2giOjAsInNpZ25lZF9ieSI6ImFsaWNlIiwibm9u"
    ++ "Y2UiOjF9fQ=="

def sealData : String :=
  "eyJlbnRyeSI6eyJ0eXBlIjoiRVBPQ0hfU0VBTCIsIm5vZGVfaWQiOiJldmUiLCJlcG9jaCI6OSwidGltZXN0"
    ++ "YW1wIjowLCJzZWFsX2hhc2giOiIwMCIsInNpZ25hdHVyZSI6bnVsbH19"

def heartbeatData : String :=
  "eyJlbnRyeSI6eyJ0eXBlIjoiTElOS19HSVRfU0VSVkVfSEVBUlRCRUFUIiwicmVwb19pZCI6InJlcG8iLCJv"
    ++ "d25lciI6ImFsaWNlIiwicmVxdWVzdGVyX2hhc2giOiJhYiIsImVwb2NoIjowfX0="

/-- A node that can decode the one payload. -/
def decoding (x : Spoken) (data : String) : Env :=
  { Env.bare with base64Decode := fun t => if t = data then some (Text.bytes x.text) else none }

/-- What a packet with the payload carries. -/
theorem entries_pushOf {x : Spoken} {data : String} {e : LedgerEntry}
    (hne : Text.bytes x.text ≠ Text.bytes (pushOf data).text)
    (hlength : (Text.bytes x.text).length ≠ 32)
    (hstart : inlineStart.isPrefixOf (Text.bytes x.text) = true)
    (hread : (x.value.get "entry").bind readEntry = some e) :
    entries (decoding x data) (speaking [x, pushOf data]) (fun _ => default)
      (.pushData (Text.bytes (pushOf data).text)) = [(default, e)] := by
  have hpush : (speaking [x, pushOf data]).parse (Text.bytes (pushOf data).text) =
      some (pushOf data).value := by simp [speaking, hne]
  have hinline : (speaking [x, pushOf data]).parse (Text.bytes x.text) = some x.value := by
    simp [speaking]
  have hlora : loraEntry (speaking [x, pushOf data]) (Text.bytes x.text) = some e := by
    unfold loraEntry
    rw [if_neg hlength, if_pos hstart, hinline]
    exact hread
  have hrxpk : ((pushOf data).value.get "rxpk").bind Json.asArray =
      some [.obj [("data", .str data)]] := rfl
  have hdata : ((Json.obj [("data", .str data)]).get "data").bind Json.asStr = some data := rfl
  have hdecode : (decoding x data).base64Decode data = some (Text.bytes x.text) := if_pos rfl
  simp only [entries, hpush, Option.bind_some, hrxpk, Option.getD_some, packetEntries, hdata,
    hdecode, hlora, Option.map_some, Option.toList_some, List.append_nil]

/-- A funded account with keys, and a job it posted. -/
def samplesChain : Chain :=
  let alice : Account :=
    { accountId := "alice", createdEpoch := 0
      keys := ((∅ : Kv String String).put "active" "aa").put "posting" "bb" }
  let job : InferenceJob :=
    { jobId := "j", requester := "alice", model := "m", mode := "text", inputHash := "00",
      maxFee := 5, minReputation := 0, bidWindowEpochs := 3, deadlineEpoch := 20,
      postedEpoch := 0, status := .posted, winner := none, awardedFee := none, verifiers := [],
      resultHash := none, latencyMs := none, disputedEpoch := none, claimedEpoch := none,
      settledEpoch := none, completedEpoch := none, persistOnFs := false, verdicts := [],
      commits := [], minVerifiers := 1, nodeFingerprint := none }
  ((({} : Chain).setAccount "alice" alice).setBalance "alice" nativeToken 100).stateSet
    .inferJob "j" job

end Samples

/-- A datagram does no more than unsigned submissions of its entries when each of these is
harmless; for multicast exactly then. If a datagram with one entry changes the chain and
does no more, the entry passes all the checks unsigned. -/
theorem transports_add_no_authority (env : Env) (w : Wire) (clock : ℕ → Moment) (s : Chain)
    (d : Datagram) :
    (AllHarmless env (entries env w clock d) s → Unprivileged env w clock d s) ∧
    (∀ data, d = .multicast data →
      (Unprivileged env w clock d s ↔ AllHarmless env (entries env w clock d) s)) ∧
    (∀ m e, entries env w clock d = [(m, e)] → (receive env w clock d s).chain ≠ s →
      Unprivileged env w clock d s → preflight env s e none = .ok ()) := by
  have henough : AllHarmless env (entries env w clock d) s → Unprivileged env w clock d s := by
    intro h
    unfold Unprivileged
    rw [receive_eq]
    exact admitted_of_allHarmless h
  refine ⟨henough, ?_, ?_⟩
  · rintro data rfl
    refine ⟨?_, henough⟩
    intro h
    rcases entries_multicast (w := w) clock data with hnone | ⟨p, hbid⟩
    · rw [hnone]
      exact .nil s
    · rw [unprivileged_of_single hbid] at h
      rw [hbid]
      exact .cons (bid_addsNoAuthority_iff.1 h) (.nil _)
  · intro m e hentries hne h
    rw [chain_of_single hentries] at hne
    exact preflight_of_addsNoAuthority ((unprivileged_of_single hentries).1 h) hne

/-- A heartbeat needs no signature anywhere. -/
theorem transports_add_no_authority_heartbeat :
    let env := decoding heartbeatText heartbeatData
    let w := speaking [heartbeatText, pushOf heartbeatData]
    let d := Datagram.pushData (Text.bytes (pushOf heartbeatData).text)
    AllHarmless env (entries env w (fun _ => default) d) samplesChain ∧
      Unprivileged env w (fun _ => default) d samplesChain ∧
      (receive env w (fun _ => default) d samplesChain).chain.stateGet .linkGitServeCount
        "0:repo" = some 1 := by
  intro env w d
  have hentries : entries env w (fun _ => default) d =
      [(default, .linkGitServeHeartbeat ⟨"repo", "alice", "ab", 0⟩)] :=
    entries_pushOf (by decide) (by decide) (by decide) rfl
  have hcleared : Cleared env default samplesChain
      (.linkGitServeHeartbeat ⟨"repo", "alice", "ab", 0⟩) :=
    ⟨by decide, rfl, rfl, rfl, .inr ⟨rfl, nofun⟩, .inr ⟨rfl, rfl⟩⟩
  have hall : AllHarmless env (entries env w (fun _ => default) d) samplesChain := by
    rw [hentries]
    exact .cons (.inr hcleared) (.nil _)
  refine ⟨hall, (transports_add_no_authority env w _ samplesChain d).1 hall, ?_⟩
  rw [chain_of_single hentries]
  decide

/-- Unsigned datagrams mint coins, spend those of an account with keys, move the epoch on,
and bid without the balance for the fee. -/
theorem datagrams_mint_spend_seal_and_bid :
    (let env := decoding allocText allocData
     let w := speaking [allocText, pushOf allocData]
     let d := Datagram.pushData (Text.bytes (pushOf allocData).text)
     (receive env w (fun _ => default) d samplesChain).chain.getBalance "eve" nativeToken = 5 ∧
       ¬ Unprivileged env w (fun _ => default) d samplesChain) ∧
    (let env := decoding transferText transferData
     let w := speaking [transferText, pushOf transferData]
     let d := Datagram.pushData (Text.bytes (pushOf transferData).text)
     (receive env w (fun _ => default) d samplesChain).chain.getBalance "alice" nativeToken = 93 ∧
       ¬ Unprivileged env w (fun _ => default) d samplesChain) ∧
    (let env := decoding sealText sealData
     let w := speaking [sealText, pushOf sealData]
     let d := Datagram.pushData (Text.bytes (pushOf sealData).text)
     (receive env w (fun _ => default) d samplesChain).chain.currentEpoch = 9 ∧
       ¬ Unprivileged env w (fun _ => default) d samplesChain) ∧
    (let w := speaking [bidText]
     let d := Datagram.multicast (Text.bytes bidText.text)
     ¬ Unprivileged Env.bare w (fun _ => default) d samplesChain) := by
  refine ⟨?_, ?_, ?_, ?_⟩
  · intro env w d
    have hentries : entries env w (fun _ => default) d =
        [(default, .genesisAlloc ⟨"eve", 5, "HONE"⟩)] :=
      entries_pushOf (by decide) (by decide) (by decide) rfl
    rw [chain_of_single hentries, unprivileged_of_single hentries]
    refine ⟨by decide, fun h => ?_⟩
    have hrow := h.unminted rfl (balanceKey "eve" nativeToken)
    revert hrow
    decide
  · intro env w d
    have hentries : entries env w (fun _ => default) d =
        [(default, .transfer ⟨"alice", "eve", 7, "HONE", none, 0, "alice", 1, none⟩)] :=
      entries_pushOf (by decide +kernel) (by decide +kernel) (by decide +kernel) rfl
    rw [chain_of_single hentries, unprivileged_of_single hentries]
    refine ⟨by decide, fun h => ?_⟩
    have hrow := (h.unspent nofun).1 (balanceKey "alice" nativeToken)
    revert hrow
    decide
  · intro env w d
    have hentries : entries env w (fun _ => default) d =
        [(default, .epochSeal ⟨"eve", 9, 0, "00", none, none⟩)] :=
      entries_pushOf (by decide) (by decide) (by decide) rfl
    rw [chain_of_single hentries, unprivileged_of_single hentries]
    refine ⟨by decide, fun h => ?_⟩
    have hepoch := h.unsealed _ rfl
    revert hepoch
    decide
  · intro w d
    have hparse : w.parse (Text.bytes bidText.text) = some bidText.value := by simp [w, speaking]
    have hbid : multicastEntry Env.bare w (Text.bytes bidText.text) =
        some (.inferenceJobBid ⟨"j", "eve", 1, "worker", 0, 1, "eve"⟩) := by
      unfold multicastEntry
      rw [hparse]
      rfl
    have hentries : entries Env.bare w (fun _ => default) d =
        [(default, .inferenceJobBid ⟨"j", "eve", 1, "worker", 0, 1, "eve"⟩)] := by
      simp only [entries, d, hbid, Option.map_some, Option.toList_some]
    rw [unprivileged_of_single hentries, bid_addsNoAuthority_iff]
    rintro (hclosed | ⟨hpre, -⟩)
    · exact hclosed ⟨_, rfl, rfl, by decide, by decide, by decide, .inl rfl, by decide, rfl⟩
    · revert hpre
      decide

end HoneNode.Transport
