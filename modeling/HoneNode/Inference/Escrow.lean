import HoneNode.Inference.Jobs

/-!
# Inference.Escrow — what leaves the fund for a job

Posting a job moves its `max_fee` into the recycle fund, where the escrows of all
jobs lie together. `apply_pay` takes the amounts and the worker from the entry
and `apply_cancel` returns the whole fee. The history of a run tells what was
escrowed and what was released (`escrowed`, `released`), each call's balances agree
with it (`Booked`), and `escrow_run` bounds the one by the other for entries that
`Honest` admits.
-/

namespace HoneNode.Escrow

open Entry Prog Within Jobs

/-! ## What moves -/

/-- An amount that left the fund for a job, and who was paid as its worker. -/
structure Out where
  (job : String) (amount : ℕ) (worker : Option String)
deriving DecidableEq, Repr

def payable : List InferenceStatus := [.verified, .reviewed, .noFee, .rejected, .completed]

/-- Payments, refund and recycle share of a pay entry. -/
def payTotal (p : InferenceJobPay) : ℕ :=
  p.workerAmount + (p.verifierPayments.map (·.2)).sum + (p.reviewerPayments.map (·.2)).sum +
    p.recycleAmount + p.refundAmount

/-- The sum as the code debits it. -/
def totalOut (p : InferenceJobPay) : ℕ :=
  wrapAdd (wrapAdd (wrapAdd (wrapAdd p.workerAmount (wrapSum p.verifierPayments))
    (wrapSum p.reviewerPayments)) p.recycleAmount) p.refundAmount

/-- Who may cancel a job. -/
def MayCancel (p : InferenceJobCancel) (job : InferenceJob) : Prop :=
  (job.status = .posted ∨ job.status = .awarded) ∧
    (p.cancelledBy ≠ "system" → p.cancelledBy = job.requester ∧ job.status ≠ .awarded)

instance (p : InferenceJobCancel) (job : InferenceJob) : Decidable (MayCancel p job) :=
  inferInstanceAs (Decidable (_ ∧ (_ → _)))

/-- What a call takes out of the fund: nothing unless it reaches its debit and is covered. -/
def outflow (s : Chain) : Op → List Out
  | .pay p =>
    match jobAt s p.jobId with
    | some job =>
      if job.status ∈ payable ∧ totalOut p ≤ s.getBalance recycleFund nativeToken then
        [⟨p.jobId, payTotal p, if 0 < p.workerAmount then some p.worker else none⟩]
      else []
    | none => []
  | .cancel p =>
    match jobAt s p.jobId with
    | some job =>
      if MayCancel p job ∧ job.maxFee ≤ s.getBalance recycleFund nativeToken then
        [⟨p.jobId, job.maxFee, none⟩]
      else []
    | none => []
  | _ => []

/-- What a call puts into the fund for a new job. -/
def inflow (env : Env) (s : Chain) (op : Op) : List (String × ℕ) :=
  match op, op.run env s with
  | .post p, (.ok _, _) => [(p.jobId, p.maxFee)]
  | _, _ => []

def released (hist : List (Chain × Op)) : List Out := hist.flatMap fun c => outflow c.1 c.2

def escrowed (env : Env) (hist : List (Chain × Op)) : List (String × ℕ) :=
  hist.flatMap fun c => inflow env c.1 c.2

/-! ## Honest entries -/

/-- The credits of a pay entry, in order. -/
def payCredits (p : InferenceJobPay) (job : InferenceJob) : List (String × ℕ) :=
  (if 0 < p.workerAmount then [(p.worker, p.workerAmount)] else []) ++ (p.verifierPayments ++
    (p.reviewerPayments ++ ([(recycleFund, p.recycleAmount)] ++
      if 0 < p.refundAmount then [(job.requester, p.refundAmount)] else [])))

/-- What a list of credits adds to a row. -/
def creditsTo (k : String) : List (String × ℕ) → ℕ
  | [] => 0
  | (account, n) :: rest => (if k = balanceKey account nativeToken then n else 0) + creditsTo k rest

/-- The payments behind an outflow. -/
def payments (s : Chain) (op : Op) : List (String × ℕ) :=
  match op, jobAt s op.jobId with
  | .pay p, some job => if outflow s op = [] then [] else payCredits p job
  | .cancel _, some job => if outflow s op = [] then [] else [(job.requester, job.maxFee)]
  | _, _ => []

/-- The row in which all escrows lie. -/
abbrev fund : String := balanceKey recycleFund nativeToken

/-- What a call does to the balances is what its outflow says: the payments add up to it,
the fund, whose row is a word, loses no more, and nobody else gets anything else. A post
brings the fee. -/
structure Booked (env : Env) (s : Chain) (op : Op) : Prop where
  sum : ((payments s op).map (·.2)).sum = ((outflow s op).map (·.amount)).sum
  taken : s.row fund < 2 ^ 64 → s.row fund + creditsTo fund (payments s op) ≤
    (op.run env s).2.row fund + ((outflow s op).map (·.amount)).sum
  given : outflow s op ≠ [] → ∀ k ≠ fund,
    (op.run env s).2.row k = s.row k + creditsTo k (payments s op)
  posted : ∀ p, op = .post p → (op.run env s).1 = .ok () →
    balanceKey p.requester nativeToken ≠ fund →
      (op.run env s).2.row fund = s.row fund + p.maxFee ∧
      (op.run env s).2.row (balanceKey p.requester nativeToken) + p.maxFee =
        s.row (balanceKey p.requester nativeToken)

/-- Every row that is credited has room for all it gets. -/
def Fits (s : Chain) (l : List (String × ℕ)) : Prop :=
  ∀ c ∈ l, s.row (balanceKey c.1 nativeToken) + creditsTo (balanceKey c.1 nativeToken) l < 2 ^ 64

instance (s : Chain) (l : List (String × ℕ)) : Decidable (Fits s l) :=
  inferInstanceAs (Decidable (∀ c ∈ l, _))

/-- A pay entry hands out at most the job's fee, to its recorded winner as worker, and no
credit of a payment or refund overflows. -/
def Honest (s : Chain) : Op → Prop
  | .pay p => ∀ job ∈ jobAt s p.jobId, payTotal p ≤ job.maxFee ∧
      (0 < p.workerAmount → job.winner = some p.worker) ∧
      Fits (s.debited recycleFund nativeToken (totalOut p)) (payCredits p job)
  | .cancel p => ∀ job ∈ jobAt s p.jobId,
      Fits (s.debited recycleFund nativeToken job.maxFee) [(job.requester, job.maxFee)]
  | _ => True

instance (s : Chain) (op : Op) : Decidable (Honest s op) := by
  unfold Honest
  split <;> infer_instance

/-! ## Calls that pay -/

section Pays

variable {W : Footprint} {β : Type} {env : Env} {s t : Chain}

variable {p : InferenceJobCancel} {job : InferenceJob}

theorem run_getJob {id : String} (h : jobAt s id = some job) :
    (getJob id : Prog W InferenceJob).run s = (.ok job, s) := by
  unfold getJob
  rw [run_stateGet_bind, show s.stateGet .inferJob id = some job from h]
  rfl

theorem run_getJob_none {id : String} (h : jobAt s id = none) :
    (getJob id : Prog W InferenceJob).run s = (.error (.err s!"job '{id}' not found"), s) := by
  unfold getJob
  rw [run_stateGet_bind, show s.stateGet .inferJob id = none from h]
  rfl

/-- Credits that fit all go through. -/
theorem run_payEach {l : List (String × ℕ)} (h : Fits t l) :
    ∃ t', (payEach l : Prog W Unit).run t = (.ok (), t') ∧
      ∀ k, t'.row k = t.row k + creditsTo k l := by
  induction l generalizing t with
  | nil => exact ⟨t, rfl, fun _ => rfl⟩
  | cons c rest ih =>
    obtain ⟨account, n⟩ := c
    have hfirst := h (account, n) List.mem_cons_self
    simp only [creditsTo, if_true] at hfirst
    have hcredit : (credit account nativeToken n : Prog W Unit).run t =
        (.ok (), t.credited account nativeToken n) := by
      rw [run_credit, if_pos]
      rw [getBalance_eq_row]
      omega
    have hrest : Fits (t.credited account nativeToken n) rest := by
      intro c hc
      have hc' := h c (List.mem_cons_of_mem _ hc)
      simp only [creditsTo] at hc'
      rw [row_credited]
      omega
    obtain ⟨t', ht', hrow⟩ := ih hrest
    refine ⟨t', (run_bind_ok hcredit).trans ht', fun k => ?_⟩
    rw [hrow, row_credited, creditsTo, Nat.add_assoc]

/-- Two lists of credits in a row are one. -/
theorem payEach_append_bind (l l' : List (String × ℕ)) (f : Unit → Prog W β) :
    (payEach l >>= fun _ => payEach l' >>= f) = payEach (l ++ l') >>= f := by
  refine eq_of_run fun t => ?_
  induction l generalizing t with
  | nil => rfl
  | cons c rest ih =>
    obtain ⟨account, n⟩ := c
    simp only [List.cons_append, payEach]
    rcases h : (credit account nativeToken n : Prog W Unit).run t with ⟨r | r, t'⟩
    · simp only [run_bind, h]
    · have hih := ih t'
      simp only [run_bind, h] at hih ⊢
      exact hih

theorem credit_eq_payEach (account : String) (n : ℕ) :
    (credit account nativeToken n : Prog W Unit) = payEach [(account, n)] := by
  refine eq_of_run fun t => ?_
  simp only [payEach, run_bind]
  rcases (credit account nativeToken n : Prog W Unit).run t with ⟨r | r, t'⟩ <;> rfl

theorem when_credit_eq_payEach (account : String) (n : ℕ) :
    (when (0 < n) (credit account nativeToken n) : Prog W Unit) =
      payEach (if 0 < n then [(account, n)] else []) := by
  unfold when
  split
  · exact credit_eq_payEach account n
  · rfl

/-- The fund has grown and no other row has changed. -/
def FundOnly (t t' : Chain) : Prop := t.row fund ≤ t'.row fund ∧ ∀ k ≠ fund, t'.row k = t.row k

theorem fundOnly_ignored_credit (account : String) (n m : ℕ) : FundOnly t
    (ignoreErr (credit recycleFund nativeToken n : Prog W Unit) |>.run (t.setStake account m)).2 := by
  rw [run_ignoreErr, run_credit]
  split
  · refine ⟨?_, fun k hk => ?_⟩
    · rw [row_credited]
      exact Nat.le_add_right _ _
    · rw [row_credited, if_neg hk]
      rfl
  · exact ⟨Nat.le_refl _, fun _ _ => rfl⟩

/-- Slashing takes what it finds, and only the fund gets any of it. -/
theorem run_slashDissenters (l : List (String × ℕ)) (h : ∀ d ∈ l, d.1 ∈ W.unstakes) (t : Chain) :
    ∃ t', (slashDissenters l h : Prog W Unit).run t = (.ok (), t') ∧ FundOnly t t' := by
  induction l generalizing t with
  | nil => exact ⟨t, rfl, Nat.le_refl _, fun _ _ => rfl⟩
  | cons d rest ih =>
    obtain ⟨dissenter, amount⟩ := d
    unfold slashDissenters
    rw [run_inspect_bind]
    unfold when
    split
    · obtain ⟨t', ht', hle, hsame⟩ := ih (fun d hd => h d (List.mem_cons_of_mem _ hd)) _
      obtain ⟨hle₁, hsame₁⟩ := @fundOnly_ignored_credit W t dissenter (min amount (t.getStake dissenter))
        (t.getStake dissenter - min amount (t.getStake dissenter))
      exact ⟨t', (run_bind_ok rfl).trans ht', hle₁.trans hle,
        fun k hk => (hsame k hk).trans (hsame₁ k hk)⟩
    · exact ih _ t

abbrev payFootprint (p : InferenceJobPay) : Footprint where
  pays := {balanceKey recycleFund nativeToken}
  unstakes := { a | ∃ n, (a, n) ∈ p.dissenterSlashes }

/-- `n` left the fund, and everybody was paid as the list says. -/
def PaidOut (n : ℕ) (l : List (String × ℕ)) (s s' : Chain) : Prop :=
  s.row fund - n + creditsTo fund l ≤ s'.row fund ∧
    ∀ k ≠ fund, s'.row k = s.row k + creditsTo k l

/-- A covered, honest pay entry goes through. -/
theorem pay_succeeds {p : InferenceJobPay}
    (hjob : jobAt s p.jobId = some job) (hstatus : job.status ∈ payable)
    (hcover : totalOut p ≤ s.getBalance recycleFund nativeToken)
    (hfits : Fits (s.debited recycleFund nativeToken (totalOut p)) (payCredits p job)) :
    ∃ s', (applyInferenceJobPay p).run s = (.ok (), s') ∧
      PaidOut (totalOut p) (payCredits p job) s s' := by
  obtain ⟨t, ht, hrow⟩ := @run_payEach (payFootprint p) _ _ hfits
  obtain ⟨u, hu, hle, hsame⟩ := @run_slashDissenters (payFootprint p) p.dissenterSlashes
    (fun d hd => ⟨d.2, hd⟩) t
  have hpaid : PaidOut (totalOut p) (payCredits p job) s u := by
    refine ⟨?_, fun k hk => ?_⟩
    · rw [hrow, row_debited, if_pos rfl] at hle
      exact hle
    · rw [hsame k hk, hrow, row_debited, if_neg hk, Nat.sub_zero]
  unfold totalOut payCredits at ht
  unfold applyInferenceJobPay
  simp only [when_credit_eq_payEach]
  simp only [credit_eq_payEach, payEach_append_bind]
  rw [run_bind_ok (run_getJob hjob), run_ensure_bind (by exact hstatus),
    run_debit_bind (by exact hcover), run_bind_ok ht, run_bind_ok hu,
    run_bind_ok rfl]
  -- what follows writes the job and its notes, no balance
  unfold when
  split <;> split <;> exact ⟨_, rfl, hpaid⟩

/-- Those who may cancel pass the check. -/
theorem run_mayCancel (h : MayCancel p job)
    {msg msg' : String} : (when (p.cancelledBy ≠ "system") (do
      ensure (p.cancelledBy = job.requester) msg
      ensure (job.status ≠ .awarded) msg') : Prog W Unit).run s = (.ok (), s) := by
  rw [run_when]
  split
  · next hsys =>
    obtain ⟨hreq, hnot⟩ := h.2 hsys
    rw [run_ensure_bind hreq, run_ensure, if_pos hnot]
  · rfl

/-- Others fail it. -/
theorem run_not_mayCancel
    (hstatus : job.status = .posted ∨ job.status = .awarded) (h : ¬ MayCancel p job)
    {msg msg' : String} : ∃ e, (when (p.cancelledBy ≠ "system") (do
      ensure (p.cancelledBy = job.requester) msg
      ensure (job.status ≠ .awarded) msg') : Prog W Unit).run s = (.error e, s) := by
  obtain ⟨hsys, hnot⟩ : p.cancelledBy ≠ "system" ∧
      (p.cancelledBy = job.requester → job.status = .awarded) := by
    simpa [MayCancel, hstatus] using h
  rw [run_when, if_pos hsys]
  by_cases hreq : p.cancelledBy = job.requester
  · rw [run_ensure_bind hreq, run_ensure, if_neg (not_not.2 (hnot hreq))]
    exact ⟨_, rfl⟩
  · rw [run_bind_error (by rw [run_ensure, if_neg hreq])]
    exact ⟨_, rfl⟩

/-- A covered refund with room for it goes through. -/
theorem cancel_succeeds (hjob : jobAt s p.jobId = some job) (hmay : MayCancel p job)
    (hcover : job.maxFee ≤ s.getBalance recycleFund nativeToken)
    (hfits : Fits (s.debited recycleFund nativeToken job.maxFee) [(job.requester, job.maxFee)]) :
    ∃ s', (applyInferenceJobCancel p).run s = (.ok (), s') ∧
      PaidOut job.maxFee [(job.requester, job.maxFee)] s s' := by
  have hroom := hfits _ List.mem_cons_self
  simp only [creditsTo, if_true, Nat.add_zero] at hroom
  have hpaid : PaidOut job.maxFee [(job.requester, job.maxFee)] s
      ((s.debited recycleFund nativeToken job.maxFee).credited job.requester nativeToken
        job.maxFee) := by
    refine ⟨?_, fun k hk => ?_⟩
    · rw [row_credited, row_debited, if_pos rfl]
      exact Nat.le_refl _
    · rw [row_credited, row_debited, if_neg hk]
      rfl
  unfold applyInferenceJobCancel
  rw [run_bind_ok (run_getJob hjob), run_ensure_bind hmay.1,
    run_bind_ok (run_mayCancel hmay), run_debit_bind hcover,
    run_credit_bind (by exact hroom)]
  cases job.winner with
  | none => exact ⟨_, rfl, hpaid⟩
  | some winner => exact ⟨_, rfl, hpaid⟩

/-- A pay or cancel entry that releases nothing does nothing. -/
theorem unchanged_of_outflow_nil {op : Op} (hop : (∃ p, op = .pay p) ∨ ∃ p, op = .cancel p)
    (h : outflow s op = []) : ∃ e, op.run env s = (.error e, s) := by
  rcases hop with ⟨p, rfl⟩ | ⟨p, rfl⟩
  · show ∃ e, (applyInferenceJobPay p).run s = _
    unfold applyInferenceJobPay
    cases hjob : jobAt s p.jobId with
    | none => exact ⟨_, run_bind_error (run_getJob_none hjob)⟩
    | some job =>
      simp only [outflow, hjob, ite_eq_right_iff, List.cons_ne_nil, imp_false, not_and] at h
      rw [run_bind_ok (run_getJob hjob)]
      by_cases hstatus : job.status ∈ payable
      · rw [run_ensure_bind (by exact hstatus)]
        exact ⟨_, run_bind_error (by rw [run_debit, if_neg (by exact h hstatus)])⟩
      · exact ⟨_, run_bind_error (by rw [run_ensure, if_neg (by exact hstatus)])⟩
  · show ∃ e, (applyInferenceJobCancel p).run s = _
    unfold applyInferenceJobCancel
    cases hjob : jobAt s p.jobId with
    | none => exact ⟨_, run_bind_error (run_getJob_none hjob)⟩
    | some job =>
      simp only [outflow, hjob, ite_eq_right_iff, List.cons_ne_nil, imp_false, not_and] at h
      rw [run_bind_ok (run_getJob hjob)]
      by_cases hstatus : job.status = .posted ∨ job.status = .awarded
      · rw [run_ensure_bind hstatus]
        by_cases hby : MayCancel p job
        · rw [run_bind_ok (run_mayCancel hby)]
          exact ⟨_, run_bind_error (by rw [run_debit, if_neg (h hby)])⟩
        · obtain ⟨e, he⟩ := run_not_mayCancel hstatus hby
          exact ⟨e, run_bind_error he⟩
      · exact ⟨_, run_bind_error (by rw [run_ensure, if_neg hstatus])⟩

end Pays

/-! ## Moves of a job in escrow -/

section Moves

variable {op : Op} {job job' : InferenceJob}

/-- The fee is what was posted. -/
theorem maxFee_of_moves (h : Moves op job job') : job'.maxFee = job.maxFee := by
  cases h with
  | judged => unfold closed; split <;> rfl
  | _ => rfl

/-- Paid and cancelled jobs are settled for good. -/
def Settled (job : InferenceJob) : Prop := job.status = .paid ∨ job.status = .cancelled

theorem not_settled_of_moves (h : Moves op job job') : ¬ Settled job := by
  unfold Settled
  cases h with
  | paid hs => intro h; rcases h with h | h <;> rw [h] at hs <;> simp at hs
  | cancelled hs => rcases hs with hs | hs <;> simp [hs]
  | awarded hs => simp [hs]
  | assigned hs => simp [hs]
  | completed hs => simp [hs]
  | committed hs => simp [hs]
  | judged hs => simp [hs]
  | claimed hs => simp [hs]
  | reviewed status hs => simp [hs]

end Moves

/-! ## Books -/

section Books

variable {env : Env} {s s' : Chain} {op : Op}

theorem sum_payCredits (p : InferenceJobPay) (job : InferenceJob) :
    ((payCredits p job).map (·.2)).sum = payTotal p := by
  have hcond : ∀ (account : String) (n : ℕ),
      ((if 0 < n then [(account, n)] else []).map (·.2)).sum = n := by
    intro account n
    split
    · simp
    · simp only [List.map_nil, List.sum_nil]
      omega
  unfold payCredits payTotal
  simp only [List.map_append, List.sum_append, hcond, List.map_cons, List.map_nil, List.sum_cons,
    List.sum_nil]
  omega

/-- The unchecked sum is never more than the exact one. -/
theorem totalOut_le (p : InferenceJobPay) : totalOut p ≤ payTotal p := by
  unfold totalOut payTotal wrapAdd wrapSum
  have hv := Nat.mod_le (p.verifierPayments.map (·.2)).sum (2 ^ 64)
  have hr := Nat.mod_le (p.reviewerPayments.map (·.2)).sum (2 ^ 64)
  omega

/-- A call that pays out what it releases is booked. -/
theorem booked_of_paidOut {l : List (String × ℕ)} {n : ℕ} {o : Out}
    (hrun : op.run env s = (.ok (), s')) (hpaid : PaidOut n l s s') (hpost : ∀ p, op ≠ .post p)
    (hpayments : payments s op = l) (hout : outflow s op = [o])
    (hsum : (l.map (·.2)).sum = o.amount) (hle : n ≤ o.amount) : Booked env s op where
  sum := by simp [hpayments, hout, hsum]
  taken := by
    have hfund := hpaid.1
    rw [hrun, hpayments, hout]
    simp only [List.map_cons, List.map_nil, List.sum_cons, List.sum_nil]
    intro _
    omega
  given := by
    intro _ k hk
    rw [hrun, hpayments]
    exact hpaid.2 k hk
  posted := fun p hp => absurd hp (hpost p)

/-- A call that releases nothing and lowers no row is booked. -/
theorem booked_of_grown (hout : outflow s op = []) (hpayments : payments s op = [])
    (hpost : ∀ p, op ≠ .post p) (hfund : s.row fund ≤ (op.run env s).2.row fund) :
    Booked env s op where
  sum := by
    rw [hout, hpayments]
    rfl
  taken := by
    rw [hout, hpayments]
    exact fun _ => hfund
  given := fun h => absurd hout h
  posted := fun p hp => absurd hp (hpost p)

theorem payments_of_nil (h : outflow s op = []) : payments s op = [] := by
  unfold payments
  split
  · exact if_pos h
  · exact if_pos h
  · rfl

/-- The other entries lower no row at all. -/
theorem booked_of_bare (hout : outflow s op = []) (hpayments : payments s op = [])
    (hpost : ∀ p, op ≠ .post p) (m : Prog {} Unit) (hm : op.run env s = m.run s) :
    Booked env s op :=
  booked_of_grown hout hpayments hpost (by rw [hm]; exact (m.within s).balance _ id)

theorem row_post_self {p : InferenceJobPost} (hown : fund = balanceKey p.requester nativeToken)
    (hword : s.row fund < 2 ^ 64) : s.row fund ≤ ((applyInferenceJobPost p).run s).2.row fund := by
  unfold applyInferenceJobPost
  rw [run_stateGet_bind]
  by_cases hnew : (s.stateGet .inferJob p.jobId).isNone = true
  · rw [run_ensure_bind hnew]
    by_cases hcover : p.maxFee ≤ s.getBalance p.requester nativeToken
    · have hrow := hcover
      rw [getBalance_eq_row, ← hown] at hrow
      rw [run_debit_bind hcover,
        run_bind_ok (by
          rw [run_credit, if_pos]
          rw [getBalance_eq_row, row_debited, if_pos hown]
          show s.row fund - p.maxFee + p.maxFee < 2 ^ 64
          omega),
        run_inspect_bind]
      show s.row fund ≤ Chain.row (Chain.credited _ _ _ _) fund
      rw [row_credited, row_debited, if_pos hown, if_pos rfl]
      omega
    · rw [run_bind_error (by rw [run_debit, if_neg hcover])]
  · rw [run_bind_error (by rw [run_ensure, if_neg hnew])]

/-- Posting moves the fee from the requester into the fund. -/
theorem booked_post (p : InferenceJobPost) : Booked env s (.post p) where
  sum := rfl
  taken := by
    intro hword
    show s.row fund ≤ ((applyInferenceJobPost p).run s).2.row fund
    by_cases hown : fund = balanceKey p.requester nativeToken
    · -- the fund pays itself: what is debited has room to come back
      exact row_post_self hown hword
    · exact ((applyInferenceJobPost p).within s).balance _ hown
  given := fun h => absurd rfl h
  posted := by
    rintro _ ⟨⟩ hok hother
    rcases hrun : (applyInferenceJobPost p).run s with ⟨r, t⟩
    rw [show (Op.post p).run env s = (r, t) from hrun] at hok ⊢
    cases hok
    unfold applyInferenceJobPost at hrun
    rw [run_stateGet_bind, ok_ensure_bind, ok_debit_bind, ok_credit_bind,
      run_inspect_bind] at hrun
    obtain ⟨-, hcover, -, hrun⟩ := hrun
    cases hrun
    rw [getBalance_eq_row] at hcover
    constructor
    · rw [Chain.row_stateSet, row_credited, row_debited, if_neg hother.symm, if_pos rfl]
      rfl
    · rw [Chain.row_stateSet, row_credited, row_debited, if_neg hother, if_pos rfl]
      omega

/-- The balances move as the outflow of the call says. -/
theorem booked_of_honest (hop : Honest s op) : Booked env s op := by
  cases op with
  | post p => exact booked_post p
  | pay p =>
    by_cases hnil : outflow s (.pay p) = []
    · obtain ⟨e, hrun⟩ := @unchanged_of_outflow_nil env s _ (.inl ⟨p, rfl⟩) hnil
      exact booked_of_grown hnil (payments_of_nil hnil) (by simp) (by rw [hrun])
    · cases hjob : jobAt s p.jobId with
      | none => exact absurd (by simp only [outflow, hjob]) hnil
      | some job =>
        have hout : job.status ∈ payable ∧ totalOut p ≤ s.getBalance recycleFund nativeToken := by
          by_contra hno
          exact hnil (by simp only [outflow, hjob, if_neg hno])
        obtain ⟨-, -, hfits⟩ := hop job hjob
        obtain ⟨s', hrun, hpaid⟩ := pay_succeeds hjob hout.1 hout.2 hfits
        exact booked_of_paidOut hrun hpaid (by simp)
          (by simp only [payments, Op.jobId, hjob, if_neg hnil])
          (by simp only [outflow, hjob, if_pos hout]; rfl) (sum_payCredits p job) (totalOut_le p)
  | cancel p =>
    by_cases hnil : outflow s (.cancel p) = []
    · obtain ⟨e, hrun⟩ := @unchanged_of_outflow_nil env s _ (.inr ⟨p, rfl⟩) hnil
      exact booked_of_grown hnil (payments_of_nil hnil) (by simp) (by rw [hrun])
    · cases hjob : jobAt s p.jobId with
      | none => exact absurd (by simp only [outflow, hjob]) hnil
      | some job =>
        have hout : MayCancel p job ∧ job.maxFee ≤ s.getBalance recycleFund nativeToken := by
          by_contra hno
          exact hnil (by simp only [outflow, hjob, if_neg hno])
        obtain ⟨s', hrun, hpaid⟩ := cancel_succeeds hjob hout.1 hout.2 (hop job hjob)
        exact booked_of_paidOut hrun hpaid (by simp)
          (by simp only [payments, Op.jobId, hjob, if_neg hnil])
          (by simp only [outflow, hjob, if_pos hout]; rfl) (by simp) (Nat.le_refl _)
  | bid p => exact booked_of_bare rfl rfl (by simp) (applyInferenceJobBid p) rfl
  | award p => exact booked_of_bare rfl rfl (by simp) (applyInferenceJobAward p) rfl
  | complete p => exact booked_of_bare rfl rfl (by simp) (applyInferenceJobComplete p) rfl
  | commit p => exact booked_of_bare rfl rfl (by simp) (applyInferenceJobCommit p) rfl
  | verify p => exact booked_of_bare rfl rfl (by simp) (applyInferenceJobVerify env p) rfl
  | claim p => exact booked_of_bare rfl rfl (by simp) (applyInferenceJobClaim p) rfl
  | reviewVote p => exact booked_of_bare rfl rfl (by simp) (applyInferenceReviewVote p) rfl

end Books

/-! ## Runs -/

section Runs

variable {env : Env} {hist : List (Chain × Op)} {s s' : Chain} {op : Op}

/-- What the history of a run has escrowed and released, against the jobs there are. -/
structure Accounted (env : Env) (hist : List (Chain × Op)) (s : Chain) : Prop where
  once : ((released hist).map (·.job)).Nodup
  settled : ∀ o ∈ released hist, ∃ job, jobAt s o.job = some job ∧ Settled job ∧
    o.amount ≤ job.maxFee ∧ ∀ w ∈ o.worker, job.winner = some w
  fees : ∀ id job, jobAt s id = some job → job.jobId = id ∧ (id, job.maxFee) ∈ escrowed env hist

/-- Only pay and cancel entries release anything, each for the job it names, which is
settled by it. -/
theorem outflow_cases (hop : Honest s op) {o : Out} (ho : o ∈ outflow s op) :
    outflow s op = [o] ∧ ∃ job job', o.job = op.jobId ∧ jobAt s op.jobId = some job ∧
      ¬ Settled job ∧ (∃ s', op.run env s = (.ok (), s')) ∧
      o.amount ≤ job.maxFee ∧ (∀ w ∈ o.worker, job.winner = some w) ∧
      (∀ after, Moves op job after → after = job') ∧ Settled job' ∧ job'.winner = job.winner := by
  cases op with
  | pay p =>
    unfold outflow at ho ⊢
    cases hjob : jobAt s p.jobId with
    | none =>
      simp only [hjob] at ho
      cases ho
    | some job =>
      simp only [hjob] at ho ⊢
      split at ho
      · next hout =>
        obtain rfl := List.mem_singleton.1 ho
        obtain ⟨htotal, hworker, hfits⟩ := hop job hjob
        rw [if_pos hout]
        obtain ⟨s', hrun, -⟩ := pay_succeeds hjob hout.1 hout.2 hfits
        refine ⟨rfl, job, { job with settledEpoch := some p.epoch, status := .paid }, rfl, hjob, ?_,
          ⟨s', hrun⟩, htotal, ?_, ?_, .inl rfl, rfl⟩
        · exact not_settled_of_moves (Moves.paid (p := p) hout.1)
        · intro w hw
          split at hw
          · next hpos =>
            cases hw
            exact hworker hpos
          · cases hw
        · rintro after ⟨⟩
          rfl
      · cases ho
  | cancel p =>
    unfold outflow at ho ⊢
    cases hjob : jobAt s p.jobId with
    | none =>
      simp only [hjob] at ho
      cases ho
    | some job =>
      simp only [hjob] at ho ⊢
      split at ho
      · next hout =>
        obtain rfl := List.mem_singleton.1 ho
        rw [if_pos hout]
        obtain ⟨s', hrun, -⟩ := cancel_succeeds hjob hout.1 hout.2 (hop job hjob)
        refine ⟨rfl, job, { job with status := .cancelled }, rfl, hjob, ?_,
          ⟨s', hrun⟩, le_rfl, ?_, ?_, .inr rfl, rfl⟩
        · exact not_settled_of_moves (Moves.cancelled (p := p) hout.1.1)
        · rintro w ⟨⟩
        · rintro after ⟨⟩
          rfl
      · cases ho
  | _ => cases ho

theorem released_cons : released ((s, op) :: hist) = outflow s op ++ released hist := by
  simp [released]

theorem escrowed_cons : escrowed env ((s, op) :: hist) = inflow env s op ++ escrowed env hist := by
  simp [escrowed]

/-- No call touches a settled job. -/
theorem settled_kept {r : Except Fault Unit} (h : Accounted env hist s)
    (hrun : op.run env s = (r, s')) {id : String} {job : InferenceJob}
    (hjob : jobAt s id = some job) (hsettled : Settled job) : jobAt s' id = some job := by
  rcases step_cases hrun with ⟨_, -, hsame⟩ | ⟨-, hchange⟩
  · rw [jobAt_of_state hsame, hjob]
  · cases hchange with
    | bid hsame => rw [jobAt_of_state hsame, hjob]
    | voted hsame => rw [jobAt_of_state hsame, hjob]
    | posted hnew hput =>
      rw [jobAt_of_put hput, if_neg, hjob]
      rintro rfl
      rw [hjob] at hnew
      cases hnew
    | @moved _ _ before after hbefore hmoves hput =>
      rw [jobAt_of_put hput, if_neg, hjob]
      intro hid
      rw [(h.fees _ _ hbefore).1] at hid
      rw [hid, hjob] at hbefore
      cases hbefore
      exact not_settled_of_moves hmoves hsettled

/-- The fee of every job there is came in when it was posted. -/
theorem fees_step {r : Except Fault Unit} (h : Accounted env hist s)
    (hrun : op.run env s = (r, s')) (id : String) (job : InferenceJob)
    (hjob : jobAt s' id = some job) :
    job.jobId = id ∧ (id, job.maxFee) ∈ inflow env s op ++ escrowed env hist := by
  have hold : jobAt s id = some job →
      job.jobId = id ∧ (id, job.maxFee) ∈ inflow env s op ++ escrowed env hist :=
    fun hs => ⟨(h.fees id job hs).1, List.mem_append_right _ (h.fees id job hs).2⟩
  rcases step_cases hrun with ⟨_, -, hsame⟩ | ⟨rfl, hchange⟩
  · exact hold (jobAt_of_state hsame id ▸ hjob)
  · cases hchange with
    | bid hsame => exact hold (jobAt_of_state hsame id ▸ hjob)
    | voted hsame => exact hold (jobAt_of_state hsame id ▸ hjob)
    | posted hnew hput =>
      rw [jobAt_of_put hput] at hjob
      split at hjob
      · next hid =>
        cases hjob
        subst hid
        refine ⟨rfl, List.mem_append_left _ ?_⟩
        simp [inflow, hrun, fresh]
      · exact hold hjob
    | @moved _ _ before after hbefore hmoves hput =>
      rw [jobAt_of_put hput] at hjob
      split at hjob
      · next hid =>
        cases hjob
        obtain ⟨hkey, hfee⟩ := h.fees _ _ hbefore
        rw [hkey] at hid
        subst hid
        rw [maxFee_of_moves hmoves]
        exact ⟨hmoves.jobId_eq.trans hkey, List.mem_append_right _ hfee⟩
      · exact hold hjob

/-- What a call releases is accounted for by the job it settles. -/
theorem settled_of_outflow (h : Accounted env hist s) (hop : Honest s op) {o : Out}
    (ho : o ∈ outflow s op) : ∃ job, jobAt (op.run env s).2 o.job = some job ∧ Settled job ∧
      o.amount ≤ job.maxFee ∧ ∀ w ∈ o.worker, job.winner = some w := by
  obtain ⟨-, job, job', hid, hjob, -, ⟨s', hrun⟩, hle, hw, huniq, hsettled, hwinner⟩ :=
    @outflow_cases env _ _ hop _ ho
  rw [hrun, hid]
  rcases step_cases hrun with ⟨_, herr, -⟩ | ⟨-, hchange⟩
  · cases herr
  · cases hchange with
    | bid _ => cases ho
    | voted _ => cases ho
    | posted _ _ => cases ho
    | @moved _ _ before after hbefore hmoves hput =>
      rw [hjob] at hbefore
      cases hbefore
      refine ⟨after, ?_, huniq after hmoves ▸ hsettled, ?_, ?_⟩
      · rw [jobAt_of_put hput, if_pos (h.fees _ _ hjob).1]
      · rw [maxFee_of_moves hmoves]
        exact hle
      · rw [huniq after hmoves, hwinner]
        exact hw

theorem accounted_step (h : Accounted env hist s) (hop : Honest s op) :
    Accounted env ((s, op) :: hist) (op.run env s).2 where
  once := by
    rw [released_cons, List.map_append, List.nodup_append]
    refine ⟨?_, h.once, ?_⟩
    · cases hout : outflow s op with
      | nil => exact List.nodup_nil
      | cons o rest =>
        have hone := (@outflow_cases env _ _ hop o (by rw [hout]; exact List.mem_cons_self)).1
        rw [hout] at hone
        rw [hone]
        exact List.nodup_singleton _
    · -- a job released before is settled, so it is not released again
      rintro a ha b hb rfl
      obtain ⟨o, ho, rfl⟩ := List.mem_map.1 ha
      obtain ⟨o', ho', heq⟩ := List.mem_map.1 hb
      obtain ⟨-, job, -, hid, hjob, hnot, -⟩ := @outflow_cases env _ _ hop o ho
      obtain ⟨job₀, hjob₀, hsettled, -⟩ := h.settled o' ho'
      rw [heq, hid, hjob] at hjob₀
      cases hjob₀
      exact hnot hsettled
  settled := by
    intro o ho
    rw [released_cons] at ho
    rcases List.mem_append.1 ho with ho | ho
    · exact settled_of_outflow h hop ho
    · obtain ⟨job, hjob, hsettled, hrest⟩ := h.settled o ho
      exact ⟨job, settled_kept h rfl hjob hsettled, hsettled, hrest⟩
  fees := by
    rw [escrowed_cons]
    exact fees_step h rfl

/-- Every call of a run is booked. -/
theorem booked_run (h : Run env Honest hist s) : ∀ c ∈ hist, Booked env c.1 c.2 := by
  induction h with
  | start _ _ => exact fun _ hc => absurd hc List.not_mem_nil
  | step op _ hop ih =>
    rintro c (_ | ⟨_, hc⟩)
    · exact booked_of_honest hop
    · exact ih c hc
  | other _ _ _ ih => exact ih

theorem accounted_run (h : Run env Honest hist s) : Accounted env hist s := by
  induction h with
  | start hjobs _ =>
    refine ⟨List.nodup_nil, fun o ho => absurd ho List.not_mem_nil, fun id job hjob => ?_⟩
    rw [hjobs] at hjob
    cases hjob
  | step op _ hop ih => exact accounted_step ih hop
  | other _ hjobs _ ih =>
    refine ⟨ih.once, fun o ho => ?_, fun id job hjob => ?_⟩
    · rw [jobAt_of_state hjobs]
      exact ih.settled o ho
    · rw [jobAt_of_state hjobs] at hjob
      exact ih.fees id job hjob

/-- In every run of honest entries each job releases at most once, at most the fee that was
escrowed for it, and as worker only its recorded winner is paid; and no call takes more
from the fund, or pays anybody else, than it releases. -/
theorem escrow_run (h : Run env Honest hist s) :
    ((released hist).map (·.job)).Nodup ∧
    (∀ o ∈ released hist, ∃ job, jobAt s o.job = some job ∧
      (o.job, job.maxFee) ∈ escrowed env hist ∧ o.amount ≤ job.maxFee ∧
      ∀ w ∈ o.worker, job.winner = some w) ∧
    ∀ c ∈ hist, Booked env c.1 c.2 := by
  have hacc := accounted_run h
  refine ⟨hacc.once, fun o ho => ?_, booked_run h⟩
  obtain ⟨job, hjob, -, hle, hw⟩ := hacc.settled o ho
  exact ⟨job, hjob, (hacc.fees _ _ hjob).2, hle, hw⟩

end Runs

/-- A job of ten, approved and paid: eight to the worker, one each to the verifier and
the fund. -/
def paidJob : List Op :=
  [.post (samplePost "j" 1), sampleAward "j" "v" "verifier", sampleAward "j" "bob" "worker",
    sampleComplete "j", sampleVerify "j" "v" "approved" 0,
    .pay ⟨"j", "bob", 8, [("v", 1)], [], 1, 0, [], 1⟩]

theorem escrow_run_paid :
    released (trace .bare funded paidJob []) = [⟨"j", 10, some "bob"⟩] ∧
      (∃ job, jobAt (exec .bare funded paidJob) "j" = some job ∧ 10 ≤ job.maxFee) ∧
      ∀ c ∈ trace .bare funded paidJob [], Booked .bare c.1 c.2 := by
  have hrun := (run_funded .bare Honest).exec
    (show Legal .bare Honest funded paidJob by decide)
  have hout : released (trace .bare funded paidJob []) = [⟨"j", 10, some "bob"⟩] := by
    decide
  obtain ⟨-, hjobs, hbooked⟩ := escrow_run hrun
  obtain ⟨job, hjob, -, hle, -⟩ := hjobs ⟨"j", 10, some "bob"⟩ (by rw [hout]; simp)
  exact ⟨hout, ⟨job, hjob, hle⟩, hbooked⟩

/-- Two jobs of ten, and a pay entry for the first that hands twenty to a stranger. -/
def strangerPaid : List Op :=
  [.post (samplePost "j" 1), .post (samplePost "k" 1), sampleAward "j" "v" "verifier",
    sampleAward "j" "bob" "worker", sampleComplete "j", sampleVerify "j" "v" "approved" 0,
    .pay ⟨"j", "mallory", 20, [], [], 0, 0, [], 1⟩]

/-- The first job pays out twice its fee to somebody who did not win it, and the escrow of
the second, still open, is gone. -/
theorem escrow_drained :
    Run .bare (fun _ _ => True) (trace .bare funded strangerPaid [])
      (exec .bare funded strangerPaid) ∧
    released (trace .bare funded strangerPaid []) = [⟨"j", 20, some "mallory"⟩] ∧
    (jobAt (exec .bare funded strangerPaid) "j").map (fun job => (job.maxFee, job.winner)) =
      some (10, some "bob") ∧
    (jobAt (exec .bare funded strangerPaid) "k").map (fun job => (job.maxFee, job.status)) =
      some (10, .posted) ∧
    (exec .bare funded strangerPaid).getBalance recycleFund nativeToken = 0 := by
  refine ⟨(run_funded .bare _).exec (legal_true _ _), ?_⟩
  decide

end HoneNode.Escrow
