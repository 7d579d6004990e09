import HoneNode.Lib.Trace
import HoneNode.Apply.Services

/-!
# PrivateAuth — approvals by a threshold of a group

`private_auth.rs`: accounts are enrolled in groups, and an approval names a group
the approver belongs to. The record it goes into is kept under the hash of the
transaction alone, with the group that opened it. As long as every approval that
counts names that group, a record is finalized by a threshold of its members; an
approval for another group is counted with that group's threshold.
-/

namespace HoneNode.PrivateAuth

open Entry Prog Within Trace

inductive AuthOp where
  | enroll (p : PrivateAuthEnroll)
  | approve (p : PrivateAuthApprove)

def AuthOp.run (s : Chain) : AuthOp → Except Fault Unit × Chain
  | .enroll p => (applyPrivateAuthEnroll p).run s
  | .approve p => (applyPrivateAuthApprove p).run s

/-! ## Groups and records -/

structure View where
  groups : Kv String AuthGroup
  records : Kv String ApprovalRecord

def viewOf (s : Chain) : View := ⟨s.state .privateAuthGroup, s.state .privateAuthApproval⟩

theorem viewOf_noted {s t : Chain} (h : Noted s t) : viewOf t = viewOf s := by
  unfold viewOf
  rw [h.state .privateAuthGroup (by decide), h.state .privateAuthApproval (by decide)]

/-- The account is among the members of the group. -/
def MemberOf (v : View) (groupId account : String) : Prop :=
  ∃ group, v.groups.get groupId = some group ∧ group.members.any (·.account = account) = true

/-- A group after an enrolment. -/
def withMember (p : PrivateAuthEnroll) (found : Option AuthGroup) : AuthGroup :=
  let group := found.getD ⟨p.groupId, [], p.thresholdN, p.thresholdM⟩
  let members := if group.members.any (·.account = p.member) then group.members
    else group.members ++ [⟨p.member, p.memberPubkey⟩]
  { group with members := members, thresholdN := p.thresholdN, thresholdM := p.thresholdM }

/-- A record after an approval that names the group. -/
def withApproval (p : PrivateAuthApprove) (group : AuthGroup)
    (found : Option ApprovalRecord) : ApprovalRecord :=
  let record := found.getD ⟨p.groupId, p.txHash, [], false⟩
  let approvals := if p.approver ∈ record.approvals then record.approvals
    else record.approvals ++ [p.approver]
  { record with
    approvals := approvals
    finalized := group.thresholdM ≤ approvals.length % 2 ^ 32 }

/-- What an entry does to groups and records, and how it ends. -/
inductive Effect (v : View) : AuthOp → Except Fault Unit → View → Prop where
  | refused {op : AuthOp} (msg : String) : Effect v op (.error (.err msg)) v
  | enrolled (p : PrivateAuthEnroll) : Effect v (.enroll p) (.ok ())
      { v with groups := v.groups.put p.groupId (withMember p (v.groups.get p.groupId)) }
  | approved {p : PrivateAuthApprove} {group : AuthGroup}
      (hgroup : v.groups.get p.groupId = some group)
      (hmember : group.members.any (·.account = p.approver) = true)
      (hopen : ∀ r ∈ v.records.get p.txHash, r.finalized = false) :
      Effect v (.approve p) (.ok ()) { v with
        records := v.records.put p.txHash (withApproval p group (v.records.get p.txHash)) }

theorem effect (s : Chain) (op : AuthOp) :
    Effect (viewOf s) op (op.run s).1 (viewOf (op.run s).2) := by
  cases op with
  | enroll p =>
    have hnote := noted s p.member p.epoch
    unfold AuthOp.run applyPrivateAuthEnroll
    dsimp only
    rw [run_touchAlive_bind, run_ensureAccount_bind,
      ← viewOf_noted hnote]
    generalize (s.touched p.member p.epoch).withAccount p.member p.epoch = t
    by_cases hvalid : p.thresholdM ≤ p.thresholdN ∧ 1 ≤ p.thresholdM
    · rw [run_ensure_bind hvalid, run_stateGet_bind,
        run_stateSet]
      exact .enrolled p
    · rw [run_bind_error (by rw [run_ensure, if_neg hvalid])]
      exact .refused _
  | approve p =>
    have hnote := noted s p.approver p.epoch
    unfold AuthOp.run applyPrivateAuthApprove
    dsimp only
    rw [run_touchAlive_bind, run_ensureAccount_bind,
      run_stateGet_bind, ← viewOf_noted hnote]
    generalize (s.touched p.approver p.epoch).withAccount p.approver p.epoch = t
    cases hgroup : t.stateGet .privateAuthGroup p.groupId with
    | none => exact .refused _
    | some group =>
      rw [run_bind_ok (run_orBail_some _ _ _)]
      by_cases hmember : group.members.any (·.account = p.approver) = true
      swap
      · rw [run_bind_error (by rw [run_ensure, if_neg hmember])]
        exact .refused _
      rw [run_ensure_bind hmember, run_stateGet_bind]
      by_cases hopen : ((t.stateGet .privateAuthApproval p.txHash).getD
          ⟨p.groupId, p.txHash, [], false⟩).finalized = true
      · rw [run_bind_error (by rw [run_ensure, if_neg (not_not.2 hopen)])]
        exact .refused _
      · rw [run_ensure_bind hopen, run_stateSet]
        refine .approved hgroup hmember ?_
        intro r hr
        rw [show t.stateGet .privateAuthApproval p.txHash = some r from hr] at hopen
        exact Bool.eq_false_iff.2 hopen

/-! ## Who has approved -/

/-- The account's approval of the transaction, for the group, was accepted. -/
def Approved (hist : List (Chain × AuthOp)) (txHash groupId account : String) : Prop :=
  ∃ c ∈ hist, ∃ p, c.2 = .approve p ∧ p.txHash = txHash ∧ p.groupId = groupId ∧
    p.approver = account ∧ (c.2.run c.1).1 = .ok ()

/-- The approvals of a record are from different members of its group. -/
def OwnApprovals (hist : List (Chain × AuthOp)) (v : View) : Prop :=
  ∀ txHash record, v.records.get txHash = some record → record.approvals.Nodup ∧
    ∀ a ∈ record.approvals, MemberOf v record.groupId a ∧ Approved hist txHash record.groupId a

/-- An approval that counts names the group of the record it goes into. -/
def OneGroup (s : Chain) : AuthOp → Prop
  | .enroll _ => True
  | .approve p => ∀ record ∈ s.stateGet .privateAuthApproval p.txHash, record.finalized = false →
      (∃ group ∈ s.stateGet .privateAuthGroup p.groupId,
        group.members.any (·.account = p.approver) = true) → record.groupId = p.groupId

instance decidableOneGroup (s : Chain) : ∀ op, Decidable (OneGroup s op)
  | .enroll _ => .isTrue trivial
  | .approve p => inferInstanceAs
      (Decidable (∀ record ∈ s.stateGet .privateAuthApproval p.txHash, _))

section Steps

variable {s : Chain} {op : AuthOp} {v v' : View} {hist : List (Chain × AuthOp)}
  {txHash groupId account : String} {record : ApprovalRecord}

theorem Approved.cons (h : Approved hist txHash groupId account) (c : Chain × AuthOp) :
    Approved (c :: hist) txHash groupId account := by
  obtain ⟨c', hc, hrest⟩ := h
  exact ⟨c', List.mem_cons_of_mem _ hc, hrest⟩

/-- Enrolling keeps the members there are. -/
theorem MemberOf.enrolled (h : MemberOf v groupId account) (p : PrivateAuthEnroll) :
    MemberOf { v with groups := v.groups.put p.groupId (withMember p (v.groups.get p.groupId)) }
      groupId account := by
  obtain ⟨group, hget, hmember⟩ := h
  unfold MemberOf
  dsimp only
  rw [Kv.get_put]
  by_cases heq : p.groupId = groupId
  · subst heq
    refine ⟨_, if_pos rfl, ?_⟩
    rw [hget]
    unfold withMember
    dsimp only [Option.getD_some]
    split
    · exact hmember
    · rw [List.any_append, hmember, Bool.true_or]
  · exact ⟨group, (if_neg heq).trans hget, hmember⟩

variable {p : PrivateAuthApprove} {group : AuthGroup} {found : Option ApprovalRecord}

/-- The record that an approval leaves: from the group of the record, the one named. -/
theorem withApproval_groupId (h : ∀ r ∈ found, r.groupId = p.groupId) :
    (withApproval p group found).groupId = p.groupId := by
  cases found with
  | none => rfl
  | some r => exact h r rfl

theorem mem_withApproval (h : account ∈ (withApproval p group found).approvals) :
    account = p.approver ∨ ∃ r ∈ found, account ∈ r.approvals := by
  unfold withApproval at h
  dsimp only at h
  have hold : account ∈ (found.getD ⟨p.groupId, p.txHash, [], false⟩).approvals →
      ∃ r ∈ found, account ∈ r.approvals := by
    cases found with
    | none => exact fun hmem => nomatch hmem
    | some r => exact fun hmem => ⟨r, rfl, hmem⟩
  split at h
  · exact .inr (hold h)
  · rcases List.mem_append.1 h with hmem | hmem
    · exact .inr (hold hmem)
    · exact .inl (List.mem_singleton.1 hmem)

theorem nodup_withApproval (h : ∀ r ∈ found, r.approvals.Nodup) :
    (withApproval p group found).approvals.Nodup := by
  have hold : (found.getD ⟨p.groupId, p.txHash, [], false⟩).approvals.Nodup := by
    cases found with
    | none => exact List.nodup_nil
    | some r => exact h r rfl
  unfold withApproval
  dsimp only
  split
  · exact hold
  · next hnew =>
    refine List.nodup_append'.2 ⟨hold, List.nodup_singleton _, ?_⟩
    exact List.disjoint_singleton.2 hnew

theorem OwnApprovals.step (h : OwnApprovals hist (viewOf s)) (hop : OneGroup s op)
    (heffect : Effect (viewOf s) op (op.run s).1 v') : OwnApprovals ((s, op) :: hist) v' := by
  generalize hres : (op.run s).1 = res at heffect
  cases heffect with
  | refused msg =>
    intro txHash record hget
    obtain ⟨hnodup, hown⟩ := h txHash record hget
    exact ⟨hnodup, fun a ha => ⟨(hown a ha).1, (hown a ha).2.cons _⟩⟩
  | enrolled p =>
    intro txHash record hget
    obtain ⟨hnodup, hown⟩ := h txHash record hget
    exact ⟨hnodup, fun a ha => ⟨(hown a ha).1.enrolled p, (hown a ha).2.cons _⟩⟩
  | @approved p group hgroup hmember hopen =>
    intro txHash record hget
    rw [Kv.get_put] at hget
    split at hget
    swap
    · obtain ⟨hnodup, hown⟩ := h txHash record hget
      exact ⟨hnodup, fun a ha => ⟨(hown a ha).1, (hown a ha).2.cons _⟩⟩
    next htx =>
    cases hget
    have hname : ∀ r ∈ (viewOf s).records.get p.txHash, r.groupId = p.groupId :=
      fun r hr => hop r hr (hopen r hr) ⟨group, hgroup, hmember⟩
    refine ⟨nodup_withApproval fun r hr => (h p.txHash r hr).1, ?_⟩
    intro a ha
    rw [withApproval_groupId hname, ← htx]
    rcases mem_withApproval ha with rfl | ⟨r, hr, har⟩
    · exact ⟨⟨group, hgroup, hmember⟩, (s, .approve p), List.mem_cons_self, p, rfl, rfl, rfl, rfl,
        hres⟩
    · obtain ⟨hmem, happroved⟩ := (h p.txHash r hr).2 a har
      rw [hname r hr] at hmem happroved
      exact ⟨hmem, happroved.cons _⟩

/-- A record becomes finalized by an approval, and then it has enough. -/
theorem threshold_of_finalized (hop : OneGroup s op)
    (heffect : Effect (viewOf s) op (op.run s).1 v')
    (hget : v'.records.get txHash = some record) (hfinal : record.finalized = true)
    (hbefore : ∀ r ∈ (viewOf s).records.get txHash, r.finalized = false) :
    ∃ group, (viewOf s).groups.get record.groupId = some group ∧
      group.thresholdM ≤ record.approvals.length := by
  have hcontra : (viewOf s).records.get txHash ≠ some record := by
    intro hsame
    rw [hbefore record hsame] at hfinal
    cases hfinal
  generalize (op.run s).1 = res at heffect
  cases heffect with
  | refused msg => exact absurd hget hcontra
  | enrolled p => exact absurd hget hcontra
  | @approved p group hgroup hmember hopen =>
    rw [Kv.get_put] at hget
    split at hget
    swap
    · exact absurd hget hcontra
    cases hget
    have hname : ∀ r ∈ (viewOf s).records.get p.txHash, r.groupId = p.groupId :=
      fun r hr => hop r hr (hopen r hr) ⟨group, hgroup, hmember⟩
    rw [withApproval_groupId hname]
    refine ⟨group, hgroup, ?_⟩
    exact (of_decide_eq_true hfinal).trans (Nat.mod_le _ _)

end Steps

/-! ## Runs -/

/-- The rest of the node leaves groups and approvals alone. -/
def approvals (start : Chain → Prop) : Component Chain AuthOp where
  init := start
  step := fun s op => (op.run s).2
  other := fun s s' => viewOf s' = viewOf s

/-- No groups and no approvals. -/
def Unused (s : Chain) : Prop := viewOf s = ⟨∅, ∅⟩

section Runs

variable {s : Chain} {op : AuthOp} {hist : List (Chain × AuthOp)}

theorem ownApprovals_of_run (h : Run (approvals Unused) OneGroup hist s) :
    OwnApprovals hist (viewOf s) := by
  induction h with
  | start hs =>
    rw [show viewOf _ = _ from hs]
    exact fun _ _ hget => nomatch hget
  | @step hist s op hrun hop ih => exact ih.step hop (effect s op)
  | other hrun hs ih =>
    rw [show viewOf _ = _ from hs]
    exact ih

/-- Along every run in which an approval that counts names the group of the record: after each
step the approvals of a record are from different members of its group, who approved that
transaction for that group; and if the step finalized the record, they are as many as the
threshold of the group asks for. -/
theorem finalized_by_threshold (h : Run (approvals Unused) OneGroup hist s)
    (hop : OneGroup s op) (txHash : String) (record : ApprovalRecord)
    (hget : (op.run s).2.stateGet .privateAuthApproval txHash = some record) :
    (record.approvals.Nodup ∧ ∀ a ∈ record.approvals,
      MemberOf (viewOf (op.run s).2) record.groupId a ∧
        Approved ((s, op) :: hist) txHash record.groupId a) ∧
    (record.finalized = true →
      (∀ r ∈ s.stateGet .privateAuthApproval txHash, r.finalized = false) →
      ∃ group, s.stateGet .privateAuthGroup record.groupId = some group ∧
        group.thresholdM ≤ record.approvals.length) := by
  have hown := (ownApprovals_of_run h).step hop (effect s op)
  exact ⟨hown txHash record hget,
    fun hfinal hbefore => threshold_of_finalized hop (effect s op) hget hfinal hbefore⟩

end Runs

/-! ### Two groups -/

def enroll (groupId member : String) : AuthOp :=
  .enroll ⟨groupId, member, "", 2, 2, 1, 1, member, none⟩

def approve (groupId member : String) : AuthOp :=
  .approve ⟨groupId, "tx", member, 2, 2, member, none⟩

/-- Two members of the board. -/
theorem finalized_by_threshold_board :
    let before := (approvals Unused).exec {}
      [enroll "board" "alice", enroll "board" "bob", approve "board" "alice"]
    let s := ((approve "board" "bob").run before).2
    ∃ record, s.stateGet .privateAuthApproval "tx" = some record ∧ record.finalized = true ∧
      ∃ group, before.stateGet .privateAuthGroup record.groupId = some group ∧
        group.thresholdM ≤ record.approvals.length := by
  intro before s
  have hrun := Run.exec (.start (show Unused {} from rfl)) (show Legal (approvals Unused) OneGroup {}
    [enroll "board" "alice", enroll "board" "bob", approve "board" "alice"] by decide)
  obtain ⟨record, hget, hfinal⟩ :
      ∃ record ∈ s.stateGet .privateAuthApproval "tx", record.finalized = true := by
    decide
  have hop : OneGroup before (approve "board" "bob") := by decide
  refine ⟨record, hget, hfinal, (finalized_by_threshold hrun hop "tx" record hget).2 hfinal ?_⟩
  decide

/-- One member of the board and one of the crew finalize a record of the board. -/
theorem finalized_by_another_group :
    let ops := [enroll "board" "alice", enroll "crew" "carol", approve "board" "alice",
      approve "crew" "carol"]
    let s := (approvals Unused).exec {} ops
    Run (approvals Unused) (fun _ _ => True) ((approvals Unused).record {} ops []) s ∧
    ∃ record ∈ s.stateGet .privateAuthApproval "tx", ∃ group ∈ s.stateGet .privateAuthGroup "board",
      record.groupId = "board" ∧ record.finalized = true ∧ group.thresholdM = 2 ∧
        ∀ a ∈ record.approvals, group.members.any (·.account = a) = true → a = "alice" := by
  intro ops s
  exact ⟨Run.exec (.start rfl) (legal_true _ _), by decide⟩

end HoneNode.PrivateAuth
