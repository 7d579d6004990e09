import HoneNode.Identity.Index

/-!
# Identity.Lock — a locked name and its recovery

While a name is locked it moves only by recovery, and only to the destination
that was set before; the configuration stays as it is but for the founder
backstop. Every recovery and every unlock names the current `recovery_seq` and
advances it. The counter is a `u64` that wraps.
-/

namespace HoneNode.Identity

open Entry Prog Within Trace

/-! ## The record of one name -/

/-- The name whose record an entry rewrites. -/
def IdentityOp.subject : IdentityOp → Option String
  | .mint p => some p.name
  | .accept p => some p.name
  | .setRecovery p => some p.name
  | .lock p => some p.name
  | .unlock p => some p.name
  | .recover p => some p.name
  | .setBackstop p => some p.name
  | _ => none

/-- What a call can do to the record of a name. -/
inductive Change (name : String) : IdentityOp → Except Fault Unit → NameNft → NameNft → Prop where
  | same {op : IdentityOp} {res : Except Fault Unit} {nft : NameNft}
      (h : res = .ok () → op.subject ≠ some name) : Change name op res nft nft
  | sold {p : IdentityNftAccept} {nft : NameNft} (hname : p.name = name)
      (hfree : nft.transferable = true) : Change name (.accept p) (.ok ()) nft
        { nft with owner := p.to_, recovery := none, transferable := true }
  | amended {op : IdentityOp} {nft nft' : NameNft} (h : Amends op name nft nft') :
      Change name op (.ok ()) nft nft'
  | recovered {p : IdentityNftRecover} {nft : NameNft} {recovery : Recovery}
      (hname : p.name = name) (hrecovery : nft.recovery = some recovery)
      (hseq : p.seq = nft.recoverySeq) : Change name (.recover p) (.ok ()) nft
        { nft with owner := recovery.destination, recoverySeq := wrapAdd nft.recoverySeq 1 }

theorem Amends.subject {op : IdentityOp} {name : String} {nft nft' : NameNft}
    (h : Amends op name nft nft') : op.subject = some name := by
  cases h <;> rfl

theorem Amends.name {op : IdentityOp} {name : String} {nft nft' : NameNft}
    (h : Amends op name nft nft') : nft'.name = nft.name := by
  cases h <;> rfl

namespace Registry

/-- A strip leaves the records of names. -/
theorem nfts_strip (r : Registry) (name : String) : (r.strip name).nfts = r.nfts := by
  obtain ⟨tokens, active, h⟩ := r.strip_eq name
  rw [h]

end Registry

section Records

variable {r r' : Registry} {op : IdentityOp} {res : Except Fault Unit} {name : String}
  {nft nft' : NameNft}

/-- The record of a name after a call. -/
theorem change (hi : Indexed r) (heffect : Effect r op res r')
    (hget : r.nfts.get name = some nft) :
    ∃ nft', r'.nfts.get name = some nft' ∧ Change name op res nft nft' := by
  cases heffect with
  | refused msg => exact ⟨nft, hget, .same fun h => nomatch h⟩
  | lapsed msg hoffer => exact ⟨nft, hget, .same fun h => nomatch h⟩
  | @minted p hvalid hnew hunowned =>
    have hne : p.name ≠ name := by
      rintro rfl
      rw [hnew] at hget
      cases hget
    refine ⟨nft, ?_, .same fun _ h => hne (Option.some.inj h)⟩
    unfold Registry.minted
    rw [Kv.get_put_of_ne _ _ hne, hget]
  | offered _ _ _ => exact ⟨nft, hget, .same fun _ h => nomatch h⟩
  | withdrawn _ => exact ⟨nft, hget, .same fun _ h => nomatch h⟩
  | primary _ _ => exact ⟨nft, hget, .same fun _ h => nomatch h⟩
  | @sold p offer nft₀ hoffer hto hget₀ hfree howner =>
    have hkey := (hi.named p.name nft₀ hget₀).1
    rw [Registry.nfts_strip]
    unfold Registry.moved Registry.put
    dsimp only
    rw [Kv.get_put]
    by_cases heq : p.name = name
    · subst heq
      rw [hget₀] at hget
      cases hget
      exact ⟨_, if_pos hkey, .sold rfl hfree⟩
    · refine ⟨nft, ?_, .same fun _ h => heq (Option.some.inj h)⟩
      rw [if_neg (fun h => heq (hkey.symm.trans h)), hget]
  | @amended _ name₀ nft₀ nft₁ hget₀ hamends =>
    have hkey := (hi.named name₀ nft₀ hget₀).1
    unfold Registry.put
    rw [Kv.get_put, hamends.name, hkey]
    by_cases heq : name₀ = name
    · subst heq
      rw [hget₀] at hget
      cases hget
      exact ⟨nft₁, if_pos rfl, .amended hamends⟩
    · refine ⟨nft, by rw [if_neg heq, hget], .same fun _ h => heq ?_⟩
      exact Option.some.inj (hamends.subject.symm.trans h)
  | @recovered p nft₀ recovery hget₀ hrecovery hseq hother =>
    have hkey := (hi.named p.name nft₀ hget₀).1
    unfold Registry.moved Registry.put
    dsimp only
    rw [Kv.get_put]
    by_cases heq : p.name = name
    · subst heq
      rw [hget₀] at hget
      cases hget
      exact ⟨_, if_pos hkey, .recovered rfl hrecovery hseq⟩
    · refine ⟨nft, ?_, .same fun _ h => heq (Option.some.inj h)⟩
      rw [if_neg (fun h => heq (hkey.symm.trans h)), hget]
  | issued _ _ _ => exact ⟨nft, hget, .same fun _ h => nomatch h⟩
  | taken _ _ _ _ => exact ⟨nft, hget, .same fun _ h => nomatch h⟩
  | dropped _ _ => exact ⟨nft, hget, .same fun _ h => nomatch h⟩
  | revoked _ _ => exact ⟨nft, hget, .same fun _ h => nomatch h⟩

/-- A record that was not there is from a mint. -/
theorem fresh_of_none (hi : Indexed r) (heffect : Effect r op res r')
    (hnone : r.nfts.get name = none) (hget : r'.nfts.get name = some nft') :
    ∃ owner epoch, nft' = ⟨name, owner, epoch, true, none, 0⟩ := by
  -- what was rewritten had a record before
  have hput : ∀ (key : String) (nft₀ nft₁ : NameNft), r.nfts.get key = some nft₀ →
      nft₁.name = nft₀.name → (r.nfts.put nft₁.name nft₁).get name ≠ some nft' := by
    intro key nft₀ nft₁ hget₀ hname hsome
    rw [Kv.get_put, hname, (hi.named key nft₀ hget₀).1] at hsome
    split at hsome
    · next heq =>
      rw [heq, hnone] at hget₀
      cases hget₀
    · rw [hnone] at hsome
      cases hsome
  have hsame : r.nfts.get name ≠ some nft' := by
    rw [hnone]
    exact nofun
  cases heffect with
  | minted hvalid hnew hunowned =>
    unfold Registry.minted at hget
    rw [Kv.get_put] at hget
    split at hget
    · next heq =>
      cases hget
      exact ⟨_, _, by rw [heq]⟩
    · exact absurd hget hsame
  | sold hoffer hto hget₀ hfree howner =>
    rw [Registry.nfts_strip] at hget
    exact absurd hget (hput _ _ _ hget₀ rfl)
  | amended hget₀ hamends => exact absurd hget (hput _ _ _ hget₀ hamends.name)
  | recovered hget₀ hrecovery hseq hother => exact absurd hget (hput _ _ _ hget₀ rfl)
  | refused | lapsed | offered | withdrawn | primary | issued | taken | dropped | revoked =>
    exact absurd hget hsame

end Records

section Runs

variable {P : Chain → IdentityOp → Prop} {s : Chain} {hist : List (Chain × IdentityOp)}

/-- What a mint establishes and no change breaks holds of every record. -/
theorem record_invariant {J : NameNft → Prop}
    (hmint : ∀ name owner epoch, J ⟨name, owner, epoch, true, none, 0⟩)
    (hchange : ∀ name op res nft nft', Change name op res nft nft' → J nft → J nft')
    (h : Run (registry Unused) P hist s) {name : String} {nft : NameNft}
    (hget : s.stateGet .nameNft name = some nft) : J nft := by
  have hall := registry_invariant
    (I := fun r => Indexed r ∧ ∀ name nft, r.nfts.get name = some nft → J nft) ?_ ?_ h
  · exact hall.2 name nft hget
  · intro s hs
    rw [hs]
    exact ⟨indexed_unused, fun _ _ hget => nomatch hget⟩
  · rintro s op r' - heffect ⟨hi, hJ⟩
    refine ⟨hi.effect heffect, fun name nft' hget' => ?_⟩
    cases hold : (registryOf s).nfts.get name with
    | none =>
      obtain ⟨owner, epoch, rfl⟩ := fresh_of_none hi heffect hold hget'
      exact hmint name owner epoch
    | some nft =>
      obtain ⟨nft₁, hget₁, hchanged⟩ := change hi heffect hold
      rw [hget'] at hget₁
      cases hget₁
      exact hchange name op _ nft nft' hchanged (hJ name nft hold)

/-- From a consistent state on, the keys stay consistent. -/
theorem indexed_from {t : Chain} (hi : Indexed (registryOf t))
    (h : Run (registry (· = t)) P hist s) : Indexed (registryOf s) := by
  refine registry_invariant ?_ ?_ h
  · rintro s rfl
    exact hi
  · intro s op r' _ heffect hs
    exact hs.effect heffect

end Runs

/-! ## While it is locked -/

/-- A call that unlocks the name. -/
def Unlocks (name : String) (s : Chain) (op : IdentityOp) : Prop :=
  (op.run s).1 = .ok () ∧ ∃ p, op = .unlock p ∧ p.name = name

/-- What recovery goes by, the backstop apart. -/
def Recovery.pinned (r : Recovery) : List String × ℕ × String :=
  (r.guardians, r.threshold, r.destination)

/-- Locked, with its old owner or the destination as owner, and the old configuration. -/
structure Pinned (nft : NameNft) (recovery : Recovery) (nft' : NameNft) : Prop where
  locked : nft'.transferable = false
  owner : nft'.owner = nft.owner ∨ nft'.owner = recovery.destination
  config : nft'.recovery.map Recovery.pinned = some (Recovery.pinned recovery)

theorem Pinned.change {name : String} {op : IdentityOp} {res : Except Fault Unit}
    {nft nft₁ nft₂ : NameNft} {recovery : Recovery} (hpin : Pinned nft recovery nft₁)
    (h : Change name op res nft₁ nft₂)
    (hkeep : ¬ (res = .ok () ∧ ∃ p, op = .unlock p ∧ p.name = name)) :
    Pinned nft recovery nft₂ := by
  cases h with
  | same _ => exact hpin
  | sold _ hfree =>
    rw [hpin.locked] at hfree
    cases hfree
  | amended hamends =>
    cases hamends with
    | setRecovery _ hfree _ =>
      rw [hpin.locked] at hfree
      cases hfree
    | lock _ _ => exact ⟨rfl, hpin.owner, hpin.config⟩
    | @unlock p _ _ _ => exact absurd ⟨rfl, p, rfl, rfl⟩ hkeep
    | selfRecover _ _ _ => exact ⟨hpin.locked, hpin.owner, hpin.config⟩
    | setBackstop _ hrecovery _ =>
      have hconfig := hpin.config
      rw [hrecovery] at hconfig
      exact ⟨hpin.locked, hpin.owner, hconfig⟩
  | @recovered p _ recovery₁ _ hrecovery _ =>
    have hconfig := hpin.config
    rw [hrecovery, Option.map_some, Option.some_inj] at hconfig
    refine ⟨hpin.locked, .inr ?_, hpin.config⟩
    exact congrArg (fun c => c.2.2) hconfig

/-! ## Sequence numbers -/

/-- The number a recovery or an unlock of the name was authorised for. -/
def IdentityOp.expectedSeq (name : String) : IdentityOp → Option ℕ
  | .unlock p => if p.name = name then some p.seq else none
  | .recover p => if p.name = name then some p.seq else none
  | _ => none

/-- The number that a call uses up, if it succeeds. -/
def spentBy (name : String) (s : Chain) (op : IdentityOp) : Option ℕ :=
  if (op.run s).1.isOk then op.expectedSeq name else none

/-- The numbers used up in a run, in order. -/
def spent (name : String) (hist : List (Chain × IdentityOp)) : List ℕ :=
  hist.reverse.filterMap fun c => spentBy name c.1 c.2

theorem spent_cons (name : String) (s : Chain) (op : IdentityOp)
    (hist : List (Chain × IdentityOp)) :
    spent name ((s, op) :: hist) = spent name hist ++ (spentBy name s op).toList := by
  unfold spent
  rw [List.reverse_cons, List.filterMap_append]
  congr 1

/-- Only a recovery or an unlock that names the current number changes it, to the next. -/
theorem Change.seq {name : String} {s : Chain} {op : IdentityOp} {nft nft' : NameNft}
    (h : Change name op (op.run s).1 nft nft') :
    spentBy name s op = none ∧ nft'.recoverySeq = nft.recoverySeq ∨
      spentBy name s op = some nft.recoverySeq ∧
        nft'.recoverySeq = wrapAdd nft.recoverySeq 1 := by
  unfold spentBy
  generalize (op.run s).1 = res at h
  cases h with
  | same hsubject =>
    refine .inl ⟨?_, rfl⟩
    cases res with
    | error f => rfl
    | ok u =>
      have hne := hsubject rfl
      cases op with
      | unlock p => exact if_neg fun heq => hne (congrArg some heq)
      | recover p => exact if_neg fun heq => hne (congrArg some heq)
      | _ => rfl
  | sold _ _ => exact .inl ⟨rfl, rfl⟩
  | amended hamends =>
    cases hamends with
    | setRecovery _ _ _ => exact .inl ⟨rfl, rfl⟩
    | lock _ _ => exact .inl ⟨rfl, rfl⟩
    | setBackstop _ _ _ => exact .inl ⟨rfl, rfl⟩
    | @unlock p _ _ hseq =>
      refine .inr ⟨?_, rfl⟩
      change (if p.name = p.name then some p.seq else none) = _
      rw [if_pos rfl, hseq]
    | @selfRecover p _ _ _ hseq _ =>
      refine .inr ⟨?_, rfl⟩
      change (if p.name = p.name then some p.seq else none) = _
      rw [if_pos rfl, hseq]
  | @recovered p _ _ hname _ hseq =>
    refine .inr ⟨?_, rfl⟩
    change (if p.name = name then some p.seq else none) = _
    rw [if_pos hname, hseq]

/-- The number of a record is a `u64`. -/
theorem Change.seq_lt {name : String} {op : IdentityOp} {res : Except Fault Unit}
    {nft nft' : NameNft} (h : Change name op res nft nft') (hlt : nft.recoverySeq < 2 ^ 64) :
    nft'.recoverySeq < 2 ^ 64 := by
  have hwrap : wrapAdd nft.recoverySeq 1 < 2 ^ 64 := Nat.mod_lt _ (by norm_num)
  cases h with
  | same _ => exact hlt
  | sold _ _ => exact hlt
  | amended hamends =>
    cases hamends with
    | setRecovery _ _ _ => exact hlt
    | lock _ _ => exact hlt
    | setBackstop _ _ _ => exact hlt
    | unlock _ _ => exact hwrap
    | selfRecover _ _ _ => exact hwrap
  | recovered _ _ _ => exact hwrap

/-! ## Runs -/

/-- The `i`-th number after `q`. -/
def seqAfter (q i : ℕ) : ℕ := (q + i) % 2 ^ 64

section Runs

variable {t s : Chain} {before hist : List (Chain × IdentityOp)} {name : String} {nft : NameNft}

/-- The numbers used up from a state on are the current one and those after it. -/
theorem spent_of_run (hi : Indexed (registryOf t)) (hget : t.stateGet .nameNft name = some nft)
    (hlt : nft.recoverySeq < 2 ^ 64)
    (h : Run (registry (· = t)) (fun _ _ => True) hist s) :
    ∃ nft', s.stateGet .nameNft name = some nft' ∧
      spent name hist = (List.range (spent name hist).length).map (seqAfter nft.recoverySeq) ∧
      nft'.recoverySeq = seqAfter nft.recoverySeq (spent name hist).length := by
  induction h with
  | start hs =>
    cases hs
    exact ⟨nft, hget, rfl, (Nat.mod_eq_of_lt hlt).symm⟩
  | @step hist s op hrun _ ih =>
    obtain ⟨nft₁, hget₁, hspent, hseq⟩ := ih
    obtain ⟨nft₂, hget₂, hchange⟩ := Identity.change (indexed_from hi hrun) (effect s op) hget₁
    refine ⟨nft₂, hget₂, ?_⟩
    rw [spent_cons]
    rcases hchange.seq with ⟨hnone, hsame⟩ | ⟨hsome, hnext⟩
    · rw [hnone, Option.toList_none, List.append_nil, hsame]
      exact ⟨hspent, hseq⟩
    · rw [hsome, Option.toList_some, List.length_append, List.length_singleton, hnext, hseq,
        List.range_succ, List.map_append, List.map_singleton, ← hspent]
      refine ⟨rfl, ?_⟩
      unfold wrapAdd seqAfter
      omega
  | other hrun hs ih =>
    obtain ⟨nft₁, hget₁, hspent⟩ := ih
    refine ⟨nft₁, ?_, hspent⟩
    have hnfts := congrArg Registry.nfts hs
    rw [← hget₁]
    exact congrArg (fun m => m.get name) hnfts

/-- As long as nothing unlocks the name it stays where the lock and its recovery put it. -/
theorem pinned_of_run {recovery : Recovery} (hi : Indexed (registryOf t))
    (hget : t.stateGet .nameNft name = some nft) (hlocked : nft.transferable = false)
    (hrecovery : nft.recovery = some recovery)
    (h : Run (registry (· = t)) (fun s op => ¬ Unlocks name s op) hist s) :
    ∃ nft', s.stateGet .nameNft name = some nft' ∧ Pinned nft recovery nft' := by
  induction h with
  | start hs =>
    cases hs
    refine ⟨nft, hget, hlocked, .inl rfl, ?_⟩
    rw [hrecovery]
    rfl
  | @step hist s op hrun hkeep ih =>
    obtain ⟨nft₁, hget₁, hpin⟩ := ih
    obtain ⟨nft₂, hget₂, hchange⟩ := Identity.change (indexed_from hi hrun) (effect s op) hget₁
    exact ⟨nft₂, hget₂, hpin.change hchange hkeep⟩
  | other hrun hs ih =>
    obtain ⟨nft₁, hget₁, hpin⟩ := ih
    refine ⟨nft₁, ?_, hpin⟩
    have hnfts := congrArg Registry.nfts hs
    rw [← hget₁]
    exact congrArg (fun m => m.get name) hnfts

theorem seqAfter_ne {q i j : ℕ} (hij : i < j) (hnear : j < i + 2 ^ 64) :
    seqAfter q i ≠ seqAfter q j := by
  unfold seqAfter
  omega

/-- A locked name is with its owner or at the destination of its recovery, under the same
guardians, threshold and destination, until it is unlocked; and whatever succeeds as recovery or
unlock gives the current number and moves on to the next, so that within `2 ^ 64` of them none is
taken twice. -/
theorem locked_name_moves_to_destination
    (hreach : Run (registry Unused) (fun _ _ => True) before t)
    (hget : t.stateGet .nameNft name = some nft) :
    (∀ recovery hist s, nft.transferable = false → nft.recovery = some recovery →
      Run (registry (· = t)) (fun s op => ¬ Unlocks name s op) hist s →
      ∃ nft', s.stateGet .nameNft name = some nft' ∧ nft'.transferable = false ∧
        (nft'.owner = nft.owner ∨ nft'.owner = recovery.destination) ∧
        nft'.recovery.map Recovery.pinned = some (Recovery.pinned recovery)) ∧
    ∀ hist s, Run (registry (· = t)) (fun _ _ => True) hist s →
      (∃ nft', s.stateGet .nameNft name = some nft' ∧
        nft'.recoverySeq = seqAfter nft.recoverySeq (spent name hist).length) ∧
      spent name hist = (List.range (spent name hist).length).map (seqAfter nft.recoverySeq) ∧
      ∀ i j, i < j → j < (spent name hist).length → j < i + 2 ^ 64 →
        (spent name hist)[i]? ≠ (spent name hist)[j]? := by
  have hi := indexed_of_run hreach
  have hlt : nft.recoverySeq < 2 ^ 64 :=
    record_invariant (J := fun nft => nft.recoverySeq < 2 ^ 64) (fun _ _ _ => by norm_num)
      (fun _ _ _ _ _ hchange hold => hchange.seq_lt hold) hreach hget
  constructor
  · intro recovery hist s hlocked hrecovery h
    obtain ⟨nft', hget', hpin⟩ := pinned_of_run hi hget hlocked hrecovery h
    exact ⟨nft', hget', hpin.locked, hpin.owner, hpin.config⟩
  · intro hist s h
    obtain ⟨nft', hget', hspent, hseq⟩ := spent_of_run hi hget hlt h
    refine ⟨⟨nft', hget', hseq⟩, hspent, ?_⟩
    intro i j hij hj hnear
    generalize (spent name hist).length = n at hspent hj
    rw [hspent, List.getElem?_map, List.getElem?_map, List.getElem?_range (hij.trans hj),
      List.getElem?_range hj]
    exact fun h => seqAfter_ne hij hnear (Option.some.inj h)

end Runs

/-! ### One name, locked -/

def recoverTo (destination : String) : IdentityOp :=
  .setRecovery ⟨"coolname", ["gina"], 1, destination, true, 0, 1, 2, "alice", none, []⟩

def lockCool : IdentityOp := .lock ⟨"coolname", 1, 3, "alice", none⟩

def recoverCool (seq : ℕ) : IdentityOp := .recover ⟨"coolname", seq, 2, 1, "gina", none, []⟩

/-- The chain on which the name is locked. -/
def lockedTo (destination : String) : Chain :=
  (registry Unused).exec {} [mintCool, recoverTo destination, lockCool]

theorem reached_lockedTo (destination : String) :
    ∃ hist, Run (registry Unused) (fun _ _ => True) hist (lockedTo destination) :=
  ⟨_, Run.exec (.start rfl) (legal_true _ _)⟩

/-- The record that the lock left. -/
def lockedRecord (destination : String) : NameNft where
  name := "coolname"
  owner := "alice"
  mintedEpoch := 1
  transferable := false
  recovery := some ⟨["gina"], 1, destination, true⟩
  recoverySeq := 0

/-- A locked name cannot be sold, and recovery takes it to the destination. -/
theorem locked_name_moves_to_destination_vault :
    let t := lockedTo "vault"
    let ops := [.transfer ⟨"coolname", "alice", "bob", 2, 4, "alice", none⟩, recoverCool 0]
    let hist := (registry (· = t)).record t ops []
    let s := (registry (· = t)).exec t ops
    (spent "coolname" hist = [0] ∧
      (s.stateGet .nameNft "coolname").map (·.owner) = some "vault") ∧
    (∃ nft', s.stateGet .nameNft "coolname" = some nft' ∧ nft'.transferable = false ∧
      (nft'.owner = "alice" ∨ nft'.owner = "vault") ∧
      nft'.recovery.map Recovery.pinned = some (["gina"], 1, "vault")) ∧
    ∃ nft', s.stateGet .nameNft "coolname" = some nft' ∧
      nft'.recoverySeq = seqAfter 0 (spent "coolname" hist).length := by
  intro t ops hist s
  obtain ⟨before, hreach⟩ := reached_lockedTo "vault"
  have hget : t.stateGet .nameNft "coolname" = some (lockedRecord "vault") := by decide +kernel
  have hmoves := locked_name_moves_to_destination hreach hget
  have hkeep : Legal (registry (· = t)) (fun s op => ¬ Unlocks "coolname" s op) t ops := by
    refine ⟨?_, ?_, trivial⟩
    · rintro ⟨-, p, h, -⟩
      cases h
    · rintro ⟨-, p, h, -⟩
      cases h
  refine ⟨by decide +kernel, ?_, ?_⟩
  · exact hmoves.1 _ _ _ rfl rfl (Run.exec (.start rfl) hkeep)
  · exact (hmoves.2 _ _ (Run.exec (.start rfl) (legal_true _ _))).1

/-! ### A number that comes round -/

/-- A recovery to the owner succeeds with the current number. -/
theorem run_selfRecover {s : Chain} {p : IdentityNftRecover} {nft : NameNft}
    {recovery : Recovery} (hget : s.stateGet .nameNft p.name = some nft)
    (hrecovery : nft.recovery = some recovery) (hself : recovery.destination = nft.owner)
    (hseq : p.seq = nft.recoverySeq) :
    ((applyIdentityNftRecover p).run s).1 = .ok () := by
  rw [← (noted_touched s p.signedBy p.epoch).stateGet (by decide)] at hget
  have hread : (getNft p.name).run (s.touched p.signedBy p.epoch) =
      (.ok nft, s.touched p.signedBy p.epoch) := by
    unfold getNft
    rw [run_stateGet_bind, hget]
    rfl
  unfold applyIdentityNftRecover
  rw [run_touchAlive_bind, run_bind_ok hread, hrecovery,
    run_bind_ok (run_orBail_some _ _ _), run_ensure_bind hseq]
  dsimp only
  rw [if_pos hself]
  rfl

theorem stateGet_lockedTo :
    (lockedTo "alice").stateGet .nameNft "coolname" = some (lockedRecord "alice") := by
  decide +kernel

/-- A name whose destination is its owner can be recovered again and again. -/
theorem recovered_again (n : ℕ) :
    ∃ hist s, Run (registry (· = lockedTo "alice")) (fun _ _ => True) hist s ∧
      (spent "coolname" hist).length = n ∧
      ∃ nft recovery, s.stateGet .nameNft "coolname" = some nft ∧ nft.owner = "alice" ∧
        nft.recovery = some recovery ∧ recovery.destination = "alice" := by
  induction n with
  | zero =>
    exact ⟨[], _, .start rfl, rfl, _, _, stateGet_lockedTo, rfl, rfl, rfl⟩
  | succ n ih =>
    obtain ⟨hist, s, hrun, hlen, nft, recovery, hget, howner, hrecovery, hself⟩ := ih
    obtain ⟨before, hreach⟩ := reached_lockedTo "alice"
    have hi := indexed_from (indexed_of_run hreach) hrun
    let op := recoverCool nft.recoverySeq
    have hok : (op.run s).1 = .ok () :=
      run_selfRecover hget hrecovery (hself.trans howner.symm) rfl
    have hspent : spentBy "coolname" s op = some nft.recoverySeq := by
      unfold spentBy
      rw [hok]
      rfl
    obtain ⟨nft', hget', hchange⟩ := change hi (effect s op) hget
    refine ⟨_, _, .step op hrun trivial, ?_, nft', recovery, hget', ?_⟩
    · rw [spent_cons, hspent, List.length_append, hlen]
      rfl
    · rw [hok] at hchange
      dsimp only [op, recoverCool] at hchange
      cases hchange with
      | same hne => exact absurd rfl (hne rfl)
      | amended hamends =>
        cases hamends with
        | selfRecover _ _ _ => exact ⟨howner, hrecovery, hself⟩
      | recovered _ hrecovery' _ =>
        rw [hrecovery] at hrecovery'
        cases hrecovery'
        exact ⟨hself, hrecovery, hself⟩

/-- After `2 ^ 64` recoveries the first number is taken again. -/
theorem recovery_seq_accepted_twice :
    ∃ before t nft hist s, Run (registry Unused) (fun _ _ => True) before t ∧
      t.stateGet .nameNft "coolname" = some nft ∧ nft.transferable = false ∧
      Run (registry (· = t)) (fun _ _ => True) hist s ∧ ¬ (spent "coolname" hist).Nodup := by
  obtain ⟨before, hreach⟩ := reached_lockedTo "alice"
  obtain ⟨hist, s, hrun, hlen, -⟩ := recovered_again (2 ^ 64 + 1)
  refine ⟨before, _, _, hist, s, hreach, stateGet_lockedTo, rfl, hrun, ?_⟩
  obtain ⟨-, -, hspent, -⟩ := spent_of_run (indexed_of_run hreach) stateGet_lockedTo (by decide) hrun
  rw [hspent, hlen]
  intro hnodup
  have hinj := List.inj_on_of_nodup_map hnodup (x := 0) (by simp) (y := 2 ^ 64) (by simp) rfl
  norm_num at hinj

end HoneNode.Identity
