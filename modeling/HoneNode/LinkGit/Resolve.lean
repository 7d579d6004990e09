import HoneNode.LinkGit.Pack

/-!
# LinkGit.Resolve — which entries of a pack become objects

An entry becomes an object if it is one, or if it is a delta whose base becomes one or is
stored. The passes of `parse_pack` find these entries and no others, where names tell objects
apart; the other entries are left out of the result, without an error.
-/

namespace HoneNode.LinkGit

open Saturate

variable {lib : GitLibs} {objects : GitObjects} {repoId : String} {entries : List RawEntry}

/-! ## Objects that a pack holds -/

/-- The object that an entry stands for, whatever the order of the passes. -/
inductive Derives (lib : GitLibs) (objects : GitObjects) (repoId : String)
    (entries : List RawEntry) : ℕ → UInt8 × Bytes → Prop
  | plain {i : ℕ} {e : RawEntry} (hentry : entries[i]? = some e)
      (htype : IsObjType e.header.objType) :
      Derives lib objects repoId entries i (e.header.objType, e.data)
  | named {i j : ℕ} {e : RawEntry} {sha : String} {base : UInt8 × Bytes} {out : Bytes}
      (hentry : entries[i]? = some e) (hdelta : ¬IsObjType e.header.objType)
      (hsha : e.header.baseSha = some sha) (hbase : Derives lib objects repoId entries j base)
      (hname : objectSha1 lib base.1 base.2 = sha)
      (happly : applyDelta lib.checks base.2 e.data = .ok out) :
      Derives lib objects repoId entries i (base.1, out)
  | stored {i : ℕ} {e : RawEntry} {sha : String} {base : UInt8 × Bytes} {out : Bytes}
      (hentry : entries[i]? = some e) (hdelta : ¬IsObjType e.header.objType)
      (hsha : e.header.baseSha = some sha)
      (hget : objects.gitObjectGet repoId sha = some (base.1 :: base.2))
      (happly : applyDelta lib.checks base.2 e.data = .ok out) :
      Derives lib objects repoId entries i (base.1, out)
  | offset {i j ofs : ℕ} {e : RawEntry} {base : UInt8 × Bytes} {out : Bytes}
      (hentry : entries[i]? = some e) (hdelta : ¬IsObjType e.header.objType)
      (hsha : e.header.baseSha = none) (hofs : e.header.baseOfs = some ofs)
      (hidx : (offsetToIdx entries).get ofs = some j)
      (hbase : Derives lib objects repoId entries j base)
      (happly : applyDelta lib.checks base.2 e.data = .ok out) :
      Derives lib objects repoId entries i (base.1, out)

/-- The base that the header of a delta names, among the objects of the pack that `R` gives
and those of the store. -/
def BasedOn (lib : GitLibs) (objects : GitObjects) (repoId : String) (entries : List RawEntry)
    (R : ℕ → UInt8 × Bytes → Prop) (h : Header) (base : UInt8 × Bytes) : Prop :=
  (∃ sha, h.baseSha = some sha ∧ ((∃ j, R j base ∧ objectSha1 lib base.1 base.2 = sha) ∨
    objects.gitObjectGet repoId sha = some (base.1 :: base.2))) ∨
  (h.baseSha = none ∧ ∃ ofs j, h.baseOfs = some ofs ∧
    (offsetToIdx entries).get ofs = some j ∧ R j base)

/-- The objects that the passes come across. -/
def KnownObject (lib : GitLibs) (objects : GitObjects) (repoId : String) (entries : List RawEntry)
    (o : UInt8 × Bytes) : Prop :=
  (∃ i, Derives lib objects repoId entries i o) ∨
    ∃ sha, objects.gitObjectGet repoId sha = some (o.1 :: o.2)

section Objects

variable {i : ℕ} {e : RawEntry} {o o' base base' : UInt8 × Bytes} {out : Bytes} {sha : String}

theorem Derives.of_basedOn (hentry : entries[i]? = some e)
    (hdelta : ¬IsObjType e.header.objType)
    (hbase : BasedOn lib objects repoId entries (Derives lib objects repoId entries) e.header base)
    (happly : applyDelta lib.checks base.2 e.data = .ok out) :
    Derives lib objects repoId entries i (base.1, out) := by
  rcases hbase with ⟨sha, hsha, ⟨j, hj, hname⟩ | hget⟩ | ⟨hsha, ofs, j, hofs, hidx, hj⟩
  · exact .named hentry hdelta hsha hj hname happly
  · exact .stored hentry hdelta hsha hget happly
  · exact .offset hentry hdelta hsha hofs hidx hj happly

/-- A delta stands for what it makes of its base. -/
theorem Derives.of_delta (h : Derives lib objects repoId entries i o)
    (hentry : entries[i]? = some e) (hdelta : ¬IsObjType e.header.objType) :
    ∃ base, BasedOn lib objects repoId entries (Derives lib objects repoId entries) e.header base ∧
      applyDelta lib.checks base.2 e.data = .ok o.2 ∧ o.1 = base.1 := by
  cases h with
  | plain hentry' htype =>
    rw [hentry] at hentry'
    cases hentry'
    exact absurd htype hdelta
  | @named _ _ _ _ base _ hentry' _ hsha hbase hname happly =>
    rw [hentry] at hentry'
    cases hentry'
    exact ⟨base, .inl ⟨_, hsha, .inl ⟨_, hbase, hname⟩⟩, happly, rfl⟩
  | @stored _ _ _ base _ hentry' _ hsha hget happly =>
    rw [hentry] at hentry'
    cases hentry'
    exact ⟨base, .inl ⟨_, hsha, .inr hget⟩, happly, rfl⟩
  | @offset _ _ _ _ base _ hentry' _ hsha hofs hidx hbase happly =>
    rw [hentry] at hentry'
    cases hentry'
    exact ⟨base, .inr ⟨hsha, _, _, hofs, hidx, hbase⟩, happly, rfl⟩

theorem isObjType_of_stored (haddr : Addressed lib objects repoId)
    (hget : objects.gitObjectGet repoId sha = some (base.1 :: base.2)) :
    IsObjType base.1 ∧ objectSha1 lib base.1 base.2 = sha := by
  obtain ⟨t, d, hraw, htype, hsha⟩ := haddr sha _ hget
  obtain ⟨rfl, rfl⟩ := List.cons.inj hraw
  exact ⟨htype, hsha⟩

theorem Derives.isObjType (haddr : Addressed lib objects repoId)
    (h : Derives lib objects repoId entries i o) : IsObjType o.1 := by
  induction h with
  | plain hentry htype => exact htype
  | named hentry hdelta hsha hbase hname happly ih => exact ih
  | stored hentry hdelta hsha hget happly => exact (isObjType_of_stored haddr hget).1
  | offset hentry hdelta hsha hofs hidx hbase happly ih => exact ih

/-- Whatever goes by a name is known. -/
theorem known_of_name (haddr : Addressed lib objects repoId)
    (h : (∃ j, Derives lib objects repoId entries j base ∧ objectSha1 lib base.1 base.2 = sha) ∨
      objects.gitObjectGet repoId sha = some (base.1 :: base.2)) :
    KnownObject lib objects repoId entries base ∧ IsObjType base.1 ∧
      objectSha1 lib base.1 base.2 = sha := by
  rcases h with ⟨j, hj, hname⟩ | hget
  · exact ⟨.inl ⟨j, hj⟩, hj.isObjType haddr, hname⟩
  · obtain ⟨htype, hname⟩ := isObjType_of_stored haddr hget
    exact ⟨.inr ⟨sha, hget⟩, htype, hname⟩

end Objects

/-! ## Where names tell objects apart -/

section Named

variable {i : ℕ} {e : RawEntry} {o o' base base' : UInt8 × Bytes} {out : Bytes} {sha : String}
  {resolved : List (Option PackObject)}

variable (haddr : Addressed lib objects repoId)
  (hcoll : NoCollision lib (KnownObject lib objects repoId entries))

include haddr hcoll

theorem eq_of_name
    (h : (∃ j, Derives lib objects repoId entries j base ∧ objectSha1 lib base.1 base.2 = sha) ∨
      objects.gitObjectGet repoId sha = some (base.1 :: base.2))
    (h' : (∃ j, Derives lib objects repoId entries j base' ∧
        objectSha1 lib base'.1 base'.2 = sha) ∨
      objects.gitObjectGet repoId sha = some (base'.1 :: base'.2)) : base = base' := by
  obtain ⟨hknown, htype, hname⟩ := known_of_name haddr h
  obtain ⟨hknown', htype', hname'⟩ := known_of_name haddr h'
  exact hcoll.eq hknown hknown' htype htype' (hname.trans hname'.symm)

/-- An entry stands for one object. -/
theorem Derives.unique (h : Derives lib objects repoId entries i o)
    (h' : Derives lib objects repoId entries i o') : o = o' := by
  -- what two bases of a delta make of it is equal if they are
  have hsame : ∀ {e : RawEntry} {base base' : UInt8 × Bytes} {out : Bytes} {o' : UInt8 × Bytes},
      base = base' → applyDelta lib.checks base.2 e.data = .ok out →
      applyDelta lib.checks base'.2 e.data = .ok o'.2 → o'.1 = base'.1 → (base.1, out) = o' := by
    rintro e base _ out o' rfl happly happly' hfst
    rw [happly] at happly'
    exact Prod.ext hfst.symm (Except.ok.inj happly')
  induction h generalizing o' with
  | plain hentry htype =>
    cases h' with
    | plain hentry' htype' =>
      rw [hentry] at hentry'
      cases hentry'
      rfl
    | named hentry' hdelta' =>
      rw [hentry] at hentry'
      cases hentry'
      exact absurd htype hdelta'
    | stored hentry' hdelta' =>
      rw [hentry] at hentry'
      cases hentry'
      exact absurd htype hdelta'
    | offset hentry' hdelta' =>
      rw [hentry] at hentry'
      cases hentry'
      exact absurd htype hdelta'
  | named hentry hdelta hsha hbase hname happly ih =>
    obtain ⟨base', hbased, happly', hfst⟩ := h'.of_delta hentry hdelta
    rcases hbased with ⟨sha', hsha', hname'⟩ | ⟨hnone, -⟩
    · rw [hsha] at hsha'
      cases hsha'
      exact hsame (eq_of_name haddr hcoll (.inl ⟨_, hbase, hname⟩) hname') happly happly' hfst
    · rw [hsha] at hnone
      cases hnone
  | stored hentry hdelta hsha hget happly =>
    obtain ⟨base', hbased, happly', hfst⟩ := h'.of_delta hentry hdelta
    rcases hbased with ⟨sha', hsha', hname'⟩ | ⟨hnone, -⟩
    · rw [hsha] at hsha'
      cases hsha'
      exact hsame (eq_of_name haddr hcoll (.inr hget) hname') happly happly' hfst
    · rw [hsha] at hnone
      cases hnone
  | offset hentry hdelta hsha hofs hidx hbase happly ih =>
    obtain ⟨base', hbased, happly', hfst⟩ := h'.of_delta hentry hdelta
    rcases hbased with ⟨sha', hsha', -⟩ | ⟨-, ofs', j', hofs', hidx', hbase'⟩
    · rw [hsha] at hsha'
      cases hsha'
    · rw [hofs] at hofs'
      cases hofs'
      rw [hidx] at hidx'
      cases hidx'
      exact hsame (ih hbase') happly happly' hfst

theorem BasedOn.unique
    (h : BasedOn lib objects repoId entries (Derives lib objects repoId entries) e.header base)
    (h' : BasedOn lib objects repoId entries (Derives lib objects repoId entries) e.header base') :
    base = base' := by
  rcases h with ⟨sha, hsha, hname⟩ | ⟨hsha, ofs, j, hofs, hidx, hj⟩
  · rcases h' with ⟨sha', hsha', hname'⟩ | ⟨hnone, -⟩
    · rw [hsha] at hsha'
      cases hsha'
      exact eq_of_name haddr hcoll hname hname'
    · rw [hsha] at hnone
      cases hnone
  · rcases h' with ⟨sha', hsha', -⟩ | ⟨-, ofs', j', hofs', hidx', hj'⟩
    · rw [hsha] at hsha'
      cases hsha'
    · rw [hofs] at hofs'
      cases hofs'
      rw [hidx] at hidx'
      cases hidx'
      exact hj.unique haddr hcoll hj'

end Named

/-! ## What the passes find -/

/-- The slot of an entry holds the object. -/
def Holds (lib : GitLibs) (resolved : List (Option PackObject)) (i : ℕ) (o : UInt8 × Bytes) :
    Prop := resolved[i]? = some (some (packObject lib o.1 o.2))

/-- Every slot holds an object that its entry stands for, under its name. -/
def Sound (lib : GitLibs) (objects : GitObjects) (repoId : String) (entries : List RawEntry)
    (resolved : List (Option PackObject)) : Prop :=
  ∀ i po, resolved[i]? = some (some po) →
    Derives lib objects repoId entries i (po.objType, po.data) ∧
      po = packObject lib po.objType po.data

section Passes

variable {i : ℕ} {e : RawEntry} {o base : UInt8 × Bytes} {out : Bytes} {po : PackObject}
  {resolved : List (Option PackObject)} {f : Fault}

theorem baseOf_cases (hsound : Sound lib objects repoId entries resolved)
    (h : baseOf objects repoId entries resolved e = .ok (some base)) :
    BasedOn lib objects repoId entries (Derives lib objects repoId entries) e.header base := by
  unfold baseOf at h
  split at h
  · next sha hsha =>
    split at h
    · next o hfind =>
      cases h
      obtain ⟨slot, hmem, hslot⟩ := List.exists_of_findSome?_eq_some hfind
      obtain ⟨rfl, hname⟩ := Option.filter_eq_some_iff.1 hslot
      obtain ⟨j, hj⟩ := List.mem_iff_getElem?.1 hmem
      obtain ⟨hderives, hpo⟩ := hsound j o hj
      have hsha' : o.sha = objectSha1 lib o.objType o.data := congrArg PackObject.sha hpo
      exact .inl ⟨sha, hsha, .inl ⟨j, hderives, hsha'.symm.trans (of_decide_eq_true hname)⟩⟩
    · split at h
      · cases h
      · cases h
      · next hget =>
        cases h
        exact .inl ⟨sha, hsha, .inr hget⟩
  · next hsha =>
    split at h
    · cases h
    · next ofs hofs =>
      obtain ⟨j, hidx, hslot⟩ := Option.bind_eq_some_iff.1 (Except.ok.inj h)
      obtain ⟨o, ho, rfl⟩ := Option.map_eq_some_iff.1 hslot
      obtain ⟨hderives, -⟩ := hsound j o (Option.join_eq_some_iff.1 ho)
      exact .inr ⟨hsha, ofs, j, hofs, hidx, hderives⟩

theorem resolveAt_ok (hentry : entries[i]? = some e)
    (hbase : baseOf objects repoId entries resolved e = .ok (some base)) :
    resolveAt lib objects repoId entries resolved i =
      (panics (applyDelta lib.checks base.2 e.data)).map fun out =>
        some (packObject lib base.1 out) := by
  rw [resolveAt, hentry]
  simp only [bind, Except.bind, hbase]
  cases panics (applyDelta lib.checks base.2 e.data) <;> rfl

/-- An object is filled in for a base that was found. -/
theorem resolveAt_cases (h : resolveAt lib objects repoId entries resolved i = .ok (some po)) :
    ∃ e base out, entries[i]? = some e ∧
      baseOf objects repoId entries resolved e = .ok (some base) ∧
      applyDelta lib.checks base.2 e.data = .ok out ∧ po = packObject lib base.1 out := by
  cases hentry : entries[i]? with
  | none =>
    rw [resolveAt, hentry] at h
    cases h
  | some e =>
    rw [resolveAt, hentry] at h
    obtain ⟨found, hbase, h⟩ := Except.bind_eq_ok.1 h
    cases found with
    | none => cases h
    | some base =>
      obtain ⟨out, happly, h⟩ := Except.bind_eq_ok.1 h
      cases h
      exact ⟨e, base, out, rfl, hbase, panics_eq_ok_iff.1 happly, rfl⟩

theorem slot_of_entry
    (hsteps : Steps (resolveAt lib objects repoId entries) (entries.map (plainObject lib))
      resolved) (hentry : entries[i]? = some e) : ∃ slot, resolved[i]? = some slot := by
  obtain ⟨hi, -⟩ := List.getElem?_eq_some_iff.1 hentry
  have hlength := hsteps.length_eq
  rw [List.length_map] at hlength
  exact ⟨_, List.getElem?_eq_getElem (hlength ▸ hi)⟩

/-- The slots of objects are full from the start. -/
theorem holds_of_plain
    (hsteps : Steps (resolveAt lib objects repoId entries) (entries.map (plainObject lib))
      resolved) (hentry : entries[i]? = some e) (htype : IsObjType e.header.objType) :
    Holds lib resolved i (e.header.objType, e.data) := by
  refine hsteps.keeps ?_
  rw [List.getElem?_map, hentry, Option.map_some, plainObject, if_pos htype]

theorem sound_of_steps
    (hsteps : Steps (resolveAt lib objects repoId entries) (entries.map (plainObject lib))
      resolved) : Sound lib objects repoId entries resolved := by
  refine Steps.forall_of_rule
    (P := fun i (po : PackObject) => Derives lib objects repoId entries i (po.objType, po.data) ∧
      po = packObject lib po.objType po.data) ?_ hsteps ?_
  · intro ρ i po hbefore hempty hsound hrule
    obtain ⟨e, base, out, hentry, hbase, happly, rfl⟩ := resolveAt_cases hrule
    have hdelta : ¬IsObjType e.header.objType := by
      intro htype
      have hfull : ρ[i]? = some (some _) := holds_of_plain hbefore hentry htype
      rw [hempty] at hfull
      cases hfull
    exact ⟨.of_basedOn hentry hdelta (baseOf_cases hsound hbase) happly, rfl⟩
  · intro i po hslot
    rw [List.getElem?_map] at hslot
    obtain ⟨e, hentry, hplain⟩ := Option.map_eq_some_iff.1 hslot
    unfold plainObject at hplain
    split at hplain
    · next htype =>
      cases hplain
      exact ⟨.plain hentry htype, rfl⟩
    · cases hplain

/-- The rule fails where a delta cannot be applied to a base. -/
theorem resolveAt_error (haddr : Addressed lib objects repoId)
    (hsound : Sound lib objects repoId entries resolved)
    (h : resolveAt lib objects repoId entries resolved i = .error f) :
    ∃ e base msg, entries[i]? = some e ∧
      BasedOn lib objects repoId entries (Derives lib objects repoId entries) e.header base ∧
      ¬Applies lib.checks base.2 e.data ∧ f = .panic msg := by
  cases hentry : entries[i]? with
  | none =>
    rw [resolveAt, hentry] at h
    cases h
  | some e =>
    cases hbase : baseOf objects repoId entries resolved e with
    | error f' =>
      unfold baseOf at hbase
      split at hbase
      · next sha hsha =>
        split at hbase
        · cases hbase
        · split at hbase
          · cases hbase
          · next hget =>
            obtain ⟨t, d, hraw, -⟩ := haddr sha [] hget
            cases hraw
          · cases hbase
      · split at hbase
        · cases hbase
        · cases hbase
    | ok found =>
      cases found with
      | none =>
        rw [resolveAt, hentry] at h
        simp only [bind, Except.bind, hbase] at h
        cases h
      | some base =>
        rw [resolveAt_ok hentry hbase] at h
        cases happly : applyDelta lib.checks base.2 e.data with
        | error msg =>
          rw [happly] at h
          cases h
          refine ⟨e, base, msg, rfl, baseOf_cases hsound hbase, fun happlies => ?_, rfl⟩
          obtain ⟨result, hok⟩ := applies_iff.2 happlies
          rw [happly] at hok
          cases hok
        | ok out =>
          rw [happly] at h
          cases h

/-- No pass fails if every delta can be applied to its base. -/
theorem fill_ok_of_applies (haddr : Addressed lib objects repoId)
    (happlies : ∀ (i : ℕ) (e : RawEntry) (base : UInt8 × Bytes), entries[i]? = some e →
      ¬IsObjType e.header.objType →
      BasedOn lib objects repoId entries (Derives lib objects repoId entries) e.header base →
      Applies lib.checks base.2 e.data) :
    ∃ resolved, fill (resolveAt lib objects repoId entries) (entries.map (plainObject lib)) =
      .ok resolved := by
  cases hfill : fill (resolveAt lib objects repoId entries) (entries.map (plainObject lib)) with
  | ok resolved => exact ⟨resolved, rfl⟩
  | error f =>
    obtain ⟨ρ, i, hsteps, hempty, hrule⟩ := fill_error hfill
    obtain ⟨e, base, msg, hentry, hbase, hnot, -⟩ :=
      resolveAt_error haddr (sound_of_steps hsteps) hrule
    have hdelta : ¬IsObjType e.header.objType := by
      intro htype
      have hfull : ρ[i]? = some (some _) := holds_of_plain hsteps hentry htype
      rw [hempty] at hfull
      cases hfull
    exact absurd (happlies i e base hentry hdelta hbase) hnot

end Passes

/-! ## What the last pass leaves -/

section Last

variable {i : ℕ} {e : RawEntry} {o base : UInt8 × Bytes} {out : Bytes} {f : Fault}
  {resolved : List (Option PackObject)}

variable (haddr : Addressed lib objects repoId)
  (hcoll : NoCollision lib (KnownObject lib objects repoId entries))

include haddr hcoll

/-- A base that is there is found. -/
theorem baseOf_eq (hsound : Sound lib objects repoId entries resolved)
    (hbase : BasedOn lib objects repoId entries (Holds lib resolved) e.header base) :
    baseOf objects repoId entries resolved e = .ok (some base) := by
  have hderives : ∀ {j : ℕ} {o : UInt8 × Bytes}, Holds lib resolved j o →
      Derives lib objects repoId entries j o := fun hj => (hsound _ _ hj).1
  unfold baseOf
  rcases hbase with ⟨sha, hsha, hname⟩ | ⟨hsha, ofs, j, hofs, hidx, hj⟩
  · have hname' : (∃ j, Derives lib objects repoId entries j base ∧
        objectSha1 lib base.1 base.2 = sha) ∨
        objects.gitObjectGet repoId sha = some (base.1 :: base.2) := by
      rcases hname with ⟨j, hj, hname⟩ | hget
      · exact .inl ⟨j, hderives hj, hname⟩
      · exact .inr hget
    rw [hsha]
    cases hfind : resolved.findSome? (fun r => r.filter (·.sha = sha)) with
    | some o =>
      obtain ⟨slot, hmem, hslot⟩ := List.exists_of_findSome?_eq_some hfind
      obtain ⟨rfl, hsame⟩ := Option.filter_eq_some_iff.1 hslot
      obtain ⟨j, hj⟩ := List.mem_iff_getElem?.1 hmem
      obtain ⟨hj, hpo⟩ := hsound j o hj
      have hsha' : o.sha = objectSha1 lib o.objType o.data := congrArg PackObject.sha hpo
      have heq : base = (o.objType, o.data) := eq_of_name haddr hcoll hname'
        (.inl ⟨j, hj, hsha'.symm.trans (of_decide_eq_true hsame)⟩)
      dsimp only
      rw [hfind, heq]
    | none =>
      rcases hname with ⟨j, hj, hname⟩ | hget
      · have hnone := List.findSome?_eq_none_iff.1 hfind _ (List.mem_of_getElem? hj)
        have hname : (packObject lib base.1 base.2).sha = sha := hname
        rw [Option.filter_some, if_pos (decide_eq_true hname)] at hnone
        cases hnone
      · dsimp only
        rw [hfind, hget]
  · rw [hsha, hofs]
    dsimp only
    rw [hidx, Option.bind_some, show resolved[j]? = _ from hj]
    rfl

/-- At the end a delta has been applied to a base that is there. -/
theorem holds_of_basedOn
    (hsteps : Steps (resolveAt lib objects repoId entries) (entries.map (plainObject lib))
      resolved) (hstuck : Stuck (resolveAt lib objects repoId entries) resolved)
    (hentry : entries[i]? = some e) (hdelta : ¬IsObjType e.header.objType)
    (hbase : BasedOn lib objects repoId entries (Holds lib resolved) e.header base) :
    ∃ out, applyDelta lib.checks base.2 e.data = .ok out ∧
      Holds lib resolved i (base.1, out) := by
  have hsound := sound_of_steps hsteps
  have hfound := baseOf_eq haddr hcoll hsound hbase
  obtain ⟨slot, hslot⟩ := slot_of_entry hsteps hentry
  cases slot with
  | none =>
    have hnone := hstuck i hslot
    rw [resolveAt_ok hentry hfound] at hnone
    cases happly : applyDelta lib.checks base.2 e.data with
    | error msg =>
      rw [happly] at hnone
      cases hnone
    | ok out =>
      rw [happly] at hnone
      cases hnone
  | some po =>
    obtain ⟨hderives, hpo⟩ := hsound i po hslot
    obtain ⟨base', hbased', happly, hfst⟩ := hderives.of_delta hentry hdelta
    have heq : base' = base :=
      hbased'.unique haddr hcoll (baseOf_cases hsound hfound)
    refine ⟨po.data, heq ▸ happly, ?_⟩
    rw [Holds, hslot, hpo]
    rw [← heq, ← hfst]
    rfl

/-- Every object that the pack holds is in its slot. -/
theorem holds_of_derives
    (hsteps : Steps (resolveAt lib objects repoId entries) (entries.map (plainObject lib))
      resolved) (hstuck : Stuck (resolveAt lib objects repoId entries) resolved)
    (h : Derives lib objects repoId entries i o) : Holds lib resolved i o := by
  have hsame : ∀ {base : UInt8 × Bytes} {out out' d : Bytes} {i : ℕ},
      applyDelta lib.checks base.2 d = .ok out → applyDelta lib.checks base.2 d = .ok out' →
      Holds lib resolved i (base.1, out') → Holds lib resolved i (base.1, out) := by
    intro base out out' d i happly happly' hholds
    rw [happly] at happly'
    cases happly'
    exact hholds
  induction h with
  | plain hentry htype => exact holds_of_plain hsteps hentry htype
  | named hentry hdelta hsha hbase hname happly ih =>
    obtain ⟨out', happly', hholds⟩ := holds_of_basedOn haddr hcoll hsteps hstuck hentry hdelta
      (.inl ⟨_, hsha, .inl ⟨_, ih, hname⟩⟩)
    exact hsame happly happly' hholds
  | stored hentry hdelta hsha hget happly =>
    obtain ⟨out', happly', hholds⟩ := holds_of_basedOn haddr hcoll hsteps hstuck hentry hdelta
      (.inl ⟨_, hsha, .inr hget⟩)
    exact hsame happly happly' hholds
  | offset hentry hdelta hsha hofs hidx hbase happly ih =>
    obtain ⟨out', happly', hholds⟩ := holds_of_basedOn haddr hcoll hsteps hstuck hentry hdelta
      (.inr ⟨hsha, _, _, hofs, hidx, ih⟩)
    exact hsame happly happly' hholds

/-- If no pass fails, every delta can be applied to its base. -/
theorem applies_of_fill (hfill : fill (resolveAt lib objects repoId entries)
      (entries.map (plainObject lib)) = .ok resolved) (hentry : entries[i]? = some e)
    (hdelta : ¬IsObjType e.header.objType)
    (hbase : BasedOn lib objects repoId entries (Derives lib objects repoId entries)
      e.header base) : Applies lib.checks base.2 e.data := by
  obtain ⟨hsteps, hstuck⟩ := fill_ok hfill
  have hholds : BasedOn lib objects repoId entries (Holds lib resolved) e.header base := by
    rcases hbase with ⟨sha, hsha, ⟨j, hj, hname⟩ | hget⟩ | ⟨hsha, ofs, j, hofs, hidx, hj⟩
    · exact .inl ⟨sha, hsha, .inl ⟨j, holds_of_derives haddr hcoll hsteps hstuck hj, hname⟩⟩
    · exact .inl ⟨sha, hsha, .inr hget⟩
    · exact .inr ⟨hsha, ofs, j, hofs, hidx, holds_of_derives haddr hcoll hsteps hstuck hj⟩
  obtain ⟨out, happly, -⟩ := holds_of_basedOn haddr hcoll hsteps hstuck hentry hdelta hholds
  exact applies_iff.1 ⟨out, happly⟩

end Last

/-! ## What a push stores -/

section Stores

variable {pack : Bytes} {parsed : List PackObject} {objects' : GitObjects}

/-- What is parsed is named after its type and bytes. -/
theorem parsed_eq (haddr : Addressed lib objects repoId)
    (h : parsePack lib pack objects repoId = .ok parsed) :
    ∀ po ∈ parsed, IsObjType po.objType ∧ po = packObject lib po.objType po.data := by
  obtain ⟨-, -, entries, resolved, -, hfill, rfl⟩ := parsePack_ok_iff.1 h
  intro po hpo
  obtain ⟨slot, hmem, hslot⟩ := List.mem_filterMap.1 hpo
  obtain ⟨i, hi⟩ := List.mem_iff_getElem?.1 hmem
  rw [show slot = some po from hslot] at hi
  obtain ⟨hderives, hpo⟩ := sound_of_steps (fill_ok hfill).1 i po hi
  exact ⟨hderives.isObjType haddr, hpo⟩

theorem Addressed.foldl_put (haddr : Addressed lib objects repoId)
    (h : ∀ po ∈ parsed, IsObjType po.objType ∧ po = packObject lib po.objType po.data) :
    Addressed lib (parsed.foldl (fun objects o =>
      objects.gitObjectPut repoId o.sha o.objType o.data) objects) repoId := by
  induction parsed generalizing objects with
  | nil => exact haddr
  | cons po parsed ih =>
    obtain ⟨⟨htype, hpo⟩, hrest⟩ := List.forall_mem_cons.1 h
    have hsha : po.sha = objectSha1 lib po.objType po.data := congrArg PackObject.sha hpo
    rw [List.foldl_cons, hsha]
    exact ih (haddr.put htype) hrest

/-- Objects stay stored under their names. -/
theorem addressed_storePack (haddr : Addressed lib objects repoId)
    (h : storePack lib objects repoId pack = .ok (parsed, objects')) :
    Addressed lib objects' repoId := by
  unfold storePack at h
  split at h
  · cases h
    exact haddr
  · obtain ⟨parsed', hparse, h⟩ := Except.bind_eq_ok.1 h
    cases h
    exact haddr.foldl_put (parsed_eq haddr hparse)

end Stores

/-! ## What comes back from a pack -/

section RoundTrip

variable {pack : Bytes} {parsed : List PackObject}

/-- The pack of a list reads as the list if the count has room for its length. -/
theorem parsePack_buildPack_iff
    (hzlib : ∀ d rest, lib.inflate (lib.deflate d ++ rest) = .ok (d, (lib.deflate d).length))
    (hsha : ∀ bs, (lib.sha1 bs).length = 20) (os : List GitObject) :
    parsePack lib (buildPack lib (os.map GitObject.raw)) objects repoId =
      .ok (os.map (GitObject.packObject lib)) ↔ os.length < 2 ^ 32 := by
  rw [parsePack_buildPack hzlib hsha]
  constructor
  · intro h
    have hlength := congrArg List.length (Except.ok.inj h)
    rw [List.length_map, List.length_map, List.length_take_of_le (Nat.mod_le _ _)] at hlength
    rw [← hlength]
    exact Nat.mod_lt _ (by decide)
  · intro h
    rw [Nat.mod_eq_of_lt h, List.take_length]

/-- As many objects are returned as the header counts if every entry stands for one. -/
theorem length_parsed_iff (haddr : Addressed lib objects repoId)
    (hread : readEntries lib pack (packCount pack) 12 = .ok entries)
    (hcoll : NoCollision lib (KnownObject lib objects repoId entries))
    (hparse : parsePack lib pack objects repoId = .ok parsed) :
    parsed.length = packCount pack ↔
      ∀ i < packCount pack, ∃ o, Derives lib objects repoId entries i o := by
  obtain ⟨-, -, entries', resolved, hread', hfill, rfl⟩ := parsePack_ok_iff.1 hparse
  rw [hread] at hread'
  cases hread'
  obtain ⟨hsteps, hstuck⟩ := fill_ok hfill
  have hlength : resolved.length = packCount pack := by
    rw [hsteps.length_eq, List.length_map, length_readEntries hread]
  rw [← hlength, List.filterMap_length_eq_length]
  constructor
  · intro hall i hi
    obtain ⟨po, hpo⟩ := Option.isSome_iff_exists.1 (hall _ (List.getElem_mem hi))
    have hslot : resolved[i]? = some (some po) := by
      rw [List.getElem?_eq_getElem hi]
      exact congrArg some hpo
    exact ⟨_, (sound_of_steps hsteps i po hslot).1⟩
  · intro hall slot hmem
    obtain ⟨i, hi, rfl⟩ := List.mem_iff_getElem.1 hmem
    obtain ⟨o, ho⟩ := hall i hi
    have hholds := holds_of_derives haddr hcoll hsteps hstuck ho
    rw [Holds, List.getElem?_eq_getElem hi] at hholds
    rw [Option.some.inj hholds]
    rfl

/-- A list of objects comes back from its pack if it is shorter than 2 ^ 32; of a pack that is
accepted, as many objects come back as it counts if every entry stands for an object. -/
theorem pack_roundTrip (lib : GitLibs)
    (hzlib : ∀ d rest, lib.inflate (lib.deflate d ++ rest) = .ok (d, (lib.deflate d).length))
    (hsha : ∀ bs, (lib.sha1 bs).length = 20) :
    (∀ (os : List GitObject) (objects : GitObjects) (repoId : String),
      parsePack lib (buildPack lib (os.map GitObject.raw)) objects repoId =
        .ok (os.map (GitObject.packObject lib)) ↔ os.length < 2 ^ 32) ∧
    ∀ (pack : Bytes) (objects : GitObjects) (repoId : String) (entries : List RawEntry)
      (parsed : List PackObject), Addressed lib objects repoId →
      readEntries lib pack (packCount pack) 12 = .ok entries →
      NoCollision lib (KnownObject lib objects repoId entries) →
      parsePack lib pack objects repoId = .ok parsed →
      (parsed.length = packCount pack ↔
        ∀ i < packCount pack, ∃ o, Derives lib objects repoId entries i o) :=
  ⟨fun os _ _ => parsePack_buildPack_iff hzlib hsha os,
    fun _ _ _ _ _ haddr hread hcoll hparse => length_parsed_iff haddr hread hcoll hparse⟩

end RoundTrip

/-! ### A sample

Two blobs, the second one whole and as a delta against the first, with the streams and the
hashes that the libraries have for them. -/

section Sample

/-- Two bytes are copied from the base, and one is added. -/
def sampleDelta : Bytes := [2, 3, 0x90, 2, 1, 1]

/-- Data and what it is compressed to. -/
def sampleStreams : List (Bytes × Bytes) :=
  [([0, 0], [120, 156, 99, 96, 0, 0, 0, 2, 0, 1]),
    ([0, 0, 1], [120, 156, 99, 96, 96, 4, 0, 0, 4, 0, 2]),
    (sampleDelta, [120, 156, 99, 98, 158, 192, 196, 200, 8, 0, 2, 106, 0, 154])]

/-- The two blobs. -/
def plainPack : Bytes :=
  [80, 65, 67, 75, 0, 0, 0, 2, 0, 0, 0, 2, 50, 120, 156, 99, 96, 0, 0, 0, 2, 0, 1, 51, 120, 156,
    99, 96, 96, 4, 0, 0, 4, 0, 2]

/-- The first blob, and a delta against what begins 11 bytes before it. -/
def samplePack : Bytes :=
  [80, 65, 67, 75, 0, 0, 0, 2, 0, 0, 0, 2, 50, 120, 156, 99, 96, 0, 0, 0, 2, 0, 1, 102, 11, 120,
    156, 99, 98, 158, 192, 196, 200, 8, 0, 2, 106, 0, 154]

/-- A delta whose base is nowhere. -/
def sampleThin : Bytes :=
  [80, 65, 67, 75, 0, 0, 0, 2, 0, 0, 0, 1, 114] ++ List.replicate 20 0 ++
    [120, 156, 99, 96, 0, 0, 0, 2, 0, 1] ++
    [111, 74, 44, 177, 25, 75, 221, 172, 181, 32, 72, 89, 254, 204, 161, 244, 156, 154, 214, 116]

/-- Any other data: a mark in front of each byte and one at the end. -/
def frame (d : Bytes) : Bytes := d.flatMap (fun b => [1, b]) ++ [0]

def unframe : Bytes → Except String (Bytes × ℕ)
  | [] => .error "corrupt deflate stream"
  | mark :: rest =>
    if mark = 0 then .ok ([], 1)
    else match rest with
      | [] => .error "corrupt deflate stream"
      | b :: rest => (unframe rest).map fun r => (b :: r.1, r.2 + 2)

/-- What is hashed, and its SHA-1. -/
def sampleHashes : List (Bytes × Bytes) :=
  [(hashed objBlob [0, 0],
      [9, 243, 112, 227, 143, 73, 138, 70, 46, 28, 160, 250, 167, 36, 85, 155, 102, 48, 192, 79]),
    (hashed objBlob [0, 0, 1],
      [250, 55, 202, 155, 249, 214, 178, 92, 156, 224, 216, 253, 119, 105, 89, 112, 181, 149, 230,
        251]),
    (plainPack,
      [224, 63, 38, 126, 186, 32, 108, 6, 95, 10, 207, 110, 255, 238, 226, 132, 17, 117, 119, 36]),
    (samplePack,
      [246, 218, 237, 185, 217, 137, 145, 33, 127, 38, 89, 176, 9, 7, 142, 238, 26, 85, 110, 28])]

def sampleLib : GitLibs where
  deflate := fun d => ((sampleStreams.find? (·.1 = d)).map Prod.snd).getD (frame d)
  inflate := fun bs =>
    match sampleStreams.find? (fun s => bs.take s.2.length = s.2) with
    | some s => .ok (s.1, s.2.length)
    | none => unframe bs
  sha1 := fun bs =>
    ((sampleHashes.find? (·.1 = bs)).map Prod.snd).getD (List.replicate 20 0)
  checks := true

theorem unframe_frame (d rest : Bytes) :
    unframe (frame d ++ rest) = .ok (d, (frame d).length) := by
  induction d with
  | nil =>
    have hnil : frame [] = [0] := rfl
    rw [hnil, List.singleton_append, unframe.eq_def]
    exact if_pos rfl
  | cons b d ih =>
    have hcons : frame (b :: d) = 1 :: b :: frame d := rfl
    rw [hcons, List.cons_append, List.cons_append, unframe, if_neg (by decide), ih]
    rfl

theorem head_frame (d rest : Bytes) : (frame d ++ rest).head? = some (if d = [] then 0 else 1) := by
  cases d <;> rfl

theorem sampleLib_inflate (d rest : Bytes) :
    sampleLib.inflate (sampleLib.deflate d ++ rest) = .ok (d, (sampleLib.deflate d).length) := by
  unfold sampleLib
  dsimp only
  cases hfind : sampleStreams.find? (·.1 = d) with
  | some s =>
    have hmatch := List.find?_some hfind
    have hd : s.1 = d := of_decide_eq_true hmatch
    subst hd
    have hmem := List.mem_of_find?_eq_some hfind
    simp only [sampleStreams, List.mem_cons, List.not_mem_nil, or_false] at hmem
    rcases hmem with rfl | rfl | rfl <;> rfl
  | none =>
    have hother : sampleStreams.find? (fun s => (frame d ++ rest).take s.2.length = s.2) = none := by
      have hheads : ∀ s ∈ sampleStreams, s.2.head? = some 120 ∧ s.2.length ≠ 0 := by decide
      refine List.find?_eq_none.2 fun s hs htake => ?_
      have hhead : (frame d ++ rest).head? = some 120 := by
        rw [← (hheads s hs).1, ← of_decide_eq_true htake, List.head?_take, if_neg (hheads s hs).2]
      rw [head_frame] at hhead
      split at hhead <;> exact absurd (Option.some.inj hhead) (by decide)
    dsimp only [Option.map_none, Option.getD_none]
    rw [hother]
    exact unframe_frame d rest

theorem sampleLib_sha1 (bs : Bytes) : (sampleLib.sha1 bs).length = 20 := by
  unfold sampleLib
  dsimp only
  cases hfind : sampleHashes.find? (·.1 = bs) with
  | none => rfl
  | some h =>
    have hall : ∀ h ∈ sampleHashes, h.2.length = 20 := by decide
    exact hall h (List.mem_of_find?_eq_some hfind)

def firstBlob : GitObject := ⟨objBlob, [0, 0], by decide, by decide⟩

def secondBlob : GitObject := ⟨objBlob, [0, 0, 1], by decide, by decide⟩

/-- The entries of the blob and of the delta, as they are read. -/
def sampleEntries : List RawEntry :=
  [⟨⟨objBlob, none, none⟩, [0, 0], 12⟩, ⟨⟨objOfsDelta, none, some 12⟩, sampleDelta, 23⟩]

theorem applyDelta_sample :
    applyDelta sampleLib.checks firstBlob.raw.2 sampleDelta = .ok secondBlob.raw.2 := by
  refine applyDelta_ok_iff.2 ⟨⟨3, [.copy 0 2, .insert [1]]⟩, ?_, by decide, ?_, rfl⟩
  · exact ⟨2, [3, 0x90, 2, 1, 1], [0x90, 2, 1, 1], rfl, rfl, .cons rfl (.cons rfl .nil)⟩
  · exact List.forall_mem_cons.2 ⟨Nat.zero_le _, by simp [Command.Starts]⟩

theorem addressed_empty (lib : GitLibs) (repoId : String) : Addressed lib ∅ repoId := by
  intro sha raw hget
  cases hget

theorem entry_sample {i : ℕ} {e : RawEntry} (h : sampleEntries[i]? = some e) :
    i = 0 ∧ e = ⟨⟨objBlob, none, none⟩, [0, 0], 12⟩ ∨
      i = 1 ∧ e = ⟨⟨objOfsDelta, none, some 12⟩, sampleDelta, 23⟩ := by
  match i with
  | 0 => exact .inl ⟨rfl, (Option.some.inj h).symm⟩
  | 1 => exact .inr ⟨rfl, (Option.some.inj h).symm⟩
  | _ + 2 => cases h

theorem derives_sample {i : ℕ} {o : UInt8 × Bytes}
    (h : Derives sampleLib ∅ "repo" sampleEntries i o) :
    i = 0 ∧ o = firstBlob.raw ∨ i = 1 ∧ o = secondBlob.raw := by
  induction h with
  | plain hentry htype =>
    rcases entry_sample hentry with ⟨rfl, rfl⟩ | ⟨-, rfl⟩
    · exact .inl ⟨rfl, rfl⟩
    · exact absurd htype (by decide)
  | named hentry hdelta hsha =>
    rcases entry_sample hentry with ⟨-, rfl⟩ | ⟨-, rfl⟩ <;> cases hsha
  | stored hentry hdelta hsha =>
    rcases entry_sample hentry with ⟨-, rfl⟩ | ⟨-, rfl⟩ <;> cases hsha
  | @offset _ j _ _ base _ hentry hdelta hsha hofs hidx hbase happly ih =>
    rcases entry_sample hentry with ⟨-, rfl⟩ | ⟨rfl, rfl⟩
    · cases hofs
    · cases hofs
      have hfirst : (offsetToIdx sampleEntries).get 12 = some 0 := by decide
      rw [hfirst] at hidx
      cases hidx
      rcases ih with ⟨-, rfl⟩ | ⟨hj, -⟩
      · rw [applyDelta_sample] at happly
        cases happly
        exact .inr ⟨rfl, rfl⟩
      · cases hj

theorem known_sample {o : UInt8 × Bytes} (h : KnownObject sampleLib ∅ "repo" sampleEntries o) :
    o = firstBlob.raw ∨ o = secondBlob.raw := by
  rcases h with ⟨i, hi⟩ | ⟨sha, hget⟩
  · exact (derives_sample hi).imp And.right And.right
  · cases hget

theorem noCollision_sample :
    NoCollision sampleLib (KnownObject sampleLib ∅ "repo" sampleEntries) := by
  intro o o' ho ho' hsha
  have hdiffer : sampleLib.sha1 (hashed firstBlob.raw.1 firstBlob.raw.2) ≠
      sampleLib.sha1 (hashed secondBlob.raw.1 secondBlob.raw.2) := by decide
  rcases known_sample ho with rfl | rfl <;> rcases known_sample ho' with rfl | rfl
  · rfl
  · exact absurd hsha hdiffer
  · exact absurd hsha.symm hdiffer
  · rfl

theorem readEntries_sample : readEntries sampleLib (samplePack ++ sampleLib.sha1 samplePack)
    (packCount (samplePack ++ sampleLib.sha1 samplePack)) 12 = .ok sampleEntries := by rfl

theorem parsePack_sample :
    parsePack sampleLib (samplePack ++ sampleLib.sha1 samplePack) ∅ "repo" =
      .ok [firstBlob.packObject sampleLib, secondBlob.packObject sampleLib] := by
  decide +kernel

end Sample

/-- Two blobs come back from their pack, and from the one in which the second is a delta. -/
theorem pack_roundTrip_sample :
    parsePack sampleLib (buildPack sampleLib [firstBlob.raw, secondBlob.raw]) ∅ "repo" =
      .ok [firstBlob.packObject sampleLib, secondBlob.packObject sampleLib] ∧
    ∀ i < 2, ∃ o, Derives sampleLib ∅ "repo" sampleEntries i o := by
  obtain ⟨hpack, haccepted⟩ := pack_roundTrip sampleLib sampleLib_inflate sampleLib_sha1
  refine ⟨(hpack [firstBlob, secondBlob] ∅ "repo").2 (by decide), ?_⟩
  exact (haccepted _ ∅ "repo" sampleEntries _ (addressed_empty _ _) readEntries_sample
    noCollision_sample parsePack_sample).1 rfl

/-- A delta without its base is accepted and left out. -/
theorem delta_left_out :
    (∀ d rest, sampleLib.inflate (sampleLib.deflate d ++ rest) =
      .ok (d, (sampleLib.deflate d).length)) ∧
    parsePack sampleLib sampleThin ∅ "repo" = .ok [] ∧ packCount sampleThin = 1 := by
  refine ⟨sampleLib_inflate, parsePack_ok_iff.2 ⟨by decide, by decide,
    [⟨⟨objRefDelta, some (hexEncode (List.replicate 20 0)), none⟩, [0, 0], 12⟩], [none],
    by rfl, Saturate.fill_of_stuck ?_, rfl⟩, by decide⟩
  intro i hempty
  cases i with
  | zero => rfl
  | succ i => cases hempty

end HoneNode.LinkGit
