import HoneNode.LinkGit.Requests
import HoneNode.LinkGit.Resolve

/-!
# LinkGit.Push — what a push can make the node do

A push is read, its pack parsed and its deltas applied. Lengths and offsets come from the
sender: a header can run into the checksum, a size or an offset over the word, and a delta
past its own end or behind its base.

1. **Headers** (`readHeader_panics_iff`): too long a size or offset, where that is checked.
2. **Entries** (`readEntries_panics_iff`): a header that ends in the checksum.
3. **Packs** (`parsePack_safe`, `packFits_of_safe`): a delta that cannot be applied to its base.
4. **Pushes** (`push_safe_iff`).
-/

namespace HoneNode.LinkGit

def Panics {α : Type} (x : Except Fault α) : Prop := ∃ msg, x = .error (.panic msg)

section Panics

variable {α β : Type} {x : Except Fault α} {f : α → Except Fault β} {a : α} {e : String}

theorem not_panics_ok : ¬Panics (.ok a : Except Fault α) := nofun

theorem not_panics_err : ¬Panics (.error (.err e) : Except Fault α) := by
  rintro ⟨msg, h⟩
  cases h

theorem panics_bind_iff : Panics (x >>= f) ↔ Panics x ∨ ∃ a, x = .ok a ∧ Panics (f a) := by
  cases x with
  | error fault =>
    constructor
    · rintro ⟨msg, h⟩
      cases h
      exact .inl ⟨msg, rfl⟩
    · rintro (⟨msg, h⟩ | ⟨a, ha, -⟩)
      · cases h
        exact ⟨msg, rfl⟩
      · cases ha
  | ok a =>
    constructor
    · exact fun h => .inr ⟨a, rfl, h⟩
    · rintro (⟨msg, h⟩ | ⟨a', ha, h⟩)
      · cases h
      · cases ha
        exact h

/-- What can only panic panics if it does not return. -/
theorem panics_panics_iff {y : Except String α} : Panics (panics y) ↔ ¬∃ a, y = .ok a := by
  cases y with
  | error msg => exact iff_of_true ⟨msg, rfl⟩ nofun
  | ok a => exact iff_of_false nofun (not_not.2 ⟨a, rfl⟩)

end Panics

/-! ## Headers -/

/-- The bytes of the size behind the first. -/
def sizeBytes (b0 : UInt8) (rest : Bytes) : ℕ := if b0 &&& 0x80 = 0 then 0 else varintLength rest

/-- The offset is the largest word before its last byte. -/
def OfsOverflows (b : UInt8) (ofs : ℕ) : Bytes → Prop
  | [] => False
  | c :: rest => b &&& 0x80 ≠ 0 ∧
      (ofs + 1 = 2 ^ 64 ∨ OfsOverflows c (ofsAppend ((ofs + 1) % 2 ^ 64) c) rest)

def OffsetOverflows : Bytes → Prop
  | [] => False
  | b :: rest => OfsOverflows b (b &&& 0x7f).toNat rest

/-- With overflow checks, size and offset fit the word. -/
def HeaderFits (checks : Bool) : Bytes → Prop
  | [] => True
  | b0 :: rest => checks = true → sizeBytes b0 rest ≤ 9 ∧
      ((b0 >>> 4) &&& 0x07 = objOfsDelta → ¬OffsetOverflows (rest.drop (sizeBytes b0 rest)))

section Headers

variable {checks : Bool} {cur b : UInt8} {shift size ofs pos : ℕ} {bs rest : Bytes} {h : Header}

theorem sizeBytes_cons (h : cur &&& 0x80 ≠ 0) :
    sizeBytes cur (b :: rest) = sizeBytes b rest + 1 := by
  rw [sizeBytes, if_neg h, varintLength, sizeBytes]
  split <;> rfl

theorem readSize_panics_iff : Panics (readSize checks cur shift size rest) ↔
    checks = true ∧ ∃ k < sizeBytes cur rest, 64 ≤ shift + 7 * k := by
  induction rest generalizing cur shift size with
  | nil =>
    have hnone : ¬(checks = true ∧ ∃ k < sizeBytes cur [], 64 ≤ shift + 7 * k) := by
      rintro ⟨-, k, hk, -⟩
      unfold sizeBytes varintLength at hk
      split at hk <;> exact absurd hk (Nat.not_lt_zero k)
    refine iff_of_false ?_ hnone
    rw [readSize]
    split
    · exact not_panics_ok
    · exact not_panics_err
  | cons b rest ih =>
    rw [readSize]
    by_cases hend : cur &&& 0x80 = 0
    · rw [if_pos hend, sizeBytes, if_pos hend]
      refine iff_of_false not_panics_ok ?_
      rintro ⟨-, k, hk, -⟩
      exact absurd hk (Nat.not_lt_zero k)
    · rw [if_neg hend, sizeBytes_cons hend, panics_bind_iff, panics_panics_iff, usizeShl_ok_iff]
      constructor
      · rintro (hshift | ⟨part, -, hrest⟩)
        · obtain ⟨hc, hshift⟩ := Classical.not_imp.1 hshift
          exact ⟨hc, 0, Nat.succ_pos _, by omega⟩
        · obtain ⟨hc, k, hk, hshift⟩ := ih.1 hrest
          exact ⟨hc, k + 1, by omega, by omega⟩
      · rintro ⟨hc, k, hk, hshift⟩
        by_cases hfirst : shift < 64
        · obtain ⟨part, hpart⟩ : ∃ part, usizeShl checks (b &&& 0x7f).toNat shift = .ok part :=
            usizeShl_ok_iff.2 fun _ => hfirst
          cases k with
          | zero => omega
          | succ k =>
            exact .inr ⟨part, panics_eq_ok_iff.2 hpart, ih.2 ⟨hc, k, by omega, by omega⟩⟩
        · exact .inl fun hlt => hfirst (hlt hc)

theorem readSize_rest {r : ℕ × Bytes} (h : readSize checks cur shift size rest = .ok r) :
    r.2 = rest.drop (sizeBytes cur rest) := by
  induction rest generalizing cur shift size with
  | nil =>
    rw [readSize] at h
    split at h
    · cases h
      rw [List.drop_nil]
    · cases h
  | cons b rest ih =>
    rw [readSize] at h
    by_cases hend : cur &&& 0x80 = 0
    · rw [if_pos hend] at h
      cases h
      rw [sizeBytes, if_pos hend, List.drop_zero]
    · rw [if_neg hend] at h
      rw [sizeBytes_cons hend, List.drop_succ_cons]
      obtain ⟨part, -, h⟩ := Except.bind_eq_ok.1 h
      exact ih h

/-- A size that is cut off has no bytes behind it. -/
theorem readSize_cases (hsafe : ¬Panics (readSize checks cur shift size rest)) :
    (∃ size', readSize checks cur shift size rest = .ok (size', rest.drop (sizeBytes cur rest))) ∨
      (¬∃ r, readSize checks cur shift size rest = .ok r) ∧
        rest.drop (sizeBytes cur rest) = [] := by
  induction rest generalizing cur shift size with
  | nil =>
    rw [readSize, List.drop_nil]
    split
    · exact .inl ⟨size, rfl⟩
    · refine .inr ⟨?_, rfl⟩
      rintro ⟨r, hr⟩
      cases hr
  | cons b rest ih =>
    rw [readSize] at hsafe ⊢
    by_cases hend : cur &&& 0x80 = 0
    · rw [if_pos hend, sizeBytes, if_pos hend]
      exact .inl ⟨size, rfl⟩
    · rw [if_neg hend] at hsafe ⊢
      rw [sizeBytes_cons hend, List.drop_succ_cons]
      cases hpart : usizeShl checks (b &&& 0x7f).toNat shift with
      | error msg =>
        rw [hpart] at hsafe
        exact absurd ⟨msg, rfl⟩ hsafe
      | ok part =>
        rw [hpart] at hsafe
        exact ih hsafe

theorem readOfs_panics_iff : Panics (readOfs checks b ofs rest) ↔
    checks = true ∧ OfsOverflows b ofs rest := by
  induction rest generalizing b ofs with
  | nil =>
    rw [readOfs]
    refine iff_of_false ?_ fun h => h.2
    split
    · exact not_panics_ok
    · exact not_panics_err
  | cons c rest ih =>
    rw [readOfs, OfsOverflows]
    by_cases hend : b &&& 0x80 = 0
    · rw [if_pos hend]
      exact iff_of_false not_panics_ok fun h => h.2.1 hend
    · rw [if_neg hend, usizeSucc]
      by_cases hover : checks = true ∧ ofs + 1 = 2 ^ 64
      · rw [if_pos hover]
        exact iff_of_true ⟨_, rfl⟩ ⟨hover.1, hend, .inl hover.2⟩
      · rw [if_neg hover]
        refine Iff.trans (@ih c (ofsAppend ((ofs + 1) % 2 ^ 64) c)) ?_
        constructor
        · rintro ⟨hc, hrest⟩
          exact ⟨hc, hend, .inr hrest⟩
        · rintro ⟨hc, -, hlast | hrest⟩
          · exact absurd ⟨hc, hlast⟩ hover
          · exact ⟨hc, hrest⟩

theorem readBase_panics_iff (objType : UInt8) : Panics (readBase checks pos objType rest) ↔
    objType = objOfsDelta ∧ checks = true ∧ OffsetOverflows rest := by
  unfold readBase
  by_cases hofs : objType = objOfsDelta
  · rw [if_pos hofs]
    cases rest with
    | nil => exact iff_of_false not_panics_err fun h => h.2.2
    | cons b rest =>
      dsimp only
      rw [panics_bind_iff, readOfs_panics_iff]
      constructor
      · rintro (h | ⟨r, -, h⟩)
        · exact ⟨hofs, h⟩
        · split at h
          · exact absurd h not_panics_err
          · exact absurd h not_panics_ok
      · rintro ⟨-, h⟩
        exact .inl h
  · rw [if_neg hofs]
    refine iff_of_false ?_ fun h => hofs h.1
    split
    · split
      · exact not_panics_err
      · exact not_panics_ok
    · exact not_panics_ok

theorem exists_shift_iff {n : ℕ} : (∃ k < n, 64 ≤ 4 + 7 * k) ↔ ¬n ≤ 9 := by
  constructor
  · rintro ⟨k, hk, hshift⟩
    omega
  · intro h
    exact ⟨9, by omega, by omega⟩

theorem readHeader_panics_iff : Panics (readHeader checks pos bs) ↔ ¬HeaderFits checks bs := by
  cases bs with
  | nil => exact iff_of_false not_panics_err (not_not.2 trivial)
  | cons b0 rest =>
    rw [readHeader, panics_bind_iff, readSize_panics_iff, exists_shift_iff, HeaderFits,
      Classical.not_imp, not_and_or, Classical.not_imp, not_not]
    constructor
    · rintro (⟨hc, hlong⟩ | ⟨r, hr, hbase⟩)
      · exact ⟨hc, .inl hlong⟩
      · obtain ⟨htype, hc, hover⟩ := (readBase_panics_iff _).1 hbase
        rw [readSize_rest hr] at hover
        exact ⟨hc, .inr ⟨htype, hover⟩⟩
    · rintro ⟨hc, hlong | ⟨htype, hover⟩⟩
      · exact .inl ⟨hc, hlong⟩
      · by_cases hlong : sizeBytes b0 rest ≤ 9
        · have hsafe : ¬Panics (readSize checks b0 4 (b0 &&& 0x0f).toNat rest) := by
            rw [readSize_panics_iff, exists_shift_iff]
            exact fun h => h.2 hlong
          rcases readSize_cases hsafe with ⟨size', hread⟩ | ⟨-, hnil⟩
          · exact .inr ⟨_, hread, (readBase_panics_iff _).2 ⟨htype, hc, hover⟩⟩
          · rw [hnil] at hover
            exact absurd hover id
        · exact .inl ⟨hc, hlong⟩

theorem length_readOfs {r : ℕ × Bytes} (h : readOfs checks b ofs rest = .ok r) :
    r.2.length ≤ rest.length := by
  induction rest generalizing b ofs with
  | nil =>
    rw [readOfs] at h
    split at h
    · cases h
      exact le_rfl
    · cases h
  | cons c rest ih =>
    rw [readOfs] at h
    split at h
    · cases h
      exact le_rfl
    · obtain ⟨succ, -, h⟩ := Except.bind_eq_ok.1 h
      exact (ih h).trans (Nat.le_succ _)

theorem length_readBase {objType : UInt8} {r : Header × Bytes}
    (h : readBase checks pos objType bs = .ok r) : r.2.length ≤ bs.length := by
  unfold readBase at h
  split at h
  · cases bs with
    | nil => cases h
    | cons b rest =>
      obtain ⟨ofs, hofs, h⟩ := Except.bind_eq_ok.1 h
      have hle := length_readOfs hofs
      dsimp only at h
      split at h
      · cases h
      · cases h
        exact hle.trans (Nat.le_succ _)
  · split at h
    · split at h
      · cases h
      · cases h
        rw [List.length_drop]
        exact Nat.sub_le _ _
    · cases h
      exact le_rfl

/-- A header takes a byte at least. -/
theorem length_readHeader (hread : readHeader checks pos bs = .ok (h, rest)) :
    rest.length < bs.length := by
  cases bs with
  | nil => cases hread
  | cons b0 tail =>
    rw [readHeader] at hread
    obtain ⟨r, hsize, hread⟩ := Except.bind_eq_ok.1 hread
    have hle := length_readBase hread
    rw [readSize_rest hsize, List.length_drop] at hle
    rw [List.length_cons]
    exact Nat.lt_succ_of_le (hle.trans (Nat.sub_le _ _))

end Headers

/-! ## Entries -/

/-- The header fits the word, and ends in front of the checksum. -/
def EntryFits (lib : GitLibs) (pack : Bytes) (pos : ℕ) : Prop :=
  HeaderFits lib.checks (pack.drop pos) ∧
    ∀ h rest, readHeader lib.checks pos (pack.drop pos) = .ok (h, rest) → 20 ≤ rest.length

/-- Where the entries begin, as far as they can be read. -/
inductive EntryStart (lib : GitLibs) (pack : Bytes) (first : ℕ) : ℕ → ℕ → Prop
  | first : EntryStart lib pack first 0 first
  | next {k pos next : ℕ} {e : RawEntry} (h : EntryStart lib pack first k pos)
      (hread : readEntry lib pack pos = .ok (e, next)) : EntryStart lib pack first (k + 1) next

section Entries

variable {lib : GitLibs} {pack : Bytes} {n k pos first next : ℕ} {e : RawEntry}

theorem readEntry_panics_iff : Panics (readEntry lib pack pos) ↔ ¬EntryFits lib pack pos := by
  rw [readEntry, panics_bind_iff, readHeader_panics_iff, EntryFits, not_and_or]
  refine or_congr_right ?_
  have hcut : ∀ {h : Header} {rest : Bytes},
      readHeader lib.checks pos (pack.drop pos) = .ok (h, rest) →
      (Panics (panics (cutBytes (pack.length - rest.length) (pack.length - 20) pack)) ↔
        ¬20 ≤ rest.length) := by
    intro h rest hread
    have hlt := length_readHeader hread
    rw [List.length_drop] at hlt
    simp only [panics_panics_iff, cutBytes_ok_iff]
    constructor
    · intro hnone hlong
      exact hnone ⟨_, by omega, Nat.sub_le _ _, rfl⟩
    · rintro hshort ⟨out, hle, -⟩
      omega
  constructor
  · rintro ⟨⟨h, rest⟩, hread, hpanics⟩ hlong
    rcases panics_bind_iff.1 hpanics with hslice | ⟨input, -, hrest⟩
    · exact (hcut hread).1 hslice (hlong h rest hread)
    · rcases panics_bind_iff.1 hrest with ⟨msg, hinflate⟩ | ⟨r, -, hreturn⟩
      · cases hdata : lib.inflate input with
        | error e =>
          rw [hdata] at hinflate
          cases hinflate
        | ok r =>
          rw [hdata] at hinflate
          cases hinflate
      · exact not_panics_ok hreturn
  · intro hnot
    obtain ⟨h, hnot⟩ := not_forall.1 hnot
    obtain ⟨rest, hnot⟩ := not_forall.1 hnot
    obtain ⟨hread, hshort⟩ := Classical.not_imp.1 hnot
    exact ⟨(h, rest), hread, panics_bind_iff.2 (.inl ((hcut hread).2 hshort))⟩

theorem EntryStart.cons (hread : readEntry lib pack first = .ok (e, next))
    (h : EntryStart lib pack next k pos) : EntryStart lib pack first (k + 1) pos := by
  induction h with
  | first => exact .next .first hread
  | next _ hread' ih => exact .next ih hread'

theorem EntryStart.uncons (h : EntryStart lib pack first (k + 1) pos) :
    ∃ e next, readEntry lib pack first = .ok (e, next) ∧ EntryStart lib pack next k pos := by
  generalize hm : k + 1 = m at h
  induction h generalizing k with
  | first => exact absurd hm (Nat.succ_ne_zero k)
  | @next k' pos next e hbefore hread ih =>
    have hk : k = k' := Nat.succ_inj.1 hm
    cases k with
    | zero =>
      rw [← hk] at hbefore
      cases hbefore
      exact ⟨e, next, hread, .first⟩
    | succ k =>
      obtain ⟨e', next', hfirst, hstart⟩ := ih hk
      exact ⟨e', next', hfirst, .next hstart hread⟩

theorem readEntries_panics_iff : Panics (readEntries lib pack n first) ↔
    ∃ k < n, ∃ pos, EntryStart lib pack first k pos ∧ ¬EntryFits lib pack pos := by
  induction n generalizing first with
  | zero => exact iff_of_false not_panics_ok fun ⟨k, hk, _⟩ => absurd hk (Nat.not_lt_zero k)
  | succ n ih =>
    rw [readEntries, panics_bind_iff, readEntry_panics_iff]
    constructor
    · rintro (hbad | ⟨⟨e, next⟩, hread, hrest⟩)
      · exact ⟨0, Nat.succ_pos n, first, .first, hbad⟩
      · rcases panics_bind_iff.1 hrest with hpanics | ⟨entries, -, hreturn⟩
        · obtain ⟨k, hk, pos, hstart, hbad⟩ := ih.1 hpanics
          exact ⟨k + 1, Nat.succ_lt_succ hk, pos, hstart.cons hread, hbad⟩
        · exact absurd hreturn not_panics_ok
    · rintro ⟨k, hk, pos, hstart, hbad⟩
      cases k with
      | zero =>
        cases hstart
        exact .inl hbad
      | succ k =>
        obtain ⟨e, next, hread, hstart⟩ := hstart.uncons
        refine .inr ⟨(e, next), hread, panics_bind_iff.2 (.inl ?_)⟩
        exact ih.2 ⟨k, Nat.lt_of_succ_lt_succ hk, pos, hstart, hbad⟩

end Entries

/-! ## Packs -/

/-- Every entry that is reached fits, and every delta can be applied to its base. -/
def PackFits (lib : GitLibs) (objects : GitObjects) (repoId : String) (pack : Bytes) : Prop :=
  12 ≤ pack.length → pack.take 4 = packMagic →
    (∀ k < packCount pack, ∀ pos, EntryStart lib pack 12 k pos → EntryFits lib pack pos) ∧
    ∀ entries, readEntries lib pack (packCount pack) 12 = .ok entries →
      ∀ (i : ℕ) (e : RawEntry) (base : UInt8 × Bytes), entries[i]? = some e →
        ¬IsObjType e.header.objType →
        BasedOn lib objects repoId entries (Derives lib objects repoId entries) e.header base →
        Applies lib.checks base.2 e.data

section Packs

variable {lib : GitLibs} {objects : GitObjects} {repoId : String} {entries : List RawEntry}
  {pack : Bytes}

/-- A pack whose entries and deltas fit does not make the node panic, whatever its names. -/
theorem parsePack_safe (haddr : Addressed lib objects repoId)
    (hfits : PackFits lib objects repoId pack) : ¬Panics (parsePack lib pack objects repoId) := by
  unfold parsePack
  split
  · exact not_panics_err
  · next hshort =>
    split
    · exact not_panics_err
    · next hmagic =>
      obtain ⟨hentries, happlies⟩ := hfits (Nat.le_of_not_lt hshort) (not_not.1 hmagic)
      rw [panics_bind_iff, readEntries_panics_iff]
      rintro (⟨k, hk, pos, hstart, hbad⟩ | ⟨entries, hread, hrest⟩)
      · exact hbad (hentries k hk pos hstart)
      · obtain ⟨resolved, hfill⟩ := fill_ok_of_applies haddr (happlies entries hread)
        rw [hfill] at hrest
        exact not_panics_ok hrest

/-- Where names tell objects apart, a pack that does not fit makes the node panic. -/
theorem packFits_of_safe (haddr : Addressed lib objects repoId)
    (hcoll : ∀ entries, readEntries lib pack (packCount pack) 12 = .ok entries →
      NoCollision lib (KnownObject lib objects repoId entries))
    (hsafe : ¬Panics (parsePack lib pack objects repoId)) :
    PackFits lib objects repoId pack := by
  intro hlong hmagic
  rw [parsePack, if_neg (Nat.not_lt.2 hlong), if_neg (not_not.2 hmagic), panics_bind_iff,
    readEntries_panics_iff] at hsafe
  obtain ⟨hentries, hrest⟩ := not_or.1 hsafe
  refine ⟨fun k hk pos hstart => ?_, fun entries hread i e base hentry hdelta hbase => ?_⟩
  · by_contra hbad
    exact hentries ⟨k, hk, pos, hstart, hbad⟩
  · cases hfill : Saturate.fill (resolveAt lib objects repoId entries)
        (entries.map (plainObject lib)) with
    | ok resolved => exact applies_of_fill haddr (hcoll entries hread) hfill hentry hdelta hbase
    | error f =>
      obtain ⟨ρ, j, hsteps, -, hrule⟩ := Saturate.fill_error hfill
      obtain ⟨-, -, msg, -, -, -, rfl⟩ := resolveAt_error haddr (sound_of_steps hsteps) hrule
      exact absurd ⟨entries, hread, msg, by rw [hfill]; rfl⟩ hrest

end Packs

/-! ## Pushes -/

/-- The request is read and its pack parsed. -/
def receivePack (lib : GitLibs) (objects : GitObjects) (repoId : String) (request : Bytes) :
    Except Fault (List PackObject) := do
  let req ← panics (parseReceivePack request)
  parsePack lib req.pack objects repoId

section Pushes

variable {lib : GitLibs} {objects : GitObjects} {repoId : String} {request : Bytes}

theorem receivePack_eq : receivePack lib objects repoId request =
    parsePack lib (packOf request) objects repoId := by
  obtain ⟨updates, hparse⟩ := parseReceivePack_ok request
  rw [receivePack, hparse]
  rfl

/-- A push does not panic if its pack fits, and only then where names tell objects apart; a delta
does what it says if it fits its base; and each pass that is followed by another one resolves an
entry. -/
theorem push_safe_iff (lib : GitLibs) :
    (∀ (request : Bytes) (objects : GitObjects) (repoId : String),
      Addressed lib objects repoId →
      (PackFits lib objects repoId (packOf request) →
        ¬Panics (receivePack lib objects repoId request)) ∧
      ((∀ entries,
          readEntries lib (packOf request) (packCount (packOf request)) 12 = .ok entries →
          NoCollision lib (KnownObject lib objects repoId entries)) →
        (¬Panics (receivePack lib objects repoId request) ↔
          PackFits lib objects repoId (packOf request)))) ∧
    (∀ (checks : Bool) (base delta : Bytes), Exact checks base delta ↔ Fits checks base delta) ∧
    ∀ (objects : GitObjects) (repoId : String) (entries : List RawEntry)
      (resolved resolved' : List (Option PackObject)),
      Saturate.pass (resolveAt lib objects repoId entries) (List.range resolved.length) resolved =
        .ok (resolved', true) → Saturate.missing resolved' < Saturate.missing resolved := by
  refine ⟨fun request objects repoId haddr => ?_, fun _ _ _ => exact_iff,
    fun _ _ _ _ _ h => Saturate.missing_lt_of_pass h⟩
  rw [receivePack_eq]
  exact ⟨parsePack_safe haddr, fun hcoll => ⟨packFits_of_safe haddr hcoll, parsePack_safe haddr⟩⟩

end Pushes

/-! ### A sample -/

section Sample

/-- A flush, and the pack of a blob and of a delta against it. -/
def samplePush : Bytes := pktFlush ++ (samplePack ++ sampleLib.sha1 samplePack)

/-- A flush, and a pack that ends with the first byte of an entry. -/
def hostilePush : Bytes :=
  pktFlush ++ [80, 65, 67, 75, 0, 0, 0, 2, 0, 0, 0, 1, 0x30]

theorem packOf_flush (pack : Bytes) : packOf (pktFlush ++ pack) = pack := by
  obtain ⟨r', hnext, hpos⟩ :=
    @next_pktFlush (PktReader.new (pktFlush ++ pack)) pack rfl
  have hdata := data_next (r := PktReader.new (pktFlush ++ pack))
  rw [hnext] at hdata
  have hdata : r'.data = pktFlush ++ pack := hdata
  rw [packOf, PktReader.lines_of_stop hnext, PktReader.rest, hdata, hpos]
  exact List.drop_left' rfl

/-- The sample push fits, and its delta says what it does. -/
theorem push_safe_sample : PackFits sampleLib ∅ "repo" (packOf samplePush) ∧
    (Exact true [0, 0] sampleDelta ↔ Fits true [0, 0] sampleDelta) := by
  obtain ⟨hpush, hdelta, -⟩ := push_safe_iff sampleLib
  have hpack : packOf samplePush = samplePack ++ sampleLib.sha1 samplePack := packOf_flush _
  refine ⟨((hpush samplePush ∅ "repo" (addressed_empty _ _)).2 ?_).1 ?_,
    hdelta true [0, 0] sampleDelta⟩
  · intro entries hread
    rw [hpack, readEntries_sample] at hread
    cases hread
    exact noCollision_sample
  · rw [receivePack_eq, hpack, parsePack_sample]
    exact not_panics_ok

/-- A push that stops behind the first byte of its entry makes the node panic, and a delta can
come out shorter than it says. -/
theorem hostile_push :
    receivePack sampleLib ∅ "repo" hostilePush =
      .error (.panic "slice index starts after its end") ∧
    applyDelta true [] [0, 1] = .ok [] ∧ ¬Exact true [] [0, 1] := by
  have hpack : parsePack sampleLib [80, 65, 67, 75, 0, 0, 0, 2, 0, 0, 0, 1, 0x30] ∅ "repo" =
      .error (.panic "slice index starts after its end") := by rfl
  have hparse : Parses true [0, 1] ⟨1, []⟩ := ⟨0, [1], [], rfl, rfl, .nil⟩
  have happly : applyDelta true [] [0, 1] = .ok [] :=
    applyDelta_ok_iff.2 ⟨⟨1, []⟩, hparse, by decide, nofun, rfl⟩
  refine ⟨?_, happly, ?_⟩
  · rw [receivePack_eq, hostilePush, packOf_flush]
    exact hpack
  · rintro ⟨result, d, happly', hparse', -, -, hlength⟩
    rw [happly] at happly'
    cases happly'
    rw [← hparse.unique hparse'] at hlength
    cases hlength

end Sample

end HoneNode.LinkGit
