import HoneNode.Env
import HoneNode.Lib.FixedWidth
import HoneNode.Lib.Word

/-!
# LinkGit.PktLine — lines of the git transport

A line is its length, in four hex digits, and its bytes; the length `0000` is a flush.
The length is printed with four digits at least and read with four exactly, and what
does not read as a number ends the stream as a flush does.
-/

namespace HoneNode.LinkGit

/-! ## Writing and reading -/

/-- `format!("{:04x}", len)`. -/
def hexLength (len : ℕ) : Bytes :=
  (FixedWidth.padZeros 16 4 len).map fun c => UInt8.ofNat c.toNat

def pktLine (data : Bytes) : Bytes := hexLength (data.length + 4) ++ data

def pktFlush : Bytes := [48, 48, 48, 48]

/-- Hex digits of either case, behind a number. -/
def hexDigitsVal : ℕ → Bytes → Option ℕ
  | acc, [] => some acc
  | acc, b :: rest =>
    (Text.hexVal (Char.ofNat b.toNat)).bind fun d => hexDigitsVal (16 * acc + d) rest

/-- `usize::from_str_radix(_, 16)`; bytes that are no UTF-8 are no digits either. -/
def fromStrRadix16 : Bytes → Option ℕ
  | [] => none
  | 43 :: [] => none
  | 43 :: rest => hexDigitsVal 0 rest
  | field => hexDigitsVal 0 field

/-- A reader that has not run past its data. -/
structure PktReader where
  data : Bytes
  pos : ℕ
  pos_le : pos ≤ data.length

namespace PktReader

def new (data : Bytes) : PktReader := ⟨data, 0, Nat.zero_le _⟩

/-- `None` on a flush and at the end, and where no length can be read. -/
def next (r : PktReader) : Option (Except String Bytes) × PktReader :=
  if hlen : r.data.length < r.pos + 4 then (none, r)
  else
    match fromStrRadix16 (Text.slice r.pos (r.pos + 4) r.data) with
    | none => (none, r)
    | some len =>
      let start := r.pos + 4
      let behind : PktReader := ⟨r.data, start, Nat.le_of_not_lt hlen⟩
      if len = 0 then (none, behind)
      else if len < 4 then (some (.error s!"pkt-line len {len} < 4"), behind)
      else
        let dataLen := len - 4
        if hdata : r.data.length < start + dataLen then
          (some (.error "pkt-line truncated"), behind)
        else
          (some (.ok (Text.slice start (start + dataLen) r.data)),
            ⟨r.data, start + dataLen, Nat.le_of_not_lt hdata⟩)

/-- What is still to be read. -/
def rest (r : PktReader) : Bytes := r.data.drop r.pos

/-- The reader behind so many bytes. -/
def skip (r : PktReader) (n : ℕ) (h : n ≤ r.rest.length) : PktReader :=
  ⟨r.data, r.pos + n, by
    have hpos := r.pos_le
    rw [rest, List.length_drop] at h
    omega⟩

section Next

variable {r : PktReader} {n : ℕ}

theorem length_rest : r.rest.length = r.data.length - r.pos := List.length_drop

theorem slice_eq (a b : ℕ) :
    Text.slice (r.pos + a) (r.pos + b) r.data = Text.slice a b r.rest := by
  rw [Text.slice, Text.slice, rest, List.drop_drop, Nat.add_sub_add_left]

/-- What reading does, by what is still to be read. -/
theorem next_short (h : r.rest.length < 4) : r.next = (none, r) := by
  have hpos := r.pos_le
  rw [length_rest] at h
  rw [next, dif_pos (by omega)]

theorem next_garbage (h : 4 ≤ r.rest.length) (hparse : fromStrRadix16 (r.rest.take 4) = none) :
    r.next = (none, r) := by
  have hlen := h
  rw [length_rest] at hlen
  have hslice : Text.slice r.pos (r.pos + 4) r.data = r.rest.take 4 := slice_eq 0 4
  rw [next, dif_neg (by omega), hslice, hparse]

theorem next_flush (h : 4 ≤ r.rest.length) (hparse : fromStrRadix16 (r.rest.take 4) = some 0) :
    r.next = (none, r.skip 4 h) := by
  have hlen := h
  rw [length_rest] at hlen
  have hslice : Text.slice r.pos (r.pos + 4) r.data = r.rest.take 4 := slice_eq 0 4
  rw [next, dif_neg (by omega), hslice, hparse]
  rfl

theorem next_error (h : 4 ≤ r.rest.length) (hparse : fromStrRadix16 (r.rest.take 4) = some n)
    (hpos : n ≠ 0) (hbad : n < 4 ∨ r.rest.length < n) :
    ∃ e, r.next = (some (.error e), r.skip 4 h) := by
  have hlen := h
  rw [length_rest] at hlen hbad
  have hslice : Text.slice r.pos (r.pos + 4) r.data = r.rest.take 4 := slice_eq 0 4
  rw [next, dif_neg (by omega), hslice, hparse]
  dsimp only
  rw [if_neg hpos]
  by_cases hsmall : n < 4
  · rw [if_pos hsmall]
    exact ⟨_, rfl⟩
  · rw [if_neg hsmall, dif_pos (by omega)]
    exact ⟨_, rfl⟩

theorem next_line (h : n ≤ r.rest.length) (hfour : 4 ≤ n)
    (hparse : fromStrRadix16 (r.rest.take 4) = some n) :
    r.next = (some (.ok (Text.slice 4 n r.rest)), r.skip n h) := by
  have hlen := h
  rw [length_rest] at hlen
  have hslice : Text.slice r.pos (r.pos + 4) r.data = r.rest.take 4 := slice_eq 0 4
  have hdata : Text.slice (r.pos + 4) (r.pos + 4 + (n - 4)) r.data = Text.slice 4 n r.rest := by
    rw [Nat.add_assoc, Nat.add_sub_cancel' hfour]
    exact slice_eq 4 n
  have hend : r.pos + 4 + (n - 4) = r.pos + n := by omega
  rw [next, dif_neg (by omega), hslice, hparse]
  dsimp only
  rw [if_neg (by omega), if_neg (by omega), dif_neg (by omega), hdata]
  simp only [hend, skip]

end Next

theorem rest_skip {r : PktReader} {n : ℕ} (h : n ≤ r.rest.length) :
    (r.skip n h).rest = r.rest.drop n := by
  rw [rest, rest, List.drop_drop]
  rfl

variable {r r' : PktReader}

/-- Where a line comes from. -/
theorem next_eq_line {line : Bytes} (hnext : r.next = (some (.ok line), r')) :
    ∃ (n : ℕ) (h : n ≤ r.rest.length), 4 ≤ n ∧ 4 ≤ r.rest.length ∧
      fromStrRadix16 (r.rest.take 4) = some n ∧ line = Text.slice 4 n r.rest ∧ r' = r.skip n h := by
  rcases Nat.lt_or_ge r.rest.length 4 with hshort | hlong
  · rw [next_short hshort] at hnext
    cases hnext
  · cases hparse : fromStrRadix16 (r.rest.take 4) with
    | none =>
      rw [next_garbage hlong hparse] at hnext
      cases hnext
    | some n =>
      by_cases hzero : n = 0
      · rw [next_flush hlong (hzero ▸ hparse)] at hnext
        cases hnext
      · by_cases hbad : n < 4 ∨ r.rest.length < n
        · obtain ⟨e, he⟩ := next_error hlong hparse hzero hbad
          rw [he] at hnext
          cases hnext
        · obtain ⟨hfour, hfit⟩ := not_or.1 hbad
          have hfour : 4 ≤ n := Nat.le_of_not_lt hfour
          have hfit : n ≤ r.rest.length := Nat.le_of_not_lt hfit
          rw [next_line hfit hfour hparse] at hnext
          cases hnext
          exact ⟨n, hfit, hfour, hlong, rfl, rfl, rfl⟩

theorem pos_lt_of_line {line : Bytes} (h : r.next = (some (.ok line), r')) :
    r'.data = r.data ∧ r.pos < r'.pos := by
  obtain ⟨n, hfit, hfour, -, -, -, rfl⟩ := next_eq_line h
  exact ⟨rfl, Nat.lt_add_of_pos_right (by omega)⟩

/-- `while let Some(Ok(line)) = reader.next()`: the lines, and where it stops. -/
def lines (r : PktReader) : List Bytes × PktReader :=
  match h : r.next with
  | (some (.ok line), r') =>
    have _hpos := pos_lt_of_line h
    (line :: (lines r').1, (lines r').2)
  | (some (.error _), r') => ([], r')
  | (none, r') => ([], r')
termination_by r.data.length - r.pos
decreasing_by
  all_goals
    obtain ⟨hdata, hlt⟩ := _hpos
    have hle := r'.pos_le
    rw [hdata] at hle ⊢
    omega

theorem lines_of_line {line : Bytes} (h : r.next = (some (.ok line), r')) :
    r.lines = (line :: r'.lines.1, r'.lines.2) := by
  rw [lines]
  split
  · next line' r'' h' =>
    rw [h] at h'
    cases h'
    rfl
  · next h' =>
    rw [h] at h'
    cases h'
  · next h' =>
    rw [h] at h'
    cases h'

theorem lines_of_error {e : String} (h : r.next = (some (.error e), r')) :
    r.lines = ([], r') := by
  rw [lines]
  split
  · next h' =>
    rw [h] at h'
    cases h'
  · next h' =>
    rw [h] at h'
    cases h'
    rfl
  · next h' =>
    rw [h] at h'
    cases h'

theorem lines_of_stop (h : r.next = (none, r')) : r.lines = ([], r') := by
  rw [lines]
  split
  · next h' =>
    rw [h] at h'
    cases h'
  · next h' =>
    rw [h] at h'
    cases h'
  · next h' =>
    rw [h] at h'
    cases h'
    rfl

end PktReader

/-! ## Lengths -/

section Lengths

variable {n w : ℕ}

theorem hexDigitsVal_append (acc : ℕ) (x y : Bytes) :
    hexDigitsVal acc (x ++ y) = (hexDigitsVal acc x).bind fun n => hexDigitsVal n y := by
  induction x generalizing acc with
  | nil => rfl
  | cons b x ih =>
    rw [List.cons_append, hexDigitsVal, hexDigitsVal, Option.bind_assoc]
    exact Option.bind_congr fun d _ => ih _

theorem hexVal_digitChar {d : ℕ} (h : d < 16) :
    Text.hexVal (Char.ofNat (UInt8.ofNat (Nat.digitChar d).toNat).toNat) = some d := by
  have hall : ∀ i : Fin 16,
      Text.hexVal (Char.ofNat (UInt8.ofNat (Nat.digitChar i).toNat).toNat) = some i.val := by decide
  exact hall ⟨d, h⟩

theorem hexDigitsVal_digits (h : n < 16 ^ w) :
    hexDigitsVal 0 ((FixedWidth.digits 16 w n).map fun c => UInt8.ofNat c.toNat) = some n := by
  induction w generalizing n with
  | zero =>
    rw [Nat.lt_one_iff.1 h]
    rfl
  | succ w ih =>
    have hdiv : n / 16 < 16 ^ w := Nat.div_lt_of_lt_mul (by rwa [← Nat.pow_succ'])
    have hdigit : n % 16 < 16 := Nat.mod_lt n (by decide)
    rw [FixedWidth.digits, List.map_append, hexDigitsVal_append, ih hdiv, Option.bind_some,
      List.map_singleton, hexDigitsVal, hexVal_digitChar hdigit, Option.bind_some, hexDigitsVal,
      Nat.div_add_mod]

theorem hexVal_lt {c : Char} {d : ℕ} (h : Text.hexVal c = some d) : d < 16 := by
  unfold Text.hexVal at h
  split_ifs at h with hdigit hlower hupper
  · have hle : c.toNat ≤ '9'.toNat := hdigit.2
    cases h
    exact lt_of_le_of_lt (Nat.sub_le_sub_right hle _) (by decide)
  · have hle : c.toNat ≤ 'f'.toNat := hlower.2
    cases h
    exact lt_of_le_of_lt (Nat.add_le_add_right (Nat.sub_le_sub_right hle _) _) (by decide)
  · have hle : c.toNat ≤ 'F'.toNat := hupper.2
    cases h
    exact lt_of_le_of_lt (Nat.add_le_add_right (Nat.sub_le_sub_right hle _) _) (by decide)

/-- Four digits hold less than a fifth. -/
theorem hexDigitsVal_lt : ∀ {field : Bytes} {acc n : ℕ}, hexDigitsVal acc field = some n →
    n < (acc + 1) * 16 ^ field.length
  | [], acc, n, h => by
    cases h
    rw [List.length_nil, Nat.pow_zero, Nat.mul_one]
    exact Nat.lt_succ_self _
  | b :: rest, acc, n, h => by
    rw [hexDigitsVal] at h
    obtain ⟨d, hd, hrest⟩ := Option.bind_eq_some_iff.1 h
    have hdigit : d < 16 := hexVal_lt hd
    have hlt := hexDigitsVal_lt hrest
    rw [List.length_cons, Nat.pow_succ', ← Nat.mul_assoc]
    exact hlt.trans_le (Nat.mul_le_mul_right _ (by omega))

theorem fromStrRadix16_of_digits {field : Bytes} (h : hexDigitsVal 0 field = some n)
    (hne : field ≠ []) : fromStrRadix16 field = some n := by
  unfold fromStrRadix16
  split
  · exact absurd rfl hne
  · cases h
  · cases h
  · exact h

theorem fromStrRadix16_lt {field : Bytes} (h : fromStrRadix16 field = some n) :
    n < 16 ^ field.length := by
  have hzero : ∀ {f : Bytes}, hexDigitsVal 0 f = some n → n < 16 ^ f.length := by
    intro f hf
    have hlt := hexDigitsVal_lt hf
    rwa [Nat.zero_add, Nat.one_mul] at hlt
  unfold fromStrRadix16 at h
  split at h
  · cases h
  · cases h
  · refine (hzero h).trans ?_
    rw [List.length_cons]
    exact Nat.pow_lt_pow_right (by decide) (Nat.lt_succ_self _)
  · exact hzero h

theorem length_hexLength (h : n < 16 ^ 4) : (hexLength n).length = 4 := by
  rw [hexLength, FixedWidth.padZeros_eq (by decide) (by decide) h, List.length_map,
    FixedWidth.length_digits]

theorem fromStrRadix16_hexLength (h : n < 16 ^ 4) : fromStrRadix16 (hexLength n) = some n := by
  refine fromStrRadix16_of_digits ?_ ?_
  · rw [hexLength, FixedWidth.padZeros_eq (by decide) (by decide) h]
    exact hexDigitsVal_digits h
  · intro hnil
    have hlength := length_hexLength h
    rw [hnil] at hlength
    cases hlength

end Lengths

/-! ## Reading what was written -/

section Reading

open PktReader

variable {r r' : PktReader} {d line tail : Bytes} {ds : List Bytes}

/-- No line that is read is longer than the length field can say. -/
theorem length_le_of_line (h : r.next = (some (.ok line), r')) : line.length ≤ 65531 := by
  obtain ⟨n, hfit, hfour, hlong, hparse, rfl, -⟩ := next_eq_line h
  have hlt := fromStrRadix16_lt hparse
  rw [List.length_take, Nat.min_eq_left hlong] at hlt
  rw [Text.slice, List.length_take]
  omega

theorem length_le_of_mem_lines (h : line ∈ r.lines.1) : line.length ≤ 65531 := by
  induction r using PktReader.lines.induct with
  | case1 r first r' hnext hpos ih =>
    rw [lines_of_line hnext] at h
    rcases List.mem_cons.1 h with rfl | hmem
    · exact length_le_of_line hnext
    · exact ih hmem
  | case2 r e r' hnext =>
    rw [lines_of_error hnext] at h
    cases h
  | case3 r r' hnext =>
    rw [lines_of_stop hnext] at h
    cases h

theorem next_pktLine (hd : d.length ≤ 65531) (hrest : r.rest = pktLine d ++ tail) :
    ∃ r', r.next = (some (.ok d), r') ∧ r'.rest = tail ∧
      r'.pos = r.pos + (pktLine d).length := by
  have hsmall : d.length + 4 < 16 ^ 4 := by omega
  have hlength := length_hexLength hsmall
  have hparse : fromStrRadix16 (r.rest.take 4) = some (d.length + 4) := by
    rw [hrest, pktLine, List.append_assoc, List.take_left' hlength]
    exact fromStrRadix16_hexLength hsmall
  have hpkt : (pktLine d).length = d.length + 4 := by
    rw [pktLine, List.length_append, hlength, Nat.add_comm]
  have hfit : d.length + 4 ≤ r.rest.length := by
    rw [hrest, List.length_append, hpkt]
    exact Nat.le_add_right _ _
  refine ⟨r.skip (d.length + 4) hfit, ?_, ?_, ?_⟩
  · have hline : Text.slice 4 (d.length + 4) r.rest = d := by
      rw [Text.slice, hrest, pktLine, List.append_assoc, List.drop_left' hlength,
        Nat.add_sub_cancel, List.take_left' rfl]
    rw [next_line hfit (Nat.le_add_left 4 _) hparse, hline]
  · rw [rest_skip, hrest, List.drop_left' hpkt]
  · rw [hpkt]
    rfl

theorem next_pktFlush (hrest : r.rest = pktFlush ++ tail) :
    ∃ r', r.next = (none, r') ∧ r'.pos = r.pos + pktFlush.length := by
  have hlong : 4 ≤ r.rest.length := by
    rw [hrest, List.length_append]
    exact Nat.le_add_right _ _
  have hparse : fromStrRadix16 (r.rest.take 4) = some 0 := by
    rw [hrest, List.take_left' (show pktFlush.length = 4 from rfl)]
    decide
  exact ⟨_, next_flush hlong hparse, rfl⟩

/-- Short lines are read back, up to the flush. -/
theorem lines_sent (hds : ∀ d ∈ ds, d.length ≤ 65531)
    (hrest : r.rest = ds.flatMap pktLine ++ pktFlush ++ tail) :
    r.lines.1 = ds ∧ r.lines.2.pos = r.pos + (ds.flatMap pktLine ++ pktFlush).length := by
  induction ds generalizing r with
  | nil =>
    obtain ⟨r', hnext, hpos⟩ := @next_pktFlush r tail hrest
    rw [lines_of_stop hnext]
    exact ⟨rfl, hpos⟩
  | cons d ds ih =>
    obtain ⟨hd, hshort⟩ := List.forall_mem_cons.1 hds
    rw [List.flatMap_cons, List.append_assoc, List.append_assoc] at hrest
    obtain ⟨r', hnext, hrest', hpos⟩ := next_pktLine hd hrest
    rw [← List.append_assoc] at hrest'
    obtain ⟨hlines, hend⟩ := ih hshort hrest'
    rw [lines_of_line hnext, hlines, hend, hpos, List.flatMap_cons, List.append_assoc,
      @List.length_append _ (pktLine d), Nat.add_assoc]
    exact ⟨rfl, rfl⟩

/-- What is sent is read: the same lines, and the reader stands behind the flush. -/
def ReadsBack (ds : List Bytes) (tail : Bytes) : Prop :=
  (PktReader.new (ds.flatMap pktLine ++ pktFlush ++ tail)).lines.1 = ds ∧
    (PktReader.new (ds.flatMap pktLine ++ pktFlush ++ tail)).lines.2.pos =
      (ds.flatMap pktLine ++ pktFlush).length

theorem readsBack_iff (ds : List Bytes) (tail : Bytes) :
    ReadsBack ds tail ↔ ∀ d ∈ ds, d.length ≤ 65531 := by
  constructor
  · intro h d hd
    exact length_le_of_mem_lines (h.1.symm ▸ hd)
  · intro h
    obtain ⟨hlines, hpos⟩ :=
      @lines_sent (PktReader.new (ds.flatMap pktLine ++ pktFlush ++ tail)) tail ds h rfl
    exact ⟨hlines, hpos.trans (Nat.zero_add _)⟩

/-- A length that the format has: four hex digits, zero or four and more. -/
def LengthField (field : Bytes) : Prop :=
  field.length = 4 ∧ ∃ n, hexDigitsVal 0 field = some n ∧ (n = 0 ∨ 4 ≤ n)

/-- Something is left, and it does not begin with a length. -/
def Malformed (r : PktReader) : Prop := r.rest ≠ [] ∧ ¬ LengthField (r.rest.take 4)

def Reports (r : PktReader) : Prop := ∃ e r', r.next = (some (.error e), r')

theorem reports_iff : Reports r ↔ 4 ≤ r.rest.length ∧
    ∃ n, fromStrRadix16 (r.rest.take 4) = some n ∧ n ≠ 0 ∧ (n < 4 ∨ r.rest.length < n) := by
  constructor
  · rintro ⟨e, r', hnext⟩
    rcases Nat.lt_or_ge r.rest.length 4 with hshort | hlong
    · rw [next_short hshort] at hnext
      cases hnext
    · refine ⟨hlong, ?_⟩
      cases hparse : fromStrRadix16 (r.rest.take 4) with
      | none =>
        rw [next_garbage hlong hparse] at hnext
        cases hnext
      | some n =>
        refine ⟨n, rfl, ?_, ?_⟩
        · rintro rfl
          rw [next_flush hlong hparse] at hnext
          cases hnext
        · by_contra hbad
          obtain ⟨hfour, hfit⟩ := not_or.1 hbad
          rw [next_line (Nat.le_of_not_lt hfit) (Nat.le_of_not_lt hfour) hparse] at hnext
          cases hnext
  · rintro ⟨hlong, n, hparse, hzero, hbad⟩
    obtain ⟨e, he⟩ := next_error hlong hparse hzero hbad
    exact ⟨e, _, he⟩

/-- Lines are framed as long as their length has four digits; of what is no length, an
error is reported only if it still reads as a number. -/
theorem pktLine_framing (ds : List Bytes) (tail : Bytes) (r : PktReader) :
    (ReadsBack ds tail ↔ ∀ d ∈ ds, d.length ≤ 65531) ∧
    (Malformed r → (Reports r ↔ 4 ≤ r.rest.length ∧
      ∃ n, fromStrRadix16 (r.rest.take 4) = some n ∧ n ≠ 0 ∧ (n < 4 ∨ r.rest.length < n))) :=
  ⟨readsBack_iff ds tail, fun _ => reports_iff⟩

/-- Four letters end the stream as a flush does, and nothing is read over. -/
theorem garbage_ends_stream :
    Malformed (PktReader.new (Text.bytes "want")) ∧ ¬ Reports (PktReader.new (Text.bytes "want")) ∧
      (PktReader.new (Text.bytes "want")).next = (none, PktReader.new (Text.bytes "want")) := by
  have hrest : (PktReader.new (Text.bytes "want")).rest = Text.bytes "want" := rfl
  have hbytes : Text.bytes "want" = [119, 97, 110, 116] := by decide
  have hlong : 4 ≤ (PktReader.new (Text.bytes "want")).rest.length := by
    rw [hrest, hbytes]
    decide
  have hparse : fromStrRadix16 ((PktReader.new (Text.bytes "want")).rest.take 4) = none := by
    rw [hrest, hbytes]
    decide
  have hnext := next_garbage hlong hparse
  refine ⟨⟨?_, ?_⟩, ?_, hnext⟩
  · intro hnil
    rw [hnil] at hlong
    exact absurd hlong (by decide)
  · rintro ⟨-, n, hn, -⟩
    rw [hrest, hbytes] at hn
    cases hn
  · rintro ⟨e, r', h⟩
    rw [hnext] at h
    cases h

end Reading

end HoneNode.LinkGit
