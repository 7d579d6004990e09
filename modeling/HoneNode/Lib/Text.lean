import Mathlib.Data.List.Basic
import Mathlib.Data.Int.Basic
import Mathlib.Algebra.Ring.Nat

/-!
# Lib.Text — text the way a byte-oriented program reads it

Splitting, trimming, number and hex parsing over character lists, so that every
function here computes in the kernel. Lengths and slices count UTF-8 bytes.
-/

namespace Text

/-! ## Separators -/

section Separators

variable {α : Type*} {c : α} {x x' y y' : List α}

/-- A text cut at its first separator, and the same text cut at any of them. -/
theorem append_sep_first (hx : c ∉ x) (h : x ++ c :: y = x' ++ c :: y') :
    (x = x' ∧ y = y') ∨ ∃ z, x' = x ++ c :: z ∧ y = z ++ c :: y' := by
  rcases List.append_eq_append_iff.1 h with ⟨z, rfl, hz⟩ | ⟨z, rfl, hz⟩
  · cases z with
    | nil => exact .inl ⟨(List.append_nil x).symm, (List.cons.inj hz).2⟩
    | cons d z =>
      obtain ⟨rfl, hy⟩ := List.cons.inj hz
      exact .inr ⟨z, rfl, hy⟩
  · cases z with
    | nil => exact .inl ⟨List.append_nil x', (List.cons.inj hz).2.symm⟩
    | cons d z =>
      obtain ⟨rfl, -⟩ := List.cons.inj hz
      exact absurd (List.mem_append_right x' List.mem_cons_self) hx

/-- Two texts cut at their last separator. -/
theorem append_sep_last (hy : c ∉ y) (hy' : c ∉ y') (h : x ++ c :: y = x' ++ c :: y') :
    x = x' ∧ y = y' := by
  rcases List.append_eq_append_iff.1 h with ⟨z, rfl, hz⟩ | ⟨z, rfl, hz⟩
  · cases z with
    | nil => exact ⟨(List.append_nil x).symm, (List.cons.inj hz).2⟩
    | cons d z =>
      obtain ⟨rfl, htail⟩ := List.cons.inj hz
      exact absurd (htail ▸ List.mem_append_right z List.mem_cons_self) hy
  · cases z with
    | nil => exact ⟨List.append_nil x', (List.cons.inj hz).2.symm⟩
    | cons d z =>
      obtain ⟨rfl, htail⟩ := List.cons.inj hz
      exact absurd (htail ▸ List.mem_append_right z List.mem_cons_self) hy'

end Separators

/-! ## Splitting -/

/-- The pieces between occurrences of `c`; never empty. -/
def splitChars (c : Char) : List Char → List (List Char)
  | [] => [[]]
  | x :: xs =>
    if x = c then [] :: splitChars c xs
    else match splitChars c xs with
      | p :: ps => (x :: p) :: ps
      | [] => [[x]]

variable {c : Char}

theorem splitChars_of_notMem {x : List Char} (h : c ∉ x) : splitChars c x = [x] := by
  induction x with
  | nil => rfl
  | cons d x ih =>
    rw [List.mem_cons, not_or] at h
    rw [splitChars, if_neg (Ne.symm h.1), ih h.2]

/-- A piece in front of a separator. -/
theorem splitChars_append_sep {x : List Char} (h : c ∉ x) (y : List Char) :
    splitChars c (x ++ c :: y) = x :: splitChars c y := by
  induction x with
  | nil => rw [List.nil_append, splitChars, if_pos rfl]
  | cons d x ih =>
    rw [List.mem_cons, not_or] at h
    rw [List.cons_append, splitChars, if_neg (Ne.symm h.1), ih h.2]

def split (c : Char) (s : String) : List String := (splitChars c s.toList).map String.ofList

/-- The piece after the last `c`. -/
def lastPiece (c : Char) (s : String) : String :=
  String.ofList (s.toList.reverse.takeWhile (· ≠ c)).reverse

/-- What stands after the last `c` of a text that ends in `c` and a piece. -/
theorem lastPiece_of_toList {s y : String} {front : List Char}
    (hs : s.toList = front ++ c :: y.toList) (hy : c ∉ y.toList) : lastPiece c s = y := by
  have hall : ∀ d ∈ y.toList.reverse, decide (d ≠ c) = true := by
    intro d hd
    rw [decide_eq_true_iff]
    rintro rfl
    exact hy (List.mem_reverse.1 hd)
  unfold lastPiece
  rw [hs, List.reverse_append, List.reverse_cons, List.append_assoc,
    List.takeWhile_append_of_pos hall, List.singleton_append,
    List.takeWhile_cons_of_neg (by simp), List.append_nil, List.reverse_reverse,
    String.ofList_toList]

/-- The pieces before and after the first `c`. -/
def splitOnce (c : Char) (s : String) : Option (String × String) :=
  let head := s.toList.takeWhile (· ≠ c)
  match s.toList.drop head.length with
  | [] => none
  | _ :: rest => some (String.ofList head, String.ofList rest)

def hasPrefix (pfx s : String) : Bool := pfx.toList.isPrefixOf s.toList

def hasSuffix (sfx s : String) : Bool := sfx.toList.isSuffixOf s.toList

/-- What follows a prefix of the given text's length. -/
def dropPrefix (pfx s : String) : String := String.ofList (s.toList.drop pfx.toList.length)

theorem hasPrefix_append (pfx t : String) : hasPrefix pfx (pfx ++ t) = true := by
  unfold hasPrefix
  rw [List.isPrefixOf_iff_prefix, String.toList_append]
  exact List.prefix_append _ _

theorem dropPrefix_append (pfx t : String) : dropPrefix pfx (pfx ++ t) = t := by
  unfold dropPrefix
  rw [String.toList_append, List.drop_left, String.ofList_toList]

theorem eq_append_dropPrefix {pfx t : String} (h : hasPrefix pfx t = true) :
    t = pfx ++ dropPrefix pfx t := by
  unfold hasPrefix at h
  obtain ⟨rest, hrest⟩ := List.isPrefixOf_iff_prefix.1 h
  unfold dropPrefix
  rw [← String.toList_inj, String.toList_append, String.toList_ofList, ← hrest, List.drop_left]

/-! ## Trimming -/

/-- The Unicode `White_Space` characters. -/
def isSpace (c : Char) : Bool :=
  let n := c.toNat
  (9 ≤ n && n ≤ 13) || n == 32 || n == 0x85 || n == 0xA0 || n == 0x1680 ||
    (0x2000 ≤ n && n ≤ 0x200A) || n == 0x2028 || n == 0x2029 || n == 0x202F || n == 0x205F ||
    n == 0x3000

def trim (s : String) : String :=
  String.ofList (((s.toList.dropWhile isSpace).reverse.dropWhile isSpace).reverse)

/-! ## Numbers -/

def digitVal (c : Char) : Option ℕ :=
  if '0' ≤ c ∧ c ≤ '9' then some (c.toNat - '0'.toNat) else none

def digitsVal (acc : ℕ) : List Char → Option ℕ
  | [] => some acc
  | c :: cs => match digitVal c with
    | some d => digitsVal (10 * acc + d) cs
    | none => none

/-- An unsigned decimal below `bound`; one leading plus is accepted. -/
def parseNat (bound : ℕ) (s : String) : Option ℕ :=
  let digits := match s.toList with
    | '+' :: rest => rest
    | cs => cs
  match digits with
  | [] => none
  | _ => (digitsVal 0 digits).filter (· < bound)

def parseU64 (s : String) : Option ℕ := parseNat (2 ^ 64) s

/-- A signed byte. -/
def parseI8 (s : String) : Option ℤ :=
  match s.toList with
  | '-' :: rest =>
    match rest with
    | '+' :: _ => none
    | _ => (parseNat 129 (String.ofList rest)).map fun n => -(n : ℤ)
  | _ => (parseNat 128 s).map fun n => (n : ℤ)

/-! ## Bytes and hex -/

def bytes (s : String) : List UInt8 := s.toUTF8.data.toList

theorem bytes_injective : Function.Injective bytes := by
  intro a b h
  have hdata : a.toByteArray.data = b.toByteArray.data := Array.toList_inj.1 h
  exact String.toByteArray_inj.1 (ByteArray.ext hdata)

theorem bytes_append (x y : String) : bytes (x ++ y) = bytes x ++ bytes y := by
  unfold bytes
  rw [String.toUTF8_eq_toByteArray, String.toByteArray_append, ByteArray.toList_data_append]
  rfl

/-- Texts that begin differently are different, whatever comes after. -/
theorem ofList_append_ne {l r : List Char} {i : ℕ} (hl : i < l.length) (hr : i < r.length)
    (h : l[i] ≠ r[i]) (x y : String) : String.ofList l ++ x ≠ String.ofList r ++ y := by
  intro heq
  have hchars := congrArg String.toList heq
  rw [String.toList_append, String.toList_append, String.toList_ofList, String.toList_ofList]
    at hchars
  have hith : (l ++ x.toList)[i]? = (r ++ y.toList)[i]? := by rw [hchars]
  rw [List.getElem?_append_left hl, List.getElem?_append_left hr, List.getElem?_eq_getElem hl,
    List.getElem?_eq_getElem hr] at hith
  exact h (Option.some.inj hith)

def hexVal (c : Char) : Option ℕ :=
  if '0' ≤ c ∧ c ≤ '9' then some (c.toNat - '0'.toNat)
  else if 'a' ≤ c ∧ c ≤ 'f' then some (c.toNat - 'a'.toNat + 10)
  else if 'A' ≤ c ∧ c ≤ 'F' then some (c.toNat - 'A'.toNat + 10)
  else none

def hexPairs : List Char → Option (List UInt8)
  | [] => some []
  | [_] => none
  | a :: b :: rest =>
    match hexVal a, hexVal b, hexPairs rest with
    | some x, some y, some tail => some (UInt8.ofNat (16 * x + y) :: tail)
    | _, _, _ => none

/-- Hex of either case; `none` on an odd length or a foreign character. -/
def hexDecode (s : String) : Option (List UInt8) := hexPairs s.toList

theorem isSome_hexVal_of_mem : ∀ {cs : List Char} {bs : List UInt8}, hexPairs cs = some bs →
    ∀ c ∈ cs, (hexVal c).isSome = true
  | [], _, _, c, hc => by cases hc
  | [_], _, h, _, _ => by cases h
  | a :: b :: rest, bs, h, c, hc => by
    unfold hexPairs at h
    split at h
    · next x y tail ha hb hrest =>
      rcases List.mem_cons.1 hc with rfl | hc
      · rw [ha]; rfl
      rcases List.mem_cons.1 hc with rfl | hc
      · rw [hb]; rfl
      · exact isSome_hexVal_of_mem hrest c hc
    · cases h

/-- Hex has no other character. -/
theorem notMem_of_hexDecode (hc : hexVal c = none) {s : String} {bs : List UInt8}
    (h : hexDecode s = some bs) : c ∉ s.toList := by
  intro hmem
  have hsome := isSome_hexVal_of_mem h c hmem
  rw [hc] at hsome
  cases hsome

def hexDigit (n : ℕ) : Char := if n < 10 then Char.ofNat (n + 48) else Char.ofNat (n + 87)

def hexEncode (bs : List UInt8) : String :=
  String.ofList (bs.flatMap fun b => [hexDigit (b.toNat / 16), hexDigit (b.toNat % 16)])

theorem hexVal_hexDigit {n : ℕ} (h : n < 16) : hexVal (hexDigit n) = some n := by
  have hall : ∀ i : Fin 16, hexVal (hexDigit i) = some i.val := by decide
  exact hall ⟨n, h⟩

/-- What is encoded can be decoded. -/
theorem hexDecode_hexEncode (bs : List UInt8) : hexDecode (hexEncode bs) = some bs := by
  unfold hexDecode hexEncode
  rw [String.toList_ofList]
  induction bs with
  | nil => rfl
  | cons b rest ih =>
    have hb : b.toNat < 256 := b.toNat_lt
    have hdigits : UInt8.ofNat (16 * (b.toNat / 16) + b.toNat % 16) = b := by
      rw [Nat.div_add_mod, UInt8.ofNat_toNat]
    rw [List.flatMap_cons, List.cons_append, List.cons_append, List.nil_append, hexPairs,
      hexVal_hexDigit (by omega), hexVal_hexDigit (by omega), ih]
    simp [hdigits]

theorem notMem_hexEncode (hc : hexVal c = none) (bs : List UInt8) :
    c ∉ (hexEncode bs).toList := notMem_of_hexDecode hc (hexDecode_hexEncode bs)

theorem hexEncode_inj {a b : List UInt8} : hexEncode a = hexEncode b ↔ a = b := by
  constructor
  · intro h
    have hdecode := hexDecode_hexEncode a
    rw [h, hexDecode_hexEncode] at hdecode
    exact (Option.some.inj hdecode).symm
  · rintro rfl
    rfl

/-- Sixteen lower-case hex digits. -/
def hex16 (n : ℕ) : String :=
  String.ofList ((List.range 16).reverse.map fun i => hexDigit (n / 16 ^ i % 16))

def isHexDigit (c : Char) : Bool := (hexVal c).isSome

/-- Big-endian bytes of `n`, `width` of them. -/
def beBytes : ℕ → ℕ → List UInt8
  | 0, _ => []
  | width + 1, n => UInt8.ofNat (n / 256 ^ width % 256) :: beBytes width n

/-- Little-endian bytes of `n`, `width` of them. -/
def leBytes : ℕ → ℕ → List UInt8
  | 0, _ => []
  | width + 1, n => UInt8.ofNat (n % 256) :: leBytes width (n / 256)

/-- The unsigned number read from big-endian bytes. -/
def beNat (bs : List UInt8) : ℕ := bs.foldl (fun acc b => 256 * acc + b.toNat) 0

/-! ## Slices -/

/-- Slicing at byte `n` panics unless a character ends there. -/
def isBoundary (s : String) (n : ℕ) : Bool :=
  go s.toList n
where
  go : List Char → ℕ → Bool
    | _, 0 => true
    | [], _ + 1 => false
    | c :: cs, n + 1 => c.utf8Size ≤ n + 1 && go cs (n + 1 - c.utf8Size)

/-- The characters before byte `n`, where a character ends there. -/
def takeBytes (s : String) (n : ℕ) : String :=
  String.ofList (go s.toList n)
where
  go : List Char → ℕ → List Char
    | _, 0 => []
    | [], _ + 1 => []
    | c :: cs, n + 1 => c :: go cs (n + 1 - c.utf8Size)

end Text
