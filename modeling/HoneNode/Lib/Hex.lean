import HoneNode.Lib.Text

/-!
# Lib.Hex — numbers in sixteen hex digits

A 64-bit number is told by its sixteen hex digits, so a prefix made of one finds the
keys that start with it.
-/

namespace Text

theorem length_hexPairs : ∀ {cs : List Char} {bs : List UInt8}, hexPairs cs = some bs →
    cs.length = 2 * bs.length
  | [], _, h => by cases h; rfl
  | [_], _, h => by cases h
  | a :: b :: rest, _, h => by
    unfold hexPairs at h
    split at h
    · next hrest =>
      cases h
      rw [List.length_cons, List.length_cons, List.length_cons, length_hexPairs hrest]
      omega
    · cases h

theorem utf8Size_of_isSome_hexVal {c : Char} (h : (hexVal c).isSome) : c.utf8Size = 1 := by
  have hle : c.val ≤ 0x7f := by
    unfold hexVal at h
    split_ifs at h with hdigit hlower hupper
    · exact UInt32.le_trans hdigit.2 (by decide)
    · exact UInt32.le_trans hlower.2 (by decide)
    · exact UInt32.le_trans hupper.2 (by decide)
    · cases h
  exact Char.utf8Size_eq_one_iff.2 hle

theorem utf8ByteSize_of_ascii {cs : List Char} (h : ∀ c ∈ cs, c.utf8Size = 1) :
    (String.ofList cs).utf8ByteSize = cs.length := by
  induction cs with
  | nil => rfl
  | cons c cs ih =>
    rw [String.ofList_cons, String.utf8ByteSize_append, String.utf8ByteSize_singleton,
      h c List.mem_cons_self, ih fun d hd => h d (List.mem_cons_of_mem _ hd), List.length_cons,
      Nat.add_comm]

/-- Two digits for each byte. -/
theorem utf8ByteSize_of_hexDecode {s : String} {bs : List UInt8} (h : hexDecode s = some bs) :
    s.utf8ByteSize = 2 * bs.length := by
  have hascii := @utf8ByteSize_of_ascii s.toList fun c hc =>
    utf8Size_of_isSome_hexVal (isSome_hexVal_of_mem h c hc)
  rwa [String.ofList_toList, length_hexPairs h] at hascii

theorem utf8ByteSize_hexEncode (bs : List UInt8) : (hexEncode bs).utf8ByteSize = 2 * bs.length :=
  utf8ByteSize_of_hexDecode (hexDecode_hexEncode bs)

/-- Text of one-byte characters can be cut anywhere. -/
theorem isBoundary_go_of_ascii : ∀ {cs : List Char} {n : ℕ}, (∀ c ∈ cs, c.utf8Size = 1) →
    n ≤ cs.length → isBoundary.go cs n = true
  | _, 0, _, _ => by simp [isBoundary.go]
  | [], n + 1, _, h => by simp at h
  | c :: cs, n + 1, hall, h => by
    have hc := hall c List.mem_cons_self
    have hrest := isBoundary_go_of_ascii (n := n)
      (fun d hd => hall d (List.mem_cons_of_mem _ hd)) (Nat.le_of_succ_le_succ h)
    simp [isBoundary.go, hc, hrest]

theorem isBoundary_hexEncode {bs : List UInt8} {n : ℕ} (h : n ≤ 2 * bs.length) :
    isBoundary (hexEncode bs) n = true := by
  have hdecode := hexDecode_hexEncode bs
  refine isBoundary_go_of_ascii
    (fun c hc => utf8Size_of_isSome_hexVal (isSome_hexVal_of_mem hdecode c hc)) ?_
  rw [length_hexPairs hdecode]
  exact h

/-- The first digits are those of the first bytes. -/
theorem take_hexEncode (n : ℕ) (bs : List UInt8) :
    (hexEncode bs).toList.take (2 * n) = (hexEncode (bs.take n)).toList := by
  unfold hexEncode
  rw [String.toList_ofList, String.toList_ofList]
  induction bs generalizing n with
  | nil => simp
  | cons b rest ih =>
    cases n with
    | zero => rfl
    | succ n =>
      rw [List.flatMap_cons, List.take_succ_cons, List.flatMap_cons, Nat.mul_succ]
      exact congrArg (_ :: _ :: ·) (ih n)

theorem hexDigit_inj {n m : ℕ} (hn : n < 16) (hm : m < 16) (h : hexDigit n = hexDigit m) :
    n = m := by
  have hval := hexVal_hexDigit hn
  rw [h, hexVal_hexDigit hm] at hval
  exact (Option.some.inj hval).symm

/-- Numbers with the same low digits agree up to there. -/
theorem mod_eq_of_digits {n m k : ℕ} (h : ∀ i < k, n / 16 ^ i % 16 = m / 16 ^ i % 16) :
    n % 16 ^ k = m % 16 ^ k := by
  induction k with
  | zero => rw [Nat.pow_zero, Nat.mod_one, Nat.mod_one]
  | succ k ih =>
    rw [Nat.mod_pow_succ, Nat.mod_pow_succ, ih fun i hi => h i (Nat.lt_succ_of_lt hi),
      h k (Nat.lt_succ_self k)]

theorem hex16_inj {n m : ℕ} (hn : n < 2 ^ 64) (hm : m < 2 ^ 64) (h : hex16 n = hex16 m) : n = m := by
  have hdigits := String.ofList_injective h
  have hmod : n % 16 ^ 16 = m % 16 ^ 16 := by
    refine mod_eq_of_digits fun i hi => ?_
    have hall := List.map_inj_left.1 hdigits i (List.mem_reverse.2 (List.mem_range.2 hi))
    exact hexDigit_inj (Nat.mod_lt _ (by decide)) (Nat.mod_lt _ (by decide)) hall
  have hword : (16 : ℕ) ^ 16 = 2 ^ 64 := by decide
  rw [hword, Nat.mod_eq_of_lt hn, Nat.mod_eq_of_lt hm] at hmod
  exact hmod

theorem length_hex16 (n : ℕ) : (hex16 n).toList.length = 16 := by
  unfold hex16
  rw [String.toList_ofList, List.length_map, List.length_reverse, List.length_range]

theorem toList_hex16_colon (n : ℕ) (a : String) :
    (s!"{hex16 n}:{a}").toList = (hex16 n).toList ++ ':' :: a.toList := by
  change (hex16 n ++ ":" ++ a).toList = _
  rw [String.toList_append, String.toList_append, List.append_assoc]
  rfl

/-- The prefix made of a number finds the keys that start with that number. -/
theorem hasPrefix_hex16 {n m : ℕ} (hn : n < 2 ^ 64) (hm : m < 2 ^ 64) {a : String} :
    hasPrefix s!"{hex16 m}:" (s!"{hex16 n}:{a}") = true ↔ n = m := by
  have hpfx : (s!"{hex16 m}:").toList = (hex16 m).toList ++ [':'] := by
    change (hex16 m ++ ":").toList = _
    rw [String.toList_append]
    rfl
  unfold hasPrefix
  rw [List.isPrefixOf_iff_prefix, hpfx, toList_hex16_colon]
  constructor
  · rintro ⟨rest, hrest⟩
    rw [List.append_assoc, List.singleton_append] at hrest
    have hsame := (List.append_inj hrest ((length_hex16 m).trans (length_hex16 n).symm)).1
    exact hex16_inj hn hm (String.toList_inj.1 hsame).symm
  · rintro rfl
    exact ⟨a.toList, by rw [List.append_assoc, List.singleton_append]⟩

end Text
