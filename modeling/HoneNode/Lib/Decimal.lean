import Mathlib.Data.List.TakeWhile
import HoneNode.Lib.Text

/-!
# Lib.Decimal — numbers in decimal read back

A number printed in decimal parses to itself, so distinct numbers make distinct
key texts, and a decimal has no separator in it.
-/

namespace Text

theorem digitVal_digitChar {d : ℕ} (h : d < 10) : digitVal d.digitChar = some d := by
  have hall : ∀ d < 10, digitVal (Nat.digitChar d) = some d := by decide
  exact hall d h

theorem digitsVal_append (acc : ℕ) (cs ds : List Char) :
    digitsVal acc (cs ++ ds) = (digitsVal acc cs).bind fun n => digitsVal n ds := by
  induction cs generalizing acc with
  | nil => rfl
  | cons c cs ih =>
    simp only [List.cons_append, digitsVal]
    split
    · exact ih _
    · rfl

theorem digitsVal_toDigits (n : ℕ) : digitsVal 0 (Nat.toDigits 10 n) = some n := by
  induction n using Nat.strong_induction_on with
  | _ n ih =>
    rw [Nat.toDigits_eq_if (by decide)]
    split
    · next h => simp [digitsVal, digitVal_digitChar h]
    · next h =>
      -- the last digit goes on top of the number before it
      rw [digitsVal_append, ih (n / 10) (by omega)]
      simp [digitsVal, digitVal_digitChar (Nat.mod_lt n (by decide)), Nat.div_add_mod]

theorem isDigit_of_mem_toString {n : ℕ} {c : Char} (h : c ∈ (toString n).toList) :
    c.isDigit := by
  rw [Nat.toString_eq_repr, Nat.toList_repr] at h
  exact Nat.isDigit_of_mem_toDigits (by decide) (by decide) h

theorem notMem_bytes_digitChar {d : ℕ} (h : d < 10) :
    (0 : UInt8) ∉ bytes (String.ofList [Nat.digitChar d]) := by
  have hall : ∀ i : Fin 10, (0 : UInt8) ∉ bytes (String.ofList [Nat.digitChar i]) := by decide
  exact hall ⟨d, h⟩

/-- A number in decimal has no NUL in it. -/
theorem notMem_bytes_toString (n : ℕ) : (0 : UInt8) ∉ bytes (toString n) := by
  have hdigits : (0 : UInt8) ∉ bytes (String.ofList (Nat.toDigits 10 n)) := by
    induction n using Nat.strong_induction_on with
    | _ n ih =>
      rw [Nat.toDigits_eq_if (by decide)]
      split
      · next h => exact notMem_bytes_digitChar h
      · next h =>
        rw [String.ofList_append, bytes_append, List.mem_append, not_or]
        exact ⟨ih (n / 10) (by omega), notMem_bytes_digitChar (Nat.mod_lt n (by decide))⟩
  rwa [Nat.toString_eq_repr, ← String.ofList_toList (s := n.repr), Nat.toList_repr]

/-- Digits take a byte each. -/
theorem utf8ByteSize_ofList_digits {cs : List Char} (h : ∀ c ∈ cs, c.isDigit) :
    (String.ofList cs).utf8ByteSize = cs.length := by
  induction cs with
  | nil => rfl
  | cons c cs ih =>
    have hone : c.utf8Size = 1 := by
      have hc := h c List.mem_cons_self
      unfold Char.isDigit at hc
      rw [Bool.and_eq_true, decide_eq_true_iff, decide_eq_true_iff] at hc
      exact Char.utf8Size_eq_one_iff.2 (UInt32.le_trans hc.2 (by decide))
    have hrest := ih fun d hd => h d (List.mem_cons_of_mem _ hd)
    rw [String.ofList_cons, String.utf8ByteSize_append, String.utf8ByteSize_singleton, hone, hrest,
      List.length_cons, Nat.add_comm]

theorem utf8ByteSize_toString (n : ℕ) :
    (toString n).utf8ByteSize = (Nat.toDigits 10 n).length := by
  have hdigits : ∀ c ∈ Nat.toDigits 10 n, c.isDigit := fun c hc =>
    Nat.isDigit_of_mem_toDigits (by decide) (by decide) hc
  rw [Nat.toString_eq_repr, Nat.repr_eq_ofList_toDigits, utf8ByteSize_ofList_digits hdigits]

/-- Printing and parsing a `u64`. -/
theorem parseU64_toString {n : ℕ} (h : n < 2 ^ 64) : parseU64 (toString n) = some n := by
  have hlist : (toString n).toList = Nat.toDigits 10 n := by
    rw [Nat.toString_eq_repr, Nat.toList_repr]
  have hplus : ∀ rest, Nat.toDigits 10 n ≠ '+' :: rest := by
    intro rest he
    have hmem : '+' ∈ Nat.toDigits 10 n := by simp [he]
    have := Nat.isDigit_of_mem_toDigits (by decide) (by decide) hmem
    exact absurd this (by decide)
  have hdigits := digitsVal_toDigits n
  unfold parseU64 parseNat
  rw [hlist]
  cases hd : Nat.toDigits 10 n with
  | nil => exact absurd hd Nat.toDigits_ne_nil
  | cons c cs =>
    -- `hplus` settles which branch of the leading plus is taken
    rw [hd] at hdigits hplus
    simp only [hdigits, Option.filter, decide_eq_true h, if_true]

variable {n m : ℕ}

theorem toString_inj (hn : n < 2 ^ 64) (hm : m < 2 ^ 64) (h : toString n = toString m) :
    n = m := by
  have := parseU64_toString hn
  rw [h, parseU64_toString hm] at this
  exact (Option.some.inj this).symm

theorem notMem_toString {c : Char} (hc : c.isDigit = false) (n : ℕ) : c ∉ (toString n).toList := by
  intro hmem
  rw [isDigit_of_mem_toString hmem] at hc
  cases hc

theorem toString_nat_inj : toString n = toString m ↔ n = m := by
  constructor
  · intro h
    have hread : ∀ k : ℕ, digitsVal 0 (toString k).toList = some k := by
      intro k
      rw [Nat.toString_eq_repr, Nat.toList_repr]
      exact digitsVal_toDigits k
    have hn := hread n
    rw [h, hread m] at hn
    exact (Option.some.inj hn).symm
  · rintro rfl
    rfl

/-- A key that starts with a decimal tells the number from the rest. -/
theorem decimalColon_inj {x y : List Char}
    (h : (toString n).toList ++ ':' :: x = (toString m).toList ++ ':' :: y) : n = m ∧ x = y := by
  have hcolon : ∀ k : ℕ, ':' ∉ (toString k).toList := notMem_toString rfl
  rcases append_sep_first (hcolon n) h with ⟨hdigits, hrest⟩ | ⟨z, hdigits, -⟩
  · exact ⟨toString_nat_inj.1 (String.toList_inj.1 hdigits), hrest⟩
  · exact absurd (hdigits ▸ List.mem_append_right _ List.mem_cons_self) (hcolon m)

/-- A number in front of a colon. -/
theorem numbered_inj {a b : String} :
    toString n ++ ":" ++ a = toString m ++ ":" ++ b ↔ n = m ∧ a = b := by
  have hlist : ∀ (k : ℕ) (x : String),
      (toString k ++ ":" ++ x).toList = (toString k).toList ++ ':' :: x.toList := by
    intro k x
    rw [String.toList_append, String.toList_append, List.append_assoc]
    rfl
  constructor
  · intro h
    have h := congrArg String.toList h
    rw [hlist, hlist] at h
    obtain ⟨hn, ha⟩ := decimalColon_inj h
    exact ⟨hn, String.toList_inj.1 ha⟩
  · rintro ⟨rfl, rfl⟩
    rfl

/-- The prefix made of a number finds the keys that start with that number. -/
theorem hasPrefix_numbered {a : String} :
    hasPrefix s!"{m}:" (toString n ++ ":" ++ a) = true ↔ n = m := by
  have hpfx : (s!"{m}:").toList = (toString m).toList ++ [':'] := by
    change (toString m ++ ":").toList = _
    rw [String.toList_append]
    rfl
  have hkey : (toString n ++ ":" ++ a).toList = (toString n).toList ++ ':' :: a.toList := by
    rw [String.toList_append, String.toList_append, List.append_assoc]
    rfl
  unfold hasPrefix
  rw [List.isPrefixOf_iff_prefix, hpfx, hkey]
  constructor
  · rintro ⟨rest, hrest⟩
    rw [List.append_assoc, List.singleton_append] at hrest
    exact (decimalColon_inj hrest).1.symm
  · rintro rfl
    exact ⟨a.toList, by rw [List.append_assoc, List.singleton_append]⟩

/-- A number behind the last separator. -/
theorem decimalLast_inj {c : Char} (hc : c.isDigit = false) {x y : List Char}
    (h : x ++ c :: (toString n).toList = y ++ c :: (toString m).toList) : x = y ∧ n = m := by
  obtain ⟨hfront, hdigits⟩ := append_sep_last (notMem_toString hc n) (notMem_toString hc m) h
  exact ⟨hfront, toString_nat_inj.1 (String.toList_inj.1 hdigits)⟩

/-- A number behind the last colon. -/
theorem labelled_inj {a b : String} :
    a ++ ":" ++ toString n = b ++ ":" ++ toString m ↔ a = b ∧ n = m := by
  have hlist : ∀ (x : String) (k : ℕ),
      (x ++ ":" ++ toString k).toList = x.toList ++ ':' :: (toString k).toList := by
    intro x k
    rw [String.toList_append, String.toList_append, List.append_assoc]
    rfl
  constructor
  · intro h
    have h := congrArg String.toList h
    rw [hlist, hlist] at h
    obtain ⟨ha, hn⟩ := decimalLast_inj rfl h
    exact ⟨String.toList_inj.1 ha, hn⟩
  · rintro ⟨rfl, rfl⟩
    rfl

/-- A decimal is one piece. -/
theorem lastPiece_toString (n : ℕ) : lastPiece ':' (toString n) = toString n := by
  have hall : ∀ c ∈ (toString n).toList.reverse, decide (c ≠ ':') = true := by
    intro c hc
    have := isDigit_of_mem_toString (List.mem_reverse.1 hc)
    rw [decide_eq_true_iff]
    rintro rfl
    exact absurd this (by decide)
  rw [lastPiece, List.takeWhile_eq_self_iff.2 hall, List.reverse_reverse, String.ofList_toList]

end Text
