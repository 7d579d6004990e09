import HoneNode.Lib.Text

/-!
# Lib.Word — words, counted fields and slices

A word that is written in little-endian bytes reads back, and a field of a buffer
is the slice between its offsets. Big-endian words can be told apart too, and a
field behind its own length can be told from what follows.
-/

namespace Text

/-! ## Words -/

instance neZero_u128 : NeZero (2 ^ 128) := ⟨by decide⟩

/-- The unsigned number read from little-endian bytes. -/
def leNat : List UInt8 → ℕ
  | [] => 0
  | b :: bs => b.toNat + 256 * leNat bs

variable (width n : ℕ)

theorem length_leBytes : (leBytes width n).length = width := by
  induction width generalizing n with
  | zero => rfl
  | succ width ih => exact congrArg Nat.succ (ih _)

theorem leNat_lt (bs : List UInt8) : leNat bs < 256 ^ bs.length := by
  induction bs with
  | nil => exact Nat.one_pos
  | cons b bs ih =>
    have hb : b.toNat < 256 := b.toNat_lt
    rw [leNat, List.length_cons, Nat.pow_succ']
    omega

/-- What does not fit the width is lost. -/
theorem leNat_leBytes : leNat (leBytes width n) = n % 256 ^ width := by
  induction width generalizing n with
  | zero => exact (Nat.mod_one n).symm
  | succ width ih =>
    have hsplit : n % 256 ^ (width + 1) = n % 256 + 256 * (n / 256 % 256 ^ width) := by
      rw [Nat.pow_succ', Nat.mod_mul]
    rw [leBytes, leNat, ih, UInt8.toNat_ofNat', hsplit]
    omega

theorem leNat_leBytes_of_lt {width n : ℕ} (h : n < 256 ^ width) :
    leNat (leBytes width n) = n := by
  rw [leNat_leBytes, Nat.mod_eq_of_lt h]

theorem leBytes_inj {width n m : ℕ} (hn : n < 256 ^ width) (hm : m < 256 ^ width)
    (h : leBytes width n = leBytes width m) : n = m := by
  rw [← leNat_leBytes_of_lt hn, h, leNat_leBytes_of_lt hm]

/-! ### Big-endian words -/

theorem length_beBytes : (beBytes width n).length = width := by
  induction width with
  | zero => rfl
  | succ width ih => exact congrArg Nat.succ ih

theorem mod_eq_of_beBytes {width n m : ℕ} (h : beBytes width n = beBytes width m) :
    n % 256 ^ width = m % 256 ^ width := by
  induction width with
  | zero => rw [Nat.pow_zero, Nat.mod_one, Nat.mod_one]
  | succ width ih =>
    rw [beBytes, beBytes] at h
    obtain ⟨hhead, htail⟩ := List.cons.inj h
    have htop : n / 256 ^ width % 256 = m / 256 ^ width % 256 := by
      have hval := congrArg UInt8.toNat hhead
      rw [UInt8.toNat_ofNat', UInt8.toNat_ofNat'] at hval
      omega
    rw [Nat.mod_pow_succ, Nat.mod_pow_succ, ih htail, htop]

theorem beBytes_inj {width n m : ℕ} (hn : n < 256 ^ width) (hm : m < 256 ^ width)
    (h : beBytes width n = beBytes width m) : n = m := by
  have hmod := mod_eq_of_beBytes h
  rwa [Nat.mod_eq_of_lt hn, Nat.mod_eq_of_lt hm] at hmod

theorem foldl_beBytes (width n acc : ℕ) :
    (beBytes width n).foldl (fun acc b => 256 * acc + b.toNat) acc =
      acc * 256 ^ width + n % 256 ^ width := by
  induction width generalizing acc with
  | zero =>
    rw [Nat.pow_zero, Nat.mod_one, Nat.mul_one]
    rfl
  | succ width ih =>
    rw [beBytes, List.foldl_cons, ih, UInt8.toNat_ofNat', Nat.mod_mod, Nat.mod_pow_succ,
      Nat.pow_succ', Nat.add_mul, Nat.mul_comm 256 acc, Nat.mul_assoc, Nat.add_assoc,
      Nat.add_comm (n % _), Nat.mul_comm (n / _ % 256)]

/-- What does not fit the width is lost. -/
theorem beNat_beBytes : beNat (beBytes width n) = n % 256 ^ width := by
  rw [beNat, foldl_beBytes, Nat.zero_mul, Nat.zero_add]

/-! ### Counted fields -/

/-- A field behind its length. -/
def counted (width : ℕ) (field : List UInt8) : List UInt8 := beBytes width field.length ++ field

theorem counted_append_inj {width : ℕ} {a b x y : List UInt8} (ha : a.length < 256 ^ width)
    (hb : b.length < 256 ^ width) (h : counted width a ++ x = counted width b ++ y) :
    a = b ∧ x = y := by
  unfold counted at h
  rw [List.append_assoc, List.append_assoc] at h
  have hwidths : (beBytes width a.length).length = (beBytes width b.length).length := by
    rw [length_beBytes, length_beBytes]
  obtain ⟨hlength, hrest⟩ := List.append_inj h hwidths
  exact List.append_inj hrest (beBytes_inj ha hb hlength)

/-! ## Slices -/

/-- `buf[a..b]`. -/
def slice (a b : ℕ) (buf : List UInt8) : List UInt8 := (buf.drop a).take (b - a)

variable {a b : ℕ} {x y : List UInt8}

/-- What comes before the slice is passed over. -/
theorem slice_append (h : x.length ≤ a) :
    slice a b (x ++ y) = slice (a - x.length) (b - x.length) y := by
  unfold slice
  rw [List.drop_append, List.drop_of_length_le h, List.nil_append,
    Nat.sub_sub_sub_cancel_right h]

theorem slice_zero_append (h : x.length = b) : slice 0 b (x ++ y) = x := by
  unfold slice
  rw [List.drop_zero, Nat.sub_zero, ← h, List.take_left]

theorem slice_zero_self (h : x.length = b) : slice 0 b x = x := by
  unfold slice
  rw [List.drop_zero, Nat.sub_zero, ← h, List.take_length]

end Text
