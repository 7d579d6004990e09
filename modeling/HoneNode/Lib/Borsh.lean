import HoneNode.Lib.Utf8
import HoneNode.Lib.Word

/-!
# Lib.Borsh — a binary format for stored values

A value is written so that it reads back whatever follows it, so different values
are never written alike, and fields behind each other can be told apart. Text and
lists stand behind their length in four bytes; what is longer is not written.
-/

/-- How the values of a type are written and read. -/
class Borsh (α : Type) where
  serialize : α → Option (List UInt8)
  deserialize : List UInt8 → Option (α × List UInt8)
  deserialize_append : ∀ {a : α} {bs : List UInt8} (rest : List UInt8),
    serialize a = some bs → deserialize (bs ++ rest) = some (a, rest)

namespace Borsh

open Option (map_some bind_eq_bind bind_eq_some_iff pure_def bind_some)

variable {α β : Type} [Borsh α] [Borsh β]

/-- All the bytes are of the value. -/
def tryFromSlice (bs : List UInt8) : Option α :=
  match deserialize bs with
  | some (a, []) => some a
  | _ => none

variable {bs : List UInt8}

theorem tryFromSlice_serialize {a : α} (h : serialize a = some bs) :
    tryFromSlice bs = some a := by
  have hread := deserialize_append [] h
  rw [List.append_nil] at hread
  unfold tryFromSlice
  rw [hread]

theorem serialize_append_inj {a a' : α} {bs bs' rest rest' : List UInt8}
    (h : serialize a = some bs) (h' : serialize a' = some bs') (heq : bs ++ rest = bs' ++ rest') :
    a = a' ∧ rest = rest' := by
  have hread := deserialize_append rest h
  rw [heq, deserialize_append rest' h'] at hread
  cases hread
  exact ⟨rfl, rfl⟩

theorem serialize_inj {a a' : α} (h : serialize a = some bs)
    (h' : serialize a' = some bs) : a = a' := by
  have hsame : bs ++ [] = bs ++ [] := rfl
  exact (serialize_append_inj h h' hsame).1

/-- The format of another type, through which the values go. -/
abbrev via (out : β → α) (back : α → β) (h : ∀ b, back (out b) = b) : Borsh β where
  serialize b := serialize (out b)
  deserialize bs := (deserialize bs).map fun r => (back r.1, r.2)
  deserialize_append {b bs} rest hb := by
    rw [deserialize_append rest hb, map_some, h]

/-! ## Words and bytes -/

/-- A word of so many little-endian bytes. -/
def writeWord (width n : ℕ) : Option (List UInt8) :=
  if n < 256 ^ width then some (Text.leBytes width n) else none

def readWord (width : ℕ) (bs : List UInt8) : Option (ℕ × List UInt8) :=
  if width ≤ bs.length then some (Text.leNat (bs.take width), bs.drop width) else none

theorem writeWord_of_lt {width n : ℕ} (h : n < 256 ^ width) :
    writeWord width n = some (Text.leBytes width n) := if_pos h

theorem readWord_append {width n : ℕ} (rest : List UInt8)
    (h : writeWord width n = some bs) : readWord width (bs ++ rest) = some (n, rest) := by
  unfold writeWord at h
  split at h
  · next hlt =>
    cases h
    have hlen : (Text.leBytes width n).length = width := Text.length_leBytes width n
    unfold readWord
    rw [if_pos (by rw [List.length_append, hlen]; omega), List.take_left' hlen,
      List.drop_left' hlen, Text.leNat_leBytes_of_lt hlt]
  · cases h

instance : Borsh UInt8 where
  serialize b := some [b]
  deserialize
    | [] => none
    | b :: rest => some (b, rest)
  deserialize_append rest h := by
    cases h
    rfl

/-- A number of 128 bits. -/
instance : Borsh (Fin (2 ^ 128)) where
  serialize n := writeWord 16 n.val
  deserialize bs := (readWord 16 bs).map fun r => (Fin.ofNat _ r.1, r.2)
  deserialize_append {n bs} rest h := by
    rw [readWord_append rest h, map_some, Fin.ofNat_val_eq_self]

instance : Borsh (Option α) where
  serialize
    | none => some [0]
    | some a => (serialize a).map (1 :: ·)
  deserialize
    | 0 :: rest => some (none, rest)
    | 1 :: rest => (deserialize rest).map fun r => (some r.1, r.2)
    | _ => none
  deserialize_append {o bs} rest h := by
    cases o with
    | none =>
      cases h
      rfl
    | some a =>
      obtain ⟨written, hwritten, rfl⟩ := Option.map_eq_some_iff.1 h
      show (deserialize (written ++ rest)).map (fun r => (some r.1, r.2)) = some (some a, rest)
      rw [deserialize_append rest hwritten, map_some]

/-! ## Lists -/

def writeAll : List α → Option (List UInt8)
  | [] => some []
  | a :: rest => do return (← serialize a) ++ (← writeAll rest)

def readAll : ℕ → List UInt8 → Option (List α × List UInt8)
  | 0, bs => some ([], bs)
  | n + 1, bs => do
    let (a, bs) ← deserialize bs
    let (rest, bs) ← readAll n bs
    return (a :: rest, bs)

theorem readAll_append {l : List α} (rest : List UInt8)
    (h : writeAll l = some bs) : readAll l.length (bs ++ rest) = some (l, rest) := by
  induction l generalizing bs with
  | nil =>
    cases h
    rfl
  | cons a l ih =>
    simp only [writeAll, bind_eq_bind, bind_eq_some_iff, pure_def,
      Option.some.injEq] at h
    obtain ⟨first, hfirst, others, hothers, rfl⟩ := h
    simp only [List.length_cons, readAll, List.append_assoc,
      deserialize_append (others ++ rest) hfirst, bind_eq_bind, bind_some,
      ih hothers]
    rfl

instance : Borsh (List α) where
  serialize l := do return (← writeWord 4 l.length) ++ (← writeAll l)
  deserialize bs := do
    let (n, bs) ← readWord 4 bs
    readAll n bs
  deserialize_append {l bs} rest h := by
    simp only [bind_eq_bind, bind_eq_some_iff, pure_def,
      Option.some.injEq] at h
    obtain ⟨count, hcount, all, hall, rfl⟩ := h
    rw [List.append_assoc, readWord_append (all ++ rest) hcount]
    exact readAll_append rest hall

theorem writeAll_bytes (bs : List UInt8) : writeAll bs = some bs := by
  induction bs with
  | nil => rfl
  | cons b bs ih => simp [writeAll, ih, serialize]

/-- Bytes stand behind their number. -/
theorem serialize_bytes (h : bs.length < 2 ^ 32) :
    serialize bs = some (Text.leBytes 4 bs.length ++ bs) := by
  have hword : bs.length < 256 ^ 4 := h
  show (do return (← writeWord 4 bs.length) ++ (← writeAll bs)) = _
  rw [writeWord_of_lt hword, writeAll_bytes]
  rfl

/-! ## Text and pairs -/

instance : Borsh String where
  serialize s := serialize (Text.bytes s)
  deserialize bs := do
    let (text, rest) ← deserialize (α := List UInt8) bs
    return (← Text.fromUtf8 text, rest)
  deserialize_append {s bs} rest h := by
    simp only [deserialize_append rest h, bind_eq_bind, bind_some,
      Text.fromUtf8_bytes]
    rfl

theorem serialize_string {s : String} (h : (Text.bytes s).length < 2 ^ 32) :
    serialize s = some (Text.leBytes 4 (Text.bytes s).length ++ Text.bytes s) :=
  serialize_bytes h

theorem serialize_string_eq_none {s : String} (h : ¬ (Text.bytes s).length < 2 ^ 32) :
    serialize s = none := by
  have hword : ¬ (Text.bytes s).length < 256 ^ 4 := h
  show (do return (← writeWord 4 (Text.bytes s).length) ++ (← writeAll (Text.bytes s))) = none
  rw [writeWord, if_neg hword]
  rfl

instance : Borsh (α × β) where
  serialize p := do return (← serialize p.1) ++ (← serialize p.2)
  deserialize bs := do
    let (a, bs) ← deserialize bs
    let (b, bs) ← deserialize bs
    return ((a, b), bs)
  deserialize_append {p bs} rest h := by
    simp only [bind_eq_bind, bind_eq_some_iff, pure_def,
      Option.some.injEq] at h
    obtain ⟨first, hfirst, second, hsecond, rfl⟩ := h
    simp only [List.append_assoc, deserialize_append (second ++ rest) hfirst,
      deserialize_append rest hsecond, bind_eq_bind, bind_some]
    rfl

theorem serialize_pair_eq_some {a : α} {b : β} (h : serialize (a, b) = some bs) :
    ∃ first second, serialize a = some first ∧ serialize b = some second ∧
      bs = first ++ second := by
  have hwritten : (do return (← serialize a) ++ (← serialize b)) = some bs := h
  simp only [bind_eq_bind, bind_eq_some_iff, pure_def,
    Option.some.injEq] at hwritten
  obtain ⟨first, hfirst, second, hsecond, rfl⟩ := hwritten
  exact ⟨first, second, hfirst, hsecond, rfl⟩

theorem serialize_pair {a : α} {b : β} {first second : List UInt8} (ha : serialize a = some first)
    (hb : serialize b = some second) : serialize (a, b) = some (first ++ second) := by
  show (do return (← serialize a) ++ (← serialize b)) = _
  rw [ha, hb]
  rfl

end Borsh
