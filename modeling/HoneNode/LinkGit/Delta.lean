import HoneNode.Lib.Word
import HoneNode.LinkGit.Objects

/-!
# LinkGit.Delta — objects written as changes to another one

A delta names the size of its base and of its result, and then commands: copy a range of
the base, or insert the bytes that follow. `apply_delta` returns bytes or panics; it
compares neither size with anything.

1. **What a delta reads as** (`Parses`).
2. **When applying it does not panic** (`applyDelta_ok_iff`).
3. **When it does what the delta says** (`exact_iff`).
-/

namespace HoneNode.LinkGit

/-! ## Machine operations

An operation that is out of range panics, with the message as the error. -/

/-- `x << s` on `usize`. Without overflow checks the amount is masked. -/
def usizeShl (checks : Bool) (x s : ℕ) : Except String ℕ :=
  if checks = true ∧ 64 ≤ s then .error "attempt to shift left with overflow"
  else .ok (x * 2 ^ (s % 64) % 2 ^ 64)

/-- `&buf[a..b]`. -/
def cutBytes (a b : ℕ) (buf : Bytes) : Except String Bytes :=
  if b < a then .error "slice index starts after its end"
  else if buf.length < b then .error "range end index out of range"
  else .ok (Text.slice a b buf)

/-- `Vec::with_capacity` for bytes. -/
def withCapacity (n : ℕ) : Except String Unit :=
  if 2 ^ 63 ≤ n then .error "capacity overflow" else .ok ()

section Machine

variable {checks : Bool} {x s a b n : ℕ} {buf out : Bytes}

theorem usizeShl_ok_iff : (∃ y, usizeShl checks x s = .ok y) ↔ (checks = true → s < 64) := by
  unfold usizeShl
  split
  · next h => exact iff_of_false nofun fun hlt => absurd (hlt h.1) (Nat.not_lt.2 h.2)
  · next h => exact iff_of_true ⟨_, rfl⟩ fun hc => Nat.lt_of_not_le fun hle => h ⟨hc, hle⟩

theorem cutBytes_ok_iff : cutBytes a b buf = .ok out ↔
    a ≤ b ∧ b ≤ buf.length ∧ out = Text.slice a b buf := by
  unfold cutBytes
  split
  · next h => exact iff_of_false nofun fun hle => absurd hle.1 (Nat.not_le.2 h)
  · next hab =>
    split
    · next h => exact iff_of_false nofun fun hle => absurd hle.2.1 (Nat.not_le.2 h)
    · next hb =>
      constructor
      · intro h
        cases h
        exact ⟨Nat.le_of_not_lt hab, Nat.le_of_not_lt hb, rfl⟩
      · rintro ⟨-, -, rfl⟩
        rfl

theorem withCapacity_ok_iff : withCapacity n = .ok () ↔ n < 2 ^ 63 := by
  unfold withCapacity
  split
  · next h => exact iff_of_false nofun (Nat.not_lt.2 h)
  · next h => exact iff_of_true rfl (Nat.lt_of_not_le h)

end Machine

/-! ## Sizes -/

/-- Seven bits a byte, lowest first; it ends where the delta does, too. -/
def readDeltaVarint (checks : Bool) (val shift : ℕ) : Bytes → Except String (ℕ × Bytes)
  | [] => .ok (val, [])
  | b :: rest => do
    let part ← usizeShl checks (b &&& 0x7f).toNat shift
    if b &&& 0x80 = 0 then return (val ||| part, rest)
    else readDeltaVarint checks (val ||| part) (shift + 7) rest

/-- The bytes of a varint: up to the first without its top bit. -/
def varintLength : Bytes → ℕ
  | [] => 0
  | b :: rest => if b &&& 0x80 = 0 then 1 else varintLength rest + 1

/-! ## Commands -/

inductive Command where
  | copy (off len : ℕ)
  | insert (bytes : Bytes)
  | skip
deriving DecidableEq

/-- The bytes of a number that the flags of a command announce. -/
def readOperands (cmd : UInt8) : List (UInt8 × ℕ) → ℕ → Bytes → Except String (ℕ × Bytes)
  | [], acc, rest => .ok (acc, rest)
  | (flag, shift) :: table, acc, rest =>
    if cmd &&& flag = 0 then readOperands cmd table acc rest
    else match rest with
      | [] => .error "index out of bounds"
      | b :: rest => readOperands cmd table (acc ||| b.toNat <<< shift) rest

def offsetFlags : List (UInt8 × ℕ) := [(0x01, 0), (0x02, 8), (0x04, 16), (0x08, 24)]

def lengthFlags : List (UInt8 × ℕ) := [(0x10, 0), (0x20, 8), (0x40, 16)]

/-- The command behind its first byte. An insertion that runs past the end is passed over,
without its bytes. -/
def readCommand (cmd : UInt8) (rest : Bytes) : Except String (Command × Bytes) :=
  if cmd &&& 0x80 ≠ 0 then do
    let (copyOff, rest) ← readOperands cmd offsetFlags 0 rest
    let (copyLen, rest) ← readOperands cmd lengthFlags 0 rest
    return (.copy copyOff (if copyLen = 0 then 0x10000 else copyLen), rest)
  else if 0 < cmd then
    let n := cmd.toNat
    if n ≤ rest.length then return (.insert (rest.take n), rest.drop n) else return (.skip, rest)
  else return (.skip, rest)

/-- The flags of a table that are set. -/
def operandCount (cmd : UInt8) (table : List (UInt8 × ℕ)) : ℕ :=
  table.countP fun entry => cmd &&& entry.1 ≠ 0

section Commands

variable {cmd : UInt8} {table : List (UInt8 × ℕ)} {acc n : ℕ} {rest rest' : Bytes} {c : Command}

theorem readOperands_cons (flag : UInt8) (shift : ℕ) :
    readOperands cmd ((flag, shift) :: table) acc rest =
      if cmd &&& flag = 0 then readOperands cmd table acc rest
      else match rest with
        | [] => .error "index out of bounds"
        | b :: rest => readOperands cmd table (acc ||| b.toNat <<< shift) rest := by
  cases rest <;> rfl

theorem length_readOperands {r : ℕ × Bytes} (h : readOperands cmd table acc rest = .ok r) :
    r.2.length + operandCount cmd table = rest.length := by
  induction table generalizing acc rest with
  | nil =>
    cases h
    rfl
  | cons entry table ih =>
    obtain ⟨flag, shift⟩ := entry
    rw [readOperands_cons] at h
    unfold operandCount at ih ⊢
    by_cases hflag : cmd &&& flag = 0
    · rw [if_pos hflag] at h
      rw [List.countP_cons_of_neg (by simpa using hflag)]
      exact ih h
    · rw [if_neg hflag] at h
      rw [List.countP_cons_of_pos (by simpa using hflag)]
      cases rest with
      | nil => cases h
      | cons b rest =>
        have hrest := ih h
        rw [List.length_cons]
        omega

theorem length_readCommand (h : readCommand cmd rest = .ok (c, rest')) :
    rest'.length ≤ rest.length := by
  unfold readCommand at h
  split at h
  · obtain ⟨off, hoff, h⟩ := Except.bind_eq_ok.1 h
    obtain ⟨len, hlen, h⟩ := Except.bind_eq_ok.1 h
    cases h
    have hfirst := length_readOperands hoff
    have hsecond := length_readOperands hlen
    omega
  · split at h
    · dsimp only at h
      split at h
      · cases h
        rw [List.length_drop]
        omega
      · cases h
        exact le_rfl
    · cases h
      exact le_rfl

end Commands

/-! ## Applying a delta -/

/-- What a command adds. A copy that runs past the base is cut short. -/
def Command.run (base : Bytes) : Command → Except String Bytes
  | .copy off len => cutBytes off (min (off + len) base.length) base
  | .insert bytes => .ok bytes
  | .skip => .ok []

def deltaLoop (base out : Bytes) : Bytes → Except String Bytes
  | [] => .ok out
  | cmd :: rest =>
    match h : readCommand cmd rest with
    | .error e => .error e
    | .ok (c, rest') =>
      match c.run base with
      | .error e => .error e
      | .ok piece =>
        have _hle := length_readCommand h
        deltaLoop base (out ++ piece) rest'
termination_by delta => delta.length
decreasing_by
  rw [List.length_cons]
  omega

/-- It returns or panics; the size of the base is read and not used. -/
def applyDelta (checks : Bool) (base delta : Bytes) : Except String Bytes := do
  let (_srcSize, rest) ← readDeltaVarint checks 0 0 delta
  let (targetSize, rest) ← readDeltaVarint checks 0 0 rest
  withCapacity targetSize
  deltaLoop base [] rest

/-! ## What a delta says -/

/-- The commands that the code finds in a delta behind its sizes. -/
inductive Reads : Bytes → List Command → Prop
  | nil : Reads [] []
  | cons {cmd : UInt8} {rest rest' : Bytes} {c : Command} {cs : List Command}
      (hread : readCommand cmd rest = .ok (c, rest')) (hrest : Reads rest' cs) :
      Reads (cmd :: rest) (c :: cs)

@[ext]
structure Delta where
  targetSize : ℕ
  commands : List Command

def Parses (checks : Bool) (delta : Bytes) (d : Delta) : Prop :=
  ∃ srcSize rest body, readDeltaVarint checks 0 0 delta = .ok (srcSize, rest) ∧
    readDeltaVarint checks 0 0 rest = .ok (d.targetSize, body) ∧ Reads body d.commands

namespace Command

/-- A copy begins in the base, or at its end. -/
def Starts (base : Bytes) : Command → Prop
  | .copy off _ => off ≤ base.length
  | .insert _ => True
  | .skip => True

/-- A copy lies in the base. -/
def InRange (base : Bytes) : Command → Prop
  | .copy off len => off + len ≤ base.length
  | .insert _ => True
  | .skip => True

/-- The bytes that a command stands for. -/
def piece (base : Bytes) : Command → Bytes
  | .copy off len => (base.drop off).take len
  | .insert bytes => bytes
  | .skip => []

/-- How many bytes a command asks for. -/
def size : Command → ℕ
  | .copy _ len => len
  | .insert bytes => bytes.length
  | .skip => 0

variable {base out : Bytes} {c : Command}

theorem InRange.starts (h : c.InRange base) : c.Starts base := by
  cases c with
  | copy off len => exact (Nat.le_add_right off len).trans h
  | insert bytes => trivial
  | skip => trivial

theorem InRange.length_piece (h : c.InRange base) : (c.piece base).length = c.size := by
  cases c with
  | copy off len =>
    have hfit : off + len ≤ base.length := h
    rw [piece, size, List.length_take, List.length_drop]
    omega
  | insert bytes => rfl
  | skip => rfl

theorem slice_min_eq (off len : ℕ) (base : Bytes) :
    Text.slice off (min (off + len) base.length) base = (base.drop off).take len := by
  rw [Text.slice]
  rcases Nat.le_total (off + len) base.length with hle | hle
  · rw [Nat.min_eq_left hle, Nat.add_sub_cancel_left]
  · rw [Nat.min_eq_right hle, List.take_of_length_le, List.take_of_length_le]
    · rw [List.length_drop]
      omega
    · rw [List.length_drop]

/-- Running a command panics if it copies from behind the base. -/
theorem run_ok_iff : c.run base = .ok out ↔ c.Starts base ∧ out = c.piece base := by
  cases c with
  | copy off len =>
    rw [run, cutBytes_ok_iff, slice_min_eq]
    constructor
    · rintro ⟨hstart, -, hout⟩
      exact ⟨hstart.trans (Nat.min_le_right _ _), hout⟩
    · rintro ⟨hstart, hout⟩
      exact ⟨le_min (Nat.le_add_right _ _) hstart, Nat.min_le_right _ _, hout⟩
  | insert bytes =>
    constructor
    · intro h
      cases h
      exact ⟨trivial, rfl⟩
    · rintro ⟨-, rfl⟩
      rfl
  | skip =>
    constructor
    · intro h
      cases h
      exact ⟨trivial, rfl⟩
    · rintro ⟨-, rfl⟩
      rfl

end Command

section Applying

variable {checks : Bool} {base out delta result : Bytes} {cs : List Command} {d : Delta}

theorem Reads.unique {cs' : List Command} (h : Reads delta cs) (h' : Reads delta cs') :
    cs = cs' := by
  induction h generalizing cs' with
  | nil =>
    cases h'
    rfl
  | cons hread hrest ih =>
    cases h' with
    | cons hread' hrest' =>
      rw [hread] at hread'
      cases hread'
      rw [ih hrest']

/-- The loop adds what the commands stand for. -/
theorem deltaLoop_ok_iff : deltaLoop base out delta = .ok result ↔
    ∃ cs, Reads delta cs ∧ (∀ c ∈ cs, c.Starts base) ∧
      result = out ++ cs.flatMap (·.piece base) := by
  induction out, delta using deltaLoop.induct base with
  | case1 out =>
    rw [deltaLoop]
    constructor
    · intro h
      cases h
      exact ⟨[], .nil, nofun, (List.append_nil _).symm⟩
    · rintro ⟨cs, hreads, -, rfl⟩
      cases hreads
      rw [List.flatMap_nil, List.append_nil]
  | case2 out cmd rest e hread =>
    refine iff_of_false ?_ ?_
    · rw [deltaLoop]
      split
      · nofun
      · next hread' => rw [hread] at hread'; cases hread'
    · rintro ⟨cs, hreads, -⟩
      cases hreads with
      | cons hread' hrest =>
        rw [hread] at hread'
        cases hread'
  | case3 out cmd rest c rest' hread e hrun =>
    refine iff_of_false ?_ ?_
    · rw [deltaLoop]
      split
      · nofun
      · next hread' =>
        rw [hread] at hread'
        cases hread'
        rw [hrun]
        nofun
    · rintro ⟨cs, hreads, hstarts, -⟩
      cases hreads with
      | cons hread' hrest =>
        rw [hread] at hread'
        cases hread'
        have hok := Command.run_ok_iff.2 ⟨hstarts _ List.mem_cons_self, rfl⟩
        rw [hrun] at hok
        cases hok
  | case4 out cmd rest c rest' hread piece hrun hle ih =>
    have hstep : deltaLoop base out (cmd :: rest) = deltaLoop base (out ++ piece) rest' := by
      rw [deltaLoop]
      split
      · next hread' => rw [hread] at hread'; cases hread'
      · next hread' =>
        rw [hread] at hread'
        cases hread'
        rw [hrun]
    obtain ⟨hstart, rfl⟩ := Command.run_ok_iff.1 hrun
    rw [hstep, ih]
    constructor
    · rintro ⟨cs, hreads, hstarts, rfl⟩
      refine ⟨c :: cs, .cons hread hreads, List.forall_mem_cons.2 ⟨hstart, hstarts⟩, ?_⟩
      rw [List.flatMap_cons, List.append_assoc]
    · rintro ⟨cs, hreads, hstarts, rfl⟩
      cases hreads with
      | cons hread' hrest =>
        rw [hread] at hread'
        cases hread'
        refine ⟨_, hrest, (List.forall_mem_cons.1 hstarts).2, ?_⟩
        rw [List.flatMap_cons, List.append_assoc]

theorem Parses.unique {d' : Delta} (h : Parses checks delta d) (h' : Parses checks delta d') :
    d = d' := by
  obtain ⟨src, rest, body, hsrc, htarget, hreads⟩ := h
  obtain ⟨src', rest', body', hsrc', htarget', hreads'⟩ := h'
  rw [hsrc] at hsrc'
  cases hsrc'
  rw [htarget] at htarget'
  obtain ⟨hsize, hbody⟩ := Prod.mk.inj (Except.ok.inj htarget')
  exact Delta.ext hsize (hreads.unique (hbody ▸ hreads'))

/-- Applying a delta returns if it can be read and no copy begins behind the base. -/
theorem applyDelta_ok_iff : applyDelta checks base delta = .ok result ↔
    ∃ d, Parses checks delta d ∧ d.targetSize < 2 ^ 63 ∧ (∀ c ∈ d.commands, c.Starts base) ∧
      result = d.commands.flatMap (·.piece base) := by
  unfold applyDelta
  constructor
  · intro h
    obtain ⟨src, hsrc, h⟩ := Except.bind_eq_ok.1 h
    obtain ⟨target, htarget, h⟩ := Except.bind_eq_ok.1 h
    obtain ⟨_, hroom, h⟩ := Except.bind_eq_ok.1 h
    obtain ⟨cs, hreads, hstarts, rfl⟩ := deltaLoop_ok_iff.1 h
    exact ⟨⟨target.1, cs⟩, ⟨src.1, src.2, target.2, hsrc, htarget, hreads⟩,
      withCapacity_ok_iff.1 hroom, hstarts, List.nil_append _⟩
  · rintro ⟨d, ⟨src, rest, body, hsrc, htarget, hreads⟩, hroom, hstarts, rfl⟩
    refine Except.bind_eq_ok.2 ⟨_, hsrc, Except.bind_eq_ok.2 ⟨_, htarget, ?_⟩⟩
    refine Except.bind_eq_ok.2 ⟨_, withCapacity_ok_iff.2 hroom, ?_⟩
    exact deltaLoop_ok_iff.2 ⟨d.commands, hreads, hstarts, (List.nil_append _).symm⟩

/-- `apply_delta` can read what it is given and copies from within the base or its end. -/
def Applies (checks : Bool) (base delta : Bytes) : Prop :=
  ∃ d, Parses checks delta d ∧ d.targetSize < 2 ^ 63 ∧ ∀ c ∈ d.commands, c.Starts base

theorem applies_iff : (∃ result, applyDelta checks base delta = .ok result) ↔
    Applies checks base delta := by
  simp only [applyDelta_ok_iff]
  constructor
  · rintro ⟨result, d, hparse, hroom, hstarts, -⟩
    exact ⟨d, hparse, hroom, hstarts⟩
  · rintro ⟨d, hparse, hroom, hstarts⟩
    exact ⟨_, d, hparse, hroom, hstarts, rfl⟩

/-- It returns as many bytes as the delta says, made of copies that lie in the base. -/
def Exact (checks : Bool) (base delta : Bytes) : Prop :=
  ∃ result d, applyDelta checks base delta = .ok result ∧ Parses checks delta d ∧
    (∀ c ∈ d.commands, c.InRange base) ∧ result = d.commands.flatMap (·.piece base) ∧
    result.length = d.targetSize

/-- The delta can be read, its copies lie in the base, and its commands add up to the size
that it names. -/
def Fits (checks : Bool) (base delta : Bytes) : Prop :=
  ∃ d, Parses checks delta d ∧ d.targetSize < 2 ^ 63 ∧ (∀ c ∈ d.commands, c.InRange base) ∧
    (d.commands.map Command.size).sum = d.targetSize

theorem length_pieces (h : ∀ c ∈ cs, c.InRange base) :
    (cs.flatMap (·.piece base)).length = (cs.map Command.size).sum := by
  rw [List.length_flatMap]
  exact congrArg List.sum (List.map_congr_left fun c hc => (h c hc).length_piece)

theorem exact_iff : Exact checks base delta ↔ Fits checks base delta := by
  constructor
  · rintro ⟨result, d, happly, hparse, hrange, rfl, hlength⟩
    obtain ⟨d', hparse', hroom, -, -⟩ := applyDelta_ok_iff.1 happly
    rw [hparse'.unique hparse] at hroom
    exact ⟨d, hparse, hroom, hrange, (length_pieces hrange).symm.trans hlength⟩
  · rintro ⟨d, hparse, hroom, hrange, hsum⟩
    refine ⟨_, d, applyDelta_ok_iff.2 ⟨d, hparse, hroom, fun c hc => (hrange c hc).starts, rfl⟩,
      hparse, hrange, rfl, ?_⟩
    rw [length_pieces hrange, hsum]

end Applying

end HoneNode.LinkGit
