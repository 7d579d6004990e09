import HoneNode.Contracts.Storage
import HoneNode.Lib.Borsh

/-!
# Contracts.Sdk — contract code and its lookup maps

What a contract does with its storage (`env.rs`, `storage.rs`): code runs on the
storage of a call, asks for operations and may panic. A lookup map keeps each value
under its prefix and the key, and the state of a contract is read at the start of a
call and written at its end.
-/

namespace HoneNode.Contracts.Sdk

open Borsh

/-! ## Code -/

/-- What code returns and the operations it has asked for, or none if it panics. -/
def Code (α : Type) := StorageKv → Option (α × List StorageOp)

variable {α β : Type}

instance : Monad Code where
  pure a := fun _ => some (a, [])
  bind x f := fun st => (x st).bind fun r =>
    (f r.1 (st.runAll r.2)).map fun r' => (r'.1, r.2 ++ r'.2)

namespace Code

def panic : Code α := fun _ => none

def unwrap (o : Option α) : Code α := fun _ => o.map (·, [])

def require (c : Prop) [Decidable c] : Code Unit := if c then pure () else panic

def storageRead (key : Bytes) : Code (Option Bytes) := fun st => some (st.read key, [.read key])

def storageWrite (key value : Bytes) : Code Unit := fun _ => some ((), [.write key value])

/-- The code returns `a` and asks for these operations. -/
def Runs (x : Code α) (st : StorageKv) (a : α) (ops : List StorageOp) : Prop := x st = some (a, ops)

def Panics (x : Code α) (st : StorageKv) : Prop := x st = none

variable {x : Code α} {f : α → Code β} {st : StorageKv} {a : α} {b : β} {ops later : List StorageOp}

theorem runs_pure (a : α) : Runs (pure a) st a [] := rfl

theorem runs_unwrap {o : Option α} (h : o = some a) : Runs (unwrap o) st a [] := by
  unfold unwrap Runs
  rw [h]
  rfl

theorem panics_unwrap {o : Option α} (h : o = none) : Panics (unwrap o) st := by
  unfold unwrap Panics
  rw [h]
  rfl

theorem runs_storageRead (key : Bytes) : Runs (storageRead key) st (st.read key) [.read key] := rfl

theorem runs_storageWrite (key value : Bytes) :
    Runs (storageWrite key value) st () [.write key value] := rfl

theorem Runs.bind (hx : Runs x st a ops) (hf : Runs (f a) (st.runAll ops) b later) :
    Runs (x >>= f) st b (ops ++ later) := by
  show (x st).bind _ = _
  rw [hx, Option.bind_some, hf]
  rfl

theorem Runs.bind_panics (hx : Runs x st a ops) (hf : Panics (f a) (st.runAll ops)) :
    Panics (x >>= f) st := by
  show (x st).bind _ = _
  rw [hx, Option.bind_some, hf]
  rfl

theorem Panics.bind (hx : Panics x st) (f : α → Code β) : Panics (x >>= f) st := by
  show (x st).bind _ = _
  rw [hx]
  rfl

theorem runs_require {c : Prop} [Decidable c] (h : c) : Runs (require c) st () [] := by
  unfold require
  rw [if_pos h]
  exact runs_pure ()

theorem panics_require {c : Prop} [Decidable c] (h : ¬ c) : Panics (require c) st := by
  unfold require
  rw [if_neg h]
  rfl

end Code

/-! ## Storage in a call -/

section Reads

variable {st : StorageKv} {m : ByteMap} {key key' value : Bytes}

theorem read_fresh (m : ByteMap) (key : Bytes) : (StorageKv.fresh m).read key = m.lookup key := by
  unfold StorageKv.fresh StorageKv.read
  simp

theorem read_write (h : key ≠ key') : (st.write key value).read key' = st.read key' := by
  unfold StorageKv.write StorageKv.read
  simp [AList.lookup_insert_ne (Ne.symm h)]

theorem read_write_self : (st.write key value).read key = some value := by
  unfold StorageKv.write StorageKv.read
  simp

end Reads

/-! ## Lookup maps -/

/-- `LookupMap`: the values are kept apart by a prefix. -/
structure LookupMap (K V : Type) where
  keyPrefix : Bytes
deriving DecidableEq, Repr

namespace LookupMap

variable {K V : Type} [Borsh K] [Borsh V] (map : LookupMap K V)

omit [Borsh V] in
def makeKey (key : K) : Code Bytes := Code.unwrap ((serialize key).map (map.keyPrefix ++ ·))

def get (key : K) : Code (Option V) := do
  let rawKey ← map.makeKey key
  return (← Code.storageRead rawKey).bind tryFromSlice

def insert (key : K) (value : V) : Code Unit := do
  let rawKey ← map.makeKey key
  Code.storageWrite rawKey (← Code.unwrap (serialize value))

instance : Borsh (LookupMap K V) := Borsh.via keyPrefix LookupMap.mk fun _ => rfl

end LookupMap

/-! ## The state of a contract -/

def stateKey : Bytes := Text.bytes "__state"

section State

variable {σ : Type} [Borsh σ]

/-- `__load`. -/
def load : Code σ := do
  Code.unwrap ((← Code.storageRead stateKey).bind tryFromSlice)

/-- `__save`. -/
def save (contract : σ) : Code Unit := do
  Code.storageWrite stateKey (← Code.unwrap (serialize contract))

variable {contract : σ} {bytes : Bytes} {st : StorageKv}

theorem runs_load (hread : st.read stateKey = some bytes)
    (hbytes : serialize contract = some bytes) :
    Code.Runs (load : Code σ) st contract [.read stateKey] := by
  refine (Code.runs_storageRead _).bind (Code.runs_unwrap ?_)
  rw [hread, Option.bind_some, tryFromSlice_serialize hbytes]

end State

/-! ## Calls -/

section Calls

variable {σ : Type} [Borsh σ]

/-- What a call returns, none if it fails. -/
def answer (x : Code α) (m : ByteMap) : Option α := (x (StorageKv.fresh m)).map Prod.fst

/-- The storage after a call; a call that fails leaves it. -/
def after (x : Code α) (m : ByteMap) : ByteMap :=
  match x (StorageKv.fresh m) with
  | some (_, ops) => plain m ops
  | none => m

/-- A method that may change the state. -/
def change (method : σ → Code (σ × α)) : Code α := do
  let contract ← load
  let (contract, shown) ← method contract
  save contract
  return shown

/-- A method that shows something. -/
def view (method : σ → Code α) : Code α := do method (← load)

variable {x : Code α} {m : ByteMap} {a : α} {ops : List StorageOp}

theorem answer_of_runs (h : Code.Runs x (StorageKv.fresh m) a ops) : answer x m = some a := by
  unfold answer
  rw [h]
  rfl

theorem after_of_runs (h : Code.Runs x (StorageKv.fresh m) a ops) : after x m = plain m ops := by
  unfold after
  rw [h]

theorem after_of_panics (h : Code.Panics x (StorageKv.fresh m)) :
    answer x m = none ∧ after x m = m := by
  unfold answer after
  rw [h]
  exact ⟨rfl, rfl⟩

end Calls

end HoneNode.Contracts.Sdk
