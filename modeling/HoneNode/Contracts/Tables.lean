import HoneNode.Contracts.Sdk

/-!
# Contracts.Tables — contracts that only add to their maps

Code that deletes nothing finds in a call what it has written, and leaves what it
finds at its end. So what a call does is shown from back to front: `Ends x st F Q`
says that `Q` holds where the code comes to its end and `F` if it fails, and has a
rule for each thing that code does. The maps of a contract are known by what they
are seen to have (`Sees`).
-/

namespace HoneNode.Contracts.Sdk

open Borsh

section Ends

variable {α β : Type} {x : Code α} {f : α → Code β} {st : StorageKv} {m : ByteMap} {F : Prop}
  {Q : α → StorageKv → Prop} {R : β → StorageKv → Prop} {ops : List StorageOp} {a : α}

/-- The code fails and `F` holds, or it comes to its end, has deleted nothing, and what it returns
and leaves meets `Q`. -/
def Ends (x : Code α) (st : StorageKv) (F : Prop) (Q : α → StorageKv → Prop) : Prop :=
  (Code.Panics x st ∧ F) ∨ ∃ a ops, Code.Runs x st a ops ∧
    (∀ key, StorageOp.delete key ∉ ops) ∧ Q a (st.runAll ops)

theorem ends_of_runs (hrun : Code.Runs x st a ops) (hops : ∀ key, StorageOp.delete key ∉ ops)
    (h : Q a (st.runAll ops)) : Ends x st F Q := .inr ⟨a, ops, hrun, hops, h⟩

theorem ends_pure (h : Q a st) : Ends (pure a) st F Q :=
  ends_of_runs (Code.runs_pure a) (fun _ => List.not_mem_nil) h

theorem ends_unwrap {o : Option α} (hnone : o = none → F) (h : ∀ a, o = some a → Q a st) :
    Ends (Code.unwrap o) st F Q := by
  cases o with
  | none => exact .inl ⟨Code.panics_unwrap rfl, hnone rfl⟩
  | some a => exact ends_of_runs (Code.runs_unwrap rfl) (fun _ => List.not_mem_nil) (h a rfl)

theorem ends_require {c : Prop} [Decidable c] {Q : Unit → StorageKv → Prop} (hno : ¬ c → F)
    (h : c → Q () st) : Ends (Code.require c) st F Q := by
  by_cases hc : c
  · exact ends_of_runs (Code.runs_require hc) (fun _ => List.not_mem_nil) (h hc)
  · exact .inl ⟨Code.panics_require hc, hno hc⟩

theorem ends_storageRead {key : Bytes} {Q : Option Bytes → StorageKv → Prop}
    (h : Q (st.read key) st) : Ends (Code.storageRead key) st F Q :=
  ends_of_runs (Code.runs_storageRead key) (fun _ => by simp) h

theorem ends_storageWrite {key value : Bytes} {Q : Unit → StorageKv → Prop}
    (h : Q () (st.write key value)) : Ends (Code.storageWrite key value) st F Q :=
  ends_of_runs (Code.runs_storageWrite key value) (fun _ => by simp) h

theorem Ends.bind (h : Ends x st F fun a st' => Ends (f a) st' F R) : Ends (x >>= f) st F R := by
  rcases h with ⟨hpanics, hf⟩ | ⟨a, ops, hrun, hops, ⟨hpanics, hf⟩ | ⟨b, later, hrunf, hlater, hr⟩⟩
  · exact .inl ⟨hpanics.bind f, hf⟩
  · exact .inl ⟨hrun.bind_panics hpanics, hf⟩
  · refine ends_of_runs (hrun.bind hrunf) (fun key hmem => ?_) ?_
    · exact (List.mem_append.1 hmem).elim (hops key) (hlater key)
    · unfold StorageKv.runAll at hr ⊢
      rwa [List.foldl_append]

/-- What is read after operations that delete nothing is what they leave. -/
theorem read_runAll (hsame : ∀ key, st.read key = m.lookup key)
    (hops : ∀ key, StorageOp.delete key ∉ ops) (key : Bytes) :
    (st.runAll ops).read key = (plain m ops).lookup key := by
  induction ops generalizing st m with
  | nil => exact hsame key
  | cons op ops ih =>
    have hrest : ∀ key, StorageOp.delete key ∉ ops :=
      fun key hmem => hops key (List.mem_cons_of_mem _ hmem)
    cases op with
    | write k v =>
      have hwritten : ∀ key', (st.write k v).read key' = (m.insert k v).lookup key' := by
        intro key'
        by_cases hk : k = key'
        · subst hk
          rw [read_write_self, AList.lookup_insert]
        · rw [read_write hk, AList.lookup_insert_ne (Ne.symm hk), hsame]
      exact ih hwritten hrest
    | delete k => exact absurd List.mem_cons_self (hops k)
    | read k => exact ih hsame hrest
    | hasKey k => exact ih hsame hrest

/-- A call fails and leaves the storage, or it comes to its end and leaves what is read there. -/
theorem Ends.after (h : Ends x (StorageKv.fresh m) F Q) :
    (F ∧ answer x m = none ∧ Sdk.after x m = m) ∨
      ∃ a st, Q a st ∧ answer x m = some a ∧ (Sdk.after x m).lookup = st.read := by
  rcases h with ⟨hpanics, hf⟩ | ⟨a, ops, hrun, hops, hq⟩
  · exact .inl ⟨hf, after_of_panics hpanics⟩
  · refine .inr ⟨a, _, hq, answer_of_runs hrun, funext fun key => ?_⟩
    rw [after_of_runs hrun, read_runAll (read_fresh m) hops]

end Ends

/-! ## Keys -/

section Keys

variable {pre pre' : Bytes} {first second : UInt8}

theorem stateKey_ne (hpre : pre = [first]) (hne : first ≠ 95) (rest : Bytes) :
    stateKey ≠ pre ++ rest := by
  have hkey : stateKey = [95, 95, 115, 116, 97, 116, 101] := by decide
  rw [hkey, hpre]
  intro heq
  exact hne (List.cons.inj heq).1.symm

theorem prefix_ne (hpre : pre = [first]) (hpre' : pre' = [second]) (hne : first ≠ second)
    (rest rest' : Bytes) : pre ++ rest ≠ pre' ++ rest' := by
  rw [hpre, hpre']
  intro heq
  exact hne (List.cons.inj heq).1

end Keys

/-! ## Maps -/

section Sees

variable {K V : Type} [Borsh K] [Borsh V] {map : LookupMap K V} {f : K → Option V}
  {st : StorageKv} {k : K} {v : V} {raw bytes : Bytes} {F : Prop}

/-- Where the map is read it has `f`. -/
def Sees (read : Bytes → Option Bytes) (map : LookupMap K V) (f : K → Option V) : Prop :=
  ∀ k raw, serialize k = some raw → (read (map.keyPrefix ++ raw)).bind tryFromSlice = f k

theorem Sees.insert [DecidableEq K] (h : Sees st.read map f) (hkey : serialize k = some raw)
    (hvalue : serialize v = some bytes) :
    Sees (st.write (map.keyPrefix ++ raw) bytes).read map (Function.update f k (some v)) := by
  intro k' raw' hkey'
  by_cases heq : k' = k
  · subst heq
    cases hkey.symm.trans hkey'
    rw [read_write_self, Option.bind_some, tryFromSlice_serialize hvalue, Function.update_self]
  · rw [Function.update_of_ne heq, read_write, h k' raw' hkey']
    intro hsame
    have hraw := List.append_cancel_left hsame
    subst hraw
    exact heq (serialize_inj hkey' hkey)

/-- A map keeps what it has when something else is written. -/
theorem Sees.write (h : Sees st.read map f) {key : Bytes}
    (hne : ∀ rest, key ≠ map.keyPrefix ++ rest) (value : Bytes) :
    Sees (st.write key value).read map f := by
  intro k' raw' hkey'
  rw [read_write (hne raw'), h k' raw' hkey']

theorem ends_get (h : Sees st.read map f) {Q : Option V → StorageKv → Prop}
    (hno : serialize k = none → F) (hQ : ∀ raw, serialize k = some raw → Q (f k) st) :
    Ends (map.get k) st F Q := by
  refine Ends.bind (ends_unwrap (fun hnone => hno (Option.map_eq_none_iff.1 hnone)) ?_)
  intro rawKey hraw
  obtain ⟨raw, hkey, rfl⟩ := Option.map_eq_some_iff.1 hraw
  refine Ends.bind (ends_storageRead (ends_pure ?_))
  rw [h k raw hkey]
  exact hQ raw hkey

theorem ends_insert {Q : Unit → StorageKv → Prop} (hno : serialize k = none → F)
    (hlong : serialize v = none → F)
    (hQ : ∀ raw bytes, serialize k = some raw → serialize v = some bytes →
      Q () (st.write (map.keyPrefix ++ raw) bytes)) : Ends (map.insert k v) st F Q := by
  refine Ends.bind (ends_unwrap (fun hnone => hno (Option.map_eq_none_iff.1 hnone)) ?_)
  intro rawKey hraw
  obtain ⟨raw, hkey, rfl⟩ := Option.map_eq_some_iff.1 hraw
  exact Ends.bind (ends_unwrap hlong fun bytes hbytes =>
    ends_storageWrite (hQ raw bytes hkey hbytes))

/-- Where the map is read it has `g`, if what it lacks is taken for `d`. -/
def SeesOr (d : V) (read : Bytes → Option Bytes) (map : LookupMap K V) (g : K → V) : Prop :=
  ∃ f, Sees read map f ∧ ∀ k, (f k).getD d = g k

variable {d : V} {g : K → V}

theorem SeesOr.insert [DecidableEq K] (h : SeesOr d st.read map g) (hkey : serialize k = some raw)
    (hvalue : serialize v = some bytes) :
    SeesOr d (st.write (map.keyPrefix ++ raw) bytes).read map (Function.update g k v) := by
  obtain ⟨f, hf, hg⟩ := h
  refine ⟨_, hf.insert hkey hvalue, fun k' => ?_⟩
  by_cases heq : k' = k
  · subst heq
    rw [Function.update_self, Function.update_self, Option.getD_some]
  · rw [Function.update_of_ne heq, Function.update_of_ne heq, hg]

theorem SeesOr.write (h : SeesOr d st.read map g) {key : Bytes}
    (hne : ∀ rest, key ≠ map.keyPrefix ++ rest) (value : Bytes) :
    SeesOr d (st.write key value).read map g := by
  obtain ⟨f, hf, hg⟩ := h
  exact ⟨f, hf.write hne value, hg⟩

theorem ends_getD (h : SeesOr d st.read map g) {Q : V → StorageKv → Prop}
    (hno : serialize k = none → F) (hQ : ∀ raw, serialize k = some raw → Q (g k) st) :
    Ends (do return (← map.get k).getD d) st F Q := by
  obtain ⟨f, hf, hg⟩ := h
  refine Ends.bind (ends_get hf hno fun raw hraw => ends_pure ?_)
  rw [hg]
  exact hQ raw hraw

/-! ### A contract that is only deployed -/

def deployed (wasm : Bytes) : ByteMap := AList.insert (Text.bytes "__wasm") wasm ∅

variable {wasm : Bytes} {byte : UInt8}

theorem sees_deployed (hpre : map.keyPrefix = [byte]) (hne : byte ≠ 95) :
    Sees (StorageKv.fresh (deployed wasm)).read map fun _ => none := by
  have hwasm : Text.bytes "__wasm" = [95, 95, 119, 97, 115, 109] := by decide
  intro k raw _
  rw [read_fresh, deployed, AList.lookup_insert_ne, AList.lookup_empty]
  · rfl
  · rw [hpre, hwasm]
    exact fun heq => hne (List.cons.inj heq).1

theorem seesOr_deployed (hpre : map.keyPrefix = [byte]) (hne : byte ≠ 95) (d : V) :
    SeesOr d (StorageKv.fresh (deployed wasm)).read map fun _ => d :=
  ⟨_, sees_deployed hpre hne, fun _ => rfl⟩

end Sees

/-! ## The state -/

section State

variable {σ α : Type} [Borsh σ] {st : StorageKv} {contract : σ} {bytes : Bytes} {F : Prop}
  {Q : α → StorageKv → Prop}

theorem ends_load (hread : st.read stateKey = some bytes) (hbytes : serialize contract = some bytes)
    {Q : σ → StorageKv → Prop} (h : Q contract st) : Ends load st F Q :=
  ends_of_runs (runs_load hread hbytes) (fun _ => by simp) h

theorem ends_save {Q : Unit → StorageKv → Prop} (hlong : serialize contract = none → F)
    (h : ∀ bytes, serialize contract = some bytes → Q () (st.write stateKey bytes)) :
    Ends (save contract) st F Q :=
  Ends.bind (ends_unwrap hlong fun bytes hbytes => ends_storageWrite (h bytes hbytes))

theorem ends_change {method : σ → Code (σ × α)} (hread : st.read stateKey = some bytes)
    (hbytes : serialize contract = some bytes)
    (hmethod : Ends (method contract) st F fun r st' => (serialize r.1 = none → F) ∧
      ∀ bytes, serialize r.1 = some bytes → Q r.2 (st'.write stateKey bytes)) :
    Ends (change method) st F Q := by
  refine Ends.bind (ends_load hread hbytes (Ends.bind ?_))
  rcases hmethod with hfails | ⟨r, ops, hrun, hops, hlong, hq⟩
  · exact .inl hfails
  · exact ends_of_runs hrun hops (Ends.bind (ends_save hlong fun bytes hsaved =>
      ends_pure (hq bytes hsaved)))

theorem ends_view {method : σ → Code α} (hread : st.read stateKey = some bytes)
    (hbytes : serialize contract = some bytes) (hmethod : Ends (method contract) st F Q) :
    Ends (view method) st F Q := Ends.bind (ends_load hread hbytes hmethod)

end State

end HoneNode.Contracts.Sdk
