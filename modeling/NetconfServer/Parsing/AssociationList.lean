import NetconfServer.Library.Bounded
import NetconfServer.Parsing.KeyValuePairArray

/-! # The array as an association list

Whatever calls follow `init_key_value_array`, the array is the bounded list of the pairs that were
added, and a lookup gives the first pair of its key. A block that was refused is an array that stays
empty: the first pair that has room is written through the `NULL`.
-/

namespace NetconfServer.Parsing
open Memory CString Library KeyValuePairArray

/-- What an initialised array holds. -/
inductive Contents (cap : ℕ) where
  | granted (pairs : Bounded KeyValuePair cap)
  | refused

namespace Contents
variable {cap : ℕ}

def stored : Contents cap → Bounded KeyValuePair cap
  | granted pairs => pairs
  | refused => .empty

def hasBlock : Contents cap → Bool
  | granted _ => true
  | refused => false

abbrev entries (c : Contents cap) : List KeyValuePair := c.stored.entries

def toArray (rt : Cell (Option CString)) : Contents cap → KeyValuePairArray
  | granted pairs => holding cap pairs.entries rt
  | refused => KeyValuePairArray.refused cap rt

variable {rt : Cell (Option CString)} {c : Contents cap} {pairs : Bounded KeyValuePair cap}

@[simp] theorem toArray_size : (c.toArray rt).size = .set c.entries.length := by
  cases c <;> rfl

@[simp] theorem toArray_capacity : (c.toArray rt).capacity = .set cap := by
  cases c <;> rfl

@[simp] theorem toArray_requestType : (c.toArray rt).requestType = rt := by
  cases c <;> rfl

theorem setRequestType_toArray (c : Contents cap) (rt rt' : Cell (Option CString)) :
    { c.toArray rt with requestType := rt' } = c.toArray rt' := by
  cases c <;> rfl

theorem slot_toArray {i : ℕ} (h : i < c.entries.length) :
    (c.toArray rt).slot i = pure c.entries[i] := by
  cases c with
  | granted pairs => exact slot_eq h
  | refused => cases h

theorem findKey_toArray (key : CString) :
    findKey (c.toArray rt) key c.entries.length 0 = search key c.entries := by
  cases c with
  | granted pairs => exact findKey_eq key _ 0 (Nat.zero_add _)
  | refused => rfl

theorem addKeyValue_at_capacity (h : c.entries.length = cap) (kv : KeyValuePair) :
    addKeyValue (c.toArray rt) kv = pure (c.toArray rt, FAIL) := by
  cases c with
  | granted pairs => exact addKeyValue_full_eq h kv
  | refused => exact if_pos h

theorem addKeyValue_granted (h : pairs.entries.length < cap) (kv : KeyValuePair) :
    addKeyValue ((granted pairs).toArray rt) kv =
      pure ((granted (pairs.push kv)).toArray rt, SUCCESS) := by
  rw [toArray, toArray, Bounded.push_room h]
  exact addKeyValue_room_eq h kv

theorem addKeyValue_refused (h : 0 < cap) (kv : KeyValuePair) :
    addKeyValue ((refused : Contents cap).toArray rt) kv = fault .nullPointer :=
  if_neg h.ne

/-- What `add_key_value` does: a full array stays as it is, one with a block gets the pair, and without
a block the pair is written through the `NULL`. -/
theorem addKeyValue_cases (c : Contents cap) (rt : Cell (Option CString)) (kv : KeyValuePair) :
    (c.hasBlock = false ∧ addKeyValue (c.toArray rt) kv = fault .nullPointer) ∨
    ∃ c' : Contents cap, c'.stored = c.stored.push kv ∧ c'.hasBlock = c.hasBlock ∧
      (c.entries.length = cap ∧ c' = c ∧ addKeyValue (c.toArray rt) kv = pure (c'.toArray rt, FAIL) ∨
        c.entries.length < cap ∧ addKeyValue (c.toArray rt) kv = pure (c'.toArray rt, SUCCESS)) := by
  rcases Nat.lt_or_eq_of_le c.stored.fits with hroom | hfull
  · cases c with
    | granted pairs =>
      exact .inr ⟨granted (pairs.push kv), rfl, rfl, .inr ⟨hroom, addKeyValue_granted hroom kv⟩⟩
    | refused => exact .inl ⟨rfl, addKeyValue_refused hroom kv⟩
  · exact .inr ⟨c, (Bounded.push_full hfull).symm, rfl,
      .inl ⟨hfull, rfl, addKeyValue_at_capacity hfull kv⟩⟩

theorem addKeyValue_returns (h : c.hasBlock = true) (kv : KeyValuePair) :
    ∃ c' : Contents cap, c'.stored = c.stored.push kv ∧ c'.hasBlock = true ∧
      ∃ code, addKeyValue (c.toArray rt) kv = pure (c'.toArray rt, code) := by
  rcases c.addKeyValue_cases rt kv with ⟨hnone, -⟩ | ⟨c', hstored, hblock, hadd⟩
  · exact absurd (h.symm.trans hnone) (by decide)
  · refine ⟨c', hstored, hblock.trans h, ?_⟩
    rcases hadd with ⟨-, -, hadd⟩ | ⟨-, hadd⟩
    · exact ⟨FAIL, hadd⟩
    · exact ⟨SUCCESS, hadd⟩

theorem addKeyValue_ok {kv : KeyValuePair} {supply supply' : Supply} {array : KeyValuePairArray}
    {code : ℤ} (h : addKeyValue (c.toArray rt) kv supply = .ok ((array, code), supply')) :
    (∃ c' : Contents cap, array = c'.toArray rt ∧ c'.stored = c.stored.push kv ∧
      c'.hasBlock = c.hasBlock) ∧
      (c.entries.length = cap ∧ array = c.toArray rt ∧ code = FAIL ∨
        c.entries.length < cap ∧ code = SUCCESS) := by
  rcases c.addKeyValue_cases rt kv with ⟨-, hfault⟩ |
    ⟨c', hstored, hblock, ⟨hfull, rfl, hadd⟩ | ⟨hroom, hadd⟩⟩
  · rw [hfault] at h
    cases h
  · rw [hadd] at h
    cases h
    exact ⟨⟨c', rfl, hstored, rfl⟩, .inl ⟨hfull, rfl, rfl⟩⟩
  · rw [hadd] at h
    cases h
    exact ⟨⟨c', rfl, hstored, hblock⟩, .inr ⟨hroom, rfl⟩⟩

theorem getKey_toArray (key : CString) :
    getKey (c.toArray rt) key = (do
      match ← search key c.entries with
      | some _ => return SUCCESS
      | none => return FAIL) := by
  rw [getKey, toArray_size, ← findKey_toArray]
  rfl

theorem getValue_toArray (key : CString) (value : Option (List UInt8)) :
    getValue (c.toArray rt) key value = (do
      match ← search key c.entries with
      | some kv => return (kv.value, SUCCESS)
      | none => return (value, FAIL)) := by
  rw [getValue, toArray_size, ← findKey_toArray]
  rfl

/-- The contents right after `init_key_value_array`. -/
def fresh (grant : Bool) : Contents cap := if grant then granted .empty else refused

theorem stored_fresh (grant : Bool) : (fresh grant : Contents cap).stored = .empty := by
  cases grant <;> rfl

theorem initKeyValueArray_toArray (array : KeyValuePairArray) (capacity : UInt8) :
    initKeyValueArray array capacity = (do
      let grant ← malloc
      return ((fresh grant : Contents (min capacity.toNat 10)).toArray array.requestType,
        SUCCESS)) := by
  rw [initKeyValueArray_eq]
  congr 1
  funext grant
  cases grant <;> rfl

end Contents

/-! ## Sequences of calls -/

inductive Call where
  | addKeyValue (kv : KeyValuePair)
  | getKey (key : CString)
  | getValue (key : CString) (value : Option (List UInt8))

def Call.run (array : KeyValuePairArray) : Call → Exec KeyValuePairArray
  | addKeyValue kv => do
    let (array, _) ← Parsing.addKeyValue array kv
    return array
  | getKey key => do
    let _ ← Parsing.getKey array key
    return array
  | getValue key value => do
    let _ ← Parsing.getValue array key value
    return array

def afterCalls (array : KeyValuePairArray) (capacity : UInt8) (calls : List Call) :
    Exec KeyValuePairArray := do
  let (array, _) ← initKeyValueArray array capacity
  calls.foldlM Call.run array

def Call.added? : Call → Option KeyValuePair
  | addKeyValue kv => some kv
  | _ => none

/-- The pairs passed to `add_key_value`, in order. -/
def added (calls : List Call) : List KeyValuePair := calls.filterMap Call.added?

/-- The array has `room` slots and holds the pairs `stored` in the first of them. -/
structure Stores (array : KeyValuePairArray) (room : ℕ) (stored : List KeyValuePair) : Prop where
  size : array.size = .set stored.length
  capacity : array.capacity = .set room
  fits : stored.length ≤ room
  slots : ∀ i (h : i < stored.length), array.slot i = pure stored[i]

variable {cap : ℕ} {rt : Cell (Option CString)} {c : Contents cap}

theorem Contents.stores (c : Contents cap) (rt : Cell (Option CString)) :
    Stores (c.toArray rt) cap c.entries :=
  ⟨toArray_size, toArray_capacity, c.stored.fits, fun _ => slot_toArray⟩

/-- A lookup goes by the first pair of the key, unless it compares a `NULL` key before that. -/
theorem Contents.lookup (c : Contents cap) (rt : Cell (Option CString)) (key : CString)
    (value : Option (List UInt8)) :
    ((∀ kv ∈ passed key c.entries, kv.key ≠ none) →
      getKey (c.toArray rt) key =
          pure (if some key ∈ c.entries.map KeyValuePair.key then SUCCESS else FAIL) ∧
        getValue (c.toArray rt) key value = pure (match c.entries.find? (·.key = some key) with
          | some kv => (kv.value, SUCCESS)
          | none => (value, FAIL))) ∧
    ((∃ kv ∈ passed key c.entries, kv.key = none) →
      getKey (c.toArray rt) key = fault .nullPointer ∧
        getValue (c.toArray rt) key value = fault .nullPointer) := by
  rw [getKey_toArray, getValue_toArray]
  constructor
  · intro hkeys
    rw [search_eq hkeys, pure_bind, pure_bind]
    cases hfind : c.entries.find? (·.key = some key) with
    | none =>
      have hmem : ¬ some key ∈ c.entries.map KeyValuePair.key := by
        intro hmem
        obtain ⟨kv, hkv, hk⟩ := List.mem_map.mp hmem
        simpa [hk] using List.find?_eq_none.mp hfind kv hkv
      rw [if_neg hmem]
      exact ⟨rfl, rfl⟩
    | some kv =>
      have hk : kv.key = some key := by simpa using List.find?_some hfind
      rw [if_pos (List.mem_map.mpr ⟨kv, List.mem_of_find?_eq_some hfind, hk⟩)]
      exact ⟨rfl, rfl⟩
  · intro hnull
    rw [search_fault hnull]
    exact ⟨rfl, rfl⟩

/-- A call adds its pair while there is room and changes nothing else. -/
theorem Call.run_ok {call : Call} {supply supply' : Supply} {array : KeyValuePairArray}
    (h : call.run (c.toArray rt) supply = .ok (array, supply')) :
    ∃ c' : Contents cap, array = c'.toArray rt ∧ c'.stored = c.stored.pushAll (added [call]) ∧
      c'.hasBlock = c.hasBlock := by
  cases call with
  | addKeyValue kv =>
    obtain ⟨⟨array', code⟩, supply₁, hadd, hret⟩ := bind_eq_ok.mp h
    cases hret
    exact (Contents.addKeyValue_ok hadd).1
  | getKey key =>
    obtain ⟨code, supply₁, -, hret⟩ := bind_eq_ok.mp h
    cases hret
    exact ⟨c, rfl, rfl, rfl⟩
  | getValue key value =>
    obtain ⟨found, supply₁, -, hret⟩ := bind_eq_ok.mp h
    cases hret
    exact ⟨c, rfl, rfl, rfl⟩

theorem added_cons (call : Call) (calls : List Call) :
    added (call :: calls) = added [call] ++ added calls :=
  @List.filterMap_append _ _ [call] calls Call.added?

theorem runs_ok {calls : List Call} {supply supply' : Supply} {array : KeyValuePairArray}
    (h : calls.foldlM Call.run (c.toArray rt) supply = .ok (array, supply')) :
    ∃ c' : Contents cap, array = c'.toArray rt ∧ c'.stored = c.stored.pushAll (added calls) ∧
      c'.hasBlock = c.hasBlock := by
  induction calls generalizing c supply with
  | nil =>
    cases h
    exact ⟨c, rfl, rfl, rfl⟩
  | cons call calls ih =>
    rw [List.foldlM_cons] at h
    obtain ⟨array₁, supply₁, hcall, hcalls⟩ := bind_eq_ok.mp h
    obtain ⟨c₁, rfl, hstored₁, hblock₁⟩ := Call.run_ok hcall
    obtain ⟨c', rfl, hstored, hblock⟩ := ih hcalls
    refine ⟨c', rfl, ?_, hblock.trans hblock₁⟩
    rw [hstored, hstored₁, added_cons call calls, Bounded.pushAll_append]

/-- With a block and with keys, every call returns. -/
theorem runs_return {calls : List Call} (hblock : c.hasBlock = true)
    (hkeys : ∀ kv ∈ c.entries ++ added calls, kv.key ≠ none) :
    ∃ c' : Contents cap, calls.foldlM Call.run (c.toArray rt) = pure (c'.toArray rt) := by
  induction calls generalizing c with
  | nil => exact ⟨c, rfl⟩
  | cons call calls ih =>
    have hpassed (key : CString) : ∀ kv ∈ passed key c.entries, kv.key ≠ none := fun kv hkv =>
      hkeys kv (List.mem_append_left _ ((List.takeWhile_prefix _).subset hkv))
    rw [List.foldlM_cons]
    cases call with
    | addKeyValue kv =>
      obtain ⟨c', hstored, hblock', code, hadd⟩ := Contents.addKeyValue_returns hblock kv
      rw [Call.run, hadd]
      apply ih hblock'
      intro kv' hkv'
      apply hkeys
      rw [added_cons, ← List.append_assoc]
      rw [Contents.entries, hstored] at hkv'
      rcases List.mem_append.mp hkv' with hheld | hnew
      · exact List.mem_append_left _ (List.mem_of_mem_take hheld)
      · exact List.mem_append_right _ hnew
    | getKey key =>
      rw [Call.run, ((c.lookup rt key none).1 (hpassed key)).1]
      exact ih hblock hkeys
    | getValue key value =>
      rw [Call.run, ((c.lookup rt key value).1 (hpassed key)).2]
      exact ih hblock hkeys

theorem afterCalls_eq (array : KeyValuePairArray) (capacity : UInt8) (calls : List Call)
    (supply : Supply) :
    afterCalls array capacity calls supply =
      calls.foldlM Call.run
        ((Contents.fresh (supply 0) : Contents (min capacity.toNat 10)).toArray array.requestType)
        (fun n => supply (n + 1)) := by
  rw [afterCalls, Contents.initKeyValueArray_toArray]
  rfl

/-- The array is a bounded list that is searched for the first pair of a key. It returns from every
sequence of calls in which the block is granted and the pairs have keys, and whenever it has returned,
it holds the first pairs that were added, answers the next `add_key_value` by whether there is room
and answers every lookup by the first pair of the key. -/
theorem array_refines_list (array₀ : KeyValuePairArray) (capacity : UInt8) (calls : List Call) :
    (∀ supply, supply 0 = true → (∀ kv ∈ added calls, kv.key ≠ none) →
      ∃ r, afterCalls array₀ capacity calls supply = .ok r) ∧
    ∀ supply array supply', afterCalls array₀ capacity calls supply = .ok (array, supply') →
      let room := min capacity.toNat 10
      let stored := (added calls).take room
      Stores array room stored ∧
      (supply 0 = true → ∀ kv, ∃ r, addKeyValue array kv = pure r) ∧
      (∀ kv before array' code after,
        addKeyValue array kv before = .ok ((array', code), after) →
        (code = SUCCESS ↔ (added calls).length < room) ∧
        (code = SUCCESS ∨ code = FAIL ∧ array' = array)) ∧
      ∀ key value,
        ((∀ kv ∈ passed key stored, kv.key ≠ none) →
          getKey array key =
              pure (if some key ∈ stored.map KeyValuePair.key then SUCCESS else FAIL) ∧
            getValue array key value = pure (match stored.find? (·.key = some key) with
              | some kv => (kv.value, SUCCESS)
              | none => (value, FAIL))) ∧
        ((∃ kv ∈ passed key stored, kv.key = none) →
          getKey array key = fault .nullPointer ∧
            getValue array key value = fault .nullPointer) := by
  constructor
  · intro supply hgrant hkeys
    obtain ⟨c, hruns⟩ := @runs_return _ array₀.requestType
      (.fresh true : Contents (min capacity.toNat 10)) calls rfl hkeys
    rw [afterCalls_eq, hgrant]
    exact ⟨_, congrFun hruns _⟩
  · intro supply array supply' hcalls room stored
    rw [afterCalls_eq] at hcalls
    obtain ⟨c, rfl, hstored, hblock⟩ := runs_ok hcalls
    have hentries : c.entries = stored := by
      rw [Contents.entries, hstored, Contents.stored_fresh, Bounded.pushAll_entries]
      rfl
    rw [← hentries]
    refine ⟨c.stores _, ?_, ?_, c.lookup _⟩
    · intro hgrant kv
      rw [hgrant] at hblock
      obtain ⟨c', -, -, code, hadd⟩ := @Contents.addKeyValue_returns _ array₀.requestType _ hblock kv
      exact ⟨_, hadd⟩
    · intro kv before array' code after hadd
      have hlength : c.entries.length = min room (added calls).length := by
        rw [hentries, List.length_take]
      rcases (Contents.addKeyValue_ok hadd).2 with ⟨hfull, hsame, rfl⟩ | ⟨hroom, rfl⟩
      · refine ⟨iff_of_false (by decide) ?_, .inr ⟨rfl, hsame⟩⟩
        omega
      · refine ⟨iff_of_true rfl ?_, .inl rfl⟩
        omega

end NetconfServer.Parsing
