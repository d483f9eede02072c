import NetconfServer.Memory.Exec

/-! # The key/value array of one request

A block of at most ten slots is filled from the front. Members and slots that were never assigned
are indeterminate; every access goes through `Cell.read` and is checked against the block.
-/

namespace NetconfServer.Parsing
open Memory

def MAX_CAPACITY : UInt8 := 10
def SUCCESS : ℤ := 0
def FAIL : ℤ := -1

structure KeyValuePair where
  key : Option CString
  value : Option (List UInt8)

structure KeyValuePairArray where
  data : Cell (Option (List (Cell KeyValuePair)))
  size : Cell ℕ
  capacity : Cell ℕ
  requestType : Cell (Option CString)

namespace KeyValuePairArray

def uninitialized : KeyValuePairArray := ⟨.unset, .unset, .unset, .unset⟩

/-- `array->data[i]`. -/
def slot (array : KeyValuePairArray) (i : ℕ) : Exec KeyValuePair := do
  let block ← deref (← array.data.read)
  match block[i]? with
  | none => fault .outOfBounds
  | some kv => kv.read

end KeyValuePairArray

def initKeyValueArray (array : KeyValuePairArray) (capacity : UInt8) :
    Exec (KeyValuePairArray × ℤ) := do
  let capacity := if capacity > MAX_CAPACITY then MAX_CAPACITY else capacity
  let array := { array with capacity := .set capacity.toNat }
  let slots ← array.capacity.read
  let block := if ← malloc then some (List.replicate slots .unset) else none
  let array := { array with data := .set block }
  let array := { array with size := .set 0 }
  return (array, SUCCESS)

def initKeyValuePair (key : CString) (value : Option (List UInt8)) (valueSize : ℕ) :
    Exec (KeyValuePair × ℤ) := do
  let key ← strdup key
  match value with
  | none =>
    -- The block of one byte is written without a check that it was granted.
    if ← malloc then return (⟨key, some [0]⟩, SUCCESS) else fault .nullPointer
  | some value =>
    if ← malloc then
      let copy ← memcpy value valueSize
      return (⟨key, some copy⟩, SUCCESS)
    else return (⟨key, none⟩, FAIL)

def setRequestType (request : CString) (array : KeyValuePairArray) :
    Exec (KeyValuePairArray × ℤ) := do
  let copy ← strdup request
  let array := { array with requestType := .set copy }
  if copy.isNone then return (array, FAIL) else return (array, SUCCESS)

def addKeyValue (array : KeyValuePairArray) (kv : KeyValuePair) :
    Exec (KeyValuePairArray × ℤ) := do
  let size ← array.size.read
  if size = (← array.capacity.read) then return (array, FAIL)
  else
    let block ← deref (← array.data.read)
    if size < block.length then
      return ({ array with data := .set (some (block.set size (.set kv))), size := .set (size + 1) },
        SUCCESS)
    else fault .outOfBounds

/-- The loop over `data[i]` for `i` up to `size`, with `todo` slots to go, that `get_key` and
`get_value` leave at the first key equal to `key`. -/
def findKey (array : KeyValuePairArray) (key : CString) : (todo i : ℕ) → Exec (Option KeyValuePair)
  | 0, _ => return none
  | todo + 1, i => do
    let kv ← array.slot i
    let k ← deref kv.key
    if key = k then return some kv else findKey array key todo (i + 1)

def getKey (array : KeyValuePairArray) (key : CString) : Exec ℤ := do
  match ← findKey array key (← array.size.read) 0 with
  | some _ => return SUCCESS
  | none => return FAIL

/-- Returns the new content of `*value` with the return code. -/
def getValue (array : KeyValuePairArray) (key : CString) (value : Option (List UInt8)) :
    Exec (Option (List UInt8) × ℤ) := do
  match ← findKey array key (← array.size.read) 0 with
  | some kv => return (kv.value, SUCCESS)
  | none => return (value, FAIL)

/-- The same loop with a body that reads the whole slot. -/
def forSlots (array : KeyValuePairArray) (body : KeyValuePair → Exec Unit) :
    (todo i : ℕ) → Exec Unit
  | 0, _ => return ()
  | todo + 1, i => do
    body (← array.slot i)
    forSlots array body todo (i + 1)

/-- The `printf` of `print_all_nodes` for one slot. A string for `%s` is not `NULL` and has an end. -/
def printNode (kv : KeyValuePair) : Exec Unit := do
  let _ ← deref kv.key
  let _ ← readString (← deref kv.value)

def printAllNodes (array : KeyValuePairArray) : Exec ℤ := do
  let _ ← deref (← array.requestType.read)
  forSlots array printNode (← array.size.read) 0
  return SUCCESS

def freeKeyValuePairArray (array : KeyValuePairArray) : Exec ℤ := do
  forSlots array (fun _ => return ()) (← array.size.read) 0
  let _ ← array.requestType.read
  let _ ← array.data.read
  return SUCCESS

/-! ## The array as a bounded list -/

namespace KeyValuePairArray

/-- The array that holds the pairs `l` in its first slots. -/
def holding (cap : ℕ) (l : List KeyValuePair) (requestType : Cell (Option CString)) :
    KeyValuePairArray :=
  ⟨.set (some (l.map .set ++ List.replicate (cap - l.length) .unset)), .set l.length, .set cap,
    requestType⟩

/-- The array after a refused block. -/
def refused (cap : ℕ) (requestType : Cell (Option CString)) : KeyValuePairArray :=
  ⟨.set none, .set 0, .set cap, requestType⟩

variable {cap : ℕ} {l : List KeyValuePair} {rt : Cell (Option CString)}

theorem slot_eq {i : ℕ} (h : i < l.length) : (holding cap l rt).slot i = pure l[i] := by
  have hget : (l.map Cell.set ++ List.replicate (cap - l.length) Cell.unset)[i]? =
      some (.set l[i]) := by
    rw [List.getElem?_append_left (by simpa using h)]
    simp [h]
  change (match (l.map Cell.set ++ List.replicate (cap - l.length) Cell.unset)[i]? with
    | none => fault .outOfBounds
    | some kv => kv.read) = _
  rw [hget]
  rfl

theorem slot_yields {i : ℕ} (h : i < l.length) : Yields ((holding cap l rt).slot i) l[i] :=
  .of_eq (slot_eq h)

end KeyValuePairArray

open KeyValuePairArray
variable {cap : ℕ} {l : List KeyValuePair} {rt : Cell (Option CString)}

theorem capacity_clamped (capacity : UInt8) :
    (if capacity > MAX_CAPACITY then MAX_CAPACITY else capacity).toNat = min capacity.toNat 10 := by
  split
  · rename_i h
    have h10 : 10 < capacity.toNat := UInt8.lt_iff_toNat_lt.mp h
    change 10 = _
    omega
  · rename_i h
    have h10 : ¬ 10 < capacity.toNat := fun hlt => h (UInt8.lt_iff_toNat_lt.mpr hlt)
    omega

theorem initKeyValueArray_eq (array : KeyValuePairArray) (capacity : UInt8) :
    initKeyValueArray array capacity = (do
      let granted ← malloc
      return (if granted then holding (min capacity.toNat 10) [] array.requestType
        else refused (min capacity.toNat 10) array.requestType, SUCCESS)) := by
  rw [← capacity_clamped]
  simp only [initKeyValueArray, Cell.read, pure_bind]
  congr 1
  funext granted
  cases granted <;> rfl

theorem initKeyValueArray_yields (array : KeyValuePairArray) (capacity : UInt8) :
    Yields (initKeyValueArray array capacity)
      (holding (min capacity.toNat 10) [] array.requestType, SUCCESS) := by
  rw [initKeyValueArray_eq]
  exact malloc_yields.bind Yields.pure

theorem setRequestType_yields (request : CString) :
    Yields (setRequestType request (holding cap l rt))
      (holding cap l (.set (some request)), SUCCESS) :=
  (strdup_yields request).bind Yields.pure

theorem initKeyValuePair_null_yields (key : CString) (size : ℕ) :
    Yields (initKeyValuePair key none size) (⟨some key, some [0]⟩, SUCCESS) :=
  (strdup_yields key).bind (malloc_yields.bind Yields.pure)

theorem initKeyValuePair_yields (key : CString) (value : List UInt8) :
    Yields (initKeyValuePair key (some value) value.length) (⟨some key, some value⟩, SUCCESS) :=
  (strdup_yields key).bind (malloc_yields.bind ((memcpy_yields value).bind Yields.pure))

theorem addKeyValue_full_eq (h : l.length = cap) (kv : KeyValuePair) :
    addKeyValue (holding cap l rt) kv = pure (holding cap l rt, FAIL) :=
  if_pos h

theorem addKeyValue_room_eq (h : l.length < cap) (kv : KeyValuePair) :
    addKeyValue (holding cap l rt) kv = pure (holding cap (l ++ [kv]) rt, SUCCESS) := by
  have hlen : l.length < (l.map Cell.set ++ List.replicate (cap - l.length) Cell.unset).length := by
    simp only [List.length_append, List.length_map, List.length_replicate]
    omega
  have hroom : cap - l.length = (cap - (l ++ [kv]).length) + 1 := by
    simp only [List.length_append, List.length_cons, List.length_nil]
    omega
  apply (if_neg (Nat.ne_of_lt h)).trans
  apply (if_pos hlen).trans
  congr 2
  simp [holding, hroom, List.replicate_succ]

theorem addKeyValue_full (h : l.length = cap) (kv : KeyValuePair) :
    Yields (addKeyValue (holding cap l rt) kv) (holding cap l rt, FAIL) :=
  .of_eq (addKeyValue_full_eq h kv)

theorem addKeyValue_room (h : l.length < cap) (kv : KeyValuePair) :
    Yields (addKeyValue (holding cap l rt) kv) (holding cap (l ++ [kv]) rt, SUCCESS) :=
  .of_eq (addKeyValue_room_eq h kv)

/-- The loop of `findKey` along the stored pairs. -/
def search (key : CString) : List KeyValuePair → Exec (Option KeyValuePair)
  | [] => return none
  | kv :: l => do
    let k ← deref kv.key
    if key = k then return some kv else search key l

theorem findKey_eq (key : CString) (todo i : ℕ) (h : i + todo = l.length) :
    findKey (holding cap l rt) key todo i = search key (l.drop i) := by
  induction todo generalizing i with
  | zero =>
    rw [List.drop_eq_nil_of_le (by omega)]
    rfl
  | succ todo ih =>
    have hi : i < l.length := by omega
    rw [findKey, slot_eq hi, pure_bind, List.drop_eq_getElem_cons hi, search,
      ih (i + 1) (by omega)]

/-- The pairs before the first one of `key`. -/
def passed (key : CString) (l : List KeyValuePair) : List KeyValuePair :=
  l.takeWhile (·.key ≠ some key)

/-- Where no `NULL` key is compared, the search ends at the first pair of `key`. -/
theorem search_eq {key : CString} (h : ∀ kv ∈ passed key l, kv.key ≠ none) :
    search key l = pure (l.find? (·.key = some key)) := by
  induction l with
  | nil => rfl
  | cons kv l ih =>
    by_cases hkey : kv.key = some key
    · rw [search, hkey, List.find?_cons_of_pos (by simpa using hkey)]
      exact if_pos rfl
    · rw [passed, List.takeWhile_cons_of_pos (by simpa using hkey)] at h
      obtain ⟨k, hk⟩ := Option.ne_none_iff_exists'.mp (h kv List.mem_cons_self)
      have hne : ¬ key = k := fun heq => hkey (heq ▸ hk)
      rw [search, hk, List.find?_cons_of_neg (by simpa using hkey),
        ← ih fun kv' hkv' => h kv' (List.mem_cons_of_mem _ hkv')]
      exact if_neg hne

theorem search_fault {key : CString} (h : ∃ kv ∈ passed key l, kv.key = none) :
    search key l = fault .nullPointer := by
  induction l with
  | nil => simp [passed] at h
  | cons kv l ih =>
    by_cases hkey : kv.key = some key
    · rw [passed, List.takeWhile_cons_of_neg (by simpa using hkey)] at h
      simp at h
    · rw [passed, List.takeWhile_cons_of_pos (by simpa using hkey)] at h
      cases hk : kv.key with
      | none =>
        rw [search, hk]
        rfl
      | some k =>
        have hne : ¬ key = k := fun heq => hkey (heq ▸ hk)
        obtain ⟨kv', hkv', hnull⟩ := h
        rcases List.mem_cons.mp hkv' with rfl | hkv'
        · rw [hk] at hnull
          cases hnull
        · rw [search, hk, ← ih ⟨kv', hkv', hnull⟩]
          exact if_neg hne

theorem findKey_yields (hkeys : ∀ kv ∈ l, kv.key.isSome) (key : CString) (todo i : ℕ)
    (h : i + todo = l.length) :
    Yields (findKey (holding cap l rt) key todo i) ((l.drop i).find? (·.key = some key)) := by
  apply Yields.of_eq
  rw [findKey_eq key todo i h]
  apply search_eq
  intro kv hkv
  exact Option.isSome_iff_ne_none.mp
    (hkeys kv (List.mem_of_mem_drop ((List.takeWhile_prefix _).subset hkv)))

theorem forSlots_yields {body : KeyValuePair → Exec Unit} (hbody : ∀ kv ∈ l, Yields (body kv) ())
    (todo i : ℕ) (h : i + todo = l.length) :
    Yields (forSlots (holding cap l rt) body todo i) () := by
  induction todo generalizing i with
  | zero => exact Yields.pure
  | succ todo ih =>
    have hi : i < l.length := by omega
    exact (slot_yields hi).bind
      ((hbody _ (List.getElem_mem hi)).bind (ih (i + 1) (by omega)))

theorem freeKeyValuePairArray_yields (request : Option CString) :
    Yields (freeKeyValuePairArray (holding cap l (.set request))) SUCCESS :=
  (Cell.read_yields _).bind ((forSlots_yields (fun _ _ => Yields.pure) _ 0 (by simp)).bind
    ((Cell.read_yields _).bind ((Cell.read_yields _).bind Yields.pure)))

/-! ## Pairs of strings -/

/-- A key and a value as the walk of a request stores them. -/
structure Entry where
  key : CString
  value : CString
  deriving DecidableEq

def KeyValuePair.ofEntry (e : Entry) : KeyValuePair := ⟨some e.key, some e.value.toBlock⟩

/-- An array of `cap` slots that holds the entries `es`. -/
def entryArray (cap : ℕ) (es : List Entry) (rt : Cell (Option CString)) : KeyValuePairArray :=
  holding cap (es.map .ofEntry) rt

variable {es : List Entry}

theorem findKey_entry (key : CString) :
    Yields (findKey (entryArray cap es rt) key es.length 0)
      ((es.find? (·.key = key)).map .ofEntry) := by
  have hkeys : ∀ kv ∈ es.map KeyValuePair.ofEntry, kv.key.isSome := by
    intro kv hkv
    obtain ⟨e, -, rfl⟩ := List.mem_map.mp hkv
    rfl
  have h := @findKey_yields cap _ rt hkeys key es.length 0 (by simp)
  rw [List.drop_zero, List.find?_map] at h
  simpa [entryArray, Function.comp_def, KeyValuePair.ofEntry] using h

theorem getKey_yields (key : CString) :
    Yields (getKey (entryArray cap es rt) key)
      (if key ∈ es.map Entry.key then SUCCESS else FAIL) := by
  have hsize : (es.map KeyValuePair.ofEntry).length = es.length := by simp
  apply Yields.bind (Cell.read_yields _)
  rw [hsize]
  apply Yields.bind (findKey_entry key)
  by_cases h : key ∈ es.map Entry.key
  · rw [if_pos h]
    obtain ⟨e, he, rfl⟩ := List.mem_map.mp h
    obtain ⟨e', he'⟩ := Option.isSome_iff_exists.mp
      (List.find?_isSome.mpr ⟨e, he, by simp⟩ : (es.find? (·.key = e.key)).isSome)
    rw [he']
    exact Yields.pure
  · rw [if_neg h]
    have hnone : es.find? (·.key = key) = none := by
      apply List.find?_eq_none.mpr
      intro e he
      simpa using fun hk : e.key = key => h (List.mem_map.mpr ⟨e, he, hk⟩)
    rw [hnone]
    exact Yields.pure

theorem getValue_yields (key : CString) (value : Option (List UInt8)) :
    Yields (getValue (entryArray cap es rt) key value)
      (match es.find? (·.key = key) with
        | some e => (some e.value.toBlock, SUCCESS)
        | none => (value, FAIL)) := by
  have hsize : (es.map KeyValuePair.ofEntry).length = es.length := by simp
  apply Yields.bind (Cell.read_yields _)
  rw [hsize]
  apply Yields.bind (findKey_entry key)
  cases es.find? (·.key = key) <;> exact Yields.pure

theorem printNode_entry (e : Entry) : printNode (.ofEntry e) = pure () := by
  rw [printNode, KeyValuePair.ofEntry, deref_some, pure_bind, deref_some, pure_bind,
    readString_toBlock, pure_bind]

theorem printAllNodes_yields (request : CString) :
    Yields (printAllNodes (entryArray cap es (.set (some request)))) SUCCESS := by
  have hbody : ∀ kv ∈ es.map KeyValuePair.ofEntry, Yields (printNode kv) () := by
    intro kv hkv
    obtain ⟨e, -, rfl⟩ := List.mem_map.mp hkv
    exact .of_eq (printNode_entry e)
  exact (Cell.read_yields _).bind ((deref_yields request).bind ((Cell.read_yields _).bind
    ((forSlots_yields hbody _ 0 (by simp)).bind Yields.pure)))

end NetconfServer.Parsing
