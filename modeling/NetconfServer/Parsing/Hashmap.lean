import NetconfServer.Library.Buckets
import NetconfServer.Memory.Exec

/-! # The hash map

A chained table from strings to `int`. The bucket of a key comes from a hash that wraps at 32 bits
and that depends on whether `char` is signed; no lookup depends on it.
-/

namespace NetconfServer.Parsing
open Memory CString Library

structure Hashmap.Entry where
  key : Option CString
  value : Int32

/-- A bucket is the list of the entries that `next` leads through. -/
structure Hashmap where
  size : Int32
  capacity : Int32
  buckets : Option (List (List Hashmap.Entry))

namespace Hashmap

/-- A `char` as a summand of an `unsigned int`. -/
def ofChar (signedChar : Bool) (c : UInt8) : UInt32 :=
  if signedChar then c.toInt8.toInt32.toUInt32 else c.toUInt32

/-- The accumulator after the characters of `key`. -/
def accumulate (signedChar : Bool) (key : CString) : UInt32 :=
  key.bytes.foldl (fun hash c => ((hash <<< 5) + hash) + ofChar signedChar c) 5381

/-- The capacity is converted to `unsigned int` for the division. -/
def hash (signedChar : Bool) (key : CString) (capacity : Int32) : Exec UInt32 :=
  if capacity.toUInt32 = 0 then fault .divisionByZero
  else return accumulate signedChar key % capacity.toUInt32

/-- `calloc(capacity, sizeof(Entry *))`; a negative capacity becomes a size beyond the address
space. -/
def callocBuckets (capacity : Int32) : Exec (Option (List (List Entry))) := do
  if capacity < 0 then return none
  else if ← malloc then return some (List.replicate capacity.toNatClampNeg [])
  else return none

/-- The map is written without a check that it was granted. -/
def createHashmap (capacity : Int32) : Exec Hashmap := do
  if ← malloc then
    let buckets ← callocBuckets capacity
    return { size := 0, capacity, buckets }
  else fault .nullPointer

/-- `map->buckets[index]`. -/
def bucket (map : Hashmap) (index : ℕ) : Exec (List Entry) := do
  let buckets ← deref map.buckets
  match buckets[index]? with
  | none => fault .outOfBounds
  | some chain => return chain

def setBucket (map : Hashmap) (index : ℕ) (chain : List Entry) : Hashmap :=
  { map with buckets := map.buckets.map (·.set index chain) }

/-- The loop of `put` along a bucket: the bucket with the first entry of `key` changed, if there
is one. -/
def assign (key : CString) (value : Int32) : List Entry → Exec (Option (List Entry))
  | [] => return none
  | entry :: next => do
    let k ← deref entry.key
    if k = key then return some ({ entry with value } :: next)
    else
      let next ← assign key value next
      return next.map (entry :: ·)

/-- `map->size++`. -/
def increment (size : Int32) : Exec Int32 :=
  if size = Int32.maxValue then fault .signedOverflow else return size + 1

def put (signedChar : Bool) (map : Hashmap) (key : CString) (value : Int32) : Exec Hashmap := do
  let index ← hash signedChar key map.capacity
  let chain ← map.bucket index.toNat
  match ← assign key value chain with
  | some chain => return map.setBucket index.toNat chain
  | none =>
    -- The new entry is written without a check that it was granted.
    if ← malloc then
      let key ← strdup key
      let size ← increment map.size
      return { map.setBucket index.toNat (⟨key, value⟩ :: chain) with size }
    else fault .nullPointer

/-- The loop of `get` along a bucket. -/
def find (key : CString) : List Entry → Exec (Option Int32)
  | [] => return none
  | entry :: next => do
    let k ← deref entry.key
    if k = key then return some entry.value else find key next

def get (signedChar : Bool) (map : Hashmap) (key : CString) : Exec Int32 := do
  let index ← hash signedChar key map.capacity
  let chain ← map.bucket index.toNat
  match ← find key chain with
  | some value => return value
  | none => return -1

/-- The loop of `free_hashmap` over the buckets from `i` on, with `todo` of them to go. -/
def freeBuckets (map : Hashmap) : (todo i : ℕ) → Exec Unit
  | 0, _ => return ()
  | todo + 1, i => do
    let _ ← map.bucket i
    freeBuckets map todo (i + 1)

def freeHashmap (map : Hashmap) : Exec Unit := freeBuckets map map.capacity.toNatClampNeg 0

/-! ## The map as a table of chains -/

def Entry.ofPair (p : CString × Int32) : Entry := ⟨some p.1, p.2⟩

/-- The map that holds the pairs of a table. -/
def holding (capacity : Int32) (table : List (List (CString × Int32))) : Hashmap :=
  ⟨.ofNat (Buckets.total table), capacity, some (table.map (·.map .ofPair))⟩

/-- The bucket of a key. -/
def slot (signedChar : Bool) (capacity : Int32) (key : CString) : ℕ :=
  (accumulate signedChar key % capacity.toUInt32).toNat

variable {signedChar : Bool} {capacity : Int32} {table : List (List (CString × Int32))}
  {key : CString} {value : Int32} {chain : List (CString × Int32)}

theorem toUInt32_pos (h : 0 < capacity) : 0 < capacity.toUInt32.toNat := by
  rw [Int32.toNat_toUInt32_of_le (Int32.le_of_lt h)]
  exact (Int32.toNatClampNeg_pos_iff capacity).mpr h

theorem slot_lt (h : 0 < capacity) (key : CString) :
    slot signedChar capacity key < capacity.toNatClampNeg := by
  have hpos := toUInt32_pos h
  rw [slot, UInt32.toNat_mod, ← Int32.toNat_toUInt32_of_le (Int32.le_of_lt h)]
  exact Nat.mod_lt _ hpos

theorem hash_eq (signedChar : Bool) (h : 0 < capacity) (key : CString) :
    hash signedChar key capacity = pure (accumulate signedChar key % capacity.toUInt32) := by
  have hzero : capacity.toUInt32 ≠ 0 := by
    intro hzero
    have hpos := toUInt32_pos h
    rw [hzero] at hpos
    exact absurd hpos (by decide)
  rw [hash, if_neg hzero]

theorem hash_yields (h : 0 < capacity) (key : CString) :
    Yields (hash signedChar key capacity) (accumulate signedChar key % capacity.toUInt32) :=
  .of_eq (hash_eq signedChar h key)

theorem bucket_yields {index : ℕ} (h : table[index]? = some chain) :
    Yields ((holding capacity table).bucket index) (chain.map .ofPair) := by
  apply Yields.bind (deref_yields _)
  rw [List.getElem?_map, h]
  exact Yields.pure

theorem assign_yields (key : CString) (value : Int32) (chain : List (CString × Int32)) :
    Yields (assign key value (chain.map .ofPair))
      ((Buckets.assign key value chain).map (·.map .ofPair)) := by
  induction chain with
  | nil => exact Yields.pure
  | cons e chain ih =>
    apply Yields.bind (deref_yields e.1)
    rw [Buckets.assign]
    by_cases h : e.1 = key
    · rw [if_pos h, if_pos h]
      exact Yields.pure
    · rw [if_neg h, if_neg h]
      apply ih.bind
      rw [yields_pure_iff, Option.map_map, Option.map_map]
      rfl

theorem find_yields (key : CString) (chain : List (CString × Int32)) :
    Yields (find key (chain.map .ofPair)) (chain.lookup key) := by
  induction chain with
  | nil => exact Yields.pure
  | cons e chain ih =>
    apply Yields.bind (deref_yields e.1)
    rw [Buckets.lookup_cons]
    by_cases h : e.1 = key
    · rw [if_pos h, if_pos h]
      exact Yields.pure
    · rw [if_neg h, if_neg h]
      exact ih

theorem increment_yields {n : ℕ} (h : n + 1 < 2 ^ 31) :
    Yields (increment (.ofNat n)) (.ofNat (n + 1)) := by
  have hmax : Int32.ofNat n ≠ Int32.maxValue := by
    intro hmax
    have hint := congrArg Int32.toInt hmax
    rw [Int32.toInt_ofNat_of_lt (by omega)] at hint
    have hlast : Int32.maxValue.toInt = 2147483647 := by decide
    omega
  rw [increment, if_neg hmax, Int32.ofNat_add]
  exact Yields.pure

theorem createHashmap_yields (h : 0 < capacity) :
    Yields (createHashmap capacity)
      (holding capacity (List.replicate capacity.toNatClampNeg [])) := by
  have hneg : ¬ capacity < 0 := Int32.not_lt.mpr (Int32.le_of_lt h)
  have hcalloc : Yields (callocBuckets capacity)
      (some (List.replicate capacity.toNatClampNeg [])) := by
    rw [callocBuckets, if_neg hneg]
    exact malloc_yields.bind Yields.pure
  apply malloc_yields.bind
  apply hcalloc.bind
  rw [yields_pure_iff]
  simp [holding, Buckets.total]

/-- A map that is written back with the chain that `put` makes. -/
theorem setBucket_holding (h : table[slot signedChar capacity key]? = some chain) :
    (holding capacity table).setBucket (slot signedChar capacity key)
        ((Buckets.putChain key value chain).map .ofPair) =
      { holding capacity (Buckets.put (slot signedChar capacity) table key value) with
        size := .ofNat (Buckets.total table) } := by
  have hmodify : Buckets.put (slot signedChar capacity) table key value =
      table.set (slot signedChar capacity key) (Buckets.putChain key value chain) := by
    rw [Buckets.put, List.modify_eq_set, h]
    rfl
  rw [hmodify, holding, holding, setBucket, List.map_set]
  rfl

theorem put_yields (hcapacity : 0 < capacity) (hlength : table.length = capacity.toNatClampNeg)
    (hsize : Buckets.total (Buckets.put (slot signedChar capacity) table key value) < 2 ^ 31) :
    Yields (put signedChar (holding capacity table) key value)
      (holding capacity (Buckets.put (slot signedChar capacity) table key value)) := by
  have hslot : slot signedChar capacity key < table.length := by
    rw [hlength]
    exact slot_lt hcapacity key
  obtain ⟨chain, hchain⟩ : ∃ chain, table[slot signedChar capacity key]? = some chain :=
    ⟨_, List.getElem?_eq_getElem hslot⟩
  have hget : Buckets.get (slot signedChar capacity) table key = chain.lookup key := by
    rw [Buckets.get, hchain, Option.bind_some]
  have hbucket := @setBucket_holding signedChar capacity table key value chain hchain
  rw [Buckets.total_put hslot, hget] at hsize
  apply (hash_yields hcapacity key).bind
  apply (bucket_yields hchain).bind
  apply (assign_yields key value chain).bind
  rw [Buckets.putChain] at hbucket
  cases hassign : Buckets.assign key value chain with
  | some chain' =>
    have hkey : chain.lookup key ≠ none := fun hnone => by
      rw [Buckets.assign_eq_none.mpr hnone] at hassign
      cases hassign
    have htotal : Buckets.total (Buckets.put (slot signedChar capacity) table key value) =
        Buckets.total table := by
      rw [Buckets.total_put hslot, hget, if_neg hkey, Nat.add_zero]
    rw [hassign, Option.getD_some, ← htotal] at hbucket
    change Yields (pure ((holding capacity table).setBucket (slot signedChar capacity key) _)) _
    rw [hbucket]
    exact Yields.pure
  | none =>
    have hkey : chain.lookup key = none := Buckets.assign_eq_none.mp hassign
    rw [if_pos hkey] at hsize
    have htotal : Buckets.total (Buckets.put (slot signedChar capacity) table key value) =
        Buckets.total table + 1 := by
      rw [Buckets.total_put hslot, hget, if_pos hkey]
    rw [hassign, Option.getD_none] at hbucket
    apply malloc_yields.bind
    apply (strdup_yields key).bind
    apply (increment_yields hsize).bind
    rw [yields_pure_iff]
    change ({ (holding capacity table).setBucket (slot signedChar capacity key)
      (((key, value) :: chain).map .ofPair) with
      size := .ofNat (Buckets.total table + 1) } : Hashmap) = _
    rw [hbucket, ← htotal]
    rfl

theorem get_yields (hcapacity : 0 < capacity) (hlength : table.length = capacity.toNatClampNeg)
    (key : CString) :
    Yields (get signedChar (holding capacity table) key)
      ((Buckets.get (slot signedChar capacity) table key).getD (-1)) := by
  have hslot : slot signedChar capacity key < table.length := by
    rw [hlength]
    exact slot_lt hcapacity key
  apply (hash_yields hcapacity key).bind
  apply (bucket_yields (List.getElem?_eq_getElem hslot)).bind
  apply (find_yields key _).bind
  rw [Buckets.get, List.getElem?_eq_getElem hslot, Option.bind_some]
  cases table[slot signedChar capacity key].lookup key <;> exact Yields.pure

theorem freeHashmap_yields (hlength : table.length = capacity.toNatClampNeg) :
    Yields (freeHashmap (holding capacity table)) () := by
  have hloop (todo i : ℕ) (h : i + todo = table.length) :
      Yields (freeBuckets (holding capacity table) todo i) () := by
    induction todo generalizing i with
    | zero => exact Yields.pure
    | succ todo ih =>
      exact (bucket_yields (List.getElem?_eq_getElem (by omega))).bind (ih (i + 1) (by omega))
  apply hloop
  rw [hlength, Nat.zero_add]
  rfl

/-! ## Histories -/

/-- The map after a sequence of `put`s. -/
def putAll (signedChar : Bool) (map : Hashmap) (puts : List (CString × Int32)) : Exec Hashmap :=
  puts.foldlM (fun map p => put signedChar map p.1 p.2) map

theorem putAll_yields (hcapacity : 0 < capacity) (puts : List (CString × Int32))
    (hkeys : (puts.map Prod.fst).toFinset.card < 2 ^ 31) :
    Yields (putAll signedChar (holding capacity (List.replicate capacity.toNatClampNeg [])) puts)
      (holding capacity (Buckets.putAll (slot signedChar capacity)
        (List.replicate capacity.toNatClampNeg []) puts)) := by
  have hslot : ∀ key, slot signedChar capacity key < capacity.toNatClampNeg := slot_lt hcapacity
  induction puts using List.reverseRecOn with
  | nil => exact Yields.pure
  | append_singleton puts p ih =>
    have htotal := Buckets.total_putAll hslot (puts ++ [p])
    rw [Buckets.putAll_append_singleton] at htotal ⊢
    have hfewer : (puts.map Prod.fst).toFinset.card ≤ ((puts ++ [p]).map Prod.fst).toFinset.card := by
      rw [List.map_append, List.toFinset_append]
      exact Finset.card_le_card Finset.subset_union_left
    have hlength : (Buckets.putAll (slot signedChar capacity)
        (List.replicate capacity.toNatClampNeg []) puts).length = capacity.toNatClampNeg := by
      rw [Buckets.length_putAll, List.length_replicate]
    rw [putAll, List.foldlM_append]
    apply (ih (hfewer.trans_lt hkeys)).bind
    rw [List.foldlM_cons]
    exact (put_yields hcapacity hlength (htotal.trans_lt hkeys)).bind Yields.pure

/-- The map is a finite map: whatever collides, a key gets the value of its last `put`, or -1 without
one, and `size` counts the different keys. -/
theorem hashmap_refines_map (signedChar : Bool) (hcapacity : 0 < capacity)
    (puts : List (CString × Int32)) (hkeys : (puts.map Prod.fst).toFinset.card < 2 ^ 31) :
    ∃ map, Yields (do let map ← createHashmap capacity; putAll signedChar map puts) map ∧
      (∀ key before value after, puts = before ++ (key, value) :: after →
        key ∉ after.map Prod.fst → Yields (get signedChar map key) value) ∧
      (∀ key, key ∉ puts.map Prod.fst → Yields (get signedChar map key) (-1)) ∧
      map.size.toInt = (puts.map Prod.fst).toFinset.card := by
  have hslot : ∀ key, slot signedChar capacity key < capacity.toNatClampNeg := slot_lt hcapacity
  have hlength : (Buckets.putAll (slot signedChar capacity)
      (List.replicate capacity.toNatClampNeg []) puts).length = capacity.toNatClampNeg := by
    rw [Buckets.length_putAll, List.length_replicate]
  have hget (key : CString) := @get_yields signedChar capacity _ hcapacity hlength key
  have hheld (key : CString) := @Buckets.get_putAll _ _ _ (slot signedChar capacity)
    (List.replicate capacity.toNatClampNeg []) puts (by simpa using hslot) key
  refine ⟨_, (createHashmap_yields hcapacity).bind (putAll_yields hcapacity puts hkeys), ?_, ?_, ?_⟩
  · rintro key before value after rfl hlast
    have hvalue : Register.held (Buckets.storedFor key) none
        (before ++ (key, value) :: after) = some value := by
      apply Register.held_of_latest
      · exact if_pos rfl
      · intro p hp
        exact if_neg fun hkey => hlast (List.mem_map.mpr ⟨p, hp, hkey⟩)
    have h := hget key
    rwa [hheld, Buckets.get_empty, hvalue] at h
  · intro key hnever
    have hnone : Register.held (Buckets.storedFor key) none puts = none := by
      apply Register.held_of_none
      intro p hp
      exact if_neg fun hkey => hnever (List.mem_map.mpr ⟨p, hp, hkey⟩)
    have h := hget key
    rwa [hheld, Buckets.get_empty, hnone] at h
  · rw [← Buckets.total_putAll hslot puts] at hkeys ⊢
    exact Int32.toInt_ofNat_of_lt hkeys

theorem hashmap_refines_map_sample :
    ∃ map, Yields (do
        let map ← createHashmap 1
        putAll true map [(lit "get", 1), (lit "rpc", 2), (lit "get", 3)]) map ∧
      Yields (get true map (lit "get")) 3 ∧ Yields (get true map (lit "hello")) (-1) ∧
      map.size.toInt = 2 := by
  obtain ⟨map, hmap, hlast, hnever, hsize⟩ := @hashmap_refines_map 1 true (by decide)
    [(lit "get", 1), (lit "rpc", 2), (lit "get", 3)] (by decide)
  exact ⟨map, hmap, hlast (lit "get") [(lit "get", 1), (lit "rpc", 2)] 3 [] rfl (by decide),
    hnever _ (by decide), hsize⟩

end Hashmap

end NetconfServer.Parsing
