import NetconfServer.Parsing.LinkedHashmap

/-! # The life of a hash map

A map is created, used and freed. Whatever requests for memory are refused on the way, the code with
pointers does what the code without them does, gives every block back, and never answers wrongly:
it answers right or stops.
-/

namespace NetconfServer.Parsing
open Memory CString Library Program Assertion

inductive MapOperation where
  | put (key : CString) (value : Int32)
  | get (key : CString)

namespace MapOperation

/-- What an operation stores for a key. -/
def storedFor (k : CString) : MapOperation → Option Int32
  | put key value => if key = k then some value else none
  | get _ => none

/-- The `put`s among the operations. -/
def puts : List MapOperation → List (CString × Int32)
  | [] => []
  | put key value :: ops => (key, value) :: puts ops
  | get _ :: ops => puts ops

/-- What a history answers to one more operation: to a `get`, the value that was put last. -/
def answer (before : List MapOperation) : MapOperation → List Int32
  | put _ _ => []
  | get key => [(Register.held (storedFor key) none before).getD (-1)]

def answers (before : List MapOperation) : List MapOperation → List Int32
  | [] => []
  | op :: ops => answer before op ++ answers (before ++ [op]) ops

end MapOperation

namespace Hashmap

def runOperation (signedChar : Bool) (map : Hashmap) : MapOperation → Exec (Hashmap × List Int32)
  | .put key value => do
    let map ← put signedChar map key value
    return (map, [])
  | .get key => do
    let value ← get signedChar map key
    return (map, [value])

def runAll (signedChar : Bool) (map : Hashmap) :
    List MapOperation → Exec (Hashmap × List Int32)
  | [] => return (map, [])
  | op :: ops => do
    let (map, first) ← runOperation signedChar map op
    let (map, rest) ← runAll signedChar map ops
    return (map, first ++ rest)

/-- A map is created, used and freed. -/
def lifetime (signedChar : Bool) (capacity : Int32) (ops : List MapOperation) :
    Exec (List Int32) := do
  let map ← createHashmap capacity
  let (map, answers) ← runAll signedChar map ops
  freeHashmap map
  return answers

end Hashmap

namespace Hashmap

/-! ## Answers are right under every pattern of refusals -/

/-- A bucket has the held value of every key of its slot, or starts with an entry whose key was
refused, so that no loop gets past it. -/
def Remembers (slot : CString → ℕ) (held : CString → Option Int32) (i : ℕ) (chain : List Entry) :
    Prop :=
  (∃ value rest, chain = ⟨none, value⟩ :: rest) ∨
    ∃ pairs : List (CString × Int32), chain = pairs.map .ofPair ∧
      ∀ key, slot key = i → pairs.lookup key = held key

structure Tracks (signedChar : Bool) (capacity : Int32) (map : Hashmap)
    (held : CString → Option Int32) : Prop where
  capacity_eq : map.capacity = capacity
  remembers : ∀ table i chain, map.buckets = some table → table[i]? = some chain →
    Remembers (slot signedChar capacity) held i chain

variable {signedChar : Bool} {capacity : Int32} {map map' : Hashmap} {key : CString} {value : Int32}
  {held held' : CString → Option Int32} {supply supply' : Supply} {i : ℕ} {chain : List Entry}

theorem assign_ofPair (key : CString) (value : Int32) (pairs : List (CString × Int32)) :
    assign key value (pairs.map .ofPair) =
      pure ((Buckets.assign key value pairs).map (·.map .ofPair)) := by
  induction pairs with
  | nil => rfl
  | cons e pairs ih =>
    rw [List.map_cons, assign, Entry.ofPair, deref_some, pure_bind, ih, Buckets.assign]
    split_ifs
    · rfl
    · rw [pure_bind, Option.map_map, Option.map_map]
      rfl

theorem find_ofPair (key : CString) (pairs : List (CString × Int32)) :
    find key (pairs.map .ofPair) = pure (pairs.lookup key) := by
  induction pairs with
  | nil => rfl
  | cons e pairs ih =>
    rw [List.map_cons, find, Entry.ofPair, deref_some, pure_bind, ih, Buckets.lookup_cons]
    split_ifs <;> rfl

theorem hash_ok {index : UInt32} (h : hash signedChar key capacity supply = .ok (index, supply')) :
    index.toNat = slot signedChar capacity key ∧ supply' = supply := by
  rw [hash] at h
  split_ifs at h
  · cases h
  · cases h
    exact ⟨rfl, rfl⟩

theorem bucket_ok (h : map.bucket i supply = .ok (chain, supply')) :
    (∃ table, map.buckets = some table ∧ table[i]? = some chain) ∧ supply' = supply := by
  rw [bucket] at h
  cases hbuckets : map.buckets with
  | none =>
    rw [hbuckets] at h
    cases h
  | some table =>
    rw [hbuckets, deref_some, pure_bind] at h
    cases hchain : table[i]? with
    | none =>
      rw [hchain] at h
      cases h
    | some chain' =>
      rw [hchain] at h
      cases h
      exact ⟨⟨table, rfl, hchain⟩, rfl⟩

theorem Remembers.of_eq {slot : CString → ℕ} (h : Remembers slot held i chain)
    (heq : ∀ k, slot k = i → held' k = held k) : Remembers slot held' i chain := by
  rcases h with hlost | ⟨pairs, rfl, hpairs⟩
  · exact .inl hlost
  · exact .inr ⟨pairs, rfl, fun k hk => (hpairs k hk).trans (heq k hk).symm⟩

/-- Only the keys of the bucket that is written can change. -/
theorem Tracks.setBucket (h : Tracks signedChar capacity map held)
    (hchain : Remembers (slot signedChar capacity) held' i chain)
    (hother : ∀ k, slot signedChar capacity k ≠ i → held' k = held k) (size : Int32) :
    Tracks signedChar capacity { map.setBucket i chain with size } held' := by
  refine ⟨h.capacity_eq, fun table' j chain' htable hj => ?_⟩
  obtain ⟨table, hbuckets, rfl⟩ := Option.map_eq_some_iff.mp htable
  by_cases hij : i = j
  · subst hij
    obtain ⟨hi, rfl⟩ := List.getElem?_eq_some_iff.mp hj
    rwa [List.getElem_set_self]
  · rw [List.getElem?_set_ne hij] at hj
    exact (h.remembers table j chain' hbuckets hj).of_eq fun k hk => hother k fun hi => hij (hi ▸ hk)

theorem lookup_put {pairs pairs' : List (CString × Int32)} {slot : CString → ℕ}
    (hpairs : ∀ k, slot k = i → pairs.lookup k = held k)
    (hput : ∀ k, pairs'.lookup k = if key = k then some value else pairs.lookup k) :
    Remembers slot (fun k => if key = k then some value else held k) i (pairs'.map .ofPair) := by
  refine .inr ⟨pairs', rfl, fun k hk => ?_⟩
  rw [hput, hpairs k hk]

theorem put_tracks (h : Tracks signedChar capacity map held)
    (hok : put signedChar map key value supply = .ok (map', supply')) :
    Tracks signedChar capacity map' fun k => if key = k then some value else held k := by
  rw [put, h.capacity_eq] at hok
  obtain ⟨index, _, hindex, hok⟩ := bind_eq_ok.mp hok
  obtain ⟨chain, _, hbucket, hok⟩ := bind_eq_ok.mp hok
  obtain ⟨⟨table, hbuckets, hchain⟩, -⟩ := bucket_ok hbucket
  obtain ⟨hslot, -⟩ := hash_ok hindex
  have hother : ∀ k, slot signedChar capacity k ≠ index.toNat →
      (if key = k then some value else held k) = held k := by
    intro k hk
    apply if_neg
    rintro rfl
    exact hk hslot.symm
  rcases h.remembers table _ chain hbuckets hchain with ⟨_, _, rfl⟩ | ⟨pairs, rfl, hpairs⟩
  · cases hok
  · rw [assign_ofPair, pure_bind] at hok
    cases hassign : Buckets.assign key value pairs with
    | some pairs' =>
      rw [hassign] at hok
      cases hok
      exact h.setBucket (lookup_put hpairs (Buckets.lookup_assign hassign)) hother map.size
    | none =>
      rw [hassign] at hok
      obtain ⟨granted, _, -, hok⟩ := bind_eq_ok.mp hok
      cases granted with
      | false => cases hok
      | true =>
        obtain ⟨copy, _, hcopy, hok⟩ := bind_eq_ok.mp hok
        obtain ⟨size, _, -, hok⟩ := bind_eq_ok.mp hok
        cases hok
        apply h.setBucket _ hother
        rw [strdup_eq] at hcopy
        cases hcopy
        split_ifs
        · exact @lookup_put _ _ _ _ pairs ((key, value) :: pairs) _ hpairs fun k =>
            Buckets.lookup_cons (key, value)
        · exact .inl ⟨value, _, rfl⟩

theorem get_ok (h : Tracks signedChar capacity map held)
    (hok : get signedChar map key supply = .ok (value, supply')) :
    value = (held key).getD (-1) := by
  rw [get, h.capacity_eq] at hok
  obtain ⟨index, _, hindex, hok⟩ := bind_eq_ok.mp hok
  obtain ⟨chain, _, hbucket, hok⟩ := bind_eq_ok.mp hok
  obtain ⟨⟨table, hbuckets, hchain⟩, -⟩ := bucket_ok hbucket
  rcases h.remembers table _ chain hbuckets hchain with ⟨_, _, rfl⟩ | ⟨pairs, rfl, hpairs⟩
  · cases hok
  · rw [find_ofPair, pure_bind, hpairs key (hash_ok hindex).1.symm] at hok
    cases hheld : held key <;> rw [hheld] at hok <;> cases hok <;> rfl

theorem createHashmap_tracks (h : createHashmap capacity supply = .ok (map, supply')) :
    Tracks signedChar capacity map fun _ => none := by
  obtain ⟨granted, _, -, h⟩ := bind_eq_ok.mp h
  cases granted with
  | false => cases h
  | true =>
    obtain ⟨buckets, _, hbuckets, h⟩ := bind_eq_ok.mp h
    cases h
    refine ⟨rfl, fun table i chain htable hchain => ?_⟩
    rw [callocBuckets] at hbuckets
    split_ifs at hbuckets
    · cases hbuckets
      cases htable
    · obtain ⟨granted, _, -, hbuckets⟩ := bind_eq_ok.mp hbuckets
      cases granted <;> cases hbuckets
      · cases htable
      · cases htable
        rw [List.getElem?_replicate] at hchain
        split_ifs at hchain
        cases hchain
        exact .inr ⟨[], rfl, fun _ _ => rfl⟩

/-- What a key holds after a history. -/
def remembered (before : List MapOperation) (key : CString) : Option Int32 :=
  Register.held (MapOperation.storedFor key) none before

theorem runOperation_tracks {before : List MapOperation} {op : MapOperation} {out : List Int32}
    (h : Tracks signedChar capacity map (remembered before))
    (hok : runOperation signedChar map op supply = .ok ((map', out), supply')) :
    Tracks signedChar capacity map' (remembered (before ++ [op])) ∧
      out = MapOperation.answer before op := by
  cases op with
  | put key value =>
    obtain ⟨map'', _, hput, hok⟩ := bind_eq_ok.mp hok
    cases hok
    have hheld : (fun k => if key = k then some value else remembered before k) =
        remembered (before ++ [.put key value]) := by
      funext k
      rw [remembered, remembered, Register.held_append, Register.held_cons, MapOperation.storedFor]
      split_ifs <;> rfl
    exact ⟨hheld ▸ put_tracks h hput, rfl⟩
  | get key =>
    obtain ⟨value, _, hget, hok⟩ := bind_eq_ok.mp hok
    cases hok
    have hheld : remembered before = remembered (before ++ [.get key]) := by
      funext k
      rw [remembered, remembered, Register.held_append]
      rfl
    exact ⟨hheld ▸ h, by rw [get_ok h hget]; rfl⟩

/-- A history that is answered is answered right. -/
theorem runAll_ok {before ops : List MapOperation} {out : List Int32}
    (h : Tracks signedChar capacity map (remembered before))
    (hok : runAll signedChar map ops supply = .ok ((map', out), supply')) :
    out = MapOperation.answers before ops := by
  induction ops generalizing map before supply out with
  | nil =>
    cases hok
    rfl
  | cons op ops ih =>
    obtain ⟨⟨map₁, first⟩, _, hfirst, hok⟩ := bind_eq_ok.mp hok
    obtain ⟨⟨map₂, rest⟩, _, hrest, hok⟩ := bind_eq_ok.mp hok
    cases hok
    obtain ⟨htracks, rfl⟩ := runOperation_tracks h hfirst
    rw [ih htracks hrest, MapOperation.answers]

theorem lifetime_ok {ops : List MapOperation} {out : List Int32}
    (hok : lifetime signedChar capacity ops supply = .ok (out, supply')) :
    out = MapOperation.answers [] ops := by
  obtain ⟨map, _, hcreate, hok⟩ := bind_eq_ok.mp hok
  obtain ⟨⟨map', out'⟩, _, hrun, hok⟩ := bind_eq_ok.mp hok
  obtain ⟨_, _, -, hok⟩ := bind_eq_ok.mp hok
  cases hok
  exact runAll_ok (createHashmap_tracks hcreate) hrun

/-! ## When every request is granted a history is answered -/

theorem runAll_yields (hcapacity : 0 < capacity) (ops : List MapOperation)
    (puts : List (CString × Int32))
    (hkeys : ((puts ++ MapOperation.puts ops).map Prod.fst).toFinset.card < 2 ^ 31) :
    ∃ table out, table.length = capacity.toNatClampNeg ∧
      Yields (runAll signedChar (holding capacity (Buckets.putAll (slot signedChar capacity)
        (List.replicate capacity.toNatClampNeg []) puts)) ops) (holding capacity table, out) := by
  have hslot : ∀ key, slot signedChar capacity key < capacity.toNatClampNeg := slot_lt hcapacity
  induction ops generalizing puts with
  | nil => exact ⟨_, [], by rw [Buckets.length_putAll, List.length_replicate], Yields.pure⟩
  | cons op ops ih =>
    have hlength : (Buckets.putAll (slot signedChar capacity)
        (List.replicate capacity.toNatClampNeg []) puts).length = capacity.toNatClampNeg := by
      rw [Buckets.length_putAll, List.length_replicate]
    cases op with
    | put key value =>
      rw [MapOperation.puts, List.append_cons] at hkeys
      have htotal := Buckets.total_putAll hslot (puts ++ [(key, value)])
      have hfewer : ((puts ++ [(key, value)]).map Prod.fst).toFinset.card ≤
          ((puts ++ [(key, value)] ++ MapOperation.puts ops).map Prod.fst).toFinset.card := by
        rw [@List.map_append _ _ _ (puts ++ _), List.toFinset_append]
        exact Finset.card_le_card Finset.subset_union_left
      obtain ⟨table, out, htable, hrun⟩ := ih (puts ++ [(key, value)]) hkeys
      rw [Buckets.putAll_append_singleton] at htotal hrun
      have hput := @put_yields signedChar capacity _ key value hcapacity hlength
        (htotal.trans_lt (hfewer.trans_lt hkeys))
      have hop : Yields (runOperation signedChar _ (.put key value)) _ := hput.bind Yields.pure
      exact ⟨table, _, htable, hop.bind (hrun.bind Yields.pure)⟩
    | get key =>
      obtain ⟨table, out, htable, hrun⟩ := ih puts hkeys
      have hget := @get_yields signedChar capacity _ hcapacity hlength key
      have hop : Yields (runOperation signedChar _ (.get key)) _ := hget.bind Yields.pure
      exact ⟨table, _, htable, hop.bind (hrun.bind Yields.pure)⟩

theorem lifetime_yields (hcapacity : 0 < capacity) (ops : List MapOperation)
    (hkeys : ((MapOperation.puts ops).map Prod.fst).toFinset.card < 2 ^ 31) :
    ∃ out, Yields (lifetime signedChar capacity ops) out := by
  obtain ⟨table, out, hlength, hrun⟩ := @runAll_yields signedChar capacity hcapacity ops [] hkeys
  exact ⟨out, (createHashmap_yields hcapacity).bind
    (hrun.bind ((freeHashmap_yields hlength).bind Yields.pure))⟩

end Hashmap

namespace LinkedHashmap

def runOperation (signedChar : Bool) (map : ℕ) : MapOperation → Run Block (List Int32)
  | .put key value => do
    put signedChar map key value
    return []
  | .get key => do
    let value ← get signedChar map key
    return [value]

def runAll (signedChar : Bool) (map : ℕ) : List MapOperation → Run Block (List Int32)
  | [] => return []
  | op :: ops => do
    let first ← runOperation signedChar map op
    let rest ← runAll signedChar map ops
    return first ++ rest

def lifetime (signedChar : Bool) (capacity : Int32) (ops : List MapOperation) :
    Run Block (List Int32) := do
  let map ← createHashmap capacity
  let answers ← runAll signedChar map ops
  freeHashmap map
  return answers

variable {signedChar : Bool} {capacity : Int32}

theorem runOperation_simulates (m : ℕ) (map : Hashmap) (op : MapOperation) :
    Simulates (mapAt m map) (runOperation signedChar m op) (Hashmap.runOperation signedChar map op)
      fun a c => fact (a = c.2) * mapAt m c.1 := by
  cases op with
  | put key value =>
    exact (put_simulates signedChar m map key value).bind
      fun _ _ => .pure fun _ hf => fact_mul.mpr ⟨rfl, hf⟩
  | get key =>
    refine (get_simulates signedChar m map key).bind fun a c => .fact fun hac => ?_
    exact .pure fun _ hf => fact_mul.mpr ⟨by rw [hac], hf⟩

theorem runAll_simulates (m : ℕ) (map : Hashmap) (ops : List MapOperation) :
    Simulates (mapAt m map) (runAll signedChar m ops) (Hashmap.runAll signedChar map ops)
      fun a c => fact (a = c.2) * mapAt m c.1 := by
  induction ops generalizing map with
  | nil => exact .pure fun _ hf => fact_mul.mpr ⟨rfl, hf⟩
  | cons op ops ih =>
    refine (runOperation_simulates m map op).bind fun first c => .fact fun hfirst => ?_
    refine (ih c.1).bind fun rest c' => .fact fun hrest => ?_
    exact .pure fun _ hf => fact_mul.mpr ⟨by rw [hfirst, hrest], hf⟩

theorem lifetime_simulates (signedChar : Bool) (capacity : Int32) (ops : List MapOperation) :
    Simulates 1 (lifetime signedChar capacity ops) (Hashmap.lifetime signedChar capacity ops)
      fun a c => fact (a = c) := by
  refine (createHashmap_simulates capacity).bind fun m map => ?_
  refine (runAll_simulates m map ops).bind fun answers c => .fact fun hanswers => ?_
  refine (freeHashmap_simulates m c.1).bind fun _ _ => ?_
  exact .pure fun _ hf => ⟨hanswers, hf⟩

/-- The life of a map in memory is its life without addresses, faults and answers alike, on every
heap and whatever is refused; when it ends, the heap holds what it held before. -/
theorem lifetime_refines (signedChar : Bool) (capacity : Int32) (ops : List MapOperation)
    (heap : Heap Block) (supply : Supply) :
    match Hashmap.lifetime signedChar capacity ops supply with
    | .error e => lifetime signedChar capacity ops (heap, supply) = .error (.code e)
    | .ok (answers, supply') => ∃ heap',
        lifetime signedChar capacity ops (heap, supply) = .ok (answers, heap', supply') ∧
          heap'.cells = heap.cells := by
  have hrun := (lifetime_simulates signedChar capacity ops).closed heap supply
  cases hlife : Hashmap.lifetime signedChar capacity ops supply with
  | error e =>
    rw [hlife] at hrun
    exact hrun
  | ok r =>
    rw [hlife] at hrun
    obtain ⟨answers, heap', hlifetime, rfl, hcells⟩ := hrun
    exact ⟨heap', hlifetime, hcells⟩

/-- Whatever is refused, a history that runs to its end has given every `get` the value of the last
`put` of its key and has given back all memory. It stops before its end only by a fault of the code,
and only where the capacity is not positive, there are too many keys, or a request that it made was
refused: with all memory granted it would have run to its end. -/
theorem lifetime_answers (signedChar : Bool) (capacity : Int32) (ops : List MapOperation)
    (heap : Heap Block) (supply : Supply) :
    (∃ heap' supply', lifetime signedChar capacity ops (heap, supply) =
        .ok (MapOperation.answers [] ops, heap', supply') ∧ heap'.cells = heap.cells) ∨
      ∃ e, lifetime signedChar capacity ops (heap, supply) = .error (.code e) ∧
        (capacity ≤ 0 ∨ 2 ^ 31 ≤ ((MapOperation.puts ops).map Prod.fst).toFinset.card ∨
          supply ≠ .all ∧ ∃ heap' supply', lifetime signedChar capacity ops (heap, .all) =
            .ok (MapOperation.answers [] ops, heap', supply')) := by
  have hended {supply : Supply} {r : List Int32 × Supply}
      (hlife : Hashmap.lifetime signedChar capacity ops supply = .ok r) :
      ∃ heap' supply', lifetime signedChar capacity ops (heap, supply) =
        .ok (MapOperation.answers [] ops, heap', supply') ∧ heap'.cells = heap.cells := by
    have hrun := (lifetime_simulates signedChar capacity ops).closed heap supply
    obtain ⟨out, supply'⟩ := r
    obtain rfl := Hashmap.lifetime_ok hlife
    rw [hlife] at hrun
    obtain ⟨_, heap', hlifetime, rfl, hcells⟩ := hrun
    exact ⟨heap', supply', hlifetime, hcells⟩
  cases hlife : Hashmap.lifetime signedChar capacity ops supply with
  | ok r => exact .inl (hended hlife)
  | error e =>
    have hrun := (lifetime_simulates signedChar capacity ops).closed heap supply
    rw [hlife] at hrun
    refine .inr ⟨e, hrun, ?_⟩
    by_cases hcapacity : capacity ≤ 0
    · exact .inl hcapacity
    by_cases hkeys : 2 ^ 31 ≤ ((MapOperation.puts ops).map Prod.fst).toFinset.card
    · exact .inr (.inl hkeys)
    obtain ⟨out, hyields⟩ := @Hashmap.lifetime_yields signedChar capacity
      (Int32.not_le.mp hcapacity) ops (Nat.not_le.mp hkeys)
    obtain ⟨heap', supply', hlifetime, -⟩ := hended hyields
    refine .inr (.inr ⟨?_, heap', supply', hlifetime⟩)
    rintro rfl
    rw [Yields, hlife] at hyields
    cases hyields

end LinkedHashmap

end NetconfServer.Parsing
