import NetconfServer.Memory.Pointer
import NetconfServer.Parsing.Hashmap

/-! # The hash map in memory

`hashmap.c` with its pointers: the map, its array of buckets, its entries and the copies of their
keys are blocks of a heap, linked by addresses. The map of `Hashmap` is what the code does when the
links are forgotten.
-/

namespace NetconfServer.Parsing.LinkedHashmap
open Memory CString Library Program Assertion

structure EntryBlock where
  key : Cell Address
  value : Cell Int32
  next : Cell Address

structure MapBlock where
  size : Cell Int32
  capacity : Cell Int32
  buckets : Cell Address

inductive Block where
  | map (m : MapBlock)
  | buckets (chains : List Address)
  | entry (e : EntryBlock)
  | string (s : CString)

namespace Block

def asMap : Block → Option MapBlock
  | map m => some m
  | _ => none

def asBuckets : Block → Option (List Address)
  | buckets chains => some chains
  | _ => none

def asEntry : Block → Option EntryBlock
  | entry e => some e
  | _ => none

def asString : Block → Option CString
  | string s => some s
  | _ => none

theorem asString_string (s : CString) : asString (.string s) = some s := rfl

end Block

def strdup (s : CString) : Run Block Address := allocate malloc (.string s)

/-- `calloc(capacity, sizeof(Entry *))`. -/
def callocBuckets (capacity : Int32) : Run Block Address := do
  if capacity < 0 then return none
  else allocate malloc (.buckets (List.replicate capacity.toNatClampNeg none))

def createHashmap (capacity : Int32) : Run Block ℕ := do
  let map ← allocate malloc (.map ⟨.unset, .unset, .unset⟩)
  let map ← lift (deref map)
  store map (.map ⟨.set 0, .unset, .unset⟩)
  store map (.map ⟨.set 0, .set capacity, .unset⟩)
  let buckets ← callocBuckets capacity
  store map (.map ⟨.set 0, .set capacity, .set buckets⟩)
  return map

/-- `map->buckets[index]`. -/
def bucket (map : ℕ) (index : ℕ) : Run Block Address := do
  let m ← loadAs Block.asMap map
  let chains ← follow Block.asBuckets (← lift m.buckets.read)
  match chains[index]? with
  | none => lift (fault .outOfBounds)
  | some entry => return entry

def setBucket (map : ℕ) (index : ℕ) (entry : Address) : Run Block Unit := do
  let m ← loadAs Block.asMap map
  let buckets ← lift (deref (← lift m.buckets.read))
  let chains ← loadAs Block.asBuckets buckets
  if index < chains.length then store buckets (.buckets (chains.set index entry))
  else lift (fault .outOfBounds)

/-- `map->size++`. -/
def increment (map : ℕ) : Run Block Unit := do
  let m ← loadAs Block.asMap map
  let size ← lift (do Hashmap.increment (← m.size.read))
  store map (.map { m with size := .set size })

/-- The loop of `put` along a bucket of at most `todo` entries: whether it met an entry of `key`. -/
def assign (key : CString) (value : Int32) : (todo : ℕ) → (entry : Address) → Run Block Bool
  | _, none => return false
  | 0, some _ => stop .endless
  | todo + 1, some entry => do
    let e ← loadAs Block.asEntry entry
    let k ← follow Block.asString (← lift e.key.read)
    if k = key then
      store entry (.entry { e with value := .set value })
      return true
    else assign key value todo (← lift e.next.read)

/-- No chain has more entries than addresses were handed out, unless it runs in a circle. -/
def put (signedChar : Bool) (map : ℕ) (key : CString) (value : Int32) : Run Block Unit := do
  let m ← loadAs Block.asMap map
  let capacity ← lift m.capacity.read
  let index ← lift (Hashmap.hash signedChar key capacity)
  let entry ← bucket map index.toNat
  if ← assign key value (← addresses) entry then return ()
  else
    let entry ← allocate malloc (.entry ⟨.unset, .unset, .unset⟩)
    let entry ← lift (deref entry)
    let copy ← strdup key
    store entry (.entry ⟨.set copy, .unset, .unset⟩)
    store entry (.entry ⟨.set copy, .set value, .unset⟩)
    let next ← bucket map index.toNat
    store entry (.entry ⟨.set copy, .set value, .set next⟩)
    setBucket map index.toNat (some entry)
    increment map

/-- The loop of `get` along a bucket. -/
def find (key : CString) : (todo : ℕ) → (entry : Address) → Run Block (Option Int32)
  | _, none => return none
  | 0, some _ => stop .endless
  | todo + 1, some entry => do
    let e ← loadAs Block.asEntry entry
    let k ← follow Block.asString (← lift e.key.read)
    if k = key then return some (← lift e.value.read)
    else find key todo (← lift e.next.read)

def get (signedChar : Bool) (map : ℕ) (key : CString) : Run Block Int32 := do
  let m ← loadAs Block.asMap map
  let capacity ← lift m.capacity.read
  let index ← lift (Hashmap.hash signedChar key capacity)
  let entry ← bucket map index.toNat
  match ← find key (← addresses) entry with
  | some value => return value
  | none => return -1

/-- The loop of `free_hashmap` along a bucket. -/
def freeChain : (todo : ℕ) → (entry : Address) → Run Block Unit
  | _, none => return ()
  | 0, some _ => stop .endless
  | todo + 1, some entry => do
    let e ← loadAs Block.asEntry entry
    let next ← lift e.next.read
    free (← lift e.key.read)
    free (some entry)
    freeChain todo next

/-- The loop over the buckets from `i` on, with `todo` of them to go. -/
def freeBuckets (map : ℕ) : (todo i : ℕ) → Run Block Unit
  | 0, _ => return ()
  | todo + 1, i => do
    let entry ← bucket map i
    freeChain (← addresses) entry
    freeBuckets map todo (i + 1)

def freeHashmap (map : ℕ) : Run Block Unit := do
  let m ← loadAs Block.asMap map
  let capacity ← lift m.capacity.read
  freeBuckets map capacity.toNatClampNeg 0
  let m ← loadAs Block.asMap map
  free (← lift m.buckets.read)
  free (some map)

/-! ## What the blocks hold -/

/-- A copy of a string, or `NULL`. -/
def stringAt (p : Address) (s : Option CString) : Assertion Block := targetAt p (s.map .string)

/-- The entries that a pointer leads to, each with the copy of its key. -/
def chainAt (p : Address) : List Hashmap.Entry → Assertion Block
  | [] => fact (p = none)
  | e :: chain =>
    ex fun (a, key, next) => fact (p = some a) *
      (cell a (Block.entry ⟨.set key, .set e.value, .set next⟩) *
        (stringAt key e.key * chainAt next chain))

/-- The chains of all buckets. -/
abbrev tableAt : List Address → List (List Hashmap.Entry) → Assertion Block := each chainAt

def bucketsAt (p : Address) : Option (List (List Hashmap.Entry)) → Assertion Block
  | none => fact (p = none)
  | some table =>
    ex fun (a, chains) => fact (p = some a) * (cell a (Block.buckets chains) * tableAt chains table)

/-- There are as many buckets as the capacity says. -/
def Sized (map : Hashmap) : Prop :=
  ∀ table, map.buckets = some table → table.length = map.capacity.toNatClampNeg

/-- The block of the map itself. -/
abbrev headAt (p : ℕ) (map : Hashmap) (buckets : Address) : Assertion Block :=
  cell p (Block.map ⟨.set map.size, .set map.capacity, .set buckets⟩)

/-- The blocks that a map is made of. -/
def mapAt (p : ℕ) (map : Hashmap) : Assertion Block :=
  fact (Sized map) * ex fun buckets => headAt p map buckets * bucketsAt buckets map.buckets

/-- The same blocks without those of bucket `i`, which starts at `entry`. -/
def holeAt (p : ℕ) (map : Hashmap) (i : ℕ) (entry : Address) : Assertion Block :=
  fact (Sized map) * ex fun (a, chains, table) =>
    fact (map.buckets = some table ∧ i < table.length ∧ chains[i]? = some entry) *
      (headAt p map (some a) *
        (cell a (Block.buckets chains) * tableAt (chains.eraseIdx i) (table.eraseIdx i)))

/-! ## The loops along a chain -/

variable {α γ : Type} {P R : Assertion Block} {p : Address} {key : Option CString}
  {chain : List Hashmap.Entry} {todo : ℕ}

theorem loadMap {p : ℕ} {m : MapBlock} {f : MapBlock → Run Block α} {y : Exec γ}
    {Q : α → γ → Assertion Block} (hf : Simulates (cell p (.map m) * R) (f m) y Q) :
    Simulates (cell p (.map m) * R) (loadAs Block.asMap p >>= f) y Q :=
  .loadAs rfl hf

theorem loadBuckets {p : ℕ} {chains : List Address} {f : List Address → Run Block α} {y : Exec γ}
    {Q : α → γ → Assertion Block} (hf : Simulates (cell p (.buckets chains) * R) (f chains) y Q) :
    Simulates (cell p (.buckets chains) * R) (loadAs Block.asBuckets p >>= f) y Q :=
  .loadAs rfl hf

theorem loadEntry {p : ℕ} {e : EntryBlock} {f : EntryBlock → Run Block α} {y : Exec γ}
    {Q : α → γ → Assertion Block} (hf : Simulates (cell p (.entry e) * R) (f e) y Q) :
    Simulates (cell p (.entry e) * R) (loadAs Block.asEntry p >>= f) y Q :=
  .loadAs rfl hf

/-- The block of a map is loaded, and the map stays as it is. -/
theorem loadHead {m : ℕ} {map : Hashmap} {f : MapBlock → Run Block α} {y : Exec γ}
    {Q : α → γ → Assertion Block}
    (hf : ∀ b, Simulates (mapAt m map) (f ⟨.set map.size, .set map.capacity, .set b⟩) y Q) :
    Simulates (mapAt m map) (loadAs Block.asMap m >>= f) y Q := by
  apply Simulates.fact
  intro hsized
  apply Simulates.ex
  intro b
  apply loadMap
  exact (hf b).pre fun g hg => fact_mul.mpr ⟨hsized, b, hg⟩

theorem chainAt_cons {a : ℕ} {e : Hashmap.Entry} {k next : Address} {f : Fragment Block}
    (h : (stringAt k e.key *
      (cell a (Block.entry ⟨.set k, .set e.value, .set next⟩) * chainAt next chain)) f) :
    chainAt (some a) (e :: chain) f := by
  rw [mul_left_comm] at h
  exact ⟨(a, k, next), fact_mul.mpr ⟨rfl, h⟩⟩

theorem take_chain (P Q R : Assertion Block) : P * (Q * R) = R * (P * Q) := by
  rw [← mul_assoc, mul_comm]

theorem find_simulates (key : CString) (h : chain.length ≤ todo) :
    Simulates (chainAt p chain) (find key todo p) (Hashmap.find key chain)
      fun a c => fact (a = c) * chainAt p chain := by
  induction chain generalizing p todo with
  | nil =>
    apply Simulates.only_fact
    rintro rfl
    cases todo <;> exact .pure fun f hf => fact_mul.mpr ⟨rfl, rfl, hf⟩
  | cons e chain ih =>
    apply Simulates.ex
    rintro ⟨a, k, next⟩
    apply Simulates.fact
    rintro rfl
    obtain ⟨todo, rfl⟩ := Nat.exists_eq_add_of_lt h
    rw [find, Hashmap.find]
    apply loadEntry
    simp only [Cell.read_set, lift_pure, pure_bind]
    rw [mul_left_comm]
    apply follow_target Block.asString_string
    intro _ _
    apply Simulates.ite
    · intro _
      exact .pure fun f hf => fact_mul.mpr ⟨rfl, chainAt_cons hf⟩
    · intro _
      refine (ih (Nat.le_add_right _ _)).within _ (take_chain _ _ _) fun a c f hf => ?_
      rw [mul_assoc] at hf
      obtain ⟨hfound, hf⟩ := fact_mul.mp hf
      rw [← take_chain] at hf
      exact fact_mul.mpr ⟨hfound, chainAt_cons hf⟩

theorem assign_simulates (key : CString) (value : Int32) (h : chain.length ≤ todo) :
    Simulates (chainAt p chain) (assign key value todo p) (Hashmap.assign key value chain)
      fun met c => fact (met = c.isSome) * chainAt p (c.getD chain) := by
  induction chain generalizing p todo with
  | nil =>
    apply Simulates.only_fact
    rintro rfl
    cases todo <;> exact .pure fun f hf => fact_mul.mpr ⟨rfl, rfl, hf⟩
  | cons e chain ih =>
    apply Simulates.ex
    rintro ⟨a, k, next⟩
    apply Simulates.fact
    rintro rfl
    obtain ⟨todo, rfl⟩ := Nat.exists_eq_add_of_lt h
    rw [assign, Hashmap.assign]
    apply loadEntry
    simp only [Cell.read_set, lift_pure, pure_bind]
    rw [mul_left_comm]
    apply follow_target Block.asString_string
    intro _ _
    apply Simulates.ite
    · intro _
      rw [mul_left_comm]
      apply Simulates.store
      refine .pure fun f hf => fact_mul.mpr ⟨rfl, ?_⟩
      rw [mul_left_comm] at hf
      exact chainAt_cons hf
    · intro _
      have hnext := (@ih next (chain.length + todo) (Nat.le_add_right _ _)).frame
        (stringAt k e.key * cell a (.entry ⟨.set k, .set e.value, .set next⟩))
      rw [← take_chain] at hnext
      apply hnext.map
      intro met c f hf
      rw [mul_assoc] at hf
      obtain ⟨hmet, hf⟩ := fact_mul.mp hf
      rw [← take_chain] at hf
      refine fact_mul.mpr ⟨by rw [hmet, Option.isSome_map], ?_⟩
      cases c <;> exact chainAt_cons hf

/-- Every entry of a chain is released once, and so is the copy of its key. -/
theorem freeChain_simulates (h : chain.length ≤ todo) :
    Simulates (chainAt p chain) (freeChain todo p) (pure () : Exec Unit) fun _ _ => 1 := by
  induction chain generalizing p todo with
  | nil =>
    apply Simulates.only_fact
    rintro rfl
    cases todo <;> exact .pure fun f hf => hf
  | cons e chain ih =>
    apply Simulates.ex
    rintro ⟨a, k, next⟩
    apply Simulates.fact
    rintro rfl
    obtain ⟨todo, rfl⟩ := Nat.exists_eq_add_of_lt h
    rw [freeChain]
    apply loadEntry
    simp only [Cell.read_set, lift_pure, pure_bind]
    rw [mul_left_comm]
    apply free_target
    apply Simulates.free
    exact ih (Nat.le_add_right _ _)

/-! ## One bucket of a map -/

variable {map : Hashmap} {chains : List Address} {table : List (List Hashmap.Entry)} {i m : ℕ}

@[simp] theorem tableAt_nil : tableAt [] [] = 1 := rfl

@[simp] theorem tableAt_cons (p : Address) (chains : List Address) (chain : List Hashmap.Entry)
    (table : List (List Hashmap.Entry)) :
    tableAt (p :: chains) (chain :: table) = chainAt p chain * tableAt chains table := rfl

theorem tableAt_eraseIdx (hq : chains[i]? = some p) (hc : table[i]? = some chain) :
    tableAt chains table = chainAt p chain * tableAt (chains.eraseIdx i) (table.eraseIdx i) :=
  each_eraseIdx hq hc

section Hole
variable {a : ℕ} {x : Run Block α} {y : Exec γ} {Q : α → γ → Assertion Block}
  {f : Address → Run Block α}

theorem holeAt_intro {g : Fragment Block} (hsized : Sized map) (hbuckets : map.buckets = some table)
    (hi : i < table.length) (hp : chains[i]? = some p)
    (hg : (headAt m map (some a) *
      (cell a (Block.buckets chains) * (tableAt (chains.eraseIdx i) (table.eraseIdx i) * R))) g) :
    (holeAt m map i p * R) g := by
  rw [holeAt, mul_assoc]
  refine fact_mul.mpr ⟨hsized, ex_mul_intro (a, chains, table) ?_⟩
  rw [mul_assoc]
  refine fact_mul.mpr ⟨⟨hbuckets, hi, hp⟩, ?_⟩
  rwa [mul_assoc, mul_assoc]

theorem holeAt_elim
    (h : ∀ a chains table, Sized map → map.buckets = some table → i < table.length →
      chains[i]? = some p →
      Simulates (headAt m map (some a) *
        (cell a (Block.buckets chains) * (tableAt (chains.eraseIdx i) (table.eraseIdx i) * R))) x y Q) :
    Simulates (holeAt m map i p * R) x y Q := by
  rw [holeAt, mul_assoc]
  apply Simulates.fact
  intro hsized
  apply Simulates.ex_mul
  rintro ⟨a, chains, table⟩
  rw [mul_assoc]
  apply Simulates.fact
  rintro ⟨hbuckets, hi, hp⟩
  rw [mul_assoc, mul_assoc]
  exact h a chains table hsized hbuckets hi hp

/-- A map is put together from a chain and the rest. -/
theorem mapAt_of_hole {g : Fragment Block} (h : (chainAt p chain * holeAt m map i p) g) :
    mapAt m (map.setBucket i chain) g := by
  rw [holeAt, mul_left_comm] at h
  obtain ⟨hsized, h⟩ := fact_mul.mp h
  rw [mul_comm, ex_mul] at h
  obtain ⟨⟨a, chains, table⟩, h⟩ := h
  rw [mul_assoc] at h
  obtain ⟨⟨hbuckets, hi, hp⟩, h⟩ := fact_mul.mp h
  have hset : (table.set i chain).eraseIdx i = table.eraseIdx i := List.eraseIdx_set_eq
  have hget : (table.set i chain)[i]? = some chain := by simp [hi]
  rw [mul_assoc, mul_assoc, mul_comm (tableAt _ _), ← hset, ← tableAt_eraseIdx hp hget] at h
  refine fact_mul.mpr ⟨?_, some a, ?_⟩
  · intro table' htable
    rw [Hashmap.setBucket, hbuckets] at htable
    cases htable
    rw [List.length_set]
    exact hsized table hbuckets
  · rw [Hashmap.setBucket, hbuckets]
    refine mul_mono (fun _ => id) (fun g hg => ?_) h
    exact ⟨(a, chains), fact_mul.mpr ⟨rfl, hg⟩⟩

theorem bucket_of_hole (hf : Simulates (holeAt m map i p * R) (f p) y Q) :
    Simulates (holeAt m map i p * R) (bucket m i >>= f) y Q := by
  apply holeAt_elim
  intro a chains table hsized hbuckets hi hp
  rw [bucket]
  simp only [bind_assoc]
  apply loadMap
  simp only [Cell.read_set, lift_pure, pure_bind, follow_some]
  rw [mul_left_comm]
  apply loadBuckets
  rw [hp, mul_left_comm]
  exact hf.pre fun g hg => holeAt_intro hsized hbuckets hi hp hg

theorem setBucket_of_hole {q : Address} {f : Unit → Run Block α}
    (hf : Simulates (holeAt m map i q * R) (f ()) y Q) :
    Simulates (holeAt m map i p * R) (setBucket m i q >>= f) y Q := by
  apply holeAt_elim
  intro a chains table hsized hbuckets hi hp
  have hlength : i < chains.length := (List.getElem?_eq_some_iff.mp hp).1
  have hset : (chains.set i q).eraseIdx i = chains.eraseIdx i := List.eraseIdx_set_eq
  rw [setBucket]
  simp only [bind_assoc]
  apply loadMap
  simp only [Cell.read_set, deref_some, lift_pure, pure_bind]
  rw [mul_left_comm]
  apply loadBuckets
  rw [if_pos hlength]
  apply Simulates.store
  rw [mul_left_comm, ← hset]
  exact hf.pre fun g hg => holeAt_intro hsized hbuckets hi (by simp [hlength]) hg

theorem increment_simulates :
    Simulates (holeAt m map i p) (increment m) (Hashmap.increment map.size)
      fun _ size => holeAt m { map with size } i p := by
  rw [← mul_one (holeAt m map i p)]
  apply holeAt_elim
  intro a chains table hsized hbuckets hi hp
  apply loadMap
  rw [← bind_pure (Hashmap.increment _)]
  apply Simulates.both
  intro size
  rw [← bind_pure (store _ _)]
  apply Simulates.store
  refine .pure fun _ hg => ?_
  rw [← mul_one (holeAt _ _ _ _)]
  exact holeAt_intro hsized hbuckets hi hp hg

end Hole

theorem setBucket_self (hbuckets : map.buckets = some table) (hc : table[i]? = some chain) :
    map.setBucket i chain = map := by
  obtain ⟨hi, rfl⟩ := List.getElem?_eq_some_iff.mp hc
  rw [Hashmap.setBucket, hbuckets, Option.map_some, List.set_getElem_self, ← hbuckets]

/-- `map->buckets[index]` takes a chain out of a map. -/
theorem bucket_simulates (m i : ℕ) (map : Hashmap) :
    Simulates (mapAt m map) (bucket m i) (map.bucket i)
      fun p chain => fact (map.setBucket i chain = map) * (chainAt p chain * holeAt m map i p) := by
  apply Simulates.fact
  intro hsized
  apply Simulates.ex
  intro b
  rw [bucket, Hashmap.bucket]
  apply loadMap
  simp only [Cell.read_set, lift_pure, pure_bind]
  rw [mul_comm]
  cases hbuckets : map.buckets with
  | none =>
    apply Simulates.fact
    rintro rfl
    exact .abort (fun _ _ => rfl) (fun _ => rfl)
  | some table =>
    apply Simulates.ex_mul
    rintro ⟨a, chains⟩
    rw [mul_assoc]
    apply Simulates.fact
    rintro rfl
    rw [mul_assoc, mul_left_comm]
    refine Simulates.learn (P := tableAt chains table) (fun g => length_of_each) fun hlength => ?_
    rw [mul_left_comm]
    apply loadBuckets
    simp only [deref_some, pure_bind]
    cases hc : table[i]? with
    | none =>
      have hq : chains[i]? = none := by
        rw [List.getElem?_eq_none_iff] at hc ⊢
        omega
      rw [hq]
      exact .abort (fun _ _ => rfl) (fun _ => rfl)
    | some chain =>
      have hi : i < table.length := (List.getElem?_eq_some_iff.mp hc).1
      have hq : chains[i]? = some chains[i] := List.getElem?_eq_getElem (by omega)
      rw [hq, tableAt_eraseIdx hq hc, mul_comm (chainAt _ _), ← mul_assoc, mul_comm]
      refine .pure fun g hg => fact_mul.mpr ⟨setBucket_self hbuckets hc, ?_⟩
      rw [mul_comm (chainAt _ _)]
      exact holeAt_intro hsized hbuckets hi hq hg

/-! ## The operations -/

theorem tableAt_replicate (n : ℕ) :
    tableAt (List.replicate n none) (List.replicate n []) = 1 := by
  induction n with
  | zero => rfl
  | succ n ih =>
    rw [List.replicate_succ, List.replicate_succ, tableAt_cons, ih, mul_one]
    exact fact_true rfl

/-- A map whose buckets were refused. -/
theorem mapAt_of_refused {f : Fragment Block} (hbuckets : map.buckets = none)
    (h : headAt m map none f) : mapAt m map f := by
  refine fact_mul.mpr ⟨fun table htable => ?_, none, ?_⟩
  · rw [hbuckets] at htable
    cases htable
  · change (headAt m map none * bucketsAt none map.buckets) f
    rwa [hbuckets, bucketsAt, fact_true rfl, mul_one]

theorem mapAt_of_granted {a : ℕ} {f : Fragment Block} (hbuckets : map.buckets = some table)
    (hlength : table.length = map.capacity.toNatClampNeg)
    (h : (headAt m map (some a) * (cell a (Block.buckets chains) * tableAt chains table)) f) :
    mapAt m map f := by
  refine fact_mul.mpr ⟨fun table' htable => ?_, some a, ?_⟩
  · rw [hbuckets] at htable
    cases htable
    exact hlength
  · rw [hbuckets]
    exact mul_mono (fun _ => id) (fun g hg => ⟨(a, chains), fact_mul.mpr ⟨rfl, hg⟩⟩) h

theorem createHashmap_simulates (capacity : Int32) :
    Simulates 1 (createHashmap capacity) (Hashmap.createHashmap capacity) mapAt := by
  apply Simulates.allocate
  · intro p
    simp only [deref_some, lift_pure, pure_bind]
    apply Simulates.store
    apply Simulates.store
    rw [callocBuckets, Hashmap.callocBuckets]
    split_ifs with hneg
    · simp only [pure_bind]
      apply Simulates.store
      refine .pure fun f hf => mapAt_of_refused rfl ?_
      rwa [mul_one] at hf
    · rw [bind_assoc]
      apply Simulates.allocate
      · intro a
        rw [mul_left_comm]
        apply Simulates.store
        rw [← tableAt_replicate capacity.toNatClampNeg]
        exact .pure fun f hf => mapAt_of_granted rfl List.length_replicate hf
      · apply Simulates.store
        refine .pure fun f hf => mapAt_of_refused rfl ?_
        rwa [mul_one] at hf
  · exact .abort (fun _ _ => rfl) (fun _ => rfl)

/-- How many blocks a chain owns: its entries and the copies of their keys. -/
theorem owns_chainAt (p : Address) (chain : List Hashmap.Entry) :
    Owns (chainAt p chain)
      (chain.length + (chain.map fun e => if e.key.isSome then 1 else 0).sum) := by
  induction chain generalizing p with
  | nil =>
    rw [chainAt, ← mul_one (fact _)]
    exact .fact_mul fun _ => .one
  | cons e chain ih =>
    refine .ex fun (a, k, next) => .fact_mul fun _ => ?_
    have hkey : Owns (stringAt k e.key) _ := owns_targetAt k (e.key.map Block.string)
    rw [Option.isSome_map] at hkey
    have howns := (Owns.cell a (Block.entry ⟨.set k, .set e.value, .set next⟩)).mul
      (hkey.mul (ih next))
    rw [List.length_cons, List.map_cons, List.sum_cons]
    convert howns using 1
    omega

/-- A loop along a chain may take as many turns as there are addresses. -/
theorem addresses_bind {f : ℕ → Run Block α} {y : Exec γ} {Q : α → γ → Assertion Block}
    (hf : ∀ todo, chain.length ≤ todo → Simulates (chainAt p chain * R) (f todo) y Q) :
    Simulates (chainAt p chain * R) (addresses >>= f) y Q :=
  .addresses (owns_chainAt p chain) fun _ h => hf _ (Nat.le_of_add_right_le h)

theorem get_simulates (signedChar : Bool) (m : ℕ) (map : Hashmap) (key : CString) :
    Simulates (mapAt m map) (get signedChar m key) (Hashmap.get signedChar map key)
      fun a c => fact (a = c) * mapAt m map := by
  rw [get, Hashmap.get]
  apply loadHead
  intro b
  simp only [Cell.read_set, lift_pure, pure_bind]
  apply Simulates.both
  intro index
  refine (bucket_simulates m index.toNat map).bind fun p chain => .fact fun hself => ?_
  apply addresses_bind
  intro todo htodo
  refine ((find_simulates key htodo).frame _).bind fun a c => ?_
  rw [mul_assoc]
  apply Simulates.fact
  rintro rfl
  cases a <;> exact .pure fun f hf => fact_mul.mpr ⟨rfl, hself ▸ mapAt_of_hole hf⟩

theorem put_simulates (signedChar : Bool) (m : ℕ) (map : Hashmap) (key : CString) (value : Int32) :
    Simulates (mapAt m map) (put signedChar m key value) (Hashmap.put signedChar map key value)
      fun _ map' => mapAt m map' := by
  rw [put, Hashmap.put]
  apply loadHead
  intro b
  simp only [Cell.read_set, lift_pure, pure_bind]
  apply Simulates.both
  intro index
  refine (bucket_simulates m index.toNat map).bind fun p chain => .fact fun hself => ?_
  apply addresses_bind
  intro todo htodo
  refine ((assign_simulates key value htodo).frame _).bind fun met c => ?_
  rw [mul_assoc]
  apply Simulates.fact
  rintro rfl
  cases c with
  | some chain' => exact .pure fun f hf => mapAt_of_hole hf
  | none =>
    simp only [Option.isSome_none, Bool.false_eq_true, if_false, Option.getD_none]
    apply Simulates.allocate
    · intro a
      simp only [deref_some, lift_pure, pure_bind, if_true]
      refine (strdup_target Block.string key).bind fun copy k => ?_
      rw [mul_left_comm]
      apply Simulates.store
      apply Simulates.store
      rw [← mul_assoc, ← mul_assoc, mul_comm]
      apply bucket_of_hole
      rw [mul_comm, mul_assoc, mul_assoc]
      apply Simulates.store
      rw [← mul_assoc, ← mul_assoc, mul_comm]
      apply setBucket_of_hole
      apply (increment_simulates.frame _).map
      intro _ size f hf
      have hwhole : (chainAt (some a) (⟨k, value⟩ :: chain) *
          holeAt m { map with size } index.toNat (some a)) f := by
        rw [mul_comm] at hf
        refine mul_mono (fun f hf => ?_) (fun _ => id) hf
        rw [mul_comm (cell _ _), mul_assoc] at hf
        exact chainAt_cons hf
      exact mapAt_of_hole hwhole
    · exact .abort (fun _ _ => rfl) (fun _ => rfl)

theorem freeBuckets_simulates {a : ℕ} (hbuckets : map.buckets = some table)
    (hlength : chains.length = table.length) (todo i : ℕ) :
    Simulates
      (headAt m map (some a) * (cell a (Block.buckets chains) *
        tableAt (chains.drop i) (table.drop i)))
      (freeBuckets m todo i) (Hashmap.freeBuckets map todo i)
      fun _ _ => headAt m map (some a) * (cell a (Block.buckets chains) *
        tableAt (chains.drop (i + todo)) (table.drop (i + todo))) := by
  induction todo generalizing i with
  | zero => exact .pure fun _ => id
  | succ todo ih =>
    rw [freeBuckets, Hashmap.freeBuckets, bucket, Hashmap.bucket, hbuckets]
    simp only [bind_assoc]
    apply loadMap
    simp only [Cell.read_set, deref_some, lift_pure, pure_bind, follow_some]
    rw [mul_left_comm]
    apply loadBuckets
    by_cases hi : i < table.length
    · have hi' : i < chains.length := by omega
      rw [List.getElem?_eq_getElem hi, List.getElem?_eq_getElem hi', List.drop_eq_getElem_cons hi,
        List.drop_eq_getElem_cons hi', tableAt_cons, take_chain, mul_assoc]
      simp only [pure_bind]
      apply addresses_bind
      intro n hn
      apply ((freeChain_simulates hn).frame _).left
      intro _
      rw [one_mul, take_chain, mul_comm (tableAt _ _), ← Nat.add_assoc, Nat.add_right_comm]
      exact ih (i + 1)
    · have hi' : ¬ i < chains.length := by omega
      rw [List.getElem?_eq_none (by omega), List.getElem?_eq_none (by omega)]
      exact .abort (fun _ _ => rfl) (fun _ => rfl)

theorem freeHashmap_simulates (m : ℕ) (map : Hashmap) :
    Simulates (mapAt m map) (freeHashmap m) (Hashmap.freeHashmap map) fun _ _ => 1 := by
  apply Simulates.fact
  intro hsized
  apply Simulates.ex
  intro b
  rw [freeHashmap, Hashmap.freeHashmap]
  apply loadMap
  simp only [Cell.read_set, lift_pure, pure_bind]
  cases hbuckets : map.buckets with
  | none =>
    rw [bucketsAt, mul_comm]
    apply Simulates.fact
    rintro rfl
    rw [← mul_one (cell _ _)]
    cases map.capacity.toNatClampNeg with
    | zero =>
      rw [freeBuckets, Hashmap.freeBuckets, pure_bind]
      apply loadMap
      simp only [Cell.read_set, lift_pure, pure_bind, free_none]
      rw [← bind_pure (free (some m))]
      apply Simulates.free
      exact .pure fun _ => id
    | succ todo =>
      rw [freeBuckets, Hashmap.freeBuckets, bucket, Hashmap.bucket, hbuckets]
      simp only [bind_assoc]
      apply loadMap
      exact .abort (fun _ _ => rfl) (fun _ => rfl)
  | some table =>
    rw [bucketsAt, mul_comm]
    apply Simulates.ex_mul
    rintro ⟨a, chains⟩
    rw [mul_assoc]
    apply Simulates.fact
    rintro rfl
    rw [mul_assoc, mul_left_comm]
    refine Simulates.learn (P := tableAt chains table) (fun g => length_of_each) fun hlength => ?_
    rw [take_chain, mul_comm (tableAt _ _)]
    have hloop := @freeBuckets_simulates map chains table m a hbuckets hlength
      map.capacity.toNatClampNeg 0
    rw [Nat.zero_add, List.drop_eq_nil_of_le (hsized table hbuckets).le,
      List.drop_eq_nil_of_le (hlength.trans (hsized table hbuckets)).le] at hloop
    rw [← bind_pure (Hashmap.freeBuckets _ _ _)]
    refine hloop.bind fun _ _ => ?_
    apply loadMap
    simp only [Cell.read_set, lift_pure, pure_bind]
    rw [mul_left_comm]
    apply Simulates.free
    rw [tableAt_nil, mul_one, ← mul_one (cell m _), ← bind_pure (free (some m))]
    apply Simulates.free
    exact .pure fun _ => id

end NetconfServer.Parsing.LinkedHashmap
