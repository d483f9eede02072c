import NetconfServer.Memory.Pointer
import NetconfServer.Parsing.Abcc
import NetconfServer.Parsing.AssociationList
import NetconfServer.Parsing.Libxml2

/-! # The key/value array in memory

`KeyValuePairArray.c` and `abcc.c` with their pointers: a pair is two addresses, the block of slots
and every copied string are blocks of the heap. The structures themselves are automatic variables of
the caller.
-/

namespace NetconfServer.Parsing.Stored
open Memory CString Library Program Assertion

structure KeyValuePair where
  key : Address
  value : Address

inductive Block where
  /-- Granted and not yet written. -/
  | raw (size : ℕ)
  | string (s : CString)
  | bytes (content : List UInt8)
  | slots (slots : List (Cell KeyValuePair))
  | document (d : XmlDocument)

namespace Block

def asString : Block → Option CString
  | string s => some s
  | _ => none

def asBytes : Block → Option (List UInt8)
  | bytes content => some content
  | _ => none

def asSlots : Block → Option (List (Cell KeyValuePair))
  | slots l => some l
  | _ => none

def asDocument : Block → Option XmlDocument
  | document d => some d
  | _ => none

theorem asString_string (s : CString) : asString (.string s) = some s := rfl

theorem asBytes_bytes (content : List UInt8) : asBytes (.bytes content) = some content := rfl

end Block

structure KeyValuePairArray where
  data : Cell Address
  size : Cell ℕ
  capacity : Cell ℕ
  requestType : Cell Address

structure Abcc where
  ipAddress : Address

def strdup (s : CString) : Run Block Address := allocate malloc (.string s)

/-- A pointer that is followed unless it is `NULL`, as `xmlNewChild` does with its content. -/
def followNullable {α : Type} (kind : Block → Option α) : Address → Run Block (Option α)
  | none => return none
  | some p => do
    let s ← loadAs kind p
    return some s

/-! ## `KeyValuePairArray.c` -/

namespace KeyValuePairArray

def uninitialized : KeyValuePairArray := ⟨.unset, .unset, .unset, .unset⟩

/-- `array->data[i]`. -/
def slot (array : KeyValuePairArray) (i : ℕ) : Run Block KeyValuePair := do
  let slots ← follow Block.asSlots (← lift array.data.read)
  match slots[i]? with
  | none => lift (fault .outOfBounds)
  | some kv => lift kv.read

end KeyValuePairArray

def initKeyValueArray (array : KeyValuePairArray) (capacity : UInt8) :
    Run Block (KeyValuePairArray × ℤ) := do
  let capacity := if capacity > MAX_CAPACITY then MAX_CAPACITY else capacity
  let array := { array with capacity := .set capacity.toNat }
  let slots ← lift array.capacity.read
  let data ← allocate malloc (.slots (List.replicate slots .unset))
  let array := { array with data := .set data }
  let array := { array with size := .set 0 }
  return (array, SUCCESS)

def initKeyValuePair (key : CString) (value : Option (List UInt8)) (valueSize : ℕ) :
    Run Block (KeyValuePair × ℤ) := do
  let key ← strdup key
  match value with
  | none =>
    let block ← allocate malloc (.raw 1)
    store (← lift (deref block)) (.bytes [0])
    return (⟨key, block⟩, SUCCESS)
  | some value =>
    match ← allocate malloc (.raw valueSize) with
    | none => return (⟨key, none⟩, FAIL)
    | some block =>
      store block (.bytes (← lift (memcpy value valueSize)))
      return (⟨key, some block⟩, SUCCESS)

def setRequestType (request : CString) (array : KeyValuePairArray) :
    Run Block (KeyValuePairArray × ℤ) := do
  let copy ← strdup request
  let array := { array with requestType := .set copy }
  if copy.isNone then return (array, FAIL) else return (array, SUCCESS)

def addKeyValue (array : KeyValuePairArray) (kv : KeyValuePair) :
    Run Block (KeyValuePairArray × ℤ) := do
  let size ← lift array.size.read
  if size = (← lift array.capacity.read) then return (array, FAIL)
  else
    let data ← lift (do deref (← array.data.read))
    let slots ← loadAs Block.asSlots data
    if size < slots.length then
      store data (.slots (slots.set size (.set kv)))
      return ({ array with size := .set (size + 1) }, SUCCESS)
    else lift (fault .outOfBounds)

/-- The loop of `get_key` and `get_value`. -/
def findKey (array : KeyValuePairArray) (key : CString) :
    (todo i : ℕ) → Run Block (Option KeyValuePair)
  | 0, _ => return none
  | todo + 1, i => do
    let kv ← array.slot i
    let k ← follow Block.asString kv.key
    if key = k then return some kv else findKey array key todo (i + 1)

def getKey (array : KeyValuePairArray) (key : CString) : Run Block ℤ := do
  match ← findKey array key (← lift array.size.read) 0 with
  | some _ => return SUCCESS
  | none => return FAIL

/-- Returns the new `*value`, the address of the stored value and no copy, with the return code. -/
def getValue (array : KeyValuePairArray) (key : CString) (value : Address) :
    Run Block (Address × ℤ) := do
  match ← findKey array key (← lift array.size.read) 0 with
  | some kv => return (kv.value, SUCCESS)
  | none => return (value, FAIL)

/-- A loop over all slots with a body that is given the slot. -/
def forSlots (array : KeyValuePairArray) (body : KeyValuePair → Run Block Unit) :
    (todo i : ℕ) → Run Block Unit
  | 0, _ => return ()
  | todo + 1, i => do
    body (← array.slot i)
    forSlots array body todo (i + 1)

/-- The `printf` of `print_all_nodes` for one slot. -/
def printNode (kv : KeyValuePair) : Run Block Unit := do
  let _ ← follow Block.asString kv.key
  let _ ← lift (readString (← follow Block.asBytes kv.value))

def printAllNodes (array : KeyValuePairArray) : Run Block ℤ := do
  let _ ← follow Block.asString (← lift array.requestType.read)
  forSlots array printNode (← lift array.size.read) 0
  return SUCCESS

def freeKeyValuePairArray (array : KeyValuePairArray) : Run Block ℤ := do
  forSlots array (fun kv => do
    free kv.key
    free kv.value) (← lift array.size.read) 0
  free (← lift array.requestType.read)
  free (← lift array.data.read)
  return SUCCESS

/-! ## `abcc.c` -/

def initAbcc (_device : Abcc) : Run Block (Abcc × ℤ) := do
  let device : Abcc := ⟨← strdup initialAddress⟩
  if device.ipAddress.isNone then return (device, -1) else return (device, 0)

/-- The address that was stored before is overwritten and not released. -/
def setIpAddress (device : Abcc) (ip : Address) : Run Block (Abcc × ℤ) :=
  match ip with
  | none => return (device, -1)
  | some ip => do
    let content ← loadAs Block.asBytes ip
    let device : Abcc := ⟨← strdup (← lift (readString content))⟩
    if device.ipAddress.isNone then return (device, -1) else return (device, 0)

/-! ## What the blocks hold -/

def stringAt (p : Address) (s : Option CString) : Assertion Block := targetAt p (s.map .string)

def bytesAt (p : Address) (content : Option (List UInt8)) : Assertion Block :=
  targetAt p (content.map .bytes)

def pairAt (p : KeyValuePair) (kv : Parsing.KeyValuePair) : Assertion Block :=
  stringAt p.key kv.key * bytesAt p.value kv.value

/-- The block of the slots, the first of them filled. -/
def slotsAt (cap : ℕ) (a : ℕ) (ps : List KeyValuePair) : Assertion Block :=
  cell a (.slots (ps.map .set ++ List.replicate (cap - ps.length) .unset))

def dataAt {cap : ℕ} (data : Address) : Contents cap → Assertion Block
  | .granted pairs =>
    ex fun x : ℕ × List KeyValuePair =>
      fact (data = some x.1) * (slotsAt cap x.1 x.2 * each pairAt x.2 pairs.entries)
  | .refused => fact (data = none)

/-- A member that is set when that of the array without addresses is. -/
def memberAt (p : Cell Address) : Cell (Option CString) → Assertion Block
  | .unset => fact (p = .unset)
  | .set s => ex fun q => fact (p = .set q) * stringAt q s

/-- The blocks of an array with the contents `c`. -/
def contentsAt {cap : ℕ} (array : KeyValuePairArray) (c : Contents cap)
    (rt : Cell (Option CString)) : Assertion Block :=
  ex fun data => fact (array.data = .set data ∧ array.size = .set c.entries.length ∧
    array.capacity = .set cap) * (memberAt array.requestType rt * dataAt data c)

section Contents
variable {α γ : Type} {cap : ℕ} {array : KeyValuePairArray} {c : Contents cap}
  {rt : Cell (Option CString)} {R : Assertion Block} {x : Run Block α} {y : Exec γ}
  {Q : α → γ → Assertion Block} {p : KeyValuePair} {kv : Parsing.KeyValuePair}

theorem contentsAt_intro {data : Address} {f : Fragment Block} (hdata : array.data = .set data)
    (hsize : array.size = .set c.entries.length) (hcapacity : array.capacity = .set cap)
    (h : (memberAt array.requestType rt * (dataAt data c * R)) f) :
    (contentsAt array c rt * R) f := by
  apply ex_mul_intro data
  rw [mul_assoc, mul_assoc]
  exact fact_mul.mpr ⟨⟨hdata, hsize, hcapacity⟩, h⟩

theorem contentsAt_elim
    (h : ∀ data, array.data = .set data → array.size = .set c.entries.length →
      array.capacity = .set cap →
      Simulates (memberAt array.requestType rt * (dataAt data c * R)) x y Q) :
    Simulates (contentsAt array c rt * R) x y Q := by
  apply Simulates.ex_mul
  intro data
  rw [mul_assoc, mul_assoc]
  apply Simulates.fact
  rintro ⟨hdata, hsize, hcapacity⟩
  exact h data hdata hsize hcapacity

variable {a : ℕ} {ps : List KeyValuePair} {pairs : Bounded Parsing.KeyValuePair cap}

theorem dataAt_intro {f : Fragment Block}
    (h : (slotsAt cap a ps * (each pairAt ps pairs.entries * R)) f) :
    (dataAt (some a) (.granted pairs) * R) f := by
  apply ex_mul_intro (a, ps)
  rw [mul_assoc, mul_assoc]
  exact fact_mul.mpr ⟨rfl, h⟩

theorem dataAt_elim {data : Address}
    (h : ∀ a ps, data = some a →
      Simulates (slotsAt cap a ps * (each pairAt ps pairs.entries * R)) x y Q) :
    Simulates (dataAt data (.granted pairs) * R) x y Q := by
  apply Simulates.ex_mul
  rintro ⟨a, ps⟩
  rw [mul_assoc, mul_assoc]
  exact .fact (h a ps)

theorem granted_intro {f : Fragment Block} (hdata : array.data = .set (some a))
    (hsize : array.size = .set pairs.entries.length) (hcapacity : array.capacity = .set cap)
    (h : (slotsAt cap a ps * (each pairAt ps pairs.entries *
      (memberAt array.requestType rt * R))) f) :
    (contentsAt array (.granted pairs) rt * R) f := by
  refine contentsAt_intro hdata hsize hcapacity ?_
  rw [mul_left_comm]
  exact dataAt_intro h

theorem granted_elim
    (h : ∀ a ps, array.data = .set (some a) → array.size = .set pairs.entries.length →
      array.capacity = .set cap → ps.length = pairs.entries.length →
      Simulates (slotsAt cap a ps * (each pairAt ps pairs.entries *
        (memberAt array.requestType rt * R))) x y Q) :
    Simulates (contentsAt array (.granted pairs) rt * R) x y Q := by
  apply contentsAt_elim
  intro data hdata hsize hcapacity
  rw [mul_left_comm]
  apply dataAt_elim
  rintro a ps rfl
  rw [mul_left_comm]
  refine Simulates.learn (P := each pairAt ps pairs.entries) (fun _ => length_of_each)
    fun hlength => ?_
  rw [mul_left_comm]
  exact h a ps hdata hsize hcapacity hlength

theorem refused_intro {f : Fragment Block} (hdata : array.data = .set none)
    (hsize : array.size = .set 0) (hcapacity : array.capacity = .set cap)
    (h : (memberAt array.requestType rt * R) f) :
    (contentsAt array (.refused : Contents cap) rt * R) f := by
  refine contentsAt_intro hdata hsize hcapacity ?_
  rw [mul_left_comm]
  exact fact_mul.mpr ⟨rfl, h⟩

theorem refused_elim
    (h : array.data = .set none → array.size = .set 0 → array.capacity = .set cap →
      Simulates (memberAt array.requestType rt * R) x y Q) :
    Simulates (contentsAt array (.refused : Contents cap) rt * R) x y Q := by
  apply contentsAt_elim
  intro data hdata hsize hcapacity
  rw [mul_left_comm]
  apply Simulates.fact
  rintro rfl
  exact h hdata hsize hcapacity

theorem initKeyValueArray_simulates (capacity : UInt8) :
    Simulates 1 (initKeyValueArray .uninitialized capacity)
      (Parsing.initKeyValueArray .uninitialized capacity)
      fun a r => ex fun c : Contents (min capacity.toNat 10) =>
        fact (r.1 = c.toArray .unset ∧ c.entries = []) * contentsAt a.1 c .unset := by
  rw [Contents.initKeyValueArray_toArray, initKeyValueArray]
  simp only [Cell.read_set, lift_pure, pure_bind]
  rw [capacity_clamped]
  apply Simulates.allocate
  · intro a
    refine .pure fun f hf => ⟨.granted .empty, fact_mul.mpr ⟨⟨rfl, rfl⟩, ?_⟩⟩
    have hslots : (slotsAt (min capacity.toNat 10) a [] * (each pairAt [] [] * 1)) f := by
      rwa [each_nil, mul_one]
    rw [← mul_one (contentsAt _ _ _)]
    exact contentsAt_intro rfl rfl rfl (fact_mul.mpr ⟨rfl, dataAt_intro hslots⟩)
  · refine .pure fun f hf => ⟨.refused, fact_mul.mpr ⟨⟨rfl, rfl⟩, ?_⟩⟩
    rw [← mul_one (contentsAt _ _ _)]
    exact refused_intro rfl rfl rfl (fact_mul.mpr ⟨rfl, hf⟩)

theorem pairAt_intro {k v : Address} {key : Option CString} {content : Option (List UInt8)}
    {f : Fragment Block} (h : (bytesAt v content * (stringAt k key * R)) f) :
    (pairAt ⟨k, v⟩ ⟨key, content⟩ * R) f := by
  rwa [pairAt, mul_assoc, mul_left_comm]

theorem initKeyValuePair_simulates (key : CString) (value : Option (List UInt8)) (size : ℕ) :
    Simulates R (initKeyValuePair key value size) (Parsing.initKeyValuePair key value size)
      fun p r => fact (p.2 = r.2) * (pairAt p.1 r.1 * R) := by
  apply Simulates.bind (strdup_target Block.string key)
  intro copy k
  cases value with
  | none =>
    apply Simulates.allocate
    · intro a
      simp only [deref_some, lift_pure, pure_bind, if_true]
      apply Simulates.store
      exact .pure fun f hf => fact_mul.mpr ⟨rfl, pairAt_intro (targetAt_intro hf)⟩
    · exact .abort (fun _ _ => rfl) (fun _ => rfl)
  | some value =>
    apply Simulates.allocate
    · intro a
      rw [if_pos rfl]
      apply Simulates.both
      intro content
      apply Simulates.store
      exact .pure fun f hf => fact_mul.mpr ⟨rfl, pairAt_intro (targetAt_intro hf)⟩
    · refine .pure fun f hf => fact_mul.mpr ⟨rfl, pairAt_intro ?_⟩
      exact fact_mul.mpr ⟨rfl, hf⟩

theorem contentsAt_setRequestType {q : Address} {s : Option CString} {f : Fragment Block}
    (h : (stringAt q s * contentsAt array c .unset) f) :
    contentsAt { array with requestType := .set q } c (.set s) f := by
  rw [mul_comm, contentsAt, ex_mul] at h
  obtain ⟨data, h⟩ := h
  rw [mul_assoc] at h
  obtain ⟨⟨hdata, hsize, hcapacity⟩, h⟩ := fact_mul.mp h
  rw [mul_assoc] at h
  obtain ⟨-, h⟩ := fact_mul.mp h
  rw [← mul_one (contentsAt _ _ _)]
  refine contentsAt_intro hdata hsize hcapacity (ex_mul_intro q ?_)
  rw [mul_one, mul_assoc, mul_comm (stringAt _ _)]
  exact fact_mul.mpr ⟨rfl, h⟩

theorem setRequestType_simulates (request : CString) (array : KeyValuePairArray)
    (c : Contents cap) :
    Simulates (contentsAt array c .unset) (setRequestType request array)
      (Parsing.setRequestType request (c.toArray .unset))
      fun a r => ex fun rt => fact (a.2 = r.2 ∧ r.1 = c.toArray (.set rt)) *
        contentsAt a.1 c (.set rt) := by
  apply Simulates.bind (strdup_target Block.string request)
  intro copy rt
  rw [Contents.setRequestType_toArray]
  apply Simulates.learn (P := targetAt copy _) fun _ => isNone_of_targetAt
  intro hcopy
  rw [Option.isNone_map] at hcopy
  dsimp only
  rw [hcopy]
  split_ifs <;>
    exact .pure fun f hf => ⟨rt, fact_mul.mpr ⟨⟨rfl, rfl⟩, contentsAt_setRequestType hf⟩⟩

/-- The block of slots after one more was filled. -/
theorem slots_set {l : List KeyValuePair} (h : l.length < cap) (p : KeyValuePair) :
    (l.map Cell.set ++ List.replicate (cap - l.length) Cell.unset).set l.length (.set p) =
      (l ++ [p]).map Cell.set ++ List.replicate (cap - (l ++ [p]).length) Cell.unset := by
  have hroom : cap - l.length = (cap - (l ++ [p]).length) + 1 := by
    simp only [List.length_append, List.length_cons, List.length_nil]
    omega
  simp [hroom, List.replicate_succ]

theorem addKeyValue_simulates (array : KeyValuePairArray) (c : Contents cap)
    (rt : Cell (Option CString)) (p : KeyValuePair) (kv : Parsing.KeyValuePair) :
    Simulates (contentsAt array c rt * pairAt p kv) (addKeyValue array p)
      (Parsing.addKeyValue (c.toArray rt) kv)
      fun a r => ex fun c' : Contents cap => fact (a.2 = r.2 ∧ r.1 = c'.toArray rt) *
        (contentsAt a.1 c' rt * if r.2 = FAIL then pairAt p kv else 1) := by
  rw [addKeyValue]
  rcases Nat.lt_or_eq_of_le c.stored.fits with hroom | hfull
  · cases c with
    | refused =>
      apply refused_elim
      intro hdata hsize hcapacity
      have hempty : 0 ≠ cap := hroom.ne
      simp only [hdata, hsize, hcapacity, Cell.read_set, lift_pure, pure_bind]
      rw [if_neg hempty, Contents.addKeyValue_refused hroom]
      exact .abort (fun _ _ => rfl) (fun _ => rfl)
    | granted pairs =>
      apply granted_elim
      intro a ps hdata hsize hcapacity hlength
      have hadd : Parsing.addKeyValue ((Contents.granted pairs).toArray rt) kv = _ :=
        Contents.addKeyValue_granted hroom kv
      have hps : ps.length < cap := hlength.trans_lt hroom
      simp only [hdata, hsize, hcapacity, Cell.read_set, lift_pure, pure_bind]
      rw [← hlength, if_neg hps.ne, hadd, deref_some, lift_pure, pure_bind]
      apply Simulates.loadAs (show Block.asSlots _ = some _ from rfl)
      rw [if_pos (by simp; omega), slots_set hps]
      apply Simulates.store
      refine .pure fun f hf => ⟨.granted (pairs.push kv), fact_mul.mpr ⟨⟨rfl, rfl⟩, ?_⟩⟩
      have hpush : (pairs.push kv).entries = pairs.entries ++ [kv] := Bounded.push_room hroom
      change (contentsAt _ _ _ * if SUCCESS = FAIL then pairAt p kv else 1) f
      rw [if_neg (by decide)]
      have hsize' : Cell.set (ps.length + 1) = Cell.set (pairs.push kv).entries.length := by
        rw [hpush, List.length_append, hlength]
        rfl
      have hslots : (slotsAt cap a (ps ++ [p]) * (each pairAt (ps ++ [p]) (pairs.push kv).entries *
          (memberAt array.requestType rt * 1))) f := by
        rw [hpush, each_concat hlength, mul_one, mul_assoc, mul_comm (pairAt p kv)]
        exact hf
      exact granted_intro rfl hsize' rfl hslots
  · apply contentsAt_elim
    intro data hdata hsize hcapacity
    simp only [hdata, hsize, hcapacity, Cell.read_set, lift_pure, pure_bind]
    rw [if_pos hfull, Contents.addKeyValue_at_capacity hfull]
    refine .pure fun f hf => ⟨c, fact_mul.mpr ⟨⟨rfl, rfl⟩, ?_⟩⟩
    rw [if_pos rfl]
    exact contentsAt_intro hdata hsize hcapacity hf

/-! ## Reading the slots -/

variable {i : ℕ} {l : List Parsing.KeyValuePair}

theorem slot_bind {f : KeyValuePair → Run Block α} (hdata : array.data = .set (some a))
    (hp : ps[i]? = some p) (hf : Simulates (slotsAt cap a ps * R) (f p) y Q) :
    Simulates (slotsAt cap a ps * R) (array.slot i >>= f) y Q := by
  have hslot : (ps.map Cell.set ++ List.replicate (cap - ps.length) Cell.unset)[i]? =
      some (.set p) := by
    rw [List.getElem?_append_left (by simpa using (List.getElem?_eq_some_iff.mp hp).1),
      List.getElem?_map, hp, Option.map_some]
  rw [KeyValuePairArray.slot]
  simp only [hdata, Cell.read_set, lift_pure, pure_bind, follow_some, bind_assoc]
  apply Simulates.loadAs (show Block.asSlots _ = some _ from rfl)
  simp only [hslot, Cell.read_set, lift_pure, pure_bind]
  exact hf

/-- The key of a stored pair is followed. -/
theorem followKey {f : CString → Run Block α} {g : CString → Exec γ} (hp : ps[i]? = some p)
    (hkv : l[i]? = some kv) (hf : ∀ k, Simulates (each pairAt ps l * R) (f k) (g k) Q) :
    Simulates (each pairAt ps l * R) (follow Block.asString p.key >>= f) (deref kv.key >>= g) Q := by
  simp only [each_eraseIdx hp hkv, pairAt, mul_assoc] at hf ⊢
  exact follow_target Block.asString_string fun k _ => hf k

/-- The stored value that a search finds is lent by the array. -/
def lentAt {cap : ℕ} (array : KeyValuePairArray) (c : Contents cap) (rt : Cell (Option CString))
    (value : Address) (content : Option (List UInt8)) : Assertion Block :=
  bytesAt value content * wand (bytesAt value content) (contentsAt array c rt)

/-- What a search leaves: it finds a pair where the other one does, and its value is lent. -/
def foundAt {cap : ℕ} (array : KeyValuePairArray) (c : Contents cap) (rt : Cell (Option CString))
    (p : Option KeyValuePair) (kv : Option Parsing.KeyValuePair) : Assertion Block :=
  fact (p.isSome = kv.isSome) *
    lentAt array c rt (p.bind KeyValuePair.value) (kv.bind Parsing.KeyValuePair.value)

theorem lent_none {f : Fragment Block} (h : contentsAt array c rt f) :
    lentAt array c rt none none f := by
  apply wand_intro (R := contentsAt array c rt)
  · intro f hf
    exact (fact_mul.mp hf).2
  · exact fact_mul.mpr ⟨rfl, h⟩

theorem lent_some {f : Fragment Block} (hdata : array.data = .set (some a))
    (hsize : array.size = .set pairs.entries.length) (hcapacity : array.capacity = .set cap)
    (hp : ps[i]? = some p) (hkv : pairs.entries[i]? = some kv)
    (h : (slotsAt cap a ps * (each pairAt ps pairs.entries * memberAt array.requestType rt)) f) :
    lentAt array (.granted pairs) rt p.value kv.value f := by
  have hsplit : slotsAt cap a ps * (each pairAt ps pairs.entries * memberAt array.requestType rt) =
      bytesAt p.value kv.value * (stringAt p.key kv.key * (slotsAt cap a ps *
        (each pairAt (ps.eraseIdx i) (pairs.entries.eraseIdx i) *
          memberAt array.requestType rt))) := by
    rw [each_eraseIdx hp hkv, pairAt]
    ac_rfl
  rw [hsplit] at h
  refine wand_intro (fun f hf => ?_) h
  rw [← hsplit, ← mul_one (memberAt _ _)] at hf
  rw [← mul_one (contentsAt _ _ _)]
  exact granted_intro hdata hsize hcapacity hf

theorem findKey_simulates (key : CString) (hdata : array.data = .set (some a))
    (hsize : array.size = .set pairs.entries.length) (hcapacity : array.capacity = .set cap)
    (hlength : ps.length = pairs.entries.length) (todo i : ℕ) (h : i + todo = pairs.entries.length) :
    Simulates (slotsAt cap a ps * (each pairAt ps pairs.entries * memberAt array.requestType rt))
      (findKey array key todo i) (search key (pairs.entries.drop i))
      (foundAt array (.granted pairs) rt) := by
  induction todo generalizing i with
  | zero =>
    rw [List.drop_eq_nil_of_le (by omega)]
    refine .pure fun f hf => fact_mul.mpr ⟨rfl, lent_none ?_⟩
    rw [← mul_one (contentsAt _ _ _)]
    exact granted_intro hdata hsize hcapacity (by rwa [mul_one])
  | succ todo ih =>
    have hi : i < pairs.entries.length := by omega
    have hp : ps[i]? = some ps[i] := List.getElem?_eq_getElem (hlength ▸ hi)
    have hkv : pairs.entries[i]? = some pairs.entries[i] := List.getElem?_eq_getElem hi
    rw [List.drop_eq_getElem_cons hi, findKey, search]
    apply slot_bind hdata hp
    rw [mul_left_comm]
    apply followKey hp hkv
    intro k
    rw [mul_left_comm]
    apply Simulates.ite
    · intro _
      exact .pure fun f hf => fact_mul.mpr ⟨rfl, lent_some hdata hsize hcapacity hp hkv hf⟩
    · intro _
      exact ih (i + 1) (by omega)

theorem findKey_lends (array : KeyValuePairArray) (c : Contents cap) (rt : Cell (Option CString))
    (key : CString) :
    Simulates (contentsAt array c rt)
      (do findKey array key (← lift array.size.read) 0) (search key c.entries)
      (foundAt array c rt) := by
  rw [← mul_one (contentsAt array c rt)]
  cases c with
  | refused =>
    apply refused_elim
    intro hdata hsize hcapacity
    rw [hsize]
    refine .pure fun f hf => fact_mul.mpr ⟨rfl, lent_none ?_⟩
    rw [← mul_one (contentsAt _ _ _)]
    exact refused_intro hdata hsize hcapacity hf
  | granted pairs =>
    apply granted_elim
    intro a ps hdata hsize hcapacity hlength
    rw [hsize, mul_one]
    exact findKey_simulates key hdata hsize hcapacity hlength _ 0 (Nat.zero_add _)

theorem getKey_simulates (array : KeyValuePairArray) (c : Contents cap) (rt : Cell (Option CString))
    (key : CString) :
    Simulates (contentsAt array c rt) (getKey array key) (Parsing.getKey (c.toArray rt) key)
      fun a r => fact (a = r) * contentsAt array c rt := by
  rw [Contents.getKey_toArray]
  have hfind := findKey_lends array c rt key
  rw [getKey]
  rw [← bind_assoc]
  refine hfind.bind fun p kv => .fact fun hfound => ?_
  cases p <;> cases kv <;> cases hfound <;>
    exact .pure fun f hf => fact_mul.mpr ⟨rfl, wand_elim hf⟩

theorem getValue_simulates (array : KeyValuePairArray) (c : Contents cap)
    (rt : Cell (Option CString)) (key : CString) :
    Simulates (contentsAt array c rt) (getValue array key none)
      (Parsing.getValue (c.toArray rt) key none)
      fun a r => fact (a.2 = r.2) * lentAt array c rt a.1 r.1 := by
  rw [Contents.getValue_toArray, getValue, ← bind_assoc]
  refine (findKey_lends array c rt key).bind fun p kv => .fact fun hfound => ?_
  cases p <;> cases kv <;> cases hfound <;>
    exact .pure fun f hf => fact_mul.mpr ⟨rfl, hf⟩

/-! ## The loops over all slots -/

/-- A loop that leaves each pair as it is. -/
theorem forSlots_keeps {body : KeyValuePair → Run Block Unit}
    {body' : Parsing.KeyValuePair → Exec Unit}
    (hbody : ∀ p kv, Simulates (pairAt p kv) (body p) (body' kv) fun _ _ => pairAt p kv)
    (hdata : array.data = .set (some a)) (hlength : ps.length = pairs.entries.length)
    (todo i : ℕ) (h : i + todo = pairs.entries.length) :
    Simulates (slotsAt cap a ps * each pairAt ps pairs.entries) (forSlots array body todo i)
      (Parsing.forSlots ((Contents.granted pairs).toArray rt) body' todo i)
      fun _ _ => slotsAt cap a ps * each pairAt ps pairs.entries := by
  induction todo generalizing i with
  | zero => exact .pure fun _ => id
  | succ todo ih =>
    have hi : i < pairs.entries.length := by omega
    have hp : ps[i]? = some ps[i] := List.getElem?_eq_getElem (hlength ▸ hi)
    have hkv : pairs.entries[i]? = some pairs.entries[i] := List.getElem?_eq_getElem hi
    have hslot := @Contents.slot_toArray cap rt (.granted pairs) i hi
    rw [forSlots, Parsing.forSlots, hslot, pure_bind]
    apply slot_bind hdata hp
    rw [mul_comm, each_eraseIdx hp hkv, mul_assoc]
    refine ((hbody _ _).frame _).bind fun _ _ => ?_
    rw [← mul_assoc, ← each_eraseIdx hp hkv, mul_comm]
    exact ih (i + 1) (by omega)

theorem followNullable_target {δ : Type} {kind : Block → Option δ} {mk : δ → Block}
    (hkind : ∀ d, kind (mk d) = some d) {o : Option δ} {q : Address}
    {f : Option δ → Run Block α} (hf : Simulates (targetAt q (o.map mk) * R) (f o) y Q) :
    Simulates (targetAt q (o.map mk) * R) (followNullable kind q >>= f) y Q := by
  cases o with
  | none =>
    apply Simulates.fact
    rintro rfl
    exact hf.pre fun f hf => fact_mul.mpr ⟨rfl, hf⟩
  | some d =>
    apply targetAt_elim
    rintro b rfl
    rw [followNullable, bind_assoc]
    apply Simulates.loadAs (hkind d)
    exact hf.pre fun _ => targetAt_intro

theorem forSlots_simulates {body : KeyValuePair → Run Block Unit}
    {body' : Parsing.KeyValuePair → Exec Unit}
    (hbody : ∀ p kv, Simulates (pairAt p kv) (body p) (body' kv) fun _ _ => pairAt p kv)
    (array : KeyValuePairArray) (c : Contents cap) (rt : Cell (Option CString)) :
    Simulates (contentsAt array c rt) (do forSlots array body (← lift array.size.read) 0)
      (Parsing.forSlots (c.toArray rt) body' c.entries.length 0)
      fun _ _ => contentsAt array c rt := by
  rw [← mul_one (contentsAt array c rt)]
  cases c with
  | refused =>
    apply refused_elim
    intro hdata hsize hcapacity
    rw [hsize]
    exact .pure fun f hf => refused_intro hdata hsize hcapacity hf
  | granted pairs =>
    apply granted_elim
    intro a ps hdata hsize hcapacity hlength
    rw [hsize, ← mul_assoc]
    refine ((forSlots_keeps hbody hdata hlength _ 0 (Nat.zero_add _)).frame _).post fun _ _ f hf => ?_
    rw [mul_assoc] at hf
    exact granted_intro hdata hsize hcapacity hf

/-- The request type of an array is lent while it is read. -/
theorem requestType_lent {f : Address → Run Block α} {g : Option CString → Exec γ}
    (hf : ∀ q s, rt = .set s → Simulates (stringAt q s *
      (wand (stringAt q s) (contentsAt array c rt) * R)) (f q) (g s) Q) :
    Simulates (contentsAt array c rt * R) (lift array.requestType.read >>= f)
      (rt.read >>= g) Q := by
  apply contentsAt_elim
  intro data hdata hsize hcapacity
  cases rt with
  | unset =>
    apply Simulates.fact
    intro hrt
    rw [hrt]
    exact .abort (fun _ _ => rfl) (fun _ => rfl)
  | set s =>
    apply Simulates.ex_mul
    intro q
    rw [mul_assoc]
    apply Simulates.fact
    intro hrt
    rw [hrt, Cell.read_set, Cell.read_set, lift_pure, pure_bind, pure_bind, ← mul_assoc]
    refine ((hf q s rfl).pre fun f hf => ?_)
    rw [← mul_assoc]
    refine mul_mono (fun f hf => wand_intro (fun f hf => ?_) hf) (fun _ => id) hf
    rw [← mul_one (contentsAt _ _ _)]
    refine contentsAt_intro hdata hsize hcapacity (ex_mul_intro q ?_)
    rw [mul_one, mul_assoc]
    exact fact_mul.mpr ⟨hrt, hf⟩

theorem printNode_simulates (p : KeyValuePair) (kv : Parsing.KeyValuePair) :
    Simulates (pairAt p kv) (printNode p) (Parsing.printNode kv) fun _ _ => pairAt p kv := by
  rw [pairAt, printNode, Parsing.printNode]
  apply follow_target Block.asString_string
  intro key _
  rw [mul_comm]
  apply follow_target Block.asBytes_bytes
  intro content _
  apply Simulates.both
  intro _
  exact .pure fun f hf => by rwa [mul_comm] at hf

theorem printAllNodes_simulates (array : KeyValuePairArray) (c : Contents cap)
    (rt : Cell (Option CString)) :
    Simulates (contentsAt array c rt) (printAllNodes array) (Parsing.printAllNodes (c.toArray rt))
      fun a r => fact (a = r) * contentsAt array c rt := by
  rw [printAllNodes, Parsing.printAllNodes, Contents.toArray_requestType, Contents.toArray_size,
    ← mul_one (contentsAt array c rt)]
  apply requestType_lent
  rintro q s rfl
  apply follow_target Block.asString_string
  intro name _
  rw [← mul_assoc, mul_one, Cell.read_set, pure_bind, ← bind_assoc]
  refine (Simulates.pre (forSlots_simulates printNode_simulates array c (.set s))
    fun _ => wand_elim).bind fun _ _ => ?_
  exact .pure fun f hf => fact_mul.mpr ⟨rfl, by rwa [mul_one]⟩

theorem freeSlots_simulates (hdata : array.data = .set (some a))
    (hlength : ps.length = pairs.entries.length) (todo i : ℕ) (h : i + todo = pairs.entries.length) :
    Simulates (slotsAt cap a ps * each pairAt (ps.drop i) (pairs.entries.drop i))
      (forSlots array (fun kv => do
        free kv.key
        free kv.value) todo i)
      (Parsing.forSlots ((Contents.granted pairs).toArray rt) (fun _ => return ()) todo i)
      fun _ _ => slotsAt cap a ps := by
  induction todo generalizing i with
  | zero =>
    rw [List.drop_eq_nil_of_le (by omega), List.drop_eq_nil_of_le (by omega), each_nil, mul_one]
    exact .pure fun _ => id
  | succ todo ih =>
    have hi : i < pairs.entries.length := by omega
    have hi' : i < ps.length := hlength ▸ hi
    have hslot := @Contents.slot_toArray cap rt (.granted pairs) i hi
    rw [List.drop_eq_getElem_cons hi, List.drop_eq_getElem_cons hi', each_cons, pairAt, forSlots,
      Parsing.forSlots, hslot, pure_bind, pure_bind]
    apply slot_bind hdata (List.getElem?_eq_getElem hi')
    rw [mul_comm, mul_assoc, mul_assoc, bind_assoc]
    apply free_target
    apply free_target
    rw [mul_comm]
    exact ih (i + 1) (by omega)

/-- The request type and the block of slots are released last. -/
theorem freeMembers_simulates {data : Address} (hdata : array.data = .set data) (b : Option Block)
    (o : Option (List (Cell Parsing.KeyValuePair))) :
    Simulates (memberAt array.requestType rt * targetAt data b)
      (do
        free (← lift array.requestType.read)
        free (← lift array.data.read)
        return SUCCESS)
      (do
        let _ ← rt.read
        let _ ← (Cell.set o).read
        return SUCCESS) fun a r => fact (a = r) := by
  simp only [hdata, Cell.read_set, lift_pure, pure_bind]
  cases rt with
  | unset =>
    apply Simulates.fact
    intro hrt
    rw [hrt]
    exact .abort (fun _ _ => rfl) (fun _ => rfl)
  | set s =>
    apply Simulates.ex_mul
    intro q
    rw [mul_assoc]
    apply Simulates.fact
    intro hrt
    simp only [hrt, Cell.read_set, lift_pure, pure_bind]
    apply free_target
    rw [← mul_one (targetAt data b)]
    apply free_target
    exact .pure fun f hf => ⟨rfl, hf⟩

/-- Every block of an array is released once. -/
theorem freeKeyValuePairArray_simulates (array : KeyValuePairArray) (c : Contents cap)
    (rt : Cell (Option CString)) :
    Simulates (contentsAt array c rt) (freeKeyValuePairArray array)
      (Parsing.freeKeyValuePairArray (c.toArray rt)) fun a r => fact (a = r) := by
  rw [freeKeyValuePairArray, Parsing.freeKeyValuePairArray, Contents.toArray_requestType,
    Contents.toArray_size, ← mul_one (contentsAt array c rt)]
  cases c with
  | refused =>
    apply refused_elim
    intro hdata hsize hcapacity
    rw [hsize]
    exact (freeMembers_simulates hdata none none).pre fun f hf => by
      rwa [targetAt_null]
  | granted pairs =>
    apply granted_elim
    intro a ps hdata hsize hcapacity hlength
    have hloop : Simulates (slotsAt cap a ps * each pairAt ps pairs.entries) _
        (Parsing.forSlots ((Contents.granted pairs).toArray rt) _ pairs.entries.length 0)
        fun _ _ => slotsAt cap a ps :=
      freeSlots_simulates hdata hlength _ 0 (Nat.zero_add _)
    simp only [hsize, Cell.read_set, lift_pure, pure_bind]
    rw [← mul_assoc]
    refine (hloop.frame _).bind fun _ _ => ?_
    let block := Block.slots (ps.map .set ++ List.replicate (cap - ps.length) .unset)
    refine (freeMembers_simulates hdata (some block) (some _)).pre fun f hf => ?_
    rw [mul_comm, mul_one] at hf
    exact mul_mono (fun _ => id) (fun f hf => ⟨a, fact_mul.mpr ⟨rfl, hf⟩⟩) hf

end Contents

/-! ## How many blocks an array is made of -/

section Blocks
variable {cap : ℕ}

def blocks {α : Type} (o : Option α) : ℕ := if o.isSome then 1 else 0

def Contents.blocks : Contents cap → ℕ
  | .granted pairs =>
    1 + (pairs.entries.map fun kv => Stored.blocks kv.key + Stored.blocks kv.value).sum
  | .refused => 0

theorem owns_stringAt (p : Address) (s : Option CString) : Owns (stringAt p s) (blocks s) := by
  have howns := owns_targetAt p (s.map Block.string)
  rwa [Option.isSome_map] at howns

theorem owns_bytesAt (p : Address) (content : Option (List UInt8)) :
    Owns (bytesAt p content) (blocks content) := by
  have howns := owns_targetAt p (content.map Block.bytes)
  rwa [Option.isSome_map] at howns

theorem owns_contentsAt (array : KeyValuePairArray) (c : Contents cap) (s : Option CString) :
    Owns (contentsAt array c (.set s)) (blocks s + Contents.blocks c) := by
  refine .ex fun data => .fact_mul fun _ => .mul ?_ ?_
  · exact .ex fun q => .fact_mul fun _ => owns_stringAt q s
  · cases c with
    | refused =>
      rw [dataAt, ← mul_one (fact _)]
      exact .fact_mul fun _ => .one
    | granted pairs =>
      refine .ex fun x => .fact_mul fun _ => .mul (.cell _ _) (.each (fun p kv => ?_) _ _)
      exact (owns_stringAt p.key kv.key).mul (owns_bytesAt p.value kv.value)

end Blocks

/-! ## The device -/

section Device
variable {R : Assertion Block}

def deviceAt (device : Abcc) (held : Parsing.Abcc) : Assertion Block :=
  stringAt device.ipAddress held.ipAddress

theorem initAbcc_simulates (device : Abcc) (held : Parsing.Abcc) :
    Simulates R (initAbcc device) (Parsing.initAbcc held)
      fun a r => fact (a.2 = r.2) * (deviceAt a.1 r.1 * R) := by
  refine (strdup_target Block.string initialAddress).bind fun q s => ?_
  apply Simulates.learn (P := targetAt q _) fun _ => isNone_of_targetAt
  intro hq
  rw [Option.isNone_map] at hq
  dsimp only
  rw [hq]
  split_ifs <;> exact .pure fun f hf => fact_mul.mpr ⟨rfl, hf⟩

/-- The address that a new one is written over. -/
def overwrittenAt (device : Abcc) (held : Parsing.Abcc) : Option (List UInt8) → Assertion Block
  | none => 1
  | some _ => deviceAt device held

/-- The value is copied, and the address that was stored before is left over. -/
theorem setIpAddress_simulates (device : Abcc) (held : Parsing.Abcc) (ip : Address)
    (content : Option (List UInt8)) :
    Simulates (bytesAt ip content * deviceAt device held) (setIpAddress device ip)
      (do Parsing.setIpAddress held (← readPointer content))
      fun a r => fact (a.2 = r.2) * (deviceAt a.1 r.1 *
        (bytesAt ip content * overwrittenAt device held content)) := by
  cases content with
  | none =>
    apply Simulates.fact
    rintro rfl
    have hnothing : bytesAt none none * overwrittenAt device held none = 1 := by
      rw [bytesAt, Option.map_none, targetAt_null, overwrittenAt, mul_one]
    rw [hnothing]
    simp only [mul_one]
    exact .pure fun f hf => fact_mul.mpr ⟨rfl, hf⟩
  | some content =>
    apply targetAt_elim
    rintro a rfl
    rw [setIpAddress, readPointer]
    simp only [bind_assoc, pure_bind]
    apply Simulates.loadAs (Block.asBytes_bytes content)
    apply Simulates.both
    intro s
    refine (strdup_target Block.string s).bind fun q s => ?_
    apply Simulates.learn (P := targetAt q _) fun _ => isNone_of_targetAt
    intro hq
    rw [Option.isNone_map] at hq
    dsimp only
    rw [hq]
    split_ifs <;>
      exact .pure fun f hf => fact_mul.mpr
        ⟨rfl, mul_mono (fun _ => id) (fun _ => targetAt_intro) hf⟩

end Device

end NetconfServer.Parsing.Stored
