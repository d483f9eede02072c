import NetconfServer.Parsing.AssociationList
import NetconfServer.Parsing.Process

/-! # The members an array operation reads

`init_key_value_array` sets every member but `request_type`. An operation that reads that one finds
it set exactly when `set_request_type` ran before, by itself or inside `process_xml`.
-/

namespace NetconfServer.Parsing
open Memory CString Library KeyValuePairArray

inductive ArrayOperation where
  | setRequestType (request : CString)
  | addKeyValue (kv : KeyValuePair)
  | getKey (key : CString)
  | getValue (key : CString) (value : Option (List UInt8))
  | printAllNodes
  | processXml (node : Option XmlNode)
  | createXmlReply (lib : Libxml2) (device : Abcc) (messageId : CString)
  | freeKeyValuePairArray

namespace ArrayOperation

def run (array : KeyValuePairArray) : ArrayOperation → Exec KeyValuePairArray
  | setRequestType request => do
    let (array, _) ← Parsing.setRequestType request array
    return array
  | addKeyValue kv => do
    let (array, _) ← Parsing.addKeyValue array kv
    return array
  | getKey key => do
    let _ ← Parsing.getKey array key
    return array
  | getValue key value => do
    let _ ← Parsing.getValue array key value
    return array
  | printAllNodes => do
    let _ ← Parsing.printAllNodes array
    return array
  | processXml node => do
    let (processed, _) ← Parsing.processXml (some array) node
    return processed.getD array
  | createXmlReply lib device messageId => do
    let _ ← Parsing.createXmlReply lib array device messageId
    return array
  | freeKeyValuePairArray => do
    let _ ← Parsing.freeKeyValuePairArray array
    return array

/-- The operations that start by setting `request_type`. -/
def SetsRequestType : ArrayOperation → Prop
  | setRequestType _ => True
  | processXml node => node ≠ none
  | _ => False

def ReadsRequestType : ArrayOperation → Prop
  | printAllNodes => True
  | createXmlReply _ _ _ => True
  | freeKeyValuePairArray => True
  | _ => False

/-- `init_key_value_array` on a fresh variable, and then the operations. -/
def runAll (capacity : UInt8) (ops : List ArrayOperation) : Exec KeyValuePairArray := do
  let (array, _) ← initKeyValueArray .uninitialized capacity
  ops.foldlM run array

end ArrayOperation

/-! ## Code that reads no unset member -/

/-- Whatever is granted, `x` reads nothing that is unset. -/
abbrev ReadsSet {α : Type} (x : Exec α) : Prop := Ends x (fun _ => True) (· ≠ .unsetField)

section ReadsSet
variable {α : Type}

theorem ReadsSet.deref (a : Option α) : ReadsSet (deref a) := by
  cases a with
  | none => exact Ends.fault (by decide)
  | some a => exact .pure trivial

theorem readString_ends (block : List UInt8) :
    Ends (readString block) (fun _ => True) (· = .unterminated) :=
  Ends.ite (fun _ => .pure trivial) fun _ => Ends.fault rfl

theorem ReadsSet.readString (block : List UInt8) : ReadsSet (readString block) :=
  (readString_ends block).mono (fun _ _ => trivial) fun e he => by simp [he]

theorem readPointer_ends (value : Option (List UInt8)) :
    Ends (readPointer value) (fun _ => True) (· = .unterminated) := by
  cases value with
  | none => exact .pure trivial
  | some block => exact (readString_ends block).bind fun _ _ => .pure trivial

theorem ReadsSet.readPointer (value : Option (List UInt8)) : ReadsSet (readPointer value) :=
  (readPointer_ends value).mono (fun _ _ => trivial) fun e he => by simp [he]

/-- `strdup` returns, with a copy or without. -/
theorem strdup_ends (s : CString) : Ends (strdup s) (fun _ => True) (fun _ => False) := by
  apply Ends.malloc.bind
  intro granted _
  exact Ends.ite (fun _ => .pure trivial) fun _ => .pure trivial

theorem ReadsSet.strdup (s : CString) : ReadsSet (strdup s) :=
  (strdup_ends s).mono (fun _ _ => trivial) fun _ => False.elim

/-- So does `set_IP_ADDRESS`. -/
theorem setIpAddress_ends (device : Abcc) (ip : Option CString) :
    Ends (setIpAddress device ip) (fun _ => True) (fun _ => False) := by
  cases ip with
  | none => exact .pure trivial
  | some ip =>
    apply (strdup_ends ip).bind
    intro copy _
    exact Ends.ite (fun _ => .pure trivial) fun _ => .pure trivial

theorem ReadsSet.initKeyValuePair (key : CString) (value : Option (List UInt8)) (valueSize : ℕ) :
    ReadsSet (initKeyValuePair key value valueSize) := by
  apply (ReadsSet.strdup key).bind
  intro copy _
  cases value with
  | none =>
    apply Ends.malloc.bind
    intro granted _
    exact Ends.ite (fun _ => .pure trivial) fun _ => Ends.fault (by decide)
  | some value =>
    have hcopy : ReadsSet (memcpy value valueSize) :=
      Ends.ite (fun _ => .pure trivial) fun _ => Ends.fault (by decide)
    apply Ends.malloc.bind
    intro granted _
    exact Ends.ite (fun _ => hcopy.bind fun _ _ => .pure trivial) fun _ => .pure trivial

theorem ReadsSet.search (key : CString) (l : List KeyValuePair) : ReadsSet (search key l) := by
  induction l with
  | nil => exact .pure trivial
  | cons kv l ih =>
    apply (ReadsSet.deref kv.key).bind
    intro k _
    exact Ends.ite (fun _ => .pure trivial) fun _ => ih

theorem ReadsSet.setIpAddress (device : Abcc) (ip : Option CString) :
    ReadsSet (setIpAddress device ip) :=
  (setIpAddress_ends device ip).mono (fun _ _ => trivial) fun _ => False.elim

theorem ReadsSet.createNetconfResponse4 (lib : Libxml2) (ipAdr : Option CString)
    (msgNum : CString) : ReadsSet (createNetconfResponse4 lib ipAdr msgNum) := by
  apply (ReadsSet.deref _).bind
  intro xmlBuff _
  apply Ends.malloc.bind
  intro granted _
  exact Ends.ite (fun _ => .pure trivial) fun _ => Ends.fault (by decide)

end ReadsSet

/-! ## The functions on an initialised array -/

section Initialised
variable {cap : ℕ} {rt : Cell (Option CString)} (c : Contents cap)

theorem getKey_readsSet (key : CString) : ReadsSet (getKey (c.toArray rt) key) := by
  rw [Contents.getKey_toArray]
  apply (ReadsSet.search key c.entries).bind
  rintro (_ | kv) _
  · exact .pure trivial
  · exact .pure trivial

theorem getValue_readsSet (key : CString) (value : Option (List UInt8)) :
    ReadsSet (getValue (c.toArray rt) key value) := by
  rw [Contents.getValue_toArray]
  apply (ReadsSet.search key c.entries).bind
  rintro (_ | kv) _
  · exact .pure trivial
  · exact .pure trivial

theorem forSlots_readsSet {body : KeyValuePair → Exec Unit} (hbody : ∀ kv, ReadsSet (body kv))
    (todo i : ℕ) (h : i + todo = c.entries.length) :
    ReadsSet (forSlots (c.toArray rt) body todo i) := by
  induction todo generalizing i with
  | zero => exact .pure trivial
  | succ todo ih =>
    rw [forSlots, Contents.slot_toArray (by omega)]
    exact (hbody _).bind fun _ _ => ih (i + 1) (by omega)

theorem forSlots_nothing (todo i : ℕ) (h : i + todo = c.entries.length) :
    forSlots (c.toArray rt) (fun _ => return ()) todo i = pure () := by
  induction todo generalizing i with
  | zero => rfl
  | succ todo ih =>
    rw [forSlots, Contents.slot_toArray (by omega), pure_bind, pure_bind, ih (i + 1) (by omega)]

theorem selectOperation_readsSet : ReadsSet (selectOperation (c.toArray rt)) := by
  apply (getKey_readsSet c _).bind
  intro code _
  apply Ends.ite (fun _ => .pure trivial)
  intro _
  apply (getKey_readsSet c _).bind
  intro code _
  apply Ends.ite (fun _ => .pure trivial)
  intro _
  apply (getKey_readsSet c _).bind
  intro code _
  apply Ends.ite (fun _ => .pure trivial)
  intro _
  apply (getKey_readsSet c _).bind
  intro code _
  exact Ends.ite (fun _ => .pure trivial) fun _ => .pure trivial

theorem rpcReply_readsSet (lib : Libxml2) (device : Abcc) (messageId : CString)
    (op : Option Operation) : ReadsSet (rpcReply lib (c.toArray rt) device messageId op) := by
  have hdata : ReadsSet (do
      let text ← createNetconfResponse4 lib device.ipAddress messageId
      return (Reply.data text, device)) :=
    (ReadsSet.createNetconfResponse4 lib device.ipAddress messageId).bind fun _ _ => .pure trivial
  cases op with
  | none => exact .pure trivial
  | some op =>
    cases op with
    | get =>
      apply (getKey_readsSet c _).bind
      intro code _
      apply Ends.ite (fun _ => .pure trivial)
      intro _
      apply (getKey_readsSet c _).bind
      intro code _
      exact Ends.ite (fun _ => .pure trivial) fun _ => hdata
    | getSchema => exact .pure trivial
    | editConfig =>
      apply (getKey_readsSet c _).bind
      intro code _
      apply Ends.ite (fun _ => hdata)
      intro _
      apply (getValue_readsSet c _ none).bind
      intro found _
      apply (ReadsSet.readPointer found.1).bind
      intro ip _
      exact (ReadsSet.setIpAddress device ip).bind fun _ _ => .pure trivial
    | getConfig => exact .pure trivial

theorem setRequestType_ends (request : CString) :
    Ends (setRequestType request (c.toArray rt))
      (fun r => ∃ copy, r.1 = c.toArray (.set copy)) (· ≠ .unsetField) := by
  apply (ReadsSet.strdup request).bind
  intro copy _
  exact Ends.ite (fun _ => .pure ⟨copy, c.setRequestType_toArray rt (.set copy)⟩)
    fun _ => .pure ⟨copy, c.setRequestType_toArray rt (.set copy)⟩

theorem addKeyValue_ends (kv : KeyValuePair) :
    Ends (addKeyValue (c.toArray rt) kv) (fun r => ∃ c' : Contents cap, r.1 = c'.toArray rt)
      (· ≠ .unsetField) := by
  rcases c.addKeyValue_cases rt kv with ⟨-, hfault⟩ |
    ⟨c', -, -, ⟨-, -, hadd⟩ | ⟨-, hadd⟩⟩
  · rw [hfault]
    exact Ends.fault (by decide)
  · rw [hadd]
    exact .pure ⟨c', rfl⟩
  · rw [hadd]
    exact .pure ⟨c', rfl⟩

theorem elementPair_readsSet (node : XmlNode) : ReadsSet (elementPair node) := by
  rw [elementPair]
  cases node.children with
  | nil => exact .initKeyValuePair _ _ _
  | cons child next =>
    dsimp only
    split_ifs
    · exact .initKeyValuePair _ _ _
    · exact .initKeyValuePair _ _ _

theorem extractXml_ends (node : XmlNode) :
    Ends (extractXml node (c.toArray rt)) (fun array => ∃ c' : Contents cap, array = c'.toArray rt)
      (· ≠ .unsetField) := by
  rw [extractXml_eq]
  apply Ends.ite
  · intro _
    apply (elementPair_readsSet node).bind
    intro pair _
    apply (addKeyValue_ends c pair.1).bind
    intro added hadded
    exact .pure hadded
  · intro _
    exact .pure ⟨c, rfl⟩

theorem processXml_ends (node : XmlNode) :
    Ends (processXml (some (c.toArray rt)) (some node))
      (fun r => ∃ (c' : Contents cap) (copy : Option CString), r.1 = some (c'.toArray (.set copy)))
      (· ≠ .unsetField) := by
  rw [processXml_some]
  apply (setRequestType_ends c node.label.name).bind
  rintro ⟨array, code⟩ ⟨copy, rfl⟩
  have hwalk : Ends (traverseXml extractXml node (c.toArray (.set copy)))
      (fun array => ∃ c' : Contents cap, array = c'.toArray (.set copy)) (· ≠ .unsetField) := by
    rw [(traverse_eq_foldlM extractXml).1]
    apply Ends.foldlM _ ⟨c, rfl⟩
    rintro array child _ ⟨c', rfl⟩
    exact extractXml_ends c' child
  apply hwalk.bind
  rintro array ⟨c', rfl⟩
  exact .pure ⟨c', copy, rfl⟩

end Initialised

/-! ## Runs -/

namespace ArrayOperation
variable {cap : ℕ} {rt : Cell (Option CString)} (c : Contents cap)

/-- What is left when an operation returns the array as it was. -/
theorem ends_same {α : Type} {x : Exec α} (hx : ReadsSet x) {op : ArrayOperation}
    (hkeeps : ¬ op.SetsRequestType) :
    Ends (do let _ ← x; return c.toArray rt)
      (fun array => ∃ (c' : Contents cap) (rt' : Cell (Option CString)), array = c'.toArray rt' ∧
        (rt' = .unset ↔ rt = .unset ∧ ¬ op.SetsRequestType))
      (· ≠ .unsetField) := by
  apply hx.bind
  intro a _
  exact .pure ⟨c, rt, rfl, by simp [hkeeps]⟩

theorem printAllNodes_readsSet (copy : Option CString) :
    ReadsSet (Parsing.printAllNodes (c.toArray (.set copy))) := by
  have hbody (kv : KeyValuePair) : ReadsSet (printNode kv) := by
    apply (ReadsSet.deref kv.key).bind
    intro key _
    apply (ReadsSet.deref kv.value).bind
    intro content _
    exact (ReadsSet.readString content).bind fun _ _ => .pure trivial
  rw [Parsing.printAllNodes, Contents.toArray_requestType, Contents.toArray_size, Cell.read_set,
    pure_bind]
  apply (ReadsSet.deref copy).bind
  intro name _
  exact (forSlots_readsSet c hbody _ 0 (Nat.zero_add _)).bind fun _ _ => .pure trivial

theorem freeKeyValuePairArray_readsSet (copy : Option CString) :
    ReadsSet (Parsing.freeKeyValuePairArray (c.toArray (.set copy))) := by
  have hdata : ReadsSet (c.toArray (.set copy)).data.read := by
    cases c <;> exact .pure trivial
  rw [Parsing.freeKeyValuePairArray, Contents.toArray_requestType, Contents.toArray_size,
    Cell.read_set, pure_bind]
  apply (forSlots_readsSet c (fun _ => .pure trivial) _ 0 (Nat.zero_add _)).bind
  intro _ _
  exact hdata.bind fun _ _ => .pure trivial

theorem createXmlReply_readsSet (lib : Libxml2) (copy : Option CString) (device : Abcc)
    (messageId : CString) :
    ReadsSet (Parsing.createXmlReply lib (c.toArray (.set copy)) device messageId) := by
  rw [Parsing.createXmlReply, Contents.toArray_requestType, Cell.read_set, pure_bind]
  apply (ReadsSet.deref copy).bind
  intro requestType _
  have hrpc : ReadsSet (selectOperation (c.toArray (.set copy)) >>=
      rpcReply lib (c.toArray (.set copy)) device messageId) :=
    (selectOperation_readsSet c).bind fun op _ => rpcReply_readsSet c lib device messageId op
  exact Ends.ite (fun _ => .pure trivial) fun _ => Ends.ite (fun _ => hrpc) fun _ => .pure trivial

/-- Where `request_type` is set or not read, an operation reads nothing that is unset, and afterwards
`request_type` is set if it was before or if the operation sets it. -/
theorem run_ends (op : ArrayOperation) (h : op.ReadsRequestType → rt ≠ .unset) :
    Ends (op.run (c.toArray rt))
      (fun array => ∃ (c' : Contents cap) (rt' : Cell (Option CString)), array = c'.toArray rt' ∧
        (rt' = .unset ↔ rt = .unset ∧ ¬ op.SetsRequestType))
      (· ≠ .unsetField) := by
  cases op with
  | setRequestType request =>
    apply (setRequestType_ends c request).bind
    rintro ⟨array, code⟩ ⟨copy, rfl⟩
    exact .pure ⟨c, .set copy, rfl, by simp [SetsRequestType]⟩
  | addKeyValue kv =>
    apply (addKeyValue_ends c kv).bind
    rintro ⟨array, code⟩ ⟨c', rfl⟩
    exact .pure ⟨c', rt, rfl, by simp [SetsRequestType]⟩
  | getKey key => exact ends_same c (getKey_readsSet c key) id
  | getValue key value => exact ends_same c (getValue_readsSet c key value) id
  | processXml node =>
    cases node with
    | none =>
      rw [run, processXml_null (.inr rfl)]
      exact .pure ⟨c, rt, rfl, by simp [SetsRequestType]⟩
    | some node =>
      apply (processXml_ends c node).bind
      rintro ⟨array, code⟩ ⟨c', copy, rfl⟩
      exact .pure ⟨c', .set copy, rfl, by simp [SetsRequestType]⟩
  | printAllNodes =>
    cases rt with
    | unset => exact absurd rfl (h trivial)
    | set copy => exact ends_same c (printAllNodes_readsSet c copy) id
  | createXmlReply lib device messageId =>
    cases rt with
    | unset => exact absurd rfl (h trivial)
    | set copy => exact ends_same c (createXmlReply_readsSet c lib copy device messageId) id
  | freeKeyValuePairArray =>
    cases rt with
    | unset => exact absurd rfl (h trivial)
    | set copy => exact ends_same c (freeKeyValuePairArray_readsSet c copy) id

/-- An operation that reads an unset `request_type` does not get past it. -/
theorem run_unset {op : ArrayOperation} (h : op.ReadsRequestType) :
    op.run (c.toArray .unset) = fault .unsetField := by
  cases op with
  | printAllNodes =>
    rw [run, Parsing.printAllNodes, Contents.toArray_requestType]
    rfl
  | createXmlReply lib device messageId =>
    rw [run, Parsing.createXmlReply, Contents.toArray_requestType]
    rfl
  | freeKeyValuePairArray =>
    rw [run, Parsing.freeKeyValuePairArray, Contents.toArray_size, Cell.read_set, pure_bind,
      forSlots_nothing c _ 0 (Nat.zero_add _), Contents.toArray_requestType]
    rfl
  | setRequestType request => cases h
  | addKeyValue kv => cases h
  | getKey key => cases h
  | getValue key value => cases h
  | processXml node => cases h

theorem runAll_append (capacity : UInt8) (before after : List ArrayOperation) :
    runAll capacity (before ++ after) =
      runAll capacity before >>= fun array => after.foldlM run array := by
  rw [runAll, runAll]
  simp only [List.foldlM_append, bind_assoc]

theorem runAll_append_singleton (capacity : UInt8) (ops : List ArrayOperation)
    (op : ArrayOperation) :
    runAll capacity (ops ++ [op]) = runAll capacity ops >>= fun array => op.run array := by
  rw [runAll_append]
  simp only [List.foldlM_cons, List.foldlM_nil, bind_pure]

/-- Where a run has come to, `request_type` is set exactly if some operation has set it. -/
theorem runAll_ok {capacity : UInt8} {ops : List ArrayOperation} {supply supply' : Supply}
    {array : KeyValuePairArray} (h : runAll capacity ops supply = .ok (array, supply')) :
    ∃ (c : Contents (min capacity.toNat 10)) (rt : Cell (Option CString)),
      array = c.toArray rt ∧ (rt = .unset ↔ ∀ op ∈ ops, ¬ op.SetsRequestType) := by
  induction ops using List.reverseRecOn generalizing array supply' with
  | nil =>
    rw [runAll, Contents.initKeyValueArray_toArray] at h
    cases h
    exact ⟨.fresh (supply 0), .unset, rfl, by simp⟩
  | append_singleton ops op ih =>
    rw [runAll_append_singleton] at h
    obtain ⟨array₁, supply₁, hops, hop⟩ := bind_eq_ok.mp h
    obtain ⟨c, rt, rfl, hrt⟩ := ih hops
    have hread : op.ReadsRequestType → rt ≠ .unset := by
      rintro hreads rfl
      rw [run_unset c hreads] at hop
      cases hop
    obtain ⟨c', rt', rfl, hrt'⟩ := (run_ends c op hread).of_ok hop
    refine ⟨c', rt', rfl, ?_⟩
    rw [hrt', hrt]
    simp [or_imp, forall_and]

/-- What is reached and reads `request_type` comes after something that sets it. -/
def RequestTypeSet (capacity : UInt8) (supply : Supply) (ops : List ArrayOperation) : Prop :=
  ∀ before op after, ops = before ++ op :: after → (∃ r, runAll capacity before supply = .ok r) →
    op.ReadsRequestType → ∃ op' ∈ before, op'.SetsRequestType

/-- A sequence of operations reads no unset member exactly when `request_type` is set before each
operation that reads it. -/
theorem unset_never_read_iff (capacity : UInt8) (supply : Supply) (ops : List ArrayOperation) :
    runAll capacity ops supply ≠ .error .unsetField ↔ RequestTypeSet capacity supply ops := by
  constructor
  · rintro hread before op after rfl ⟨⟨array, supply'⟩, hbefore⟩ hreads
    by_contra hnone
    obtain ⟨c, rt, rfl, hrt⟩ := runAll_ok hbefore
    obtain rfl := hrt.mpr fun op' hop' hsets => hnone ⟨op', hop', hsets⟩
    apply hread
    rw [runAll_append, bind_of_ok hbefore, List.foldlM_cons, run_unset c hreads]
    rfl
  · induction ops using List.reverseRecOn with
    | nil =>
      intro _ hfault
      rw [runAll, Contents.initKeyValueArray_toArray] at hfault
      cases hfault
    | append_singleton ops op ih =>
      intro hset hfault
      rw [runAll_append_singleton] at hfault
      cases hops : runAll capacity ops supply with
      | error e =>
        have hsame : e = .unsetField := Except.error.inj ((bind_of_error hops).symm.trans hfault)
        subst hsame
        refine ih ?_ hops
        rintro before op' after rfl hreached
        exact hset before op' (after ++ [op]) (by simp) hreached
      | ok r =>
        obtain ⟨c, rt, harray, hrt⟩ := runAll_ok hops
        rw [bind_of_ok hops, harray] at hfault
        have hread : op.ReadsRequestType → rt ≠ .unset := by
          intro hreads hunset
          obtain ⟨op', hop', hsets⟩ := hset ops op [] rfl ⟨r, hops⟩ hreads
          exact hrt.mp hunset op' hop' hsets
        exact (run_ends c op hread).of_error hfault rfl

/-- A `request_type` that was never set is freed right after `init_key_value_array`, and printed after a
`process_xml` that was given no node. -/
theorem request_type_unset :
    runAll 5 [freeKeyValuePairArray] .all = .error .unsetField ∧
      runAll 10 [processXml none, printAllNodes] .all = .error .unsetField :=
  ⟨rfl, rfl⟩

end ArrayOperation

end NetconfServer.Parsing
