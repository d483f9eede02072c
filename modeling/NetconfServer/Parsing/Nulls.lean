import NetconfServer.Parsing.Allocation

/-! # A message stops the code at a `NULL` or not at all

Whatever is refused, a value in the array is a string or `NULL`. `print_all_nodes` gives every member
of the array to `printf`, where a `NULL` is undefined, so an array that comes past it has the entries
of the document, and the reply to it is chosen as with all memory granted.
-/

namespace NetconfServer.Parsing
open Memory CString Library KeyValuePairArray

/-! ## Printing the array -/

/-- A value that `printf` can read up to its end. -/
def Readable (value : Option (List UInt8)) : Prop := ∀ block, value = some block → 0 ∈ block

def Strings (l : List KeyValuePair) : Prop := ∀ kv ∈ l, Readable kv.value

/-- Nothing in the pairs is `NULL`. -/
def Intact (l : List KeyValuePair) : Prop := ∀ kv ∈ l, kv.key ≠ none ∧ kv.value ≠ none

theorem printNode_intact {kv : KeyValuePair} (h : kv.key ≠ none ∧ kv.value ≠ none)
    (hvalue : Readable kv.value) : printNode kv = pure () := by
  obtain ⟨key, value⟩ := kv
  obtain ⟨k, rfl⟩ := Option.ne_none_iff_exists'.mp h.1
  obtain ⟨block, rfl⟩ := Option.ne_none_iff_exists'.mp h.2
  rw [printNode, deref_some, pure_bind, deref_some, pure_bind, readString,
    if_pos (hvalue block rfl), pure_bind]

theorem printNode_null {kv : KeyValuePair} (h : ¬ (kv.key ≠ none ∧ kv.value ≠ none)) :
    printNode kv = fault .nullPointer := by
  obtain ⟨key, value⟩ := kv
  cases key with
  | none => rfl
  | some k =>
    cases value with
    | none => rfl
    | some block => exact absurd ⟨by simp, by simp⟩ h

section Print
variable {cap : ℕ} {rt : Cell (Option CString)} {c : Contents cap}

theorem printNodes_intact (hstrings : Strings c.entries) (todo i : ℕ)
    (hi : i + todo = c.entries.length) (h : Intact (c.entries.drop i)) :
    forSlots (c.toArray rt) printNode todo i = pure () := by
  induction todo generalizing i with
  | zero => rfl
  | succ todo ih =>
    have hlt : i < c.entries.length := by omega
    rw [List.drop_eq_getElem_cons hlt] at h
    obtain ⟨hfirst, hrest⟩ := List.forall_mem_cons.mp h
    rw [forSlots, Contents.slot_toArray hlt, pure_bind,
      printNode_intact hfirst (hstrings _ (List.getElem_mem hlt)), pure_bind, ih (i + 1) (by omega) hrest]

theorem printNodes_null (hstrings : Strings c.entries) (todo i : ℕ)
    (hi : i + todo = c.entries.length) (h : ¬ Intact (c.entries.drop i)) :
    forSlots (c.toArray rt) printNode todo i = fault .nullPointer := by
  induction todo generalizing i with
  | zero =>
    rw [List.drop_eq_nil_of_le (by omega)] at h
    exact absurd (by simp [Intact]) h
  | succ todo ih =>
    have hlt : i < c.entries.length := by omega
    rw [forSlots, Contents.slot_toArray hlt, pure_bind]
    by_cases hfirst : c.entries[i].key ≠ none ∧ c.entries[i].value ≠ none
    · rw [printNode_intact hfirst (hstrings _ (List.getElem_mem hlt)), pure_bind]
      apply ih (i + 1) (by omega)
      intro hrest
      apply h
      rw [List.drop_eq_getElem_cons hlt]
      exact List.forall_mem_cons.mpr ⟨hfirst, hrest⟩
    · rw [printNode_null hfirst]
      rfl

theorem printAllNodes_intact (hstrings : Strings c.entries) (h : Intact c.entries) (name : CString) :
    printAllNodes (c.toArray (.set (some name))) = pure SUCCESS := by
  rw [printAllNodes, Contents.toArray_requestType, Contents.toArray_size, Cell.read_set, pure_bind,
    deref_some, pure_bind, Cell.read_set, pure_bind,
    printNodes_intact hstrings _ 0 (Nat.zero_add _) h, pure_bind]

/-- Without the name of the root, or with some pair that lost a member, the array is not printed. -/
theorem printAllNodes_null (hstrings : Strings c.entries) {copy : Option CString}
    (h : ¬ (copy ≠ none ∧ Intact c.entries)) :
    printAllNodes (c.toArray (.set copy)) = fault .nullPointer := by
  rw [printAllNodes, Contents.toArray_requestType, Contents.toArray_size, Cell.read_set, pure_bind]
  cases copy with
  | none => rfl
  | some name =>
    have hlost : ¬ Intact c.entries := fun hintact => h ⟨by simp, hintact⟩
    rw [deref_some, pure_bind, Cell.read_set, pure_bind,
      printNodes_null hstrings _ 0 (Nat.zero_add _) hlost]
    rfl

theorem freeKeyValuePairArray_eq (c : Contents cap) (copy : Option CString) :
    freeKeyValuePairArray (c.toArray (.set copy)) = pure SUCCESS := by
  rw [freeKeyValuePairArray, Contents.toArray_requestType, Contents.toArray_size, Cell.read_set,
    pure_bind, forSlots_nothing c _ 0 (Nat.zero_add _), pure_bind, Cell.read_set, pure_bind]
  cases c <;> rfl

end Print

/-! ## What a walk leaves to print -/

section Pairs
variable {supply : Supply} {nodes : List XmlNode} {n : ℕ}

theorem leadingText_passed (node : XmlNode) :
    leadingText node = (passedValue node).getD .empty := by
  rw [leadingText, passedValue]
  cases node.children with
  | nil => rfl
  | cons child next =>
    dsimp only
    split_ifs <;> rfl

theorem pairOf_readable (key value : Bool) (node : XmlNode) :
    Readable (pairOf key value node).value := by
  intro block hblock
  rw [pairOf] at hblock
  cases hpassed : passedValue node with
  | none =>
    rw [hpassed] at hblock
    cases hblock
    simp
  | some content =>
    rw [hpassed] at hblock
    dsimp only at hblock
    split_ifs at hblock
    cases hblock
    simp [toBlock]

theorem pairOf_intact_iff {key value : Bool} {node : XmlNode} :
    (pairOf key value node).key ≠ none ∧ (pairOf key value node).value ≠ none ↔
      key = true ∧ (passedValue node = none ∨ value = true) := by
  cases hpassed : passedValue node <;> simp [pairOf, hpassed]

/-- A pair that lost nothing is that of its element. -/
theorem pairOf_intact {key value : Bool} {node : XmlNode}
    (h : (pairOf key value node).key ≠ none ∧ (pairOf key value node).value ≠ none) :
    pairOf key value node = .ofEntry (entryOf node) := by
  obtain ⟨rfl, hvalue⟩ := pairOf_intact_iff.mp h
  rw [KeyValuePair.ofEntry, entryOf, leadingText_passed, pairOf]
  cases hpassed : passedValue node with
  | none => rfl
  | some content =>
    have hgrant : value = true := by simpa [hpassed] using hvalue
    simp [hgrant]

theorem strings_pairsOf (nodes : List XmlNode) (n : ℕ) :
    Strings ((pairsOf supply nodes).take n) := by
  intro kv hkv
  obtain ⟨j, hj⟩ := List.mem_iff_getElem?.mp (List.mem_of_mem_take hkv)
  rw [pairsOf_getElem?] at hj
  obtain ⟨node, -, rfl⟩ := Option.map_eq_some_iff.mp hj
  exact pairOf_readable _ _ node

/-- The requests for the first `n` elements were granted, but perhaps for an unused value. -/
theorem intact_pairsOf_iff : Intact ((pairsOf supply nodes).take n) ↔
    ∀ j < n, ∀ node, nodes[j]? = some node →
      supply (2 * j) = true ∧ (passedValue node = none ∨ supply (2 * j + 1) = true) := by
  constructor
  · intro h j hj node hnode
    apply pairOf_intact_iff.mp
    apply h
    apply List.mem_of_getElem?
    rw [List.getElem?_take_of_lt hj, pairsOf_getElem?, hnode]
    rfl
  · intro h kv hkv
    obtain ⟨j, hj⟩ := List.mem_iff_getElem?.mp hkv
    rw [List.getElem?_take, pairsOf_getElem?] at hj
    split_ifs at hj with hn
    obtain ⟨node, hnode, rfl⟩ := Option.map_eq_some_iff.mp hj
    exact pairOf_intact_iff.mpr (h j hn node hnode)

/-- The first `n` pairs of a walk are intact when they have their keys and values, the blocks of one
byte being there anyway. -/
theorem intact_of_written (hwritten : Written supply nodes) :
    Intact ((pairsOf supply nodes).take n) ↔
      ∀ j < n, j < nodes.length → supply (2 * j) = true ∧ supply (2 * j + 1) = true := by
  rw [intact_pairsOf_iff]
  constructor
  · intro h j hj hlength
    obtain ⟨hkey, hvalue⟩ := h j hj nodes[j] (List.getElem?_eq_getElem hlength)
    refine ⟨hkey, ?_⟩
    rcases hvalue with hnone | hgrant
    · exact written_iff.mp hwritten j _ (List.getElem?_eq_getElem hlength) hnone
    · exact hgrant
  · intro h j hj node hnode
    obtain ⟨hkey, hvalue⟩ := h j hj (List.getElem?_eq_some_iff.mp hnode).1
    exact ⟨hkey, .inr hvalue⟩

theorem pairsOf_intact (h : Intact ((pairsOf supply nodes).take n)) :
    (pairsOf supply nodes).take n = ((nodes.take n).map entryOf).map .ofEntry := by
  induction nodes generalizing supply n with
  | nil => simp [pairsOf]
  | cons node nodes ih =>
    cases n with
    | zero => rfl
    | succ n =>
      rw [pairsOf, List.take_succ_cons] at h ⊢
      obtain ⟨hfirst, hrest⟩ := List.forall_mem_cons.mp h
      rw [pairOf_intact hfirst, ih hrest]
      rfl

end Pairs

/-! ## When a walk goes through -/

section Walk
variable {supply : Supply} {rt : Cell (Option CString)}

/-- The array had its block if there was a pair to store, and every element without a text its block
of one byte. -/
def Walks (grant : Bool) (supply : Supply) (nodes : List XmlNode) : Prop :=
  (nodes ≠ [] → grant = true) ∧ Written supply nodes

theorem walk_at {grant : Bool} {nodes : List XmlNode}
    (htypes : ∀ node ∈ nodes, node.label.type = .element) (h : Walks grant supply nodes) :
    ∃ c : Contents 10, c.entries = (pairsOf supply nodes).take 10 ∧
      nodes.foldlM (fun array node => extractXml node array)
          ((Contents.fresh grant : Contents 10).toArray rt) supply =
        .ok (c.toArray rt, later supply (2 * nodes.length)) := by
  cases grant with
  | true =>
    refine ⟨.granted (Bounded.empty.pushAll (pairsOf supply nodes)), ?_, walk_written nodes htypes h.2⟩
    exact Bounded.pushAll_entries
  | false =>
    cases nodes with
    | nil => exact ⟨.refused, rfl, rfl⟩
    | cons node nodes => exact absurd (h.1 (by simp)) (by decide)

theorem elementPair_ends (node : XmlNode) :
    Ends (elementPair node) (fun _ => True) (· = .nullPointer) := by
  intro supply
  rw [elementPair_eq]
  by_cases h : passedValue node = none ∧ supply 1 = false
  · rw [if_pos h]
  · rw [if_neg h]
    trivial

theorem walk_null {grant : Bool} {nodes : List XmlNode}
    (htypes : ∀ node ∈ nodes, node.label.type = .element) (h : ¬ Walks grant supply nodes) :
    nodes.foldlM (fun array node => extractXml node array)
        ((Contents.fresh grant : Contents 10).toArray rt) supply = .error .nullPointer := by
  cases grant with
  | true => exact walk_unwritten nodes htypes fun hwritten => h ⟨fun _ => rfl, hwritten⟩
  | false =>
    cases nodes with
    | nil => exact absurd ⟨fun hne => absurd rfl hne, trivial⟩ h
    | cons node nodes =>
      have hfirst : Ends (extractXml node ((Contents.refused : Contents 10).toArray rt))
          (fun _ => False) (· = .nullPointer) := by
        rw [extractXml_eq, if_pos (htypes node List.mem_cons_self)]
        apply (elementPair_ends node).bind
        intro pair _
        dsimp only
        rw [Contents.addKeyValue_refused (by decide)]
        exact Ends.fault rfl
      rw [List.foldlM_cons]
      cases hnode : extractXml node ((Contents.refused : Contents 10).toArray rt) supply with
      | error f =>
        obtain rfl := hfirst.of_error hnode
        exact bind_of_error hnode
      | ok r => exact (hfirst.of_ok hnode).elim

theorem processXml_at {cap : ℕ} (c : Contents cap) (root : XmlNode) {grant : Bool}
    (hgrant : supply 0 = grant) :
    processXml (some (c.toArray rt)) (some root) supply =
      ((elements root).foldlM (fun array node => extractXml node array)
          (c.toArray (.set (if grant then some root.label.name else none))) (later supply 1)).map
        fun r => ((some r.1, 0), r.2) := by
  subst hgrant
  rw [processXml_some, bind_of_ok (setRequestType_at c root.label.name supply)]
  dsimp only
  rw [(traverse_eq_foldlM extractXml).1, foldlM_extractXml_filter, ← elements]
  change Except.bind _ _ = _
  cases (elements root).foldlM (fun array node => extractXml node array)
    (c.toArray (.set (if supply 0 then some root.label.name else none))) (later supply 1) <;> rfl

end Walk

/-! ## The reply to an intact array -/

/-- What an answer has left to do. -/
def Answer.carryOut (lib : Libxml2) (device : Abcc) (messageId : CString) :
    Answer → Exec (Reply × Abcc)
  | .hello => return (.hello, device)
  | .response1 => return (.response1, device)
  | .response2 => return (.response2, device)
  | .response3 => return (.response3, device)
  | .data => do
    let text ← createNetconfResponse4 lib device.ipAddress messageId
    return (.data text, device)
  | .edit value => do
    let (device, _) ← setIpAddress device value
    return (.response6, device)
  | .empty => return (.empty, device)

/-- The device after an answer under refusals: the copy of an edited address may be refused, and the
`NULL` is left in its place. -/
def Answer.Applied (a : Answer) (device device' : Abcc) : Prop :=
  device' = a.update device ∨ ∃ v, a = .edit (some v) ∧ device' = ⟨none⟩

section Reply
variable {cap : ℕ} {rt : Cell (Option CString)} {c : Contents cap} {es : List Entry}
  {lib : Libxml2} {device : Abcc} {messageId : CString}

theorem whole_entries (h : c.entries = es.map .ofEntry) : Whole c.entries := by
  intro kv hkv
  rw [h] at hkv
  obtain ⟨e, -, rfl⟩ := List.mem_map.mp hkv
  simp [KeyValuePair.ofEntry]

theorem keysOf_entries (es : List Entry) : keysOf (es.map .ofEntry) = es.map Entry.key := by
  rw [keysOf, List.filterMap_map, ← List.filterMap_eq_map]
  rfl

theorem search_entries (key : CString) (es : List Entry) :
    search key (es.map .ofEntry) = pure ((es.find? (·.key = key)).map .ofEntry) := by
  induction es with
  | nil => rfl
  | cons e es ih =>
    rw [List.map_cons, search, KeyValuePair.ofEntry, deref_some, pure_bind]
    by_cases hkey : e.key = key
    · rw [if_pos hkey.symm, List.find?_cons_of_pos (by simpa using hkey)]
      rfl
    · rw [if_neg fun heq => hkey heq.symm, ih, List.find?_cons_of_neg (by simpa using hkey)]

theorem getValue_entries (h : c.entries = es.map .ofEntry) (key : CString) :
    ∃ code, getValue (c.toArray rt) key none =
      pure ((firstValue key es).map CString.toBlock, code) := by
  rw [Contents.getValue_toArray, h, search_entries, pure_bind, firstValue]
  cases es.find? (·.key = key) with
  | none => exact ⟨FAIL, rfl⟩
  | some e => exact ⟨SUCCESS, rfl⟩

theorem readPointer_toBlock (value : Option CString) :
    readPointer (value.map CString.toBlock) = pure value := by
  cases value with
  | none => rfl
  | some s =>
    rw [Option.map_some, readPointer, readString_toBlock, pure_bind]

/-- An array that holds entries is answered as those entries are, whatever memory is left. -/
theorem createXmlReply_entries (h : c.entries = es.map .ofEntry) (name : CString) :
    createXmlReply lib (c.toArray (.set (some name))) device messageId =
      (answer name es).carryOut lib device messageId := by
  have hwhole := whole_entries h
  have hkeys : keysOf c.entries = es.map Entry.key := by rw [h, keysOf_entries]
  rw [createXmlReply, Contents.toArray_requestType, Cell.read_set, pure_bind, deref_some, pure_bind,
    answer]
  by_cases hhello : name = HELLO
  · rw [if_pos hhello, if_pos hhello]
    rfl
  by_cases hrpc : name = RPC
  · rw [if_neg hhello, if_pos hrpc, if_neg hhello, if_pos hrpc, selectOperation_whole hwhole,
      pure_bind, hkeys]
    cases firstOperation (es.map Entry.key) with
    | none => rfl
    | some op =>
      cases op with
      | get =>
        simp only [rpcReply, getKey_whole hwhole, hkeys, pure_bind, code_eq_success]
        split_ifs <;> rfl
      | getSchema => rfl
      | editConfig =>
        obtain ⟨code, hvalue⟩ := @getValue_entries _ (.set (some name)) _ _ h (lit "IP_ADDRESS")
        simp only [rpcReply, getKey_whole hwhole, hkeys, pure_bind, code_eq_success, ne_eq, ite_not,
          hvalue, readPointer_toBlock]
        split_ifs <;> rfl
      | getConfig => rfl
  · rw [if_neg hhello, if_neg hrpc, if_neg hhello, if_neg hrpc]
    rfl

theorem setIpAddress_at (device : Abcc) (ip : CString) (supply : Supply) :
    setIpAddress device (some ip) supply =
      .ok ((⟨if supply 0 then some ip else none⟩, if supply 0 then 0 else -1), later supply 1) := by
  rw [setIpAddress, bind_of_ok (strdup_eq ip supply)]
  cases supply 0 <;> rfl

/-- What becomes of an answer: a data reply needs its text and a block for the copy. -/
theorem carryOut_at (a : Answer) (lib : Libxml2) (device : Abcc) (messageId : CString)
    (supply : Supply) :
    match a.carryOut lib device messageId supply with
    | .ok ((reply, device'), _) => (a = .data → CanCopy lib device messageId (supply 0)) ∧
        a.reply lib device messageId = .ok reply ∧ a.Applied device device'
    | .error f => f = .nullPointer ∧ ¬ (a = .data → CanCopy lib device messageId (supply 0)) := by
  cases a with
  | data =>
    have htext := createNetconfResponse4_at lib device.ipAddress messageId supply
    rw [Answer.carryOut, CanCopy]
    cases hdump : lib.xmlDocDumpFormatMemory (responseDocument lib device.ipAddress messageId) with
    | none =>
      rw [hdump] at htext
      rw [bind_of_error htext]
      simp
    | some text =>
      rw [hdump] at htext
      dsimp only at htext
      cases hgrant : supply 0 with
      | false =>
        rw [hgrant] at htext
        rw [bind_of_error htext]
        simp
      | true =>
        rw [hgrant] at htext
        rw [bind_of_ok htext]
        refine ⟨fun _ => ⟨by simp, rfl⟩, ?_, .inl rfl⟩
        exact data_reply_eq_ok.mpr ⟨_, dataText_eq_ok.mpr ⟨text, hdump, rfl⟩, rfl⟩
  | edit value =>
    cases value with
    | none => exact ⟨by simp, rfl, .inl rfl⟩
    | some v =>
      rw [Answer.carryOut, bind_of_ok (setIpAddress_at device v supply)]
      cases supply 0 with
      | false => exact ⟨by simp, rfl, .inr ⟨v, rfl, rfl⟩⟩
      | true => exact ⟨by simp, rfl, .inl rfl⟩
  | _ => exact ⟨by simp, rfl, .inl rfl⟩

end Reply

end NetconfServer.Parsing
