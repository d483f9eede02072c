import NetconfServer.Parsing.Parse

/-! # What a request is to the server

Of a document the server keeps the name of the root and the first ten elements below it, each with
its leading text. `Answer` says what it does with them, before any text is built; the theorems
below connect both to the functions of `parse.c`.
-/

namespace NetconfServer.Parsing
open Memory CString Library KeyValuePairArray

def entryOf (node : XmlNode) : Entry := ⟨node.label.name, leadingText node⟩

/-- The entries that a walk of the document leaves in an array of ten slots. -/
def recorded (root : XmlNode) : List Entry := ((elements root).take 10).map entryOf

/-- The names of the first ten elements. -/
def recordedKeys (root : XmlNode) : List CString := (recorded root).map Entry.key

/-- The reply an answer gives names its branch; only a data reply carries text of its own. -/
inductive Answer where
  | hello
  | response1
  | response2
  | response3
  | data
  /-- The value goes to the device when there is one; the reply is the same either way. -/
  | edit (value : Option CString)
  | empty
  deriving DecidableEq

/-- The first of the four operation names, in the order of the tests, among the keys. -/
def firstOperation (keys : List CString) : Option Operation :=
  if Operation.get.name ∈ keys then some .get
  else if Operation.getSchema.name ∈ keys then some .getSchema
  else if Operation.editConfig.name ∈ keys then some .editConfig
  else if Operation.getConfig.name ∈ keys then some .getConfig
  else none

/-- The operations whose names are tested before `op`'s. -/
def Operation.earlier : Operation → List Operation
  | .get => []
  | .getSchema => [.get]
  | .editConfig => [.get, .getSchema]
  | .getConfig => [.get, .getSchema, .editConfig]

theorem firstOperation_eq_some {keys : List CString} {op : Operation} :
    firstOperation keys = some op ↔
      op.name ∈ keys ∧ ∀ op' ∈ op.earlier, op'.name ∉ keys := by
  rw [firstOperation]
  cases op <;> simp only [Operation.earlier] <;> split_ifs <;> simp_all

theorem firstOperation_eq_none {keys : List CString} :
    firstOperation keys = none ↔ ∀ op : Operation, op.name ∉ keys := by
  constructor
  · intro h op
    rw [firstOperation] at h
    split_ifs at h
    cases op <;> assumption
  · intro h
    simp [firstOperation, h]

def firstValue (key : CString) (es : List Entry) : Option CString :=
  (es.find? (·.key = key)).map Entry.value

def answer (name : CString) (es : List Entry) : Answer :=
  if name = HELLO then .hello
  else if name = RPC then
    match firstOperation (es.map Entry.key) with
    | some .get =>
      if lit "netconf-state" ∈ es.map Entry.key then .response2
      else if lit "modules-state" ∈ es.map Entry.key then .response1
      else .data
    | some .getSchema => .response1
    | some .editConfig =>
      if lit "running" ∈ es.map Entry.key then .edit (firstValue (lit "IP_ADDRESS") es) else .data
    | some .getConfig => .response3
    | none => .empty
  else .empty

def answerTo (root : XmlNode) : Answer := answer root.label.name (recorded root)

/-- The address after an answer was carried out. -/
def Answer.update (a : Answer) (device : Abcc) : Abcc :=
  match a with
  | .edit (some value) => ⟨some value⟩
  | _ => device

/-- Whether the names of a request send it to the branch that replies `<ok/>`. -/
def NamesEdit (root : XmlNode) : Prop :=
  root.label.name = RPC ∧ Operation.get.name ∉ recordedKeys root ∧
    Operation.getSchema.name ∉ recordedKeys root ∧
    Operation.editConfig.name ∈ recordedKeys root ∧ lit "running" ∈ recordedKeys root
  deriving Decidable

/-- The address a request stores: none unless the names say an edit of the running datastore. -/
def writtenAddress (root : XmlNode) : Option CString :=
  if NamesEdit root then firstValue (lit "IP_ADDRESS") (recorded root) else none

/-- The text of a data reply around `address`, with every request for memory granted. -/
def dataText (lib : Libxml2) (address : Option CString) (messageId : CString) :
    Except Fault CString :=
  match lib.xmlDocDumpFormatMemory (responseDocument lib address messageId) with
  | none => .error .nullPointer
  | some text => .ok (text ++ endOfMessage)

def Answer.reply (a : Answer) (lib : Libxml2) (device : Abcc) (messageId : CString) :
    Except Fault Reply :=
  match a with
  | .hello => .ok .hello
  | .response1 => .ok .response1
  | .response2 => .ok .response2
  | .response3 => .ok .response3
  | .data => (dataText lib device.ipAddress messageId).map .data
  | .edit _ => .ok .response6
  | .empty => .ok .empty

theorem dataText_eq_ok {lib : Libxml2} {address : Option CString} {messageId text : CString} :
    dataText lib address messageId = .ok text ↔
      ∃ document, lib.xmlDocDumpFormatMemory (responseDocument lib address messageId) =
        some document ∧ text = document ++ endOfMessage := by
  rw [dataText]
  cases lib.xmlDocDumpFormatMemory (responseDocument lib address messageId) with
  | none => simp
  | some document => simp [eq_comm]

theorem data_reply_eq_ok {lib : Libxml2} {device : Abcc} {messageId : CString} {reply : Reply} :
    Answer.data.reply lib device messageId = .ok reply ↔
      ∃ text, dataText lib device.ipAddress messageId = .ok text ∧ reply = .data text := by
  rw [Answer.reply]
  cases dataText lib device.ipAddress messageId with
  | error f => simp [Except.map]
  | ok text => simp [Except.map, eq_comm]

theorem answerTo_of_namesEdit {root : XmlNode} (h : NamesEdit root) :
    answerTo root = .edit (firstValue (lit "IP_ADDRESS") (recorded root)) := by
  obtain ⟨hrpc, hget, hschema, hedit, hrunning⟩ := h
  have hop : firstOperation (recordedKeys root) = some .editConfig := by
    rw [firstOperation_eq_some]
    simp only [Operation.earlier, List.forall_mem_cons, List.not_mem_nil, false_implies,
      implies_true, and_true]
    exact ⟨hedit, hget, hschema⟩
  have hhello : ¬ RPC = HELLO := by decide
  rw [answerTo, answer, hrpc, if_neg hhello, if_pos rfl, ← recordedKeys, hop]
  exact if_pos hrunning

theorem namesEdit_of_answerTo {root : XmlNode} {value : Option CString}
    (h : answerTo root = .edit value) : NamesEdit root := by
  rw [answerTo, answer, ← recordedKeys] at h
  by_cases hhello : root.label.name = HELLO
  · simp [hhello] at h
  by_cases hrpc : root.label.name = RPC
  · rw [if_neg hhello, if_pos hrpc] at h
    cases hop : firstOperation (recordedKeys root) with
    | none => simp [hop] at h
    | some op =>
      rw [hop] at h
      obtain ⟨hkey, hearlier⟩ := firstOperation_eq_some.mp hop
      cases op with
      | get =>
        dsimp only at h
        split_ifs at h
      | getSchema => cases h
      | editConfig =>
        dsimp only at h
        split_ifs at h with hrunning
        exact ⟨hrpc, hearlier .get (by simp [Operation.earlier]),
          hearlier .getSchema (by simp [Operation.earlier]), hkey, hrunning⟩
      | getConfig => cases h
  · simp [hhello, hrpc] at h

/-- The device after a request holds the address the request stores, or what it held before. -/
theorem update_eq (root : XmlNode) (device : Abcc) :
    (answerTo root).update device =
      match writtenAddress root with
      | some value => ⟨some value⟩
      | none => device := by
  by_cases h : NamesEdit root
  · rw [answerTo_of_namesEdit h, writtenAddress, if_pos h]
    cases firstValue (lit "IP_ADDRESS") (recorded root) <;> rfl
  · rw [writtenAddress, if_neg h]
    cases ha : answerTo root with
    | edit value => exact absurd (namesEdit_of_answerTo ha) h
    | hello => rfl
    | response1 => rfl
    | response2 => rfl
    | response3 => rfl
    | data => rfl
    | empty => rfl

/-! ## The walk -/

section Walk
variable (xmlOperation : XmlNode → KeyValuePairArray → Exec KeyValuePairArray)

/-- The recursion over children and siblings visits the descendants in document order. -/
theorem traverse_eq_foldlM :
    (∀ (node : XmlNode) (array : KeyValuePairArray), traverseXml xmlOperation node array =
      node.descendants.foldlM (fun array child => xmlOperation child array) array) ∧
    ∀ (nodes : List XmlNode) (array : KeyValuePairArray), traverseSiblings xmlOperation nodes array =
      (Rose.forest nodes).foldlM (fun array child => xmlOperation child array) array := by
  apply Rose.forest_induction
  · intro a ts ih array
    rw [traverseXml, ih, Rose.descendants_eq, Rose.children_node]
  · intro array
    rw [traverseSiblings, Rose.forest_nil, List.foldlM_nil]
  · intro t ts iht ihts array
    rw [traverseSiblings, Rose.forest_cons, List.foldlM_cons]
    simp only [List.foldlM_append, iht, ihts]

end Walk

variable {cap : ℕ} {es : List Entry} {rt : Cell (Option CString)}

theorem extractXml_skip {node : XmlNode} (h : node.label.type ≠ .element)
    (array : KeyValuePairArray) : extractXml node array = pure array :=
  if_neg h

/-- The pair that `extract_xml` makes of an element. -/
def elementPair (node : XmlNode) : Exec (KeyValuePair × ℤ) :=
  let value : Option CString := match node.children with
    | [] => none
    | child :: _ => if child.label.type = NodeType.text then some child.label.content else none
  match value with
  | none => initKeyValuePair node.label.name none 0
  | some content =>
    initKeyValuePair node.label.name (some content.toBlock) (content.bytes.length + 1)

theorem extractXml_eq (node : XmlNode) (array : KeyValuePairArray) :
    extractXml node array =
      if node.label.type = .element then do
        let (kv, _) ← elementPair node
        let (array, _) ← addKeyValue array kv
        return array
      else return array := by
  rw [extractXml, elementPair]
  cases node.children with
  | nil => rfl
  | cons child next =>
    by_cases ht : child.label.type = .text
    · simp only [ht, if_true]
    · simp only [ht, if_false]

/-- The pair is the same whichever of the two branches makes it. -/
theorem elementPair_yields (node : XmlNode) :
    Yields (elementPair node) (.ofEntry (entryOf node), SUCCESS) := by
  rw [elementPair]
  cases hc : node.children with
  | nil =>
    have hentry : KeyValuePair.ofEntry (entryOf node) = ⟨some node.label.name, some [0]⟩ := by
      simp [KeyValuePair.ofEntry, entryOf, leadingText, hc, toBlock]
    rw [hentry]
    exact initKeyValuePair_null_yields _ _
  | cons child next =>
    by_cases ht : child.label.type = .text
    · have hentry : KeyValuePair.ofEntry (entryOf node) =
          ⟨some node.label.name, some child.label.content.toBlock⟩ := by
        simp [KeyValuePair.ofEntry, entryOf, leadingText, hc, ht]
      have hlen : child.label.content.bytes.length + 1 = child.label.content.toBlock.length := by
        simp [toBlock]
      simp only [hentry, ht, if_true, hlen]
      exact initKeyValuePair_yields _ _
    · have hentry : KeyValuePair.ofEntry (entryOf node) = ⟨some node.label.name, some [0]⟩ := by
        simp [KeyValuePair.ofEntry, entryOf, leadingText, hc, ht, toBlock]
      simp only [hentry, ht, if_false]
      exact initKeyValuePair_null_yields _ _

theorem extractXml_element {node : XmlNode} (h : node.label.type = .element)
    {array array' : KeyValuePairArray} {ret : ℤ}
    (hadd : Yields (addKeyValue array (.ofEntry (entryOf node))) (array', ret)) :
    Yields (extractXml node array) array' := by
  rw [extractXml_eq, if_pos h]
  exact (elementPair_yields node).bind (hadd.bind Yields.pure)

/-- The walk appends the elements it meets until the array is full, and drops the rest. -/
theorem foldlM_extractXml_holding {l : List KeyValuePair} (nodes : List XmlNode)
    (h : l.length ≤ cap) :
    Yields (nodes.foldlM (fun array child => extractXml child array) (holding cap l rt))
      (holding cap ((l ++ ((nodes.filter (·.label.type = .element)).map entryOf).map
        KeyValuePair.ofEntry).take cap) rt) := by
  induction nodes generalizing l with
  | nil =>
    rw [List.foldlM_nil, List.filter_nil, List.map_nil, List.map_nil, List.append_nil,
      List.take_of_length_le h]
    exact Yields.pure
  | cons node nodes ih =>
    rw [List.foldlM_cons]
    by_cases ht : node.label.type = .element
    · rw [List.filter_cons_of_pos (by simpa using ht), List.map_cons, List.map_cons]
      by_cases hfull : l.length = cap
      · have htake (fs : List KeyValuePair) : (l ++ fs).take cap = l := by
          rw [← hfull, List.take_left]
        have hrest := ih h
        rw [htake] at hrest ⊢
        exact (extractXml_element ht (addKeyValue_full hfull _)).bind hrest
      · have hroom : l.length < cap := by omega
        have hrest := @ih (l ++ [.ofEntry (entryOf node)]) (by simpa using hroom)
        rw [List.append_assoc, List.singleton_append] at hrest
        exact (extractXml_element ht (addKeyValue_room hroom _)).bind hrest
    · rw [List.filter_cons_of_neg (by simpa using ht)]
      rw [extractXml_skip ht, pure_bind]
      exact ih h

theorem foldlM_extractXml (nodes : List XmlNode) (h : es.length ≤ cap) :
    Yields (nodes.foldlM (fun array child => extractXml child array) (entryArray cap es rt))
      (entryArray cap
        ((es ++ (nodes.filter (·.label.type = .element)).map entryOf).take cap) rt) := by
  have hwalk := @foldlM_extractXml_holding cap rt (es.map .ofEntry) nodes (by simpa using h)
  rw [entryArray, entryArray, List.map_take, List.map_append]
  exact hwalk

/-- `process_xml` on a fresh array keeps the first elements that fit. -/
theorem processXml_yields (root : XmlNode) (cap : ℕ) :
    Yields (processXml (some (entryArray cap [] rt)) (some root))
      (some (entryArray cap (((elements root).take cap).map entryOf)
        (.set (some root.label.name))), 0) := by
  have hguard : ¬ (root.label.name = HELLO ∧ root.label.name = RPC) := by
    rintro ⟨hhello, hrpc⟩
    exact absurd (hhello.symm.trans hrpc) (by decide)
  have hwalk := @foldlM_extractXml cap [] (.set (some root.label.name)) root.descendants
    (Nat.zero_le cap)
  rw [List.nil_append, ← (traverse_eq_foldlM extractXml).1, ← List.map_take] at hwalk
  rw [processXml, if_neg hguard]
  exact (setRequestType_yields _).bind (hwalk.bind Yields.pure)

/-! ## The reply -/

/-- A branch on the return code of `get_key` is a branch on the recorded keys. -/
theorem getKey_branch {α : Type} (key : CString) (x y : Exec α) :
    (do if (← getKey (entryArray cap es rt) key) = SUCCESS then x else y) .all =
      if key ∈ es.map Entry.key then x .all else y .all := by
  rw [(getKey_yields key).bind_eq]
  by_cases h : key ∈ es.map Entry.key
  · simp only [h, if_true]
  · simp only [h, if_false]
    rw [if_neg (by decide)]

theorem selectOperation_yields :
    Yields (selectOperation (entryArray cap es rt)) (firstOperation (es.map Entry.key)) := by
  rw [Yields, selectOperation, firstOperation]
  simp only [getKey_branch]
  split_ifs <;> rfl

/-- The edit branch: the value found goes to the device, an absent one does not. -/
theorem editConfig_eq (device : Abcc) :
    (do
      let (value, _) ← getValue (entryArray cap es rt) (lit "IP_ADDRESS") none
      let ip ← readPointer value
      let (device, _) ← setIpAddress device ip
      return (Reply.response6, device) : Exec (Reply × Abcc)) .all =
    .ok ((.response6, (Answer.edit (firstValue (lit "IP_ADDRESS") es)).update device), .all) := by
  rw [(getValue_yields (lit "IP_ADDRESS") none).bind_eq, firstValue]
  cases es.find? (·.key = lit "IP_ADDRESS") with
  | none => rfl
  | some e =>
    exact (readPointer_yields (some e.value)).bind_eq.trans (setIpAddress_yields device e.value).bind_eq

theorem createNetconfResponse4_eq (lib : Libxml2) (address : Option CString)
    (messageId : CString) :
    createNetconfResponse4 lib address messageId .all =
      (dataText lib address messageId).map fun text => (text, .all) := by
  rw [createNetconfResponse4, dataText]
  cases lib.xmlDocDumpFormatMemory (responseDocument lib address messageId) with
  | none => rfl
  | some text => exact (deref_yields text).bind_eq

theorem data_branch_eq (lib : Libxml2) (device : Abcc) (messageId : CString) :
    (do
      let text ← createNetconfResponse4 lib device.ipAddress messageId
      return (Reply.data text, device) : Exec (Reply × Abcc)) .all =
    (Answer.data.reply lib device messageId).map
      fun reply => ((reply, Answer.data.update device), .all) := by
  change (createNetconfResponse4 lib device.ipAddress messageId .all >>= _) = _
  rw [createNetconfResponse4_eq, Answer.reply]
  cases dataText lib device.ipAddress messageId <;> rfl

theorem createXmlReply_rpc (lib : Libxml2) (device : Abcc) (messageId : CString) :
    createXmlReply lib (entryArray cap es (.set (some RPC))) device messageId .all =
      (selectOperation (entryArray cap es (.set (some RPC))) >>=
        rpcReply lib (entryArray cap es (.set (some RPC))) device messageId) .all := by
  have htype : Yields (entryArray cap es (.set (some RPC))).requestType.read (some RPC) := rfl
  rw [createXmlReply, htype.bind_eq, (deref_yields RPC).bind_eq, if_neg (by decide), if_pos rfl]

/-- `create_xml_reply` gives the answer to the recorded entries. -/
theorem createXmlReply_eq (lib : Libxml2) (name : CString) (device : Abcc) (messageId : CString) :
    createXmlReply lib (entryArray cap es (.set (some name))) device messageId .all =
      ((answer name es).reply lib device messageId).map
        fun reply => ((reply, (answer name es).update device), .all) := by
  have htype : Yields (entryArray cap es (.set (some name))).requestType.read (some name) := rfl
  by_cases hhello : name = HELLO
  · rw [createXmlReply, htype.bind_eq, (deref_yields name).bind_eq, answer, if_pos hhello,
      if_pos hhello]
    rfl
  by_cases hrpc : name = RPC
  · subst hrpc
    rw [createXmlReply_rpc, selectOperation_yields.bind_eq, answer, if_neg hhello, if_pos rfl]
    cases firstOperation (es.map Entry.key) with
    | none => rfl
    | some op =>
      cases op with
      | get =>
        simp only [rpcReply, getKey_branch]
        split_ifs
        · rfl
        · rfl
        · exact data_branch_eq lib device messageId
      | getSchema => rfl
      | editConfig =>
        simp only [rpcReply, ne_eq, ite_not, getKey_branch]
        split_ifs
        · exact editConfig_eq device
        · exact data_branch_eq lib device messageId
      | getConfig => rfl
  · rw [createXmlReply, htype.bind_eq, (deref_yields name).bind_eq, answer, if_neg hhello,
      if_neg hhello, if_neg hrpc, if_neg hrpc]
    rfl

end NetconfServer.Parsing
