import NetconfServer.Parsing.Fields
import NetconfServer.Parsing.Refusals
import NetconfServer.Parsing.Serialiser

/-! # Refused memory and the reply to it

From `init_key_value_array` to `create_xml_reply`, a message meets the allocator twice at the start,
twice for each element and once for the text of a data reply. Which refusals the code lives through
can be read off the document.
-/

namespace NetconfServer.Parsing
open Memory CString Library KeyValuePairArray

/-! ## Lookups -/

/-- The keys of the pairs that have one. -/
def keysOf (l : List KeyValuePair) : List CString := l.filterMap KeyValuePair.key

variable {cap : ℕ} {rt : Cell (Option CString)} {c : Contents cap} {key : CString}

theorem mem_keysOf_iff {l : List KeyValuePair} (h : Whole l) : key ∈ keysOf l ↔ Reaches key l := by
  induction l with
  | nil => simp [keysOf, Reaches]
  | cons kv l ih =>
    obtain ⟨hkeyed, hrest⟩ := List.forall_mem_cons.mp h
    obtain ⟨k, hk⟩ := Option.ne_none_iff_exists'.mp hkeyed
    rw [keysOf, List.filterMap_cons_some hk, List.mem_cons, Reaches, ← keysOf, ih hrest, hk]
    simp [eq_comm]

theorem getKey_reaches (h : Reaches key c.entries) :
    getKey (c.toArray rt) key = pure SUCCESS := by
  obtain ⟨kv, hsearch⟩ := search_reaches h
  rw [Contents.getKey_toArray, hsearch]
  rfl

theorem getKey_null (h : ¬ Reaches key c.entries) (hnull : ¬ Whole c.entries) :
    getKey (c.toArray rt) key = fault .nullPointer := by
  rw [Contents.getKey_toArray, (search_not_reaches h).2 hnull]
  rfl

theorem getKey_whole (h : Whole c.entries) (key : CString) :
    getKey (c.toArray rt) key = pure (if key ∈ keysOf c.entries then SUCCESS else FAIL) := by
  by_cases hkey : key ∈ keysOf c.entries
  · rw [if_pos hkey, getKey_reaches ((mem_keysOf_iff h).mp hkey)]
  · rw [if_neg hkey, Contents.getKey_toArray,
      (search_not_reaches fun hreaches => hkey ((mem_keysOf_iff h).mpr hreaches)).1 h]
    rfl

theorem code_eq_success {p : Prop} [Decidable p] : (if p then SUCCESS else FAIL) = SUCCESS ↔ p := by
  by_cases h : p
  · simp [h]
  · rw [if_neg h]
    exact iff_of_false (by decide) h

/-! ## The reply -/

/-- The branches that end in `create_netconf_response_4`, by the keys they are tested for. -/
def NamesData (keys : List CString) : Prop :=
  match firstOperation keys with
  | some .get => lit "netconf-state" ∉ keys ∧ lit "modules-state" ∉ keys
  | some .editConfig => lit "running" ∉ keys
  | _ => False

variable {lib : Libxml2} {device : Abcc} {messageId name : CString} {supply : Supply}

/-- The text of a data reply is there to be copied, and so is the block for the copy. -/
def CanCopy (lib : Libxml2) (device : Abcc) (messageId : CString) (grant : Bool) : Prop :=
  lib.xmlDocDumpFormatMemory (responseDocument lib device.ipAddress messageId) ≠ none ∧ grant = true

theorem createNetconfResponse4_at (lib : Libxml2) (ipAdr : Option CString) (msgNum : CString)
    (supply : Supply) :
    createNetconfResponse4 lib ipAdr msgNum supply =
      match lib.xmlDocDumpFormatMemory (responseDocument lib ipAdr msgNum) with
      | none => .error .nullPointer
      | some text =>
        if supply 0 then .ok (text ++ endOfMessage, later supply 1) else .error .nullPointer := by
  rw [createNetconfResponse4]
  cases lib.xmlDocDumpFormatMemory (responseDocument lib ipAdr msgNum) with
  | none => rfl
  | some text =>
    change (malloc >>= fun granted =>
      if granted then return text ++ endOfMessage else fault .nullPointer) supply = _
    rw [bind_of_ok (malloc_eq supply)]
    dsimp only
    cases supply 0 <;> rfl

theorem pure_caught (reply : Reply) : (Pure.pure (reply, device) : Exec (Reply × Abcc)) supply ≠
    .error .nullPointer := fun h => by cases h

theorem data_branch_caught_iff :
    (do
      let text ← createNetconfResponse4 lib device.ipAddress messageId
      return (Reply.data text, device) : Exec (Reply × Abcc)) supply ≠ .error .nullPointer ↔
    CanCopy lib device messageId (supply 0) := by
  have htext := createNetconfResponse4_at lib device.ipAddress messageId supply
  rw [CanCopy]
  cases hdump : lib.xmlDocDumpFormatMemory (responseDocument lib device.ipAddress messageId) with
  | none =>
    rw [hdump] at htext
    exact iff_of_false (fun h => h (bind_of_error htext)) fun h => h.1 rfl
  | some text =>
    rw [hdump] at htext
    dsimp only at htext
    cases hgrant : supply 0 with
    | false =>
      rw [hgrant] at htext
      exact iff_of_false (fun h => h (bind_of_error htext)) (by simp)
    | true =>
      rw [hgrant] at htext
      rw [bind_of_ok htext]
      exact iff_of_true (pure_caught (.data (text ++ endOfMessage))) (by simp)

theorem selectOperation_whole (h : Whole c.entries) :
    selectOperation (c.toArray rt) = pure (firstOperation (keysOf c.entries)) := by
  simp only [selectOperation, getKey_whole h, pure_bind, code_eq_success, firstOperation]
  split_ifs <;> rfl

/-- No `NULL` is used by the branch that stores an address. -/
theorem edit_branch_caught (h : Whole c.entries) :
    (do
      let (value, _) ← getValue (c.toArray rt) (lit "IP_ADDRESS") none
      let ip ← readPointer value
      let (device, _) ← setIpAddress device ip
      return (Reply.response6, device) : Exec (Reply × Abcc)) supply ≠ .error .nullPointer := by
  have hsearch : Ends (search (lit "IP_ADDRESS") c.entries) (fun _ => True) (· ≠ .nullPointer) := by
    by_cases hkey : Reaches (lit "IP_ADDRESS") c.entries
    · obtain ⟨kv, hfound⟩ := search_reaches hkey
      rw [hfound]
      exact .pure trivial
    · rw [(search_not_reaches hkey).1 h]
      exact .pure trivial
  have hvalue : Ends (getValue (c.toArray rt) (lit "IP_ADDRESS") none) (fun _ => True)
      (· ≠ .nullPointer) := by
    rw [Contents.getValue_toArray]
    apply hsearch.bind
    rintro (_ | kv) _ <;> exact .pure trivial
  have hbranch : Ends (do
      let (value, _) ← getValue (c.toArray rt) (lit "IP_ADDRESS") none
      let ip ← readPointer value
      let (device, _) ← setIpAddress device ip
      return (Reply.response6, device) : Exec (Reply × Abcc)) (fun _ => True)
      (· ≠ .nullPointer) := by
    apply hvalue.bind
    intro found _
    apply ((readPointer_ends found.1).mono (fun _ => id) fun e he => by simp [he]).bind
    intro ip _
    exact ((setIpAddress_ends device ip).mono (fun _ => id) fun _ => False.elim).bind
      fun _ _ => .pure trivial
  exact fun hfault => hbranch.of_error hfault rfl

theorem rpcReply_caught_iff (h : Whole c.entries) :
    rpcReply lib (c.toArray rt) device messageId (firstOperation (keysOf c.entries)) supply ≠
        .error .nullPointer ↔
      (NamesData (keysOf c.entries) → CanCopy lib device messageId (supply 0)) := by
  rw [NamesData]
  cases hop : firstOperation (keysOf c.entries) with
  | none => exact iff_of_true (pure_caught .empty) False.elim
  | some op =>
    cases op with
    | get =>
      simp only [rpcReply, getKey_whole h, pure_bind, code_eq_success]
      split_ifs with hstate hmodules
      · exact iff_of_true (pure_caught .response2) fun hdata => absurd hstate hdata.1
      · exact iff_of_true (pure_caught .response1) fun hdata => absurd hmodules hdata.2
      · apply data_branch_caught_iff.trans
        exact ⟨fun hcopy _ => hcopy, fun hcopy => hcopy ⟨hstate, hmodules⟩⟩
    | getSchema => exact iff_of_true (pure_caught .response1) False.elim
    | editConfig =>
      simp only [rpcReply, getKey_whole h, pure_bind, code_eq_success, ne_eq, ite_not]
      split_ifs with hrunning
      · exact iff_of_true (edit_branch_caught h) fun hdata => absurd hrunning hdata
      · apply data_branch_caught_iff.trans
        exact ⟨fun hcopy _ => hcopy, fun hcopy => hcopy hrunning⟩
    | getConfig => exact iff_of_true (pure_caught .response3) False.elim

/-- With a `NULL` key in the array, the only safe way out is the first reply to a `get`. -/
theorem rpcReply_null (h : ¬ Whole c.entries) :
    (selectOperation (c.toArray rt) >>= rpcReply lib (c.toArray rt) device messageId) supply ≠
        .error .nullPointer ↔
      Reaches (lit "get") c.entries ∧ Reaches (lit "netconf-state") c.entries := by
  by_cases hget : Reaches (lit "get") c.entries
  · have hop : selectOperation (c.toArray rt) = pure (some .get) := by
      rw [selectOperation, Operation.name, getKey_reaches hget, pure_bind, if_pos rfl]
    rw [hop, pure_bind, rpcReply]
    by_cases hstate : Reaches (lit "netconf-state") c.entries
    · rw [getKey_reaches hstate, pure_bind, if_pos rfl]
      exact iff_of_true (pure_caught .response2) ⟨hget, hstate⟩
    · rw [getKey_null hstate h]
      exact iff_of_false (fun h => h rfl) fun hboth => hstate hboth.2
  · have hop : selectOperation (c.toArray rt) = fault .nullPointer := by
      rw [selectOperation, Operation.name, getKey_null hget h]
      rfl
    rw [hop]
    exact iff_of_false (fun h => h rfl) fun hboth => hget hboth.1

/-- When the reply to an array uses no `NULL`. -/
theorem createXmlReply_caught_iff :
    createXmlReply lib (c.toArray (.set (some name))) device messageId supply ≠
        .error .nullPointer ↔
      (name = RPC →
        Reaches (lit "get") c.entries ∧ Reaches (lit "netconf-state") c.entries ∨
        Whole c.entries ∧
          (NamesData (keysOf c.entries) → CanCopy lib device messageId (supply 0))) := by
  have hname : deref (some name) = pure name := rfl
  rw [createXmlReply, Contents.toArray_requestType, Cell.read_set, pure_bind, hname, pure_bind]
  by_cases hhello : name = HELLO
  · rw [if_pos hhello]
    refine iff_of_true (pure_caught .hello) fun hrpc => absurd (hhello.symm.trans hrpc) (by decide)
  by_cases hrpc : name = RPC
  · rw [if_neg hhello, if_pos hrpc, forall_prop_of_true hrpc]
    by_cases hwhole : Whole c.entries
    · rw [selectOperation_whole hwhole, pure_bind, rpcReply_caught_iff hwhole, and_iff_right hwhole]
      constructor
      · exact Or.inr
      · rintro (⟨hget, hstate⟩ | hcopy)
        · intro hdata
          have hkey : Operation.get.name ∈ keysOf c.entries := (mem_keysOf_iff hwhole).mpr hget
          rw [NamesData, firstOperation, if_pos hkey] at hdata
          exact absurd ((mem_keysOf_iff hwhole).mpr hstate) hdata.1
        · exact hcopy
    · exact (rpcReply_null hwhole).trans ⟨Or.inl, fun h => h.resolve_right fun hr => hwhole hr.1⟩
  · rw [if_neg hhello, if_neg hrpc]
    exact iff_of_true (pure_caught .empty) fun h => absurd h hrpc

/-! ## One message -/

/-- From `init_key_value_array` to `create_xml_reply`, in the order of the server. -/
def replyTo (lib : Libxml2) (root : XmlNode) (device : Abcc) (messageId : CString) :
    Exec (Reply × Abcc) := do
  let (array, _) ← processFresh .uninitialized 10 root
  let array ← deref array
  createXmlReply lib array device messageId

/-- The walk of a document up to some node. -/
def walkTo (root : XmlNode) (visited : List XmlNode) : Exec KeyValuePairArray := do
  let array ← startWalk .uninitialized root
  visited.foldlM (fun array node => extractXml node array) array

/-- What is expected of the code when the allocator answers as `supply` says: a function that returns
`SUCCESS` has set its members to blocks it was granted, and no `NULL` is used. -/
structure FailuresCaught (lib : Libxml2) (root : XmlNode) (device : Abcc) (messageId : CString)
    (supply : Supply) : Prop where
  initArray : ∀ array code after,
    initKeyValueArray .uninitialized 10 supply = .ok ((array, code), after) → code = SUCCESS →
      array.data ≠ .set none
  setRequestType : ∀ array before array' code after,
    setRequestType root.label.name array before = .ok ((array', code), after) → code = SUCCESS →
      array'.requestType ≠ .set none
  initPair : ∀ visited element rest array before kv code after,
    root.descendants = visited ++ element :: rest → element.label.type = .element →
    walkTo root visited supply = .ok (array, before) →
    elementPair element before = .ok ((kv, code), after) → code = SUCCESS →
      kv.key ≠ none ∧ kv.value ≠ none
  used : replyTo lib root device messageId supply ≠ .error .nullPointer

/-- An element called `name` is among the first ten, and no name up to it was refused. -/
def NamedInTime (root : XmlNode) (supply : Supply) (name : CString) : Prop :=
  ∃ j node, j < 10 ∧ (elements root)[j]? = some node ∧ node.label.name = name ∧
    ∀ i ≤ j, supply (2 * i + 2) = true

/-- The refusals the code lives through: the array and the type of the request are granted, each element
gets both its blocks or, with a text, lacks the value, and if the array then holds a `NULL` key
anyway, the reply is chosen before that key is compared. -/
structure Survivable (lib : Libxml2) (root : XmlNode) (device : Abcc) (messageId : CString)
    (supply : Supply) : Prop where
  array : supply 0 = true
  requestType : supply 1 = true
  pair : ∀ j node, (elements root)[j]? = some node →
    (passedValue node = none → supply (2 * j + 3) = true) ∧
      (supply (2 * j + 3) = true → supply (2 * j + 2) = true)
  reply : root.label.name = RPC →
    NamedInTime root supply (lit "get") ∧ NamedInTime root supply (lit "netconf-state") ∨
    (∀ j < 10, j < (elements root).length → supply (2 * j + 2) = true) ∧
      (answerTo root = .data →
        CanCopy lib device messageId (supply (2 * (elements root).length + 2)))

variable {root : XmlNode} {visited : List XmlNode}

theorem setRequestType_at (c : Contents cap) (request : CString) (supply : Supply) :
    setRequestType request (c.toArray rt) supply =
      .ok ((c.toArray (.set (if supply 0 then some request else none)),
        if supply 0 then SUCCESS else FAIL), later supply 1) := by
  rw [setRequestType, bind_of_ok (strdup_eq request supply), Contents.setRequestType_toArray]
  cases supply 0 <;> rfl

theorem initKeyValueArray_at (supply : Supply) : initKeyValueArray .uninitialized 10 supply =
    .ok (((Contents.fresh (supply 0) : Contents 10).toArray .unset, SUCCESS), later supply 1) := by
  rw [Contents.initKeyValueArray_toArray, bind_of_ok (malloc_eq supply)]
  rfl

theorem startWalk_at (h : supply 0 = true) : startWalk .uninitialized root supply =
    .ok ((Contents.granted (.empty : Bounded KeyValuePair 10)).toArray
      (.set (if supply 1 then some root.label.name else none)), later supply 2) := by
  have hinit := initKeyValueArray_at supply
  rw [h] at hinit
  rw [startWalk, bind_of_ok hinit]
  exact bind_of_ok (setRequestType_at (.fresh true) root.label.name (later supply 1))

theorem walkTo_written (h : supply 0 = true)
    (hwritten : Written (later supply 2) (visited.filter (·.label.type = .element))) :
    walkTo root visited supply =
      .ok ((Contents.granted ((.empty : Bounded KeyValuePair 10).pushAll
        (pairsOf (later supply 2) (visited.filter (·.label.type = .element))))).toArray
          (.set (if supply 1 then some root.label.name else none)),
        later supply (2 + 2 * (visited.filter (·.label.type = .element)).length)) := by
  rw [walkTo, bind_of_ok (startWalk_at h), foldlM_extractXml_filter,
    walk_written _ (by simp) hwritten, later_later]

theorem walkTo_unwritten (h : supply 0 = true)
    (hwritten : ¬ Written (later supply 2) (visited.filter (·.label.type = .element))) :
    walkTo root visited supply = .error .nullPointer := by
  rw [walkTo, bind_of_ok (startWalk_at h), foldlM_extractXml_filter,
    walk_unwritten _ (by simp) hwritten]

theorem replyTo_eq (lib : Libxml2) (root : XmlNode) (device : Abcc) (messageId : CString) :
    replyTo lib root device messageId =
      walkTo root root.descendants >>= fun array =>
        createXmlReply lib array device messageId := by
  have hderef (array : KeyValuePairArray) : deref (some array) = pure array := rfl
  simp only [replyTo, processFresh, processXml_some, walkTo, startWalk, bind_assoc, pure_bind, hderef,
    (traverse_eq_foldlM extractXml).1]

/-! ## Which refusals the code lives through -/

theorem keysOf_pairsOf {nodes : List XmlNode} {n : ℕ}
    (h : Whole ((pairsOf supply nodes).take n)) :
    keysOf ((pairsOf supply nodes).take n) = (nodes.take n).map (·.label.name) := by
  induction nodes generalizing supply n with
  | nil => simp [pairsOf, keysOf]
  | cons node nodes ih =>
    cases n with
    | zero => rfl
    | succ n =>
      rw [pairsOf, List.take_succ_cons] at h ⊢
      obtain ⟨hkeyed, hrest⟩ := List.forall_mem_cons.mp h
      have hgrant : supply 0 = true := by simpa [pairOf] using hkeyed
      have hkey : (pairOf (supply 0) (supply 1) node).key = some node.label.name := by
        rw [hgrant]
        rfl
      rw [keysOf, List.filterMap_cons_some hkey, ← keysOf, ih hrest, List.take_succ_cons,
        List.map_cons]

theorem answer_eq_data_iff (es : List Entry) :
    answer RPC es = .data ↔ NamesData (es.map Entry.key) := by
  rw [answer, if_neg (by decide), if_pos rfl, NamesData]
  cases firstOperation (es.map Entry.key) with
  | none => simp
  | some op =>
    cases op with
    | get =>
      dsimp only
      split_ifs with hstate hmodules <;> simp [*]
    | getSchema => simp
    | editConfig =>
      dsimp only
      split_ifs with hrunning <;> simp [hrunning]
    | getConfig => simp

/-- When the reply to a message that was walked uses no `NULL`. -/
theorem replyTo_caught_iff (harray : supply 0 = true) (htype : supply 1 = true)
    (hwritten : Written (later supply 2) (elements root)) :
    replyTo lib root device messageId supply ≠ .error .nullPointer ↔
      (root.label.name = RPC →
        NamedInTime root supply (lit "get") ∧ NamedInTime root supply (lit "netconf-state") ∨
        (∀ j < 10, j < (elements root).length → supply (2 * j + 2) = true) ∧
          (answerTo root = .data →
            CanCopy lib device messageId (supply (2 * (elements root).length + 2)))) := by
  have hwalk := @walkTo_written _ root root.descendants harray hwritten
  have hentries : ((Bounded.empty : Bounded KeyValuePair 10).pushAll
      (pairsOf (later supply 2) (elements root))).entries =
        (pairsOf (later supply 2) (elements root)).take 10 := Bounded.pushAll_entries
  have hlast : later supply (2 + 2 * (elements root).length) 0 =
      supply (2 * (elements root).length + 2) := by
    rw [later_apply, Nat.zero_add, Nat.add_comm]
  rw [htype, if_pos rfl] at hwalk
  rw [replyTo_eq, bind_of_ok hwalk]
  refine createXmlReply_caught_iff.trans ?_
  rw [Contents.entries, Contents.stored, ← elements, hentries, hlast, reaches_pairsOf_iff,
    reaches_pairsOf_iff]
  apply forall_congr'
  intro hrpc
  apply or_congr Iff.rfl
  have hwhole := @whole_pairsOf_iff (later supply 2) (elements root) 10
  have hnames (h : Whole ((pairsOf (later supply 2) (elements root)).take 10)) :
      NamesData (keysOf ((pairsOf (later supply 2) (elements root)).take 10)) ↔
        answerTo root = .data := by
    rw [keysOf_pairsOf h, answerTo, hrpc, answer_eq_data_iff, recorded, List.map_map]
    rfl
  constructor
  · rintro ⟨hkeyed, hdata⟩
    exact ⟨hwhole.mp hkeyed, fun hanswer => hdata ((hnames hkeyed).mpr hanswer)⟩
  · rintro ⟨hgranted, hdata⟩
    have hkeyed := hwhole.mpr hgranted
    exact ⟨hkeyed, fun hanswer => hdata ((hnames hkeyed).mp hanswer)⟩

/-- What the walk has met when it comes to an element, and the pair it makes of it. -/
theorem pair_at (harray : supply 0 = true) (hwritten : Written (later supply 2) (elements root))
    {j : ℕ} {node : XmlNode} (hnode : (elements root)[j]? = some node)
    (hvisited : visited.filter (·.label.type = .element) = (elements root).take j) :
    ∃ array, walkTo root visited supply = .ok (array, later supply (2 * j + 2)) ∧
      elementPair node (later supply (2 * j + 2)) =
        .ok ((pairOf (supply (2 * j + 2)) (supply (2 * j + 3)) node,
          if supply (2 * j + 3) then SUCCESS else FAIL), later supply (2 * j + 4)) := by
  have hj : j < (elements root).length := (List.getElem?_eq_some_iff.mp hnode).1
  have hprefix : Written (later supply 2) (visited.filter (·.label.type = .element)) := by
    rw [hvisited]
    apply written_iff.mpr
    intro i node' hnode' hvalue
    rw [List.getElem?_take] at hnode'
    split_ifs at hnode'
    exact written_iff.mp hwritten i node' hnode' hvalue
  have hlength : (visited.filter (·.label.type = .element)).length = j := by
    rw [hvisited, List.length_take]
    omega
  have hwalk := @walkTo_written _ root visited harray hprefix
  rw [hlength, Nat.add_comm] at hwalk
  refine ⟨_, hwalk, ?_⟩
  have hkey : later supply (2 * j + 2) 0 = supply (2 * j + 2) := by
    rw [later_apply, Nat.zero_add]
  have hvalue : later supply (2 * j + 2) 1 = supply (2 * j + 3) := by
    rw [later_apply, Nat.add_comm]
  have hfault : ¬ (passedValue node = none ∧ supply (2 * j + 3) = false) := by
    rintro ⟨hnone, hrefused⟩
    exact absurd ((written_iff.mp hwritten j node hnode hnone).symm.trans hrefused) (by decide)
  rw [elementPair_eq, hkey, hvalue, if_neg hfault, later_later]

theorem setRequestType_success {request : CString} {array array' : KeyValuePairArray}
    {before after : Supply}
    (h : setRequestType request array before = .ok ((array', SUCCESS), after)) :
    array'.requestType ≠ .set none := by
  rw [setRequestType, bind_of_ok (strdup_eq request before)] at h
  cases hgrant : before 0 <;> rw [hgrant] at h
  · cases h
  · cases h
    simp

theorem pairOf_success {key value : Bool} {node : XmlNode}
    (hcode : (if value then SUCCESS else FAIL) = SUCCESS) (hkey : value = true → key = true) :
    (pairOf key value node).key ≠ none ∧ (pairOf key value node).value ≠ none := by
  have hvalue : value = true := code_eq_success.mp hcode
  rw [hkey hvalue, hvalue, pairOf]
  cases passedValue node <;> simp

theorem FailuresCaught.survivable (h : FailuresCaught lib root device messageId supply) :
    Survivable lib root device messageId supply := by
  have harray : supply 0 = true := by
    by_contra hrefused
    have hinit := initKeyValueArray_at supply
    rw [Bool.eq_false_of_not_eq_true hrefused] at hinit
    exact h.initArray _ _ _ hinit rfl rfl
  have hwritten : Written (later supply 2) (elements root) := by
    by_contra hno
    apply h.used
    rw [replyTo_eq]
    exact bind_of_error (walkTo_unwritten harray hno)
  have htype : supply 1 = true := by
    by_contra hrefused
    have hwalk := @walkTo_written _ root root.descendants harray hwritten
    rw [if_neg hrefused] at hwalk
    apply h.used
    rw [replyTo_eq, bind_of_ok hwalk, createXmlReply, Contents.toArray_requestType]
    rfl
  refine ⟨harray, htype, ?_, (replyTo_caught_iff harray htype hwritten).mp h.used⟩
  intro j node hnode
  refine ⟨written_iff.mp hwritten j node hnode, fun hvalue => ?_⟩
  obtain ⟨visited, rest, hsplit, helement, hvisited⟩ := split_of_getElem? hnode
  obtain ⟨array, hwalk, hpair⟩ := pair_at harray hwritten hnode hvisited
  have hkey := (h.initPair _ _ _ _ _ _ _ _ hsplit helement hwalk hpair (if_pos hvalue)).1
  simpa [pairOf] using hkey

theorem Survivable.caught (h : Survivable lib root device messageId supply) :
    FailuresCaught lib root device messageId supply := by
  have hwritten : Written (later supply 2) (elements root) :=
    written_iff.mpr fun j node hnode => (h.pair j node hnode).1
  refine ⟨?_, ?_, ?_, (replyTo_caught_iff h.array h.requestType hwritten).mpr h.reply⟩
  · intro array code after hok _
    rw [initKeyValueArray_at, h.array] at hok
    cases hok
    simp [Contents.fresh, Contents.toArray, holding]
  · rintro array before array' code after hok rfl
    exact setRequestType_success hok
  · intro visited element rest array before kv code after hsplit helement hwalk hpair hcode
    obtain ⟨hnode, hvisited⟩ := getElem?_of_split hsplit helement
    obtain ⟨array', hwalk', hpair'⟩ := pair_at h.array hwritten hnode hvisited
    rw [hwalk'] at hwalk
    cases hwalk
    rw [hpair'] at hpair
    cases hpair
    exact pairOf_success hcode (h.pair _ element hnode).2

/-- When refused memory is dealt with in time, whatever the document and whatever is refused. -/
theorem allocation_failures_caught_iff (lib : Libxml2) (root : XmlNode) (device : Abcc)
    (messageId : CString) (supply : Supply) :
    FailuresCaught lib root device messageId supply ↔
      Survivable lib root device messageId supply :=
  ⟨FailuresCaught.survivable, Survivable.caught⟩

/-- When the copy of the root's name is refused, a `hello` compares a `NULL`. -/
theorem refused_name_compared :
    replyTo (tableLibxml2 []) (.element HELLO [] []) ⟨none⟩ (lit "0") (fun n => n ≠ 1) =
        .error .nullPointer ∧
      ¬ FailuresCaught (tableLibxml2 []) (.element HELLO [] []) ⟨none⟩ (lit "0") (fun n => n ≠ 1) :=
  ⟨rfl, fun h => h.used rfl⟩

end NetconfServer.Parsing
