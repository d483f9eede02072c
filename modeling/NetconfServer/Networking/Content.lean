import NetconfServer.Networking.Availability
import NetconfServer.Networking.ReadBack

/-! # What the replies contain

Which requests get a reply at all, and which of the reads get the content they ask for. The canned
replies are paired with the wrong branches, the one for `get-config` cannot follow the device, and a
data reply shows the address as it is only where nothing in it is taken for a reference.
-/

namespace NetconfServer.Networking
open Memory CString Library Parsing
variable {lib : Libxml2} {escape : CString → CString}

/-! ## Replies at all -/

/-- When a message whose root is `hello` or `rpc` gets a reply: an `rpc` has one of the four
operations among its first ten elements. -/
theorem accepted_request_answered_iff (hlib : lib.Allocates) {root : XmlNode}
    (haccepted : root.label.name = HELLO ∨ root.label.name = RPC) (device : Abcc) (num : ℤ) :
    ∃ array reply device', Yields (walked root) (some array, 0) ∧
      Yields (createXmlReply lib array device (decimalString num)) (reply, device') ∧
      ((reply.text.bytes ≠ [] ∧ endOfMessage.bytes <:+ reply.text.bytes ∧
          ∀ ciphersuite buf, Yields (formatReply reply.text ciphersuite) buf → buf ≠ []) ↔
        root.label.name = HELLO ∨ ∃ op : Operation, op.name ∈ recordedKeys root) := by
  have hrecognised : Recognised root ↔
      root.label.name = HELLO ∨ ∃ op : Operation, op.name ∈ recordedKeys root := by
    rw [Recognised]
    rcases haccepted with h | h
    · simp [h]
    · simp [h]
  obtain ⟨reply, hreply⟩ := exists_reply hlib (answerTo root) device (decimalString num)
  have hcreate : Yields (createXmlReply lib (requestArray root) device (decimalString num))
      (reply, (answerTo root).update device) := by
    rw [Yields, requestArray, createXmlReply_eq, ← answerTo, hreply]
    rfl
  refine ⟨_, reply, _, walked_yields root, hcreate, ?_⟩
  rw [← hrecognised]
  constructor
  · rintro ⟨hne, -, -⟩
    by_contra hnot
    rw [answerTo_eq_empty.mpr hnot] at hreply
    cases hreply
    exact hne rfl
  · intro h
    have hempty : answerTo root ≠ .empty := fun he => answerTo_eq_empty.mp he h
    have hends := reply_ends hreply hempty
    refine ⟨?_, hends, ?_⟩
    · intro hnil
      rw [hnil] at hends
      exact absurd (List.suffix_nil.mp hends) (by decide)
    · intro ciphersuite buf hformat
      exact reply_ne_nil hreply hempty (formatReply_eq_ok.mp hformat).1

theorem accepted_request_answered_iff_sample :
    ∃ array reply device', Yields (walked (editRequest (lit "running") [])) (some array, 0) ∧
      Yields (createXmlReply (tableLibxml2 []) array ⟨some initialAddress⟩ (decimalString 1))
        (reply, device') ∧
      reply.text.bytes ≠ [] ∧ endOfMessage.bytes <:+ reply.text.bytes := by
  obtain ⟨array, reply, device', hwalked, hcreate, hiff⟩ := @accepted_request_answered_iff _
    (tableLibxml2_allocates []) (editRequest (lit "running") []) (.inr rfl) ⟨some initialAddress⟩ 1
  have hanswered := hiff.mpr (.inr ⟨.editConfig, by decide⟩)
  exact ⟨array, reply, device', hwalked, hcreate, hanswered.1, hanswered.2.1⟩

/-- A request of an operation that is not one of the four. -/
def unknownOperation : XmlNode := .element RPC [] [.element (lit "close-session") [] []]

/-- It is accepted, and the reply is the empty string. -/
theorem unknown_operation_unanswered :
    EntityFree unknownOperation ∧ unknownOperation.label.name = RPC ∧
    ∃ array, Yields (walked unknownOperation) (some array, 0) ∧
      Yields (createXmlReply (tableLibxml2 []) array ⟨some initialAddress⟩ (decimalString 1))
        (.empty, ⟨some initialAddress⟩) ∧
      Yields (formatReply Reply.empty.text ⟨[], []⟩) [] := by
  refine ⟨by decide, rfl, _, walked_yields unknownOperation, ?_, rfl⟩
  have hanswer : answer unknownOperation.label.name (recorded unknownOperation) = .empty := by decide
  rw [Yields, requestArray, createXmlReply_eq, hanswer]
  rfl

/-! ## What is assumed of libxml2 -/

mutual

/-- What the parser makes of a node as it is written: `xmlns` is no attribute, and a text without
content is nothing. -/
def reread : XmlNode → XmlNode
  | .node data children =>
    .node { data with properties := data.properties.filter (·.1 ≠ lit "xmlns") }
      (rereadAll children)

def rereadAll : List XmlNode → List XmlNode
  | [] => []
  | node :: next =>
    if node.label.type = .text ∧ node.label.content = .empty then rereadAll next
    else reread node :: rereadAll next

end

/-- The parser reads the document `root` as it is written. A reference to an entity makes it no
document, cut short or not, as nothing declares the entity; text of XML characters is read. -/
structure Rereads (lib : Libxml2) (escape : CString → CString) (root : XmlNode) : Prop where
  accepted : (∀ node ∈ root.descendants, node.label.type ≠ .entityRef) →
    (∀ node ∈ root.descendants, node.label.type = .text → XmlText node.label.content) →
    (lib.xmlReadMemory (documentText escape root)).isSome
  only : (∀ node ∈ root.descendants, node.label.type ≠ .entityRef) → ∀ document,
    lib.xmlReadMemory (documentText escape root) = some document → document = .tree (reread root)
  undeclared : (∃ node ∈ root.descendants, node.label.type = .entityRef) → ∀ text : CString,
    text.bytes <+: (documentText escape root).bytes → lib.xmlReadMemory text = none

theorem mem_response {address msgNum : CString} {node : XmlNode}
    (h : node ∈ lib.xmlStringGetNodeList address) :
    node ∈ (responseDocument lib (some address) msgNum).descendants := by
  have hforest : node ∈ Rose.forest (contentNodes lib (some address)) := Rose.mem_forest_of_mem h
  simp [responseDocument, XmlNode.element, Rose.descendants_eq, hforest]

/-- Below a data reply whose content is a text there are only elements and that text. -/
theorem response_descendants {address d msgNum : CString}
    (hd : AreText (lib.xmlStringGetNodeList address) d) :
    ∀ node ∈ (responseDocument lib (some address) msgNum).descendants,
      node.label.type = .element ∨ node = XmlNode.text d := by
  intro node hnode
  have hcontent : Rose.forest (contentNodes lib (some address)) = [] ∨
      Rose.forest (contentNodes lib (some address)) = [XmlNode.text d] := by
    rcases hd with htext | ⟨hnil, -⟩
    · right
      simp [contentNodes, htext, XmlNode.text, Rose.descendants_eq]
    · left
      simp [contentNodes, hnil]
  simp only [responseDocument, XmlNode.element, Rose.descendants_eq, Rose.children_node,
    Rose.forest_cons, Rose.forest_nil, List.append_nil, List.mem_cons] at hnode
  rcases hnode with rfl | rfl | rfl | rfl | hnode
  · exact .inl rfl
  · exact .inl rfl
  · exact .inl rfl
  · exact .inl rfl
  · rcases hcontent with hforest | hforest
    · rw [hforest] at hnode
      cases hnode
    · rw [hforest] at hnode
      exact .inr (List.mem_singleton.mp hnode)

theorem reread_response {address d msgNum : CString}
    (hd : AreText (lib.xmlStringGetNodeList address) d) :
    reread (responseDocument lib (some address) msgNum) = reparsed d msgNum := by
  have hcontent : rereadAll (contentNodes lib (some address)) =
      if d = .empty then [] else [.text d] := by
    rcases hd with htext | ⟨hnil, rfl⟩
    · rw [contentNodes, htext]
      by_cases hempty : d = .empty
      · simp [rereadAll, XmlNode.text, hempty]
      · simp [rereadAll, reread, XmlNode.text, hempty]
    · rw [contentNodes, hnil, if_pos rfl]
      rfl
  have hxmlns : lit "message-id" ≠ lit "xmlns" := by decide
  simp [responseDocument, reparsed, XmlNode.element, reread, rereadAll, hcontent, hxmlns]

/-! ## Reads -/

/-- The reply has an `abcc` element, and the text of an `IP_ADDRESS` in it is the address. -/
def ShowsAddress (lib : Libxml2) (address text : CString) : Prop :=
  (lit "<abcc").bytes <:+: text.bytes ∧
  ∃ root, lib.xmlReadMemory (cutAtDelimiter text) = some (.tree root) ∧
    ∃ abcc ∈ elements root, abcc.label.name = lit "abcc" ∧
      ∃ node ∈ elements abcc, node.label.name = lit "IP_ADDRESS" ∧ textContent node = address

/-- The `data` element of the text contains an element of the given name. -/
def DataContains (name text : CString) : Prop :=
  ∃ before content after,
    text.bytes = before ++ (lit "<data").bytes ++ content ++ (lit "</data>").bytes ++ after ∧
      (lit "<" ++ name).bytes <:+: content

/-- The keys of a request for the configuration. -/
def AsksForConfig (keys : List CString) : Prop :=
  lit "get-config" ∈ keys ∧ lit "get" ∉ keys ∧ lit "get-schema" ∉ keys ∧ lit "edit-config" ∉ keys

/-- Each kind of read gets the content it asks for. -/
structure ReadsAnswered (lib : Libxml2) (address : CString) (keys : List CString)
    (text : CString) : Prop where
  config : AsksForConfig keys → ShowsAddress lib address text
  plain : lit "get" ∈ keys → lit "netconf-state" ∉ keys → lit "modules-state" ∉ keys →
    ShowsAddress lib address text
  netconfState : lit "get" ∈ keys → lit "netconf-state" ∈ keys →
    DataContains (lit "netconf-state") text
  modulesState : lit "get" ∈ keys → lit "modules-state" ∈ keys → lit "netconf-state" ∉ keys →
    DataContains (lit "modules-state") text

theorem DataContains.infix {name text : CString} (h : DataContains name text) :
    (lit "<" ++ name).bytes <:+: text.bytes := by
  obtain ⟨before, content, after, htext, hname⟩ := h
  rw [htext]
  refine hname.trans ⟨before ++ (lit "<data").bytes, (lit "</data>").bytes ++ after, ?_⟩
  simp

theorem response1_not_modulesState : ¬ DataContains (lit "modules-state") NETCONF_RESPONSE_1 := by
  intro h
  have hinfix := h.infix
  revert hinfix
  decide +kernel

theorem response2_not_netconfState : ¬ DataContains (lit "netconf-state") NETCONF_RESPONSE_2 := by
  intro h
  have hinfix := h.infix
  revert hinfix
  decide +kernel

theorem response3_not_address (address : CString) :
    ¬ ShowsAddress lib address NETCONF_RESPONSE_3 := by
  intro h
  have hopen := h.1
  revert hopen
  decide +kernel

/-! ## The address of a data reply -/

/-- The `IP_ADDRESS` element around `d`, as it is read. -/
def addressOf (d : CString) : XmlNode :=
  .element (lit "IP_ADDRESS") [] (if d = .empty then [] else [.text d])

def attributesOf (d : CString) : XmlNode := .element (lit "attributes") [] [addressOf d]

def abccOf (d : CString) : XmlNode := .element (lit "abcc") [] [attributesOf d]

theorem textContent_addressOf (d : CString) : textContent (addressOf d) = d := by
  rw [addressOf]
  split_ifs with h
  · rw [h]
    rfl
  · apply CString.ext
    simp [textContent, XmlNode.element, XmlNode.text]

theorem elements_attributesOf (d : CString) : elements (attributesOf d) = [addressOf d] := by
  have hnone : (Rose.forest (addressOf d).children).filter (·.label.type = .element) = [] := by
    rw [addressOf]
    split_ifs <;> simp [XmlNode.element, XmlNode.text, Rose.descendants_eq]
  rw [elements_eq, attributesOf, XmlNode.element, Rose.children_node, Rose.forest_cons,
    Rose.forest_nil, List.append_nil, List.filter_cons_of_pos rfl, Rose.descendants_eq, hnone]

theorem elements_abccOf (d : CString) :
    elements (abccOf d) = [attributesOf d, addressOf d] := by
  rw [elements_eq, abccOf, XmlNode.element, Rose.children_node, Rose.forest_cons, Rose.forest_nil,
    List.append_nil, List.filter_cons_of_pos rfl, Rose.descendants_eq, ← elements_eq,
    elements_attributesOf]

theorem elements_reparsed (d msgNum : CString) : elements (reparsed d msgNum) =
    [.element (lit "data") [] [abccOf d], abccOf d, attributesOf d, addressOf d] := by
  have hreparsed : reparsed d msgNum = .element (lit "rpc-reply") [(lit "message-id", msgNum)]
      [.element (lit "data") [] [abccOf d]] := rfl
  rw [elements_eq, hreparsed, XmlNode.element, Rose.children_node, Rose.forest_cons,
    Rose.forest_nil, List.append_nil, List.filter_cons_of_pos rfl, Rose.descendants_eq,
    XmlNode.element, Rose.children_node, Rose.forest_cons, Rose.forest_nil, List.append_nil,
    List.filter_cons_of_pos rfl, Rose.descendants_eq, ← elements_eq, elements_abccOf]

/-- The reply of an `abcc` around `d` shows `d` and no other text. -/
theorem reparsed_shows_iff {d msgNum address : CString} :
    (∃ abcc ∈ elements (reparsed d msgNum), abcc.label.name = lit "abcc" ∧
      ∃ node ∈ elements abcc, node.label.name = lit "IP_ADDRESS" ∧ textContent node = address) ↔
    d = address := by
  constructor
  · have hdata : lit "data" ≠ lit "abcc" := by decide
    have hattributes : lit "attributes" ≠ lit "abcc" := by decide
    have hattributes' : lit "attributes" ≠ lit "IP_ADDRESS" := by decide
    have hip : lit "IP_ADDRESS" ≠ lit "abcc" := by decide
    rintro ⟨abcc, habcc, hname, node, hnode, haddress, rfl⟩
    rw [elements_reparsed] at habcc
    obtain rfl : abcc = abccOf d := by
      simp only [List.mem_cons, List.not_mem_nil, or_false] at habcc
      rcases habcc with rfl | rfl | rfl | rfl
      · exact absurd hname hdata
      · rfl
      · exact absurd hname hattributes
      · exact absurd hname hip
    rw [elements_abccOf] at hnode
    simp only [List.mem_cons, List.not_mem_nil, or_false] at hnode
    rcases hnode with rfl | rfl
    · exact absurd haddress hattributes'
    · exact (textContent_addressOf d).symm
  · rintro rfl
    refine ⟨abccOf d, by simp [elements_reparsed], rfl, addressOf d, by simp [elements_abccOf], rfl,
      textContent_addressOf d⟩

/-- When a data reply shows the address it was made for. -/
theorem data_showsAddress_iff (hwrites : lib.Writes escape) {address : CString}
    (hescape : EscapesGreater escape (lib.xmlStringGetNodeList address))
    (haddress : XmlText address) {num : ℤ} (hcontent : ReadsEscaped lib address)
    (hrereads : Rereads lib escape (responseDocument lib (some address) (decimalString num)))
    {text : CString} (h : dataText lib (some address) (decimalString num) = .ok text) :
    ShowsAddress lib address text ↔ 38 ∉ address.bytes := by
  rw [dataText, hwrites] at h
  obtain rfl := Except.ok.inj h
  rcases hcontent.cases with hentity | ⟨d, hd, hshort, hsame⟩
  · obtain ⟨node, hnode, htype⟩ := hentity
    have hprefix := before_append_isPrefix endOfMessage.bytes
      (documentText escape (responseDocument lib (some address) (decimalString num))).bytes []
    rw [List.append_nil] at hprefix
    have hnone := hrereads.undeclared ⟨node, mem_response hnode, htype⟩
      (cutAtDelimiter (documentText escape (responseDocument lib (some address)
        (decimalString num)) ++ endOfMessage)) hprefix
    simp [ShowsAddress, hnone, hcontent.ampersand ⟨node, hnode, htype⟩]
  · have hdescendants := @response_descendants lib address d (decimalString num) hd
    have hplain : ∀ node ∈ (responseDocument lib (some address) (decimalString num)).descendants,
        node.label.type ≠ .entityRef := by
      intro node hnode htype
      rcases hdescendants node hnode with helement | rfl
      · rw [helement] at htype
        cases htype
      · cases htype
    have hcut := @cutAtDelimiter_reply lib escape address d num hescape hd
    constructor
    · rintro ⟨-, root, hread, hshows⟩ hamp
      rw [hcut] at hread
      have htree := hrereads.only hplain _ hread
      rw [reread_response hd] at htree
      cases htree
      have hlt := hshort hamp
      rw [reparsed_shows_iff.mp hshows] at hlt
      exact lt_irrefl _ hlt
    · intro hamp
      obtain rfl := hsame hamp
      have htext : ∀ node ∈ (responseDocument lib (some d) (decimalString num)).descendants,
          node.label.type = .text → XmlText node.label.content := by
        intro node hnode htype
        rcases hdescendants node hnode with helement | rfl
        · rw [helement] at htype
          cases htype
        · exact haddress
      obtain ⟨document, hread⟩ := Option.isSome_iff_exists.mp (hrereads.accepted hplain htext)
      have htree := hrereads.only hplain _ hread
      rw [reread_response hd] at htree
      subst htree
      refine ⟨?_, reparsed d (decimalString num), ?_, reparsed_shows_iff.mpr rfl⟩
      · have hopen : (lit "<abcc").bytes <:+: responseOpen.bytes := by decide +kernel
        rw [documentText_response]
        refine hopen.trans ⟨responseHead.bytes ++ (decimalString num).bytes, ?_⟩
        simp only [bytes_append, List.append_assoc]
        exact ⟨_, rfl⟩
      · rw [hcut]
        exact hread

/-- A request that is neither a `get` nor for the configuration asks for none of this. -/
theorem readsAnswered_of_other {address : CString} {keys : List CString}
    (hget : lit "get" ∉ keys) (hconfig : ¬ AsksForConfig keys) (text : CString) :
    ReadsAnswered lib address keys text where
  config h := absurd h hconfig
  plain h := absurd h hget
  netconfState h := absurd h hget
  modulesState h := absurd h hget

/-- Of the three branches of a `get` only the last gives what was asked for. -/
theorem readsAnswered_get_iff {address : CString} {keys : List CString} {num : ℤ}
    (hshows : ∀ text, dataText lib (some address) (decimalString num) = .ok text →
      (ShowsAddress lib address text ↔ 38 ∉ address.bytes))
    (hget : lit "get" ∈ keys) {reply : Reply}
    (hreply : (if lit "netconf-state" ∈ keys then Answer.response2
      else if lit "modules-state" ∈ keys then .response1 else .data).reply lib ⟨some address⟩
        (decimalString num) = .ok reply) :
    ReadsAnswered lib address keys reply.text ↔
      lit "netconf-state" ∉ keys ∧ lit "modules-state" ∉ keys ∧ 38 ∉ address.bytes := by
  by_cases hstate : lit "netconf-state" ∈ keys
  · rw [if_pos hstate] at hreply
    cases hreply
    apply iff_of_false
    · intro h
      exact response2_not_netconfState (h.netconfState hget hstate)
    · intro h
      exact h.1 hstate
  rw [if_neg hstate] at hreply
  by_cases hmodules : lit "modules-state" ∈ keys
  · rw [if_pos hmodules] at hreply
    cases hreply
    apply iff_of_false
    · intro h
      exact response1_not_modulesState (h.modulesState hget hmodules hstate)
    · intro h
      exact h.2.1 hmodules
  · rw [if_neg hmodules] at hreply
    obtain ⟨text, htext, rfl⟩ := data_reply_eq_ok.mp hreply
    have hiff := hshows text htext
    constructor
    · intro h
      exact ⟨hstate, hmodules, hiff.mp (h.plain hget hstate hmodules)⟩
    · rintro ⟨-, -, hamp⟩
      have hshown := hiff.mpr hamp
      exact ⟨fun _ => hshown, fun _ _ _ => hshown, fun _ h => absurd h hstate,
        fun _ h => absurd h hmodules⟩

/-- When the reads are answered with what they ask for: the request is none for the configuration,
no `get` names `netconf-state` or `modules-state`, and when there is a `get` the address has no
ampersand. -/
theorem reads_answered_iff (hwrites : lib.Writes escape) (cap : ℕ) (es : List Entry)
    {address : CString} (hescape : EscapesGreater escape (lib.xmlStringGetNodeList address))
    (haddress : XmlText address) {num : ℤ}
    (hcontent : ReadsEscaped lib address)
    (hrereads : Rereads lib escape (responseDocument lib (some address) (decimalString num))) :
    ∃ reply device', Yields (createXmlReply lib (entryArray cap es (.set (some RPC)))
        ⟨some address⟩ (decimalString num)) (reply, device') ∧
      (ReadsAnswered lib address (es.map Entry.key) reply.text ↔
        ¬ AsksForConfig (es.map Entry.key) ∧ (lit "get" ∈ es.map Entry.key →
          lit "netconf-state" ∉ es.map Entry.key ∧ lit "modules-state" ∉ es.map Entry.key ∧
            38 ∉ address.bytes)) := by
  have hdata := dataText_of_writes hwrites (some address) num
  obtain ⟨reply, hreply⟩ : ∃ reply,
      (answer RPC es).reply lib ⟨some address⟩ (decimalString num) = .ok reply := by
    cases answer RPC es with
    | data => exact ⟨_, data_reply_eq_ok.mpr ⟨_, hdata, rfl⟩⟩
    | _ => exact ⟨_, rfl⟩
  refine ⟨reply, (answer RPC es).update ⟨some address⟩, ?_, ?_⟩
  · rw [Yields, createXmlReply_eq, hreply]
    rfl
  generalize hkeys : es.map Entry.key = keys
  rw [answer, if_neg (by decide), if_pos rfl, hkeys] at hreply
  have hother (hget : lit "get" ∉ keys) (hconfig : ¬ AsksForConfig keys) :
      ReadsAnswered lib address keys reply.text ↔ ¬ AsksForConfig keys ∧ (lit "get" ∈ keys →
        lit "netconf-state" ∉ keys ∧ lit "modules-state" ∉ keys ∧ 38 ∉ address.bytes) :=
    iff_of_true (readsAnswered_of_other hget hconfig _) ⟨hconfig, fun h => absurd h hget⟩
  cases hop : firstOperation keys with
  | none =>
    have hnone := firstOperation_eq_none.mp hop
    exact hother (hnone .get) fun h => hnone .getConfig h.1
  | some op =>
    rw [hop] at hreply
    obtain ⟨hmem, hearlier⟩ := firstOperation_eq_some.mp hop
    cases op with
    | get =>
      have hget : lit "get" ∈ keys := hmem
      have hconfig : ¬ AsksForConfig keys := fun h => h.2.1 hget
      have hshows (text : CString) (h : dataText lib (some address) (decimalString num) = .ok text) :=
        data_showsAddress_iff hwrites hescape haddress hcontent hrereads h
      rw [readsAnswered_get_iff hshows hget hreply]
      simp [hconfig, hget]
    | getSchema =>
      exact hother (hearlier .get (by simp [Operation.earlier])) fun h => h.2.2.1 hmem
    | editConfig =>
      exact hother (hearlier .get (by simp [Operation.earlier])) fun h => h.2.2.2 hmem
    | getConfig =>
      cases hreply
      have hconfig : AsksForConfig keys :=
        ⟨hmem, hearlier .get (by simp [Operation.earlier]),
          hearlier .getSchema (by simp [Operation.earlier]),
          hearlier .editConfig (by simp [Operation.earlier])⟩
      apply iff_of_false
      · intro h
        exact response3_not_address address (h.config hconfig)
      · intro h
        exact h.1 hconfig

/-- The entries of a `get` with an element `name` in it. -/
def getOf (name : CString) : List Entry := [⟨lit "get", .empty⟩, ⟨name, .empty⟩]

/-- A library that knows the data reply around an address. -/
def replyLibxml2 (address : CString) : Libxml2 :=
  tableLibxml2 [(documentText escapeText
      (responseDocument (tableLibxml2 []) (some address) (decimalString 1)),
    reread (responseDocument (tableLibxml2 []) (some address) (decimalString 1)))]

theorem replyLibxml2_rereads (address : CString) : Rereads (replyLibxml2 address) escapeText
    (responseDocument (replyLibxml2 address) (some address) (decimalString 1)) := by
  have hroot : responseDocument (replyLibxml2 address) (some address) (decimalString 1) =
      responseDocument (tableLibxml2 []) (some address) (decimalString 1) := rfl
  have hread : (replyLibxml2 address).xmlReadMemory (documentText escapeText
      (responseDocument (tableLibxml2 []) (some address) (decimalString 1))) =
      some (.tree (reread (responseDocument (tableLibxml2 []) (some address) (decimalString 1)))) := by
    simp [replyLibxml2, tableLibxml2]
  rw [hroot]
  constructor
  · intro _ _
    rw [hread]
    rfl
  · intro _ document h
    rw [hread] at h
    exact (Option.some.inj h).symm
  · rintro ⟨node, hnode, htype⟩
    rcases @response_descendants (tableLibxml2 []) address address (decimalString 1) (.inl rfl) node
      hnode with helement | rfl
    · rw [helement] at htype
      cases htype
    · cases htype

theorem reads_answered_iff_sample :
    ∃ reply device', Yields (createXmlReply (replyLibxml2 sampleAddress)
        (entryArray 10 (getOf (lit "filter")) (.set (some RPC))) ⟨some sampleAddress⟩
        (decimalString 1)) (reply, device') ∧
      ReadsAnswered (replyLibxml2 sampleAddress) sampleAddress
        ((getOf (lit "filter")).map Entry.key) reply.text := by
  have hreads : Markup.Reads sampleAddress.bytes (sampleAddress.bytes.map .byte) :=
    Markup.reads_of_notMem (by decide)
  have hcontent : ReadsEscaped (replyLibxml2 sampleAddress) sampleAddress :=
    ⟨fun node hnode => .inl ⟨sampleAddress, List.mem_singleton.mp hnode⟩,
      by simpa [replyLibxml2, tableLibxml2, pieces, XmlNode.text] using hreads, fun _ => le_refl 1⟩
  obtain ⟨reply, device', hcreate, hiff⟩ := reads_answered_iff (tableLibxml2_writes _) 10
    (getOf (lit "filter")) (fun _ _ _ => greater_notMem_escapeText _)
    ⟨"10.0.0.7", rfl, by simp [XmlChar]⟩ hcontent (replyLibxml2_rereads sampleAddress)
  refine ⟨reply, device', hcreate, hiff.mpr ⟨?_, ?_⟩⟩
  · intro h
    exact absurd h.1 (by decide)
  · intro _
    decide

/-- A `get` of `netconf-state` is answered with the reply made for `modules-state`. -/
theorem netconf_state_answered_with_modules :
    ∃ reply device', Yields (createXmlReply (tableLibxml2 [])
        (entryArray 10 (getOf (lit "netconf-state")) (.set (some RPC))) ⟨some initialAddress⟩
        (decimalString 1)) (reply, device') ∧
      ¬ DataContains (lit "netconf-state") reply.text ∧
      (lit "<modules-state").bytes <:+: reply.text.bytes := by
  refine ⟨.response2, ⟨some initialAddress⟩, ?_, response2_not_netconfState, by decide +kernel⟩
  have hanswer : answer RPC (getOf (lit "netconf-state")) = .response2 := by decide
  rw [Yields, createXmlReply_eq, hanswer]
  rfl

end NetconfServer.Networking
