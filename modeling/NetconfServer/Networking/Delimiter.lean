import NetconfServer.Networking.Server
import NetconfServer.Parsing.Serialiser

/-! # The delimiter of a data reply

`parse_xml` should find the end of a data reply where `create_netconf_response_4` put it. Text is
written with its `>` escaped, but the name of an entity reference is written as it is, and `libxml2`
takes for a name whatever stands between `&` and `;`.
-/

namespace NetconfServer.Networking
open Memory CString Library Parsing

/-- The delimiter put after `d` is at the end of `d` and nowhere else. -/
def Delimits (d : List UInt8) : Prop :=
  ∀ k, endOfMessage.bytes <+: (d ++ endOfMessage.bytes).drop k ↔ k = d.length

theorem endOfMessage_prefix_drop {k : ℕ} (h : endOfMessage.bytes <+: endOfMessage.bytes.drop k) :
    k = 0 := by
  have hlength := h.length_le
  have hend : endOfMessage.bytes.length = 6 := by decide
  rw [List.length_drop, hend] at hlength
  omega

namespace Delimits
variable {d : List UInt8}

theorem notMem (h : Delimits d) : ¬ endOfMessage.bytes <:+: d := by
  rintro ⟨s, t, rfl⟩
  have hoccurs : endOfMessage.bytes <+:
      (s ++ endOfMessage.bytes ++ t ++ endOfMessage.bytes).drop s.length := by simp
  have hlength := (h s.length).mp hoccurs
  have hend : endOfMessage.bytes.length = 6 := by decide
  rw [List.length_append, List.length_append, hend] at hlength
  omega

theorem before_delimiter (h : Delimits d) (r : List UInt8) :
    before endOfMessage.bytes (d ++ (endOfMessage.bytes ++ r)) = d := by
  apply before_append_right
  have hbefore := @before_append _ _ endOfMessage.bytes d [] (by decide)
  rw [List.append_nil] at hbefore
  apply hbefore
  intro k hk hoccurs
  rw [(h k).mp hoccurs] at hk
  exact lt_irrefl _ hk

end Delimits

/-- In front of `content` and after it there is no `]`, where the delimiter could begin. -/
theorem delimits_iff {front content back : List UInt8} (hfront : 93 ∉ front) (hback : 93 ∉ back) :
    Delimits (front ++ (content ++ 60 :: back)) ↔ ¬ endOfMessage.bytes <:+: content := by
  have hend : endOfMessage.bytes = 93 :: [93, 62, 93, 93, 62] := by decide
  have hbyte : 60 ∉ endOfMessage.bytes := by decide
  constructor
  · intro h hcontent
    refine h.notMem (hcontent.trans ?_)
    exact (List.prefix_append _ _).isInfix.trans (List.suffix_append _ _).isInfix
  · intro hcontent k
    constructor
    · intro h
      rw [List.append_assoc, List.append_assoc, List.cons_append, hend,
        prefix_drop_append_iff hfront, ← hend,
        prefix_drop_append_cons_iff (by decide) hbyte] at h
      obtain ⟨hk, hinside | ⟨hlt, hbehind⟩⟩ := h
      · exact absurd (infix_iff_exists_drop.mpr ⟨_, hinside⟩) hcontent
      · rw [hend, prefix_drop_append_iff hback, ← hend] at hbehind
        have hlast := endOfMessage_prefix_drop hbehind.2
        have hle := hbehind.1
        simp only [List.length_append, List.length_cons]
        omega
    · rintro rfl
      rw [List.drop_left]

/-! ## The text of a data reply -/

variable {lib : Libxml2} {escape : CString → CString} {ipAdr : Option CString} {num : ℤ}

/-- The text around the content, up to the last newline. -/
theorem documentText_around (num : ℤ) (nodes : List XmlNode)
    (hnodes : contentNodes lib ipAdr = nodes) :
    ∃ front back, 93 ∉ front ∧ 93 ∉ back ∧
      (documentText escape (responseDocument lib ipAdr (decimalString num))).bytes =
        front ++ ((serialiseAll escape nodes).bytes ++ 60 :: back) ++ [10] := by
  have hhead : 93 ∉ responseHead.bytes := by decide
  have hopen : 93 ∉ responseOpen.bytes := by decide
  have hnum : 93 ∉ (decimalString num).bytes := notMem_decimal (by decide) (by decide) num
  have hclose : responseClose.bytes = 60 :: (lit "/attributes></abcc></data></rpc-reply>").bytes ++
      [10] := by decide
  rw [documentText_response, hnodes]
  cases nodes with
  | nil =>
    have hempty : 93 ∉ (lit "<" ++ lit "IP_ADDRESS" ++ lit "/>").bytes := by decide
    refine ⟨(responseHead ++ decimalString num ++ responseOpen ++
      (lit "<" ++ lit "IP_ADDRESS" ++ lit "/>")).bytes,
      (lit "/attributes></abcc></data></rpc-reply>").bytes, ?_, by decide, ?_⟩
    · rw [bytes_append, bytes_append, bytes_append]
      simp only [List.mem_append, not_or]
      exact ⟨⟨⟨hhead, hnum⟩, hopen⟩, hempty⟩
    · rw [serialise_element_nil, bytes_append, hclose]
      simp [serialiseAll]
  | cons node next =>
    have hstart : 93 ∉ (lit "<" ++ lit "IP_ADDRESS" ++ lit ">").bytes := by decide
    have htag : (lit "</" ++ lit "IP_ADDRESS" ++ lit ">").bytes =
        60 :: (lit "/IP_ADDRESS>").bytes := by decide
    refine ⟨(responseHead ++ decimalString num ++ responseOpen ++
      (lit "<" ++ lit "IP_ADDRESS" ++ lit ">")).bytes,
      (lit "/IP_ADDRESS></attributes></abcc></data></rpc-reply>").bytes, ?_, by decide, ?_⟩
    · rw [bytes_append, bytes_append, bytes_append]
      simp only [List.mem_append, not_or]
      exact ⟨⟨⟨hhead, hnum⟩, hopen⟩, hstart⟩
    · have hrest : (lit "/IP_ADDRESS></attributes></abcc></data></rpc-reply>").bytes =
          (lit "/IP_ADDRESS>").bytes ++
            60 :: (lit "/attributes></abcc></data></rpc-reply>").bytes := by decide
      rw [serialise_element_cons, bytes_append, bytes_append, bytes_append _ (lit "</" ++ _ ++ _),
        htag, hclose, hrest]
      simp

/-- The `>` in the texts among the nodes are escaped. -/
def EscapesGreater (escape : CString → CString) (nodes : List XmlNode) : Prop :=
  ∀ node ∈ nodes, node.label.type = .text → 62 ∉ (escape node.label.content).bytes

/-- What is assumed of libxml2 for an address: the text the serialiser returns is the document, with
its final newline or without; `xmlNewChild` makes text and entity references of the address; and the
`>` in a text are escaped. -/
structure WrittenAs (lib : Libxml2) (escape : CString → CString) (address : CString) (num : ℤ)
    (document : CString) : Prop where
  text : document = documentText escape (responseDocument lib (some address) (decimalString num)) ∨
    document ++ lit "\n" =
      documentText escape (responseDocument lib (some address) (decimalString num))
  nodes : ∀ node ∈ lib.xmlStringGetNodeList address,
    node.label.type = .text ∨ node.label.type = .entityRef
  escaped : EscapesGreater escape (lib.xmlStringGetNodeList address)

/-- No reference that is read out of the address has the delimiter in its name. -/
def Undelimited (lib : Libxml2) (address : CString) : Prop :=
  ∀ node ∈ lib.xmlStringGetNodeList address, node.label.type = .entityRef →
    ¬ endOfMessage.bytes <:+: node.label.name.bytes

/-- The names are the only place for the delimiter; `front` is the text before the nodes. -/
theorem serialiseAll_undelimited_iff {nodes : List XmlNode}
    (hnodes : ∀ node ∈ nodes, node.label.type = .text ∨ node.label.type = .entityRef)
    (hescaped : EscapesGreater escape nodes)
    {front : List UInt8} (hfront : 62 ∉ front) :
    ¬ endOfMessage.bytes <:+: front ++ (serialiseAll escape nodes).bytes ↔
      ∀ node ∈ nodes, node.label.type = .entityRef →
        ¬ endOfMessage.bytes <:+: node.label.name.bytes := by
  have hgreater {l : List UInt8} (hl : 62 ∉ l) : ¬ endOfMessage.bytes <:+: l := by
    intro h
    exact hl (h.subset (by decide))
  induction nodes generalizing front with
  | nil =>
    have hnone : ¬ endOfMessage.bytes <:+: front ++ (serialiseAll escape []).bytes := by
      simpa [serialiseAll] using hgreater hfront
    simp [hnone]
  | cons node nodes ih =>
    have hnext : ∀ node' ∈ nodes, node'.label.type = .text ∨ node'.label.type = .entityRef :=
      fun node' h => hnodes node' (List.mem_cons_of_mem _ h)
    have hnext' : EscapesGreater escape nodes :=
      fun node' h => hescaped node' (List.mem_cons_of_mem _ h)
    have hhead := hescaped node List.mem_cons_self
    rw [serialiseAll, bytes_append, List.forall_mem_cons]
    rcases hnodes node List.mem_cons_self with htype | htype
    · -- A text goes to what stands before the other nodes.
      have htext : serialise escape node = escape node.label.content := by
        obtain ⟨⟨type, name, content, properties⟩, children⟩ := node
        obtain rfl : type = .text := htype
        rfl
      have hfront' : 62 ∉ front ++ (escape node.label.content).bytes := by
        rw [List.mem_append, not_or]
        exact ⟨hfront, hhead htype⟩
      have hrest := ih hnext hnext' hfront'
      rw [htext, ← List.append_assoc]
      refine hrest.trans ?_
      simp [htype]
    · -- A name stands between two bytes that the delimiter does not have.
      have hname : (serialise escape node).bytes = 38 :: (node.label.name.bytes ++ [59]) := by
        obtain ⟨⟨type, name, content, properties⟩, children⟩ := node
        obtain rfl : type = .entityRef := htype
        rfl
      have hrest := @ih hnext hnext' [] List.not_mem_nil
      rw [List.nil_append] at hrest
      rw [hname, List.cons_append, List.append_assoc, List.singleton_append,
        infix_append_cons_iff (by decide) (by decide),
        infix_append_cons_iff (by decide) (by decide), not_or, not_or]
      refine (and_congr_right' (and_congr_right' hrest)).trans ?_
      simp [htype, hgreater hfront]

variable {address document : CString}

theorem WrittenAs.delimits_iff (h : WrittenAs lib escape address num document) :
    Delimits document.bytes ↔ Undelimited lib address := by
  obtain ⟨front, back, hfront, hback, htext⟩ :=
    @documentText_around lib escape (some address) num _ rfl
  have hcontent : ¬ endOfMessage.bytes <:+:
      (serialiseAll escape (contentNodes lib (some address))).bytes ↔ Undelimited lib address :=
    @serialiseAll_undelimited_iff escape _ h.nodes h.escaped [] List.not_mem_nil
  rw [← hcontent]
  rcases h.text with heq | heq
  · have hback' : 93 ∉ back ++ [10] := by simpa using hback
    rw [heq, htext, ← Networking.delimits_iff hfront hback']
    simp
  · have hsame : document.bytes =
        front ++ ((serialiseAll escape (contentNodes lib (some address))).bytes ++ 60 :: back) := by
      have hbytes := congrArg CString.bytes heq
      rw [bytes_append, htext] at hbytes
      exact List.append_cancel_right hbytes
    rw [hsame, ← Networking.delimits_iff hfront hback]

/-! ## The output buffer -/

/-- The writes of `create_netconf_response_4` to the block that `malloc` gave it. -/
def fillOutput (output : List UInt8) (xmlBuff : CString) (buffersize : ℕ) : Exec (List UInt8) := do
  let output ← strncpy output xmlBuff buffersize
  let output ← strcpy output buffersize endOfMessage
  store output (buffersize + 6) 0

/-- Whatever the block held, it is filled with the document, the delimiter and one NUL. -/
theorem fillOutput_yields (document : CString) (output : List UInt8)
    (h : output.length = document.bytes.length + 1 + 6) :
    Yields (fillOutput output document document.bytes.length) (document ++ endOfMessage).toBlock := by
  obtain ⟨block, rest, rfl, hblock⟩ : ∃ block rest, output = block ++ rest ∧
      block.length = document.bytes.length :=
    ⟨output.take document.bytes.length, output.drop document.bytes.length,
      (List.take_append_drop _ _).symm, by simp [h, Nat.add_assoc]⟩
  have hend : endOfMessage.bytes.length = 6 := by decide
  have hrest : rest.length = endOfMessage.toBlock.length := by
    rw [toBlock, List.length_append, hend]
    rw [List.length_append] at h
    simp only [List.length_singleton]
    omega
  have hstrcpy := strcpy_yields endOfMessage document.bytes rest [] hrest
  rw [List.append_nil, List.append_nil] at hstrcpy
  have hstore := store_yields (document ++ endOfMessage).bytes [] 0 0
  rw [bytes_append, List.length_append, hend, List.append_assoc] at hstore
  have hblock' : (document ++ endOfMessage).toBlock =
      document.bytes ++ (endOfMessage.bytes ++ [0]) := by
    rw [toBlock, bytes_append, List.append_assoc]
  rw [hblock']
  exact (strncpy_yields document block rest hblock).bind (hstrcpy.bind hstore)

/-! ## Its own decoder -/

/-- The reply `o` is the document and one delimiter, and whatever text follows it, `parse_xml`
passes just the document to the parser. -/
structure FramedAs (document o : CString) : Prop where
  whole : o = document ++ endOfMessage
  once : ∀ k, endOfMessage.bytes <+: o.bytes.drop k ↔ k = document.bytes.length
  decoded : ∀ r : CString, cutAtDelimiter (o ++ r) = document ∧
    ∀ parser : Libxml2, Yields (parseXml parser (o ++ r))
      (match parser.xmlReadMemory document with
        | none => (none, -1)
        | some d => (some d, 1))

theorem framedAs_iff : FramedAs document (document ++ endOfMessage) ↔ Delimits document.bytes := by
  constructor
  · intro h
    exact h.once
  · intro h
    refine ⟨rfl, h, fun r => ?_⟩
    have hcut : cutAtDelimiter (document ++ endOfMessage ++ r) = document := by
      apply CString.ext
      rw [cutAtDelimiter]
      dsimp only
      rw [bytes_append, bytes_append, List.append_assoc]
      exact h.before_delimiter r.bytes
    refine ⟨hcut, fun parser => ?_⟩
    have hparse := parseXml_yields parser (document ++ endOfMessage ++ r)
    rw [hcut] at hparse
    exact hparse

/-- A data reply is the serialised document and a delimiter, as the copies put them together. It is
framed by that delimiter exactly when no reference read out of the address has one in its name. -/
theorem data_reply_framed_iff
    (hserialised : lib.xmlDocDumpFormatMemory
      (responseDocument lib (some address) (decimalString num)) = some document)
    (hwritten : WrittenAs lib escape address num document) :
    ∃ o, Yields (do
        let msgNum ← intToStr num
        createNetconfResponse4 lib (some address) msgNum) o ∧
      o = document ++ endOfMessage ∧
      (∀ output : List UInt8, output.length = document.bytes.length + 1 + 6 →
        Yields (fillOutput output document document.bytes.length) o.toBlock) ∧
      (FramedAs document o ↔ Undelimited lib address) := by
  have htext : dataText lib (some address) (decimalString num) = .ok (document ++ endOfMessage) :=
    dataText_eq_ok.mpr ⟨document, hserialised, rfl⟩
  have hcreate : Yields (createNetconfResponse4 lib (some address) (decimalString num))
      (document ++ endOfMessage) := by
    rw [Yields, createNetconfResponse4_eq, htext]
    rfl
  refine ⟨document ++ endOfMessage, (intToStr_yields num).bind hcreate, rfl,
    fillOutput_yields document, ?_⟩
  rw [framedAs_iff, hwritten.delimits_iff]

/-- The address is the delimiter itself, and another one follows the reply. -/
theorem data_reply_framed_iff_sample :
    ∃ document o, (tableLibxml2 []).xmlDocDumpFormatMemory
        (responseDocument (tableLibxml2 []) (some endOfMessage) (decimalString 1)) = some document ∧
      Yields (do
        let msgNum ← intToStr 1
        createNetconfResponse4 (tableLibxml2 []) (some endOfMessage) msgNum) o ∧
      cutAtDelimiter (o ++ endOfMessage) = document := by
  have hwritten : WrittenAs (tableLibxml2 []) escapeText endOfMessage 1
      (documentText escapeText
        (responseDocument (tableLibxml2 []) (some endOfMessage) (decimalString 1))) :=
    ⟨.inl rfl, tableLibxml2_readsContent [] _, fun _ _ _ => greater_notMem_escapeText _⟩
  have hundelimited : Undelimited (tableLibxml2 []) endOfMessage := by
    intro node hnode htype
    obtain rfl : node = .text endOfMessage := List.mem_singleton.mp hnode
    cases htype
  obtain ⟨o, hcreate, -, -, hiff⟩ := data_reply_framed_iff rfl hwritten
  exact ⟨_, o, rfl, hcreate, ((hiff.mpr hundelimited).decoded endOfMessage).1⟩

/-- A library that reads the one reference in `&name;` and takes any other content for text. -/
def referringLibxml2 (name : CString) : Libxml2 where
  xmlReadMemory _ := none
  xmlStringGetNodeList content :=
    if content = lit "&" ++ name ++ lit ";" then [.node ⟨.entityRef, name, .empty, []⟩ []]
    else [.text content]
  xmlDocDumpFormatMemory root := some (documentText escapeText root)

/-- A reference with the delimiter for a name, which a client writes as `&amp;]]&gt;]]&gt;;`. -/
def delimiterReference : CString := lit "&]]>]]>;"

/-- The delimiter is written into the document, and `parse_xml` cuts the reply there. -/
theorem delimiter_reference_cut :
    XmlText delimiterReference ∧ ∃ document,
      (referringLibxml2 endOfMessage).xmlDocDumpFormatMemory (responseDocument
        (referringLibxml2 endOfMessage) (some delimiterReference) (decimalString 1)) =
          some document ∧
      WrittenAs (referringLibxml2 endOfMessage) escapeText delimiterReference 1 document ∧
      Yields (do
        let msgNum ← intToStr 1
        createNetconfResponse4 (referringLibxml2 endOfMessage) (some delimiterReference) msgNum)
        (document ++ endOfMessage) ∧
      cutAtDelimiter (document ++ endOfMessage) ≠ document ∧
      ¬ FramedAs document (document ++ endOfMessage) := by
  have hreference : delimiterReference = lit "&" ++ endOfMessage ++ lit ";" := by decide
  have hlist : (referringLibxml2 endOfMessage).xmlStringGetNodeList delimiterReference =
      [.node ⟨.entityRef, endOfMessage, .empty, []⟩ []] := by
    rw [referringLibxml2]
    dsimp only
    rw [if_pos hreference]
  have hcut : cutAtDelimiter (documentText escapeText (responseDocument
      (referringLibxml2 endOfMessage) (some delimiterReference) (decimalString 1)) ++
        endOfMessage) ≠ documentText escapeText (responseDocument
      (referringLibxml2 endOfMessage) (some delimiterReference) (decimalString 1)) := by
    decide +kernel
  have hwritten : WrittenAs (referringLibxml2 endOfMessage) escapeText delimiterReference 1
      (documentText escapeText (responseDocument (referringLibxml2 endOfMessage)
        (some delimiterReference) (decimalString 1))) := by
    refine ⟨.inl rfl, ?_, ?_⟩
    · intro node hnode
      rw [hlist] at hnode
      obtain rfl := List.mem_singleton.mp hnode
      exact .inr rfl
    · intro node hnode htype
      rw [hlist] at hnode
      obtain rfl := List.mem_singleton.mp hnode
      cases htype
  refine ⟨⟨"&]]>]]>;", rfl, by simp [XmlChar]⟩, _, rfl, hwritten, ?_, hcut, ?_⟩
  · apply (intToStr_yields 1).bind
    rw [Yields, createNetconfResponse4_eq]
    rfl
  · rw [framedAs_iff, hwritten.delimits_iff]
    intro h
    apply h (.node ⟨.entityRef, endOfMessage, .empty, []⟩ []) (by simp [hlist]) rfl
    exact List.infix_rfl

end NetconfServer.Networking
