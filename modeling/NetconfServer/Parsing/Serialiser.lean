import NetconfServer.Parsing.Request

/-! # The text of a document

XML syntax for the nodes a reply is made of, with the escaping of text as a parameter. What a
theorem assumes of the serialiser is that it writes this text.
-/

namespace NetconfServer.Parsing
open Memory CString Library

def xmlDeclaration : CString := lit "<?xml version=\"1.0\"?>\n"

def attributeText (property : CString × CString) : CString :=
  lit " " ++ property.1 ++ lit "=\"" ++ property.2 ++ lit "\""

section Serialise
variable (escape : CString → CString)

mutual

def serialise : XmlNode → CString
  | .node data children =>
    match data.type with
    | .element =>
      let tag := data.name ++ (data.properties.map attributeText).foldr (· ++ ·) .empty
      if children.isEmpty then lit "<" ++ tag ++ lit "/>"
      else lit "<" ++ tag ++ lit ">" ++ serialiseAll children ++ lit "</" ++ data.name ++ lit ">"
    | .text => escape data.content
    | .cdata => lit "<![CDATA[" ++ data.content ++ lit "]]>"
    | .entityRef => lit "&" ++ data.name ++ lit ";"
    | .entityDecl => .empty
    | .pi => lit "<?" ++ data.name ++ lit " " ++ data.content ++ lit "?>"
    | .comment => lit "<!--" ++ data.content ++ lit "-->"

def serialiseAll : List XmlNode → CString
  | [] => .empty
  | node :: next => serialise node ++ serialiseAll next

end

def documentText (root : XmlNode) : CString := xmlDeclaration ++ serialise escape root ++ lit "\n"

end Serialise

theorem serialise_element_nil (escape : CString → CString) (name : CString) :
    serialise escape (.element name [] []) = lit "<" ++ name ++ lit "/>" := by
  apply CString.ext
  simp [XmlNode.element, serialise]

theorem serialise_element_cons (escape : CString → CString) (name : CString) (node : XmlNode)
    (next : List XmlNode) :
    serialise escape (.element name [] (node :: next)) =
      lit "<" ++ name ++ lit ">" ++ serialiseAll escape (node :: next) ++
        (lit "</" ++ name ++ lit ">") := by
  apply CString.ext
  simp [XmlNode.element, serialise]

/-- The serialiser never runs out of memory. -/
def Libxml2.Allocates (lib : Libxml2) : Prop :=
  ∀ root, (lib.xmlDocDumpFormatMemory root).isSome

/-- The serialiser writes the documents of `create_netconf_response_4` as XML text. -/
def Libxml2.Writes (lib : Libxml2) (escape : CString → CString) : Prop :=
  ∀ (ipAdr : Option CString) (num : ℤ),
    lib.xmlDocDumpFormatMemory (responseDocument lib ipAdr (decimalString num)) =
      some (documentText escape (responseDocument lib ipAdr (decimalString num)))

/-- A data reply up to the message number. -/
def responseHead : CString :=
  xmlDeclaration ++ lit "<" ++ lit "rpc-reply" ++
    attributeText (lit "xmlns", lit "urn:ietf:params:xml:ns:netconf:base:1.0") ++
    lit " " ++ lit "message-id" ++ lit "=\""

/-- Between the message number and the `IP_ADDRESS` element. -/
def responseOpen : CString :=
  lit "\"" ++ lit ">" ++ lit "<" ++ lit "data" ++ lit ">" ++
    lit "<" ++ lit "abcc" ++ attributeText (lit "xmlns", lit "urn:hms:abcc") ++ lit ">" ++
    lit "<" ++ lit "attributes" ++ lit ">"

/-- After the `IP_ADDRESS` element. -/
def responseClose : CString :=
  lit "</" ++ lit "attributes" ++ lit ">" ++ lit "</" ++ lit "abcc" ++ lit ">" ++
    lit "</" ++ lit "data" ++ lit ">" ++ lit "</" ++ lit "rpc-reply" ++ lit ">" ++ lit "\n"

/-- The text of a data reply: fixed markup around the message number and the address. -/
theorem documentText_response (escape : CString → CString) (lib : Libxml2)
    (ipAdr : Option CString) (msgNum : CString) :
    documentText escape (responseDocument lib ipAdr msgNum) =
      responseHead ++ msgNum ++ responseOpen ++
        serialise escape (.element (lit "IP_ADDRESS") [] (contentNodes lib ipAdr)) ++
        responseClose := by
  rw [documentText, responseDocument]
  generalize XmlNode.element (lit "IP_ADDRESS") [] (contentNodes lib ipAdr) = address
  apply CString.ext
  simp [XmlNode.element, serialise, serialiseAll, attributeText, responseHead, responseOpen,
    responseClose]

theorem dataText_of_writes {lib : Libxml2} {escape : CString → CString} (h : lib.Writes escape)
    (ipAdr : Option CString) (num : ℤ) :
    dataText lib ipAdr (decimalString num) =
      .ok (responseHead ++ decimalString num ++ responseOpen ++
        serialise escape (.element (lit "IP_ADDRESS") [] (contentNodes lib ipAdr)) ++
        responseClose ++ endOfMessage) := by
  rw [dataText, h, documentText_response]

/-- `xmlNewChild` makes text and entity references of its content argument, nothing else. -/
def Libxml2.ReadsContent (lib : Libxml2) : Prop :=
  ∀ content, ∀ node ∈ lib.xmlStringGetNodeList content,
    node.label.type = .text ∨ node.label.type = .entityRef

/-! ## XML text -/

/-- The production `Char` of XML; a `Char` is no surrogate. -/
def XmlChar (c : Char) : Prop :=
  c.toNat = 9 ∨ c.toNat = 10 ∨ c.toNat = 13 ∨ 0x20 ≤ c.toNat ∧ c.toNat ≠ 0xFFFE ∧ c.toNat ≠ 0xFFFF

instance (c : Char) : Decidable (XmlChar c) := inferInstanceAs (Decidable (_ ∨ _ ∨ _ ∨ _))

def XmlText (s : CString) : Prop := ∃ t : String, s.bytes = utf8 t ∧ ∀ c ∈ t.toList, XmlChar c

/-! ## A library for concrete runs -/

def escapeByte (b : UInt8) : List UInt8 :=
  if b = 60 then [38, 108, 116, 59]
  else if b = 62 then [38, 103, 116, 59]
  else if b = 38 then [38, 97, 109, 112, 59]
  else if b = 13 then [38, 35, 120, 68, 59]
  else [b]

theorem escapeByte_noNul {b : UInt8} (h : b ≠ 0) : 0 ∉ escapeByte b := by
  rw [escapeByte]
  split_ifs
  · decide
  · decide
  · decide
  · decide
  · simpa using h.symm

/-- The escaping of text without bytes beyond ASCII. -/
def escapeText (s : CString) : CString :=
  ⟨s.bytes.flatMap escapeByte, by
    simp only [List.mem_flatMap, not_exists, not_and]
    intro b hb
    exact escapeByte_noNul fun he => s.noNul (he ▸ hb)⟩

theorem escapeText_length (s : CString) : s.bytes.length ≤ (escapeText s).bytes.length := by
  have hbyte (b : UInt8) : 1 ≤ (escapeByte b).length := by
    rw [escapeByte]
    split_ifs <;> simp
  rw [escapeText]
  dsimp only
  induction s.bytes with
  | nil => exact le_refl 0
  | cons b rest ih =>
    rw [List.flatMap_cons, List.length_append, List.length_cons, Nat.add_comm]
    exact Nat.add_le_add (hbyte b) ih

/-- A parser that knows the listed documents, a reader for content without references, and the
serialiser above. -/
def tableLibxml2 (documents : List (CString × XmlNode)) : Libxml2 where
  xmlReadMemory text := (documents.find? (·.1 = text)).map fun d => .tree d.2
  xmlStringGetNodeList content := [.text content]
  xmlDocDumpFormatMemory root := some (documentText escapeText root)

theorem greater_notMem_escapeText (s : CString) : 62 ∉ (escapeText s).bytes := by
  have hbyte (b : UInt8) : 62 ∉ escapeByte b := by
    rw [escapeByte]
    split_ifs with hlt hgt hamp hcr
    · decide
    · decide
    · decide
    · decide
    · simpa using fun h => hgt h.symm
  simp [escapeText, hbyte]

theorem percent_mem_escapeText (s : CString) : 37 ∈ (escapeText s).bytes ↔ 37 ∈ s.bytes := by
  have hbyte (b : UInt8) : 37 ∈ escapeByte b ↔ b = 37 := by
    rw [escapeByte]
    split_ifs with hlt hgt hamp hcr
    · subst hlt
      decide
    · subst hgt
      decide
    · subst hamp
      decide
    · subst hcr
      decide
    · simp [eq_comm]
  simp [escapeText, List.mem_flatMap, hbyte]

theorem tableLibxml2_accepts {documents : List (CString × XmlNode)} {text : CString}
    (h : ((tableLibxml2 documents).xmlReadMemory text).isSome) : text ∈ documents.map Prod.fst := by
  rw [tableLibxml2, Option.isSome_map] at h
  obtain ⟨document, hdocument⟩ := Option.isSome_iff_exists.mp h
  have hmem := List.mem_map_of_mem (f := Prod.fst) (List.mem_of_find?_eq_some hdocument)
  have htext : document.1 = text := by simpa using List.find?_some hdocument
  exact htext ▸ hmem

theorem tableLibxml2_allocates (documents : List (CString × XmlNode)) :
    (tableLibxml2 documents).Allocates := fun _ => rfl

theorem tableLibxml2_readsContent (documents : List (CString × XmlNode)) :
    (tableLibxml2 documents).ReadsContent := by
  intro content node hnode
  obtain rfl : node = .text content := List.mem_singleton.mp hnode
  exact .inl rfl

theorem tableLibxml2_writes (documents : List (CString × XmlNode)) :
    (tableLibxml2 documents).Writes escapeText := fun _ _ => rfl

end NetconfServer.Parsing
