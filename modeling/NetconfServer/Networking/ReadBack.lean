import NetconfServer.Library.Markup
import NetconfServer.Networking.Delimiter
import NetconfServer.Networking.Device

/-! # Reading a stored value back

The stored value is the decoded text of the leaf, and `xmlNewChild` reads it as text with references
still in it. What follows of the reply holds for every value; the two readings agree on the values
without an ampersand.
-/

namespace NetconfServer.Networking
open Memory CString Library Parsing

/-! ## What is assumed of libxml2 -/

/-- A node below `IP_ADDRESS` as part of what its content was read as. -/
def pieces (node : XmlNode) : List Markup.Piece :=
  match node.label.type with
  | .text => node.label.content.bytes.map .byte
  | .entityRef => [.entity node.label.name.bytes]
  | _ => []

/-- `xmlNewChild` reads its content argument as text with references, and text that no entity
reference interrupts makes one node. -/
structure ReadsEscaped (lib : Libxml2) (content : CString) : Prop where
  flat : ∀ node ∈ lib.xmlStringGetNodeList content,
    (∃ s, node = .text s) ∨ node.label.type = .entityRef
  reads : Markup.Reads content.bytes ((lib.xmlStringGetNodeList content).flatMap pieces)
  joined : (∀ node ∈ lib.xmlStringGetNodeList content, node.label.type ≠ .entityRef) →
    (lib.xmlStringGetNodeList content).length ≤ 1

/-- A data reply around the text `d`, as the parser gives it: `xmlns` is no attribute there. -/
def reparsed (d : CString) (msgNum : CString) : XmlNode :=
  .element (lit "rpc-reply") [(lit "message-id", msgNum)] [.element (lit "data") [] [
    .element (lit "abcc") [] [.element (lit "attributes") [] [
      .element (lit "IP_ADDRESS") [] (if d = .empty then [] else [.text d])]]]]

/-- The nodes `nodes` are the text `d`. -/
def AreText (nodes : List XmlNode) (d : CString) : Prop :=
  nodes = [.text d] ∨ nodes = [] ∧ d = .empty

/-- The parser reads the reply around `address` as it was written: text of XML characters is read,
and read as that text; a reply that refers to an entity is no document, cut short or not, as
nothing declares the entity. -/
structure Reparses (lib : Libxml2) (escape : CString → CString) (address msgNum : CString) : Prop where
  text : ∀ d, lib.xmlStringGetNodeList address = [.text d] → d ≠ .empty → XmlText d →
    (lib.xmlReadMemory (documentText escape (responseDocument lib (some address) msgNum))).isSome
  only : ∀ d document, AreText (lib.xmlStringGetNodeList address) d →
    lib.xmlReadMemory (documentText escape (responseDocument lib (some address) msgNum)) =
      some document → document = .tree (reparsed d msgNum)
  undeclared : (∃ node ∈ lib.xmlStringGetNodeList address, node.label.type = .entityRef) →
    ∀ text : CString,
      text.bytes <+: (documentText escape (responseDocument lib (some address) msgNum)).bytes →
      lib.xmlReadMemory text = none

variable {lib : Libxml2} {escape : CString → CString} {v msgNum : CString}

theorem ReadsEscaped.ampersand (h : ReadsEscaped lib v)
    (hentity : ∃ node ∈ lib.xmlStringGetNodeList v, node.label.type = .entityRef) :
    38 ∈ v.bytes := by
  by_contra hamp
  obtain ⟨node, hnode, htype⟩ := hentity
  have hpiece : .entity node.label.name.bytes ∈ (lib.xmlStringGetNodeList v).flatMap pieces :=
    List.mem_flatMap.mpr ⟨node, hnode, by simp [pieces, htype]⟩
  rw [h.reads.eq_of_notMem hamp] at hpiece
  simp at hpiece

/-- A data reply with no ampersand in its address is framed. -/
theorem ReadsEscaped.undelimited (h : ReadsEscaped lib v) (hamp : 38 ∉ v.bytes) :
    Undelimited lib v :=
  fun node hnode htype => absurd (h.ampersand ⟨node, hnode, htype⟩) hamp

/-- Content is read as a text, which is shorter when a reference was in it, or refers to an entity. -/
theorem ReadsEscaped.cases (h : ReadsEscaped lib v) :
    (∃ node ∈ lib.xmlStringGetNodeList v, node.label.type = .entityRef) ∨
    ∃ d, AreText (lib.xmlStringGetNodeList v) d ∧
      (38 ∈ v.bytes → d.bytes.length < v.bytes.length) ∧ (38 ∉ v.bytes → d = v) := by
  by_cases hentity : ∃ node ∈ lib.xmlStringGetNodeList v, node.label.type = .entityRef
  · exact .inl hentity
  right
  have hnone : ∀ node ∈ lib.xmlStringGetNodeList v, node.label.type ≠ .entityRef :=
    fun node hnode htype => hentity ⟨node, hnode, htype⟩
  have htext : ∃ d, AreText (lib.xmlStringGetNodeList v) d ∧
      (lib.xmlStringGetNodeList v).flatMap pieces = d.bytes.map .byte := by
    have hlength := h.joined hnone
    cases hnodes : lib.xmlStringGetNodeList v with
    | nil => exact ⟨.empty, .inr ⟨rfl, rfl⟩, rfl⟩
    | cons node rest =>
      rw [hnodes] at hlength
      obtain rfl : rest = [] := List.length_eq_zero_iff.mp (by simpa using hlength)
      have hmem : node ∈ lib.xmlStringGetNodeList v := by simp [hnodes]
      rcases h.flat node hmem with ⟨d, rfl⟩ | htype
      · exact ⟨d, .inl rfl, by simp [pieces, XmlNode.text]⟩
      · exact absurd htype (hnone node hmem)
  obtain ⟨d, hd, hpieces⟩ := htext
  refine ⟨d, hd, (h.reads.length_le hpieces).2, fun hamp => ?_⟩
  have hinj : Function.Injective Markup.Piece.byte := fun a b hab => by cases hab; rfl
  apply CString.ext
  apply List.map_injective_iff.mpr hinj
  rw [← hpieces]
  exact h.reads.eq_of_notMem hamp

/-! ## The end of the reply -/

/-- A reply around a text ends where `parse_xml` cuts it. -/
theorem cutAtDelimiter_reply {address d : CString} {num : ℤ}
    (hescape : EscapesGreater escape (lib.xmlStringGetNodeList address))
    (hd : AreText (lib.xmlStringGetNodeList address) d) :
    cutAtDelimiter (documentText escape
        (responseDocument lib (some address) (decimalString num)) ++ endOfMessage) =
      documentText escape (responseDocument lib (some address) (decimalString num)) := by
  have hnodes : ∀ node ∈ lib.xmlStringGetNodeList address, node.label.type = .text := by
    intro node hnode
    rcases hd with htext | ⟨hnil, -⟩
    · rw [htext] at hnode
      obtain rfl := List.mem_singleton.mp hnode
      rfl
    · rw [hnil] at hnode
      cases hnode
  have hwritten : WrittenAs lib escape address num (documentText escape
      (responseDocument lib (some address) (decimalString num))) :=
    ⟨.inl rfl, fun node hnode => .inl (hnodes node hnode), hescape⟩
  have hundelimited : Undelimited lib address := by
    intro node hnode htype
    rw [hnodes node hnode] at htype
    cases htype
  have hcut := (hwritten.delimits_iff.mpr hundelimited).before_delimiter []
  rw [List.append_nil] at hcut
  exact CString.ext hcut

/-! ## The value of the reply -/

theorem firstValue_reparsed (d msgNum : CString) :
    firstValue (lit "IP_ADDRESS") (recorded (reparsed d msgNum)) = some d := by
  rw [reparsed]
  split_ifs with h
  · subst h
    rfl
  · rfl

/-- Parsed and walked again, a text has the value `v` for the key `IP_ADDRESS`. -/
def ReadsValue (lib : Libxml2) (text v : CString) : Prop :=
  ∃ root array, Yields (parseXml lib text) (some (.tree root), 1) ∧
    Yields (walked root) (some array, 0) ∧
    Yields (getValue array (lit "IP_ADDRESS") none) (some v.toBlock, SUCCESS)

theorem toBlock_injective : Function.Injective toBlock := by
  intro a b h
  have hblock := congrArg ofBuffer h
  rwa [ofBuffer_toBlock, ofBuffer_toBlock] at hblock

theorem readsValue_iff {text : CString} :
    ReadsValue lib text v ↔ ∃ root, lib.xmlReadMemory (cutAtDelimiter text) = some (.tree root) ∧
      firstValue (lit "IP_ADDRESS") (recorded root) = some v := by
  have hparse := parseXml_yields lib text
  have hvalue (root : XmlNode) : Yields (getValue (requestArray root) (lit "IP_ADDRESS") none)
      (some v.toBlock, SUCCESS) ↔ firstValue (lit "IP_ADDRESS") (recorded root) = some v := by
    have hget := @getValue_yields 10 (.set (some root.label.name)) (recorded root)
      (lit "IP_ADDRESS") none
    rw [firstValue]
    constructor
    · intro h
      have heq := hget.unique h
      cases hfind : (recorded root).find? (·.key = lit "IP_ADDRESS") with
      | none => simp [hfind] at heq
      | some e =>
        rw [hfind] at heq
        simp only [Prod.mk.injEq, Option.some.injEq, and_true] at heq
        rw [Option.map_some, toBlock_injective heq]
    · intro h
      obtain ⟨e, hfind, rfl⟩ := Option.map_eq_some_iff.mp h
      rw [hfind] at hget
      exact hget
  constructor
  · rintro ⟨root, array, hroot, harray, hread⟩
    have hresult := hparse.unique hroot
    cases hdocument : lib.xmlReadMemory (cutAtDelimiter text) with
    | none => simp [hdocument] at hresult
    | some document =>
      rw [hdocument] at hresult
      obtain rfl : document = .tree root := by simpa using hresult
      obtain rfl : requestArray root = array := by
        simpa using (walked_yields root).unique harray
      exact ⟨root, rfl, (hvalue root).mp hread⟩
  · rintro ⟨root, hdocument, hread⟩
    rw [hdocument] at hparse
    exact ⟨root, requestArray root, hparse, walked_yields root, (hvalue root).mpr hread⟩

/-- When a stored value reads back as itself: it has no ampersand. -/
theorem value_reads_back_iff (hwrites : lib.Writes escape)
    (hescape : EscapesGreater escape (lib.xmlStringGetNodeList v))
    {root : XmlNode} (hstored : writtenAddress root = some v) (hv : v ≠ .empty) (htext : XmlText v)
    {num : ℤ} (hcontent : ReadsEscaped lib v)
    (hreparses : Reparses lib escape v (decimalString num)) (device : Abcc) :
    ∃ text, Yields (createNetconfResponse4 lib ((answerTo root).update device).ipAddress
        (decimalString num)) text ∧
      (ReadsValue lib text v ↔ 38 ∉ v.bytes) := by
  have haddress : ((answerTo root).update device).ipAddress = some v := by
    rw [update_ipAddress, hstored, Option.some_or]
  rw [haddress]
  refine ⟨documentText escape (responseDocument lib (some v) (decimalString num)) ++ endOfMessage,
    ?_, ?_⟩
  · rw [Yields, createNetconfResponse4_eq, dataText, hwrites]
    rfl
  rw [readsValue_iff]
  rcases hcontent.cases with hentity | ⟨d, hd, hshort, hsame⟩
  · have hnone : lib.xmlReadMemory (cutAtDelimiter (documentText escape
        (responseDocument lib (some v) (decimalString num)) ++ endOfMessage)) = none := by
      apply hreparses.undeclared hentity
      have hprefix := before_append_isPrefix endOfMessage.bytes
        (documentText escape (responseDocument lib (some v) (decimalString num))).bytes []
      rw [List.append_nil] at hprefix
      exact hprefix
    simp [hnone, hcontent.ampersand hentity]
  · rw [cutAtDelimiter_reply hescape hd]
    constructor
    · rintro ⟨root', hdocument, hvalue⟩ hamp
      have htree := hreparses.only d _ hd hdocument
      cases htree
      rw [firstValue_reparsed] at hvalue
      have hlt := hshort hamp
      rw [Option.some.inj hvalue] at hlt
      exact lt_irrefl _ hlt
    · intro hamp
      obtain rfl := hsame hamp
      have hnodes : lib.xmlStringGetNodeList d = [.text d] := by
        rcases hd with hnodes | ⟨-, hempty⟩
        · exact hnodes
        · exact absurd hempty hv
      obtain ⟨document, hdocument⟩ := Option.isSome_iff_exists.mp (hreparses.text d hnodes hv htext)
      obtain rfl := hreparses.only d document hd hdocument
      exact ⟨_, hdocument, firstValue_reparsed d _⟩

/-- A library that reads the content of the address as `d` and knows the reply around it. -/
def readingLibxml2 (d : CString) : Libxml2 where
  xmlReadMemory text :=
    if text = documentText escapeText (responseDocument (tableLibxml2 []) (some d) (decimalString 1))
    then some (.tree (reparsed d (decimalString 1)))
    else none
  xmlStringGetNodeList _ := [.text d]
  xmlDocDumpFormatMemory root := some (documentText escapeText root)

/-- It reads the reply around any address as one around `d`. -/
theorem readingLibxml2_read (d address : CString) :
    (readingLibxml2 d).xmlReadMemory (documentText escapeText
      (responseDocument (readingLibxml2 d) (some address) (decimalString 1))) =
      some (.tree (reparsed d (decimalString 1))) := by
  have hcontent : contentNodes (readingLibxml2 d) (some address) =
      contentNodes (tableLibxml2 []) (some d) := rfl
  have hdocument : responseDocument (readingLibxml2 d) (some address) (decimalString 1) =
      responseDocument (tableLibxml2 []) (some d) (decimalString 1) := by
    rw [responseDocument, responseDocument, hcontent]
  rw [hdocument, readingLibxml2]
  dsimp only
  rw [if_pos rfl]

theorem readingLibxml2_reparses (d address : CString) :
    Reparses (readingLibxml2 d) escapeText address (decimalString 1) where
  text _ _ _ _ := by
    rw [readingLibxml2_read]
    rfl
  only d' document hd hread := by
    have hd' : d' = d := by
      rcases hd with hnodes | ⟨hnodes, -⟩
      · cases hnodes
        rfl
      · cases hnodes
    rw [readingLibxml2_read] at hread
    rw [hd']
    exact (Option.some.inj hread).symm
  undeclared := by
    rintro ⟨node, hnode, htype⟩
    obtain rfl : node = .text d := List.mem_singleton.mp hnode
    cases htype

theorem readingLibxml2_readsEscaped {d content : CString}
    (hreads : Markup.Reads content.bytes (d.bytes.map .byte)) :
    ReadsEscaped (readingLibxml2 d) content where
  flat node hnode := .inl ⟨d, List.mem_singleton.mp hnode⟩
  reads := by simpa [readingLibxml2, pieces, XmlNode.text] using hreads
  joined _ := le_refl 1

theorem value_reads_back_iff_sample :
    ∃ text, Yields (createNetconfResponse4 (readingLibxml2 sampleAddress) (some sampleAddress)
        (decimalString 1)) text ∧
      ReadsValue (readingLibxml2 sampleAddress) text sampleAddress := by
  have hcontent := readingLibxml2_readsEscaped
    (Markup.reads_of_notMem (c := sampleAddress.bytes) (by decide))
  have hstored : writtenAddress (sampleEdit sampleAddress) = some sampleAddress := by decide
  have hwrites : (readingLibxml2 sampleAddress).Writes escapeText := fun _ _ => rfl
  obtain ⟨text, htext, hiff⟩ := value_reads_back_iff hwrites
    (fun _ _ _ => greater_notMem_escapeText _) hstored
    (by decide) ⟨"10.0.0.7", rfl, by simp [XmlChar]⟩ hcontent (readingLibxml2_reparses _ _)
    ⟨some initialAddress⟩
  exact ⟨text, htext, hiff.mpr (by decide)⟩

/-- The text `&lt;`, which a client writes as `&amp;lt;`. -/
def referenceText : CString := lit "&lt;"

/-- It is stored, and read back as `<`. -/
theorem reference_not_read_back :
    writtenAddress (sampleEdit referenceText) = some referenceText ∧ referenceText ≠ .empty ∧
    XmlText referenceText ∧ ReadsEscaped (readingLibxml2 (lit "<")) referenceText ∧
    Reparses (readingLibxml2 (lit "<")) escapeText referenceText (decimalString 1) ∧
    ∃ text, Yields (createNetconfResponse4 (readingLibxml2 (lit "<")) (some referenceText)
        (decimalString 1)) text ∧
      ¬ ReadsValue (readingLibxml2 (lit "<")) text referenceText := by
  refine ⟨by decide, by decide, ⟨"&lt;", rfl, by simp [XmlChar]⟩, ?_, readingLibxml2_reparses _ _,
    documentText escapeText (responseDocument (readingLibxml2 (lit "<")) (some referenceText)
      (decimalString 1)) ++ endOfMessage, ?_, ?_⟩
  · have hshort : (lit "<").bytes.length ≤ (lit "lt;").bytes.length := by decide
    exact readingLibxml2_readsEscaped (.character hshort .nil)
  · rw [Yields, createNetconfResponse4_eq, dataText]
    rfl
  · rw [readsValue_iff, cutAtDelimiter_reply (d := lit "<") (fun _ _ _ => greater_notMem_escapeText _)
      (.inl rfl)]
    rintro ⟨root, hread, hvalue⟩
    have htree := (readingLibxml2_reparses (lit "<") referenceText).only _ _ (.inl rfl) hread
    cases htree
    rw [firstValue_reparsed] at hvalue
    exact absurd (Option.some.inj hvalue) (by decide)

end NetconfServer.Networking
