import NetconfServer.Networking.Server
import NetconfServer.Parsing.Nulls

/-! # What becomes of a message when memory is refused

A message makes three requests and two for each element before its reply is chosen. It is lived
through or it ends at a `NULL`; the reply to a message that is lived through is the reply that would
have been made with all memory granted.
-/

namespace NetconfServer.Networking
open Memory CString Library Parsing
variable {lib : Libxml2} {chunk : Chunk} {device : Abcc} {msgNum : Int8}

/-- The refusals that a message lives through, with `supply` from `init_key_value_array` on: the array
has its block if there is an element to store, every element without a text gets its block of one
byte, the name of the root and the key and the value of each of the first ten elements are copied, so
is the message number, and the text of a data reply is dumped and copied. -/
structure Lives (lib : Libxml2) (root : XmlNode) (device : Abcc) (msgNum : Int8) (supply : Supply) :
    Prop where
  walks : Walks (supply 0) (later supply 2) (elements root)
  requestType : supply 1 = true
  printed : ∀ j < 10, j < (elements root).length →
    supply (2 * j + 2) = true ∧ supply (2 * j + 3) = true
  number : supply (2 * (elements root).length + 2) = true
  reply : answerTo root = .data →
    CanCopy lib device (decimalString msgNum.toInt) (supply (2 * (elements root).length + 3))

section Message
variable {root : XmlNode} {supply : Supply}

/-- What is done after the walk. -/
def finish (lib : Libxml2) (device : Abcc) (msgNum : Int8) (array : KeyValuePairArray) :
    Exec (KeyValuePairArray × Reply × Abcc) := do
  let _ ← printAllNodes array
  let msgNumStr ← intToStr msgNum.toInt
  let (reply, device) ← createXmlReply lib array device msgNumStr
  return (array, reply, device)

/-- From `init_key_value_array` to the end of the walk. -/
theorem answerRequest_walks (h : Walks (supply 0) (later supply 2) (elements root)) :
    ∃ c : Contents 10, c.entries = (pairsOf (later supply 2) (elements root)).take 10 ∧
      answerRequest lib (some root) device msgNum supply =
        finish lib device msgNum (c.toArray (.set (if supply 1 then some root.label.name else none)))
          (later supply (2 * (elements root).length + 2)) := by
  obtain ⟨c, hentries, hwalk⟩ := @walk_at (later supply 2)
    (.set (if supply 1 then some root.label.name else none)) _ _ (by simp [elements]) h
  rw [later_later, Nat.add_comm 2] at hwalk
  have hcopy : later supply 1 0 = supply 1 := rfl
  have hprocess := @processXml_at _ .unset 10 (.fresh (supply 0)) root _ hcopy
  rw [later_later, hwalk] at hprocess
  refine ⟨c, hentries, ?_⟩
  rw [answerRequest, bind_of_ok (initKeyValueArray_at supply)]
  dsimp only
  rw [bind_of_ok hprocess]
  rfl

theorem answerRequest_null (h : ¬ Walks (supply 0) (later supply 2) (elements root)) :
    answerRequest lib (some root) device msgNum supply = .error .nullPointer := by
  have hwalk := @walk_null (later supply 2)
    (.set (if supply 1 then some root.label.name else none)) _ _ (by simp [elements]) h
  have hcopy : later supply 1 0 = supply 1 := rfl
  have hprocess := @processXml_at _ .unset 10 (.fresh (supply 0)) root _ hcopy
  rw [later_later, hwalk] at hprocess
  rw [answerRequest, bind_of_ok (initKeyValueArray_at supply)]
  exact bind_of_error hprocess

/-- What a message that is lived through leaves behind. -/
structure Handled (lib : Libxml2) (root : XmlNode) (device : Abcc) (msgNum : Int8)
    (array : KeyValuePairArray) (reply : Reply) (device' : Abcc) : Prop where
  array : ∃ (c : Contents 10) (copy : Option CString), array = c.toArray (.set copy)
  reply : (answerTo root).reply lib device (decimalString msgNum.toInt) = .ok reply
  device : (answerTo root).Applied device device'

theorem intToStr_at (num : ℤ) (supply : Supply) :
    intToStr num supply =
      if supply 0 then .ok (decimalString num, later supply 1) else .error .nullPointer := by
  rw [intToStr, bind_of_ok (malloc_eq supply)]
  cases supply 0 <;> rfl

/-- After a walk that lost nothing the number is copied and the answer is carried out. -/
theorem finish_intact {c : Contents 10} {copy : Option CString} (htype : copy = some root.label.name)
    (hentries : c.entries = (recorded root).map .ofEntry) (after : Supply) :
    finish lib device msgNum (c.toArray (.set copy)) after =
      (do
        let msgNumStr ← intToStr msgNum.toInt
        let (reply, device) ← (answerTo root).carryOut lib device msgNumStr
        return (c.toArray (.set copy), reply, device)) after := by
  have hintact : Intact c.entries := by
    intro kv hkv
    rw [hentries] at hkv
    obtain ⟨e, -, rfl⟩ := List.mem_map.mp hkv
    simp [KeyValuePair.ofEntry]
  have hstrings : Strings c.entries := by
    intro kv hkv block hblock
    rw [hentries] at hkv
    obtain ⟨e, -, rfl⟩ := List.mem_map.mp hkv
    cases hblock
    simp [toBlock]
  subst htype
  rw [finish, printAllNodes_intact hstrings hintact, pure_bind]
  simp only [createXmlReply_entries hentries]
  rfl

theorem answerRequest_at (lib : Libxml2) (root : XmlNode) (device : Abcc) (msgNum : Int8)
    (supply : Supply) :
    match answerRequest lib (some root) device msgNum supply with
    | .ok ((array, reply, device'), _) =>
      Lives lib root device msgNum supply ∧ Handled lib root device msgNum array reply device'
    | .error f => f = .nullPointer ∧ ¬ Lives lib root device msgNum supply := by
  by_cases hwalks : Walks (supply 0) (later supply 2) (elements root)
  · obtain ⟨c, hentries, hrequest⟩ := @answerRequest_walks lib device msgNum root supply hwalks
    have hprinted := @intact_of_written (later supply 2) (elements root) 10 hwalks.2
    have hstrings : Strings c.entries := by
      rw [hentries]
      exact strings_pairsOf _ _
    rw [← hentries] at hprinted
    rw [hrequest]
    by_cases hintact : supply 1 = true ∧ Intact c.entries
    · obtain ⟨htype, hintact⟩ := hintact
      have hrecorded : c.entries = (recorded root).map .ofEntry := by
        rw [hentries] at hintact ⊢
        rw [pairsOf_intact hintact, recorded]
      rw [finish_intact (if_pos htype) hrecorded]
      have hnumber := intToStr_at msgNum.toInt (later supply (2 * (elements root).length + 2))
      rw [later_apply, Nat.zero_add, later_later] at hnumber
      cases hgrant : supply (2 * (elements root).length + 2) with
      | false =>
        rw [hgrant] at hnumber
        rw [bind_of_error hnumber]
        exact ⟨rfl, fun hlives => by simp [hlives.number] at hgrant⟩
      | true =>
        rw [hgrant] at hnumber
        rw [bind_of_ok hnumber]
        have hanswer := carryOut_at (answerTo root) lib device (decimalString msgNum.toInt)
          (later supply (2 * (elements root).length + 3))
        rw [later_apply, Nat.zero_add] at hanswer
        dsimp only
        cases hcarry : (answerTo root).carryOut lib device (decimalString msgNum.toInt)
            (later supply (2 * (elements root).length + 3)) with
        | error f =>
          rw [hcarry] at hanswer
          rw [bind_of_error hcarry]
          exact ⟨hanswer.1, fun hlives => hanswer.2 hlives.reply⟩
        | ok r =>
          obtain ⟨⟨reply, device'⟩, after⟩ := r
          rw [hcarry] at hanswer
          obtain ⟨hcopy, hreply, happlied⟩ := hanswer
          rw [bind_of_ok hcarry]
          exact ⟨⟨hwalks, htype, hprinted.mp hintact, hgrant, hcopy⟩, ⟨c, _, rfl⟩, hreply, happlied⟩
    · have hlost : ¬ ((if supply 1 then some root.label.name else none) ≠ none ∧
          Intact c.entries) := by
        rintro ⟨htype, h⟩
        exact hintact ⟨by simpa using htype, h⟩
      rw [finish, printAllNodes_null hstrings hlost]
      exact ⟨rfl, fun hlives => hintact ⟨hlives.requestType, hprinted.mpr hlives.printed⟩⟩
  · rw [answerRequest_null hwalks]
    exact ⟨rfl, fun hlives => hwalks hlives.walks⟩

theorem parseXml_at (lib : Libxml2) (request : CString) (supply : Supply) :
    parseXml lib request supply =
      .ok (if supply 0 then
          match lib.xmlReadMemory (cutAtDelimiter request) with
          | none => (none, -1)
          | some document => (some document, 1)
        else (none, -1), later supply 1) := by
  rw [parseXml, bind_of_ok (strdup_eq request supply)]
  cases supply 0 with
  | false => rfl
  | true =>
    rw [if_pos rfl, if_pos rfl]
    dsimp only
    cases lib.xmlReadMemory (cutAtDelimiter request) <;> rfl

/-- What becomes of a read under any refusals. -/
theorem handleMessage_at (lib : Libxml2) (chunk : Chunk) (device : Abcc) (msgNum : Int8)
    (supply : Supply) :
    match handleMessage lib (.ofBuffer chunk.bytes) device msgNum supply with
    | .ok (none, _) => supply 0 = false ∨ documentOf lib chunk = none
    | .ok (some m, _) =>
      supply 0 = true ∧ documentOf lib chunk = some (.tree m.root) ∧
        Lives lib m.root device msgNum (later supply 1) ∧
        Handled lib m.root device msgNum m.array m.reply m.device
    | .error f => supply 0 = true ∧
      (documentOf lib chunk = some .endless ∧ f = .endlessRecursion ∨
        ∃ root, documentOf lib chunk = some (.tree root) ∧ f = .nullPointer ∧
          ¬ Lives lib root device msgNum (later supply 1)) := by
  have hparsed := parseXml_at lib (.ofBuffer chunk.bytes) supply
  cases hcopied : supply 0 with
  | false =>
    rw [hcopied, if_neg (by decide)] at hparsed
    rw [handleMessage, bind_of_ok hparsed]
    exact Or.inl rfl
  | true =>
    rw [hcopied, if_pos rfl] at hparsed
    rw [documentOf]
    cases hdocument : lib.xmlReadMemory (cutAtDelimiter (.ofBuffer chunk.bytes)) with
    | none =>
      rw [hdocument] at hparsed
      rw [handleMessage, bind_of_ok hparsed]
      exact Or.inr rfl
    | some document =>
      rw [hdocument] at hparsed
      have hderef : deref (some document) = pure document := rfl
      rw [handleMessage, bind_of_ok hparsed]
      dsimp only
      rw [if_neg (by decide), hderef, pure_bind]
      cases document with
      | endless => exact ⟨rfl, .inl ⟨rfl, rfl⟩⟩
      | tree root =>
        have hrequest := answerRequest_at lib root device msgNum (later supply 1)
        dsimp only
        cases hanswered : answerRequest lib (some root) device msgNum (later supply 1) with
        | error f =>
          rw [hanswered] at hrequest
          rw [bind_of_error hanswered]
          exact ⟨rfl, .inr ⟨root, rfl, hrequest⟩⟩
        | ok r =>
          rw [hanswered] at hrequest
          rw [bind_of_ok hanswered]
          exact ⟨rfl, rfl, hrequest⟩

end Message

end NetconfServer.Networking
