import NetconfServer.Parsing.Process
import NetconfServer.Parsing.StoredArray

/-! # A request in memory

`parse.c` with its pointers: the copy of the request, the document that the library makes of it, the
reply that is built and the buffers in between are blocks. A node lies in its document and is read
only while that is held.
-/

namespace NetconfServer.Parsing.Stored
open Memory CString Library Networking Program Assertion

structure NodePointer where
  document : ℕ
  node : XmlNode

def NodePointer.read (p : NodePointer) : Run Block XmlNode := do
  let _ ← loadAs Block.asDocument p.document
  return p.node

/-- The new `*document` and the return code. -/
def parseXml (lib : Libxml2) (request : CString) : Run Block (Address × ℤ) := do
  match ← strdup request with
  | none => return (none, -1)
  | some copy =>
    let text ← loadAs Block.asString copy
    store copy (.string (cutAtDelimiter text))
    let text ← loadAs Block.asString copy
    match lib.xmlReadMemory text with
    | none =>
      free (some copy)
      return (none, -1)
    | some d =>
      let document ← grant (.document d)
      free (some copy)
      return (some document, 1)

/-- The pair that `extract_xml` makes of an element. -/
def elementPair (node : XmlNode) : Run Block (KeyValuePair × ℤ) :=
  let value : Option CString := match node.children with
    | [] => none
    | child :: _ => if child.label.type = NodeType.text then some child.label.content else none
  match value with
  | none => initKeyValuePair node.label.name none 0
  | some content =>
    initKeyValuePair node.label.name (some content.toBlock) (content.bytes.length + 1)

def extractXml (p : NodePointer) (array : KeyValuePairArray) : Run Block KeyValuePairArray := do
  let node ← p.read
  if node.label.type = .element then
    let (kv, _) ← elementPair node
    let (array, _) ← addKeyValue array kv
    return array
  else return array

section Traverse
variable (xmlOperation : NodePointer → KeyValuePairArray → Run Block KeyValuePairArray) (d : ℕ)

mutual

def traverseXml : XmlNode → KeyValuePairArray → Run Block KeyValuePairArray
  | .node a children, array => do
    let _ ← NodePointer.read ⟨d, .node a children⟩
    traverseSiblings children array

/-- The loop along `next`, started at a node's `children`. -/
def traverseSiblings : List XmlNode → KeyValuePairArray → Run Block KeyValuePairArray
  | [], array => return array
  | child :: next, array => do
    let array ← xmlOperation ⟨d, child⟩ array
    let array ← traverseXml child array
    let _ ← NodePointer.read ⟨d, child⟩
    traverseSiblings next array

end

end Traverse

def processXml (array : Option KeyValuePairArray) (node : Option NodePointer) :
    Run Block (Option KeyValuePairArray × ℤ) := do
  match node, array with
  | some p, some array =>
    let node ← p.read
    if node.label.name = HELLO ∧ node.label.name = RPC then return (some array, -1)
    else
      let (array, _) ← setRequestType node.label.name array
      let array ← traverseXml extractXml p.document node array
      return (some array, 0)
  | _, array => return (array, -1)

def intToStr (num : ℤ) : Run Block ℕ := do
  let str ← allocate malloc (.raw ((decimalString num).bytes.length + 1))
  let str ← lift (deref str)
  store str (.string (decimalString num))
  return str

/-- The document and the serialised text are released, the output is not. -/
def createNetconfResponse4 (lib : Libxml2) (ipAdr : Address) (msgNum : ℕ) : Run Block ℕ := do
  let address ← followNullable Block.asString ipAdr
  let response := responseDocument lib address (← loadAs Block.asString msgNum)
  let doc ← grant (.document (.tree response))
  let text := lib.xmlDocDumpFormatMemory response
  let xmlBuff ← match text with
    | none => pure none
    | some text => some <$> grant (.string text)
  let output ← allocate malloc (.raw (text.elim 0 (·.bytes.length) + 1 + 6))
  let text ← follow Block.asString xmlBuff
  let output ← lift (deref output)
  store output (.string (text ++ endOfMessage))
  free xmlBuff
  free (some doc)
  return output

/-- The `char *` that `create_xml_reply` returns. -/
inductive ReplyPointer where
  | literal (reply : Reply)
  | block (p : ℕ)

def ReplyPointer.read : ReplyPointer → Run Block CString
  | literal reply => return reply.text
  | block p => loadAs Block.asString p

def selectOperation (array : KeyValuePairArray) : Run Block (Option Operation) := do
  if (← getKey array Operation.get.name) = SUCCESS then return some .get
  else if (← getKey array Operation.getSchema.name) = SUCCESS then return some .getSchema
  else if (← getKey array Operation.editConfig.name) = SUCCESS then return some .editConfig
  else if (← getKey array Operation.getConfig.name) = SUCCESS then return some .getConfig
  else return none

def rpcReply (lib : Libxml2) (array : KeyValuePairArray) (device : Abcc) (messageId : ℕ) :
    Option Operation → Run Block (ReplyPointer × Abcc)
  | some .get => do
    if (← getKey array (lit "netconf-state")) = SUCCESS then return (.literal .response2, device)
    else if (← getKey array (lit "modules-state")) = SUCCESS then
      return (.literal .response1, device)
    else
      let text ← createNetconfResponse4 lib device.ipAddress messageId
      return (.block text, device)
  | some .getSchema => return (.literal .response1, device)
  | some .editConfig => do
    if (← getKey array (lit "running")) ≠ SUCCESS then
      let text ← createNetconfResponse4 lib device.ipAddress messageId
      return (.block text, device)
    else
      let (value, _) ← getValue array (lit "IP_ADDRESS") none
      let (device, _) ← setIpAddress device value
      return (.literal .response6, device)
  | some .getConfig => return (.literal .response3, device)
  | none => return (.literal .empty, device)

def createXmlReply (lib : Libxml2) (array : KeyValuePairArray) (device : Abcc) (messageId : ℕ) :
    Run Block (ReplyPointer × Abcc) := do
  let requestType ← follow Block.asString (← lift array.requestType.read)
  if requestType = HELLO then return (.literal .hello, device)
  else if requestType = RPC then rpcReply lib array device messageId (← selectOperation array)
  else return (.literal .empty, device)

/-! ## The document -/

def documentAt (p : Address) (d : Option XmlDocument) : Assertion Block :=
  targetAt p (d.map .document)

variable {α γ : Type} {R : Assertion Block} {d : ℕ} {doc : XmlDocument}

theorem parseXml_simulates (lib : Libxml2) (request : CString) :
    Simulates R (parseXml lib request) (Parsing.parseXml lib request)
      fun a r => fact (a.2 = r.2 ∧ (r.2 = -1 → r.1 = none)) * (documentAt a.1 r.1 * R) := by
  rw [parseXml, Parsing.parseXml, strdup, Memory.strdup, bind_assoc]
  apply Simulates.allocate
  · intro copy
    rw [if_pos rfl, pure_bind]
    apply Simulates.loadAs (Block.asString_string request)
    apply Simulates.store
    apply Simulates.loadAs (Block.asString_string (cutAtDelimiter request))
    dsimp only
    cases lib.xmlReadMemory (cutAtDelimiter request) with
    | none =>
      apply Simulates.free
      exact .pure fun f hf => fact_mul.mpr ⟨⟨rfl, fun _ => rfl⟩, fact_mul.mpr ⟨rfl, hf⟩⟩
    | some document =>
      apply Simulates.grant
      intro p
      rw [mul_left_comm]
      apply Simulates.free
      exact .pure fun f hf => fact_mul.mpr ⟨⟨rfl, by simp⟩, targetAt_intro hf⟩
  · exact .pure fun f hf => fact_mul.mpr ⟨⟨rfl, fun _ => rfl⟩, fact_mul.mpr ⟨rfl, hf⟩⟩

theorem load_document :
    Simulates (cell d (Block.document doc) * R) (loadAs Block.asDocument d) (pure () : Exec Unit)
      fun a _ => fact (a = doc) * (cell d (Block.document doc) * R) := by
  rw [← bind_pure (loadAs _ _)]
  apply Simulates.loadAs (show Block.asDocument _ = some doc from rfl)
  exact .pure fun f hf => fact_mul.mpr ⟨rfl, hf⟩

theorem read_simulates (node : XmlNode) :
    Simulates (cell d (Block.document doc) * R) (NodePointer.read ⟨d, node⟩) (pure () : Exec Unit)
      fun a _ => fact (a = node) * (cell d (Block.document doc) * R) := by
  refine load_document.left fun _ => .fact fun _ => ?_
  exact .pure fun f hf => fact_mul.mpr ⟨rfl, hf⟩

theorem elementPair_simulates (node : XmlNode) :
    Simulates R (elementPair node) (Parsing.elementPair node)
      fun p r => fact (p.2 = r.2) * (pairAt p.1 r.1 * R) := by
  rw [elementPair, Parsing.elementPair]
  cases node.children with
  | nil => exact initKeyValuePair_simulates _ _ _
  | cons child next =>
    dsimp only
    split_ifs <;> exact initKeyValuePair_simulates _ _ _

theorem intToStr_simulates (num : ℤ) :
    Simulates R (intToStr num) (Parsing.intToStr num)
      fun p s => cell p (Block.string s) * R := by
  apply Simulates.allocate
  · intro p
    simp only [deref_some, lift_pure, pure_bind, if_true]
    apply Simulates.store
    exact .pure fun _ => id
  · exact .abort (fun _ _ => rfl) (fun _ => rfl)

/-- The reply is a block of its own; whatever else is granted for it is released. -/
theorem createNetconfResponse4_simulates (lib : Libxml2) (ipAdr : Address)
    (address : Option CString) (m : ℕ) (messageId : CString) :
    Simulates (stringAt ipAdr address * (cell m (Block.string messageId) * R))
      (createNetconfResponse4 lib ipAdr m)
      (Parsing.createNetconfResponse4 lib address messageId)
      fun p text => cell p (Block.string text) *
        (stringAt ipAdr address * (cell m (Block.string messageId) * R)) := by
  rw [createNetconfResponse4, Parsing.createNetconfResponse4]
  apply followNullable_target Block.asString_string
  rw [mul_left_comm]
  apply Simulates.loadAs (Block.asString_string messageId)
  rw [mul_left_comm]
  apply Simulates.grant
  intro doc
  cases hdump : lib.xmlDocDumpFormatMemory (responseDocument lib address messageId) with
  | none =>
    simp only [pure_bind]
    exact .abort (fun _ _ => allocate_stops (fun _ _ => rfl) _ _) fun _ => rfl
  | some text =>
    simp only [deref_some, pure_bind, map_eq_pure_bind, bind_assoc]
    apply Simulates.grant
    intro xmlBuff
    apply Simulates.allocate
    · intro output
      rw [mul_left_comm]
      simp only [follow_some, deref_some, lift_pure, pure_bind, if_true]
      apply Simulates.loadAs (Block.asString_string text)
      rw [mul_left_comm]
      apply Simulates.store
      rw [mul_left_comm]
      apply Simulates.free
      rw [mul_left_comm]
      apply Simulates.free
      exact .pure fun _ => id
    · simp only [follow_some]
      apply Simulates.loadAs (Block.asString_string text)
      exact .abort (fun _ _ => rfl) (fun _ => rfl)

/-! ## The walk -/

section Walk
variable {cap n : ℕ} {array : KeyValuePairArray} {rt : Cell (Option CString)} {counted : Prop}
  {es : List Entry} {r r' : Parsing.KeyValuePairArray} {s s' : Supply}

/-- The entries of the elements among the nodes. -/
def entriesOf (nodes : List XmlNode) : List Entry :=
  (nodes.filter (·.label.type = .element)).map entryOf

/-- A walk that met `es` with every request granted: the first of them are stored. -/
def Walked (counted : Prop) (cap : ℕ) (rt : Cell (Option CString)) (es : List Entry) (s : Supply)
    (r : Parsing.KeyValuePairArray) : Prop :=
  counted → s = .all ∧ r = entryArray cap (es.take cap) rt

theorem Walked.fold {nodes : List XmlNode} (h : Walked counted cap rt es s r)
    (hok : nodes.foldlM (fun array child => Parsing.extractXml child array) r s = .ok (r', s')) :
    Walked counted cap rt (es ++ entriesOf nodes) s' r' := by
  intro hcounted
  obtain ⟨rfl, rfl⟩ := h hcounted
  have hyields := @foldlM_extractXml cap (es.take cap) rt nodes (List.length_take_le _ _)
  rw [Yields, hok] at hyields
  cases hyields
  refine ⟨rfl, ?_⟩
  rw [List.take_append, List.take_append, List.take_take, Nat.min_self, List.length_take]
  congr 3
  omega

theorem Walked.step {node : XmlNode} (h : Walked counted cap rt es s r)
    (hok : Parsing.extractXml node r s = .ok (r', s')) :
    Walked counted cap rt (es ++ entriesOf [node]) s' r' := by
  apply h.fold
  simp only [List.foldlM_cons, List.foldlM_nil, bind_pure]
  exact hok

/-- The array and the document while a walk that met `es` goes on, beside the pairs it dropped. -/
def walkAt (counted : Prop) (cap n d : ℕ) (doc : XmlDocument) (rt : Cell (Option CString))
    (es : List Entry) (array : KeyValuePairArray) (r : Parsing.KeyValuePairArray) :
    Assertion Block :=
  ex fun c : Contents cap => fact (r = c.toArray rt) *
    (contentsAt array c rt *
      (cell d (.document doc) * garbage counted (n + 2 * (es.length - cap))))

theorem owns_pairAt (p : KeyValuePair) (e : Entry) : Owns (pairAt p (.ofEntry e)) 2 :=
  (owns_targetAt p.key (some (Block.string e.key))).mul
    (owns_targetAt p.value (some (Block.bytes e.value.toBlock)))

/-- A pair that finds the array full is lost with both its blocks. -/
theorem owns_dropped {e : Entry} {p : KeyValuePair} {a : Parsing.KeyValuePairArray × ℤ}
    (hadd : Parsing.addKeyValue (entryArray cap (es.take cap) rt) (.ofEntry e) .all = .ok (a, s')) :
    Owns (if a.2 = FAIL then pairAt p (.ofEntry e) else 1)
      (2 * (es.length + 1 - cap) - 2 * (es.length - cap)) := by
  have hlength : ((es.take cap).map Parsing.KeyValuePair.ofEntry).length = min cap es.length := by
    rw [List.length_map, List.length_take]
  by_cases hfull : cap ≤ es.length
  · have hcount : 2 * (es.length + 1 - cap) - 2 * (es.length - cap) = 2 := by omega
    rw [entryArray, addKeyValue_full_eq (by omega)] at hadd
    cases hadd
    rw [hcount, if_pos rfl]
    exact owns_pairAt p e
  · have hcount : 2 * (es.length + 1 - cap) - 2 * (es.length - cap) = 0 := by omega
    rw [entryArray, addKeyValue_room_eq (by omega)] at hadd
    cases hadd
    have hsuccess : ¬ SUCCESS = FAIL := by decide
    rw [hcount, if_neg hsuccess]
    exact .one

theorem extractXml_simulates (h : Walked counted cap rt es s r) (node : XmlNode) :
    SimulatesAt s (walkAt counted cap n d doc rt es array r) (extractXml ⟨d, node⟩ array)
      (Parsing.extractXml node r) (walkAt counted cap n d doc rt (es ++ entriesOf [node])) := by
  apply SimulatesAt.ex
  intro c
  apply SimulatesAt.fact
  rintro rfl
  rw [extractXml, Parsing.extractXml_eq, mul_left_comm]
  refine (read_simulates node s).left fun a => .fact fun ha => ?_
  subst ha
  by_cases ht : a.label.type = .element
  · have hentries : entriesOf [a] = [entryOf a] := by
      rw [entriesOf, List.filter_cons_of_pos (by simpa using ht), List.filter_nil, List.map_singleton]
    rw [if_pos ht, if_pos ht, hentries]
    refine (elementPair_simulates a s).bind fun p kv s₁ hpair => .fact fun _ => ?_
    have hknown : counted → s₁ = .all ∧ kv.1 = .ofEntry (entryOf a) := by
      intro hcounted
      obtain ⟨rfl, -⟩ := h hcounted
      have hyields := elementPair_yields a
      rw [Yields, hpair] at hyields
      cases hyields
      exact ⟨rfl, rfl⟩
    have hsplit (G : Assertion Block) : pairAt p.1 kv.1 *
        (cell d (.document doc) * (contentsAt array c rt * G)) =
          contentsAt array c rt * pairAt p.1 kv.1 * (cell d (.document doc) * G) := by
      ac_rfl
    rw [hsplit]
    refine ((addKeyValue_simulates array c rt p.1 kv.1).frame _ s₁).bind fun a' r s₂ hadd => ?_
    rw [Assertion.ex_mul]
    apply SimulatesAt.ex
    intro c'
    rw [mul_assoc]
    apply SimulatesAt.fact
    rintro ⟨-, hr⟩
    refine .pure fun f hf => ⟨c', fact_mul.mpr ⟨hr, ?_⟩⟩
    have hlost : counted → Owns (if r.2 = FAIL then pairAt p.1 kv.1 else 1)
        (2 * (es.length + 1 - cap) - 2 * (es.length - cap)) := by
      intro hcounted
      obtain ⟨rfl, hkv⟩ := hknown hcounted
      rw [(h hcounted).2, hkv] at hadd
      rw [hkv]
      exact owns_dropped hadd
    have hcount : n + 2 * ((es ++ [entryOf a]).length - cap) =
        n + 2 * (es.length - cap) + (2 * (es.length + 1 - cap) - 2 * (es.length - cap)) := by
      rw [List.length_append, List.length_singleton]
      omega
    rw [mul_assoc, mul_left_comm (ite _ _ _)] at hf
    rw [hcount]
    exact mul_mono (fun _ => id) (fun _ => mul_mono (fun _ => id) fun _ => garbage_mul hlost) hf
  · have hentries : entriesOf [a] = [] := by
      rw [entriesOf, List.filter_cons_of_neg (by simpa using ht), List.filter_nil, List.map_nil]
    rw [if_neg ht, if_neg ht, hentries, List.append_nil]
    refine .pure fun f hf => ⟨c, fact_mul.mpr ⟨rfl, ?_⟩⟩
    rwa [mul_left_comm] at hf

theorem entriesOf_append (nodes nodes' : List XmlNode) :
    entriesOf (nodes ++ nodes') = entriesOf nodes ++ entriesOf nodes' := by
  rw [entriesOf, List.filter_append, List.map_append, entriesOf, entriesOf]

theorem read_walk (node : XmlNode) :
    Simulates (walkAt counted cap n d doc rt es array r) (NodePointer.read ⟨d, node⟩)
      (pure () : Exec Unit)
      fun a _ => fact (a = node) * walkAt counted cap n d doc rt es array r := by
  apply Simulates.ex
  intro c
  apply Simulates.fact
  rintro rfl
  rw [mul_left_comm]
  refine (read_simulates node).post fun _ _ f hf => ?_
  rw [mul_left_comm (cell _ _)] at hf
  exact mul_mono (fun _ => id) (fun f hf => ⟨c, fact_mul.mpr ⟨rfl, hf⟩⟩) hf

/-- The walk of a document over its nodes in memory. -/
theorem traverse_simulates :
    (∀ (node : XmlNode) (es : List Entry) (s : Supply) (array : KeyValuePairArray)
      (r : Parsing.KeyValuePairArray), Walked counted cap rt es s r →
      SimulatesAt s (walkAt counted cap n d doc rt es array r)
        (traverseXml extractXml d node array) (Parsing.traverseXml Parsing.extractXml node r)
        (walkAt counted cap n d doc rt (es ++ entriesOf node.descendants))) ∧
    ∀ (nodes : List XmlNode) (es : List Entry) (s : Supply) (array : KeyValuePairArray)
      (r : Parsing.KeyValuePairArray), Walked counted cap rt es s r →
      SimulatesAt s (walkAt counted cap n d doc rt es array r)
        (traverseSiblings extractXml d nodes array)
        (Parsing.traverseSiblings Parsing.extractXml nodes r)
        (walkAt counted cap n d doc rt (es ++ entriesOf (Rose.forest nodes))) := by
  apply Rose.forest_induction
  · intro a ts ih es s array r h
    rw [traverseXml, Parsing.traverseXml, Rose.descendants_eq, Rose.children_node]
    exact (read_walk _ s).left fun _ => .fact fun _ => ih es s array r h
  · intro es s array r h
    rw [traverseSiblings, Parsing.traverseSiblings, Rose.forest_nil]
    exact .pure fun f hf => by rwa [entriesOf, List.filter_nil, List.map_nil, List.append_nil]
  · intro t ts iht ihts es s array r h
    rw [traverseSiblings, Parsing.traverseSiblings, Rose.forest_cons,
      ← List.singleton_append, entriesOf_append, entriesOf_append, ← List.append_assoc,
      ← List.append_assoc]
    refine (extractXml_simulates h t).bind fun array₁ r₁ s₁ hfirst => ?_
    have h₁ := h.step hfirst
    refine (iht _ s₁ array₁ r₁ h₁).bind fun array₂ r₂ s₂ hbelow => ?_
    have h₂ := h₁.fold (by rwa [(traverse_eq_foldlM Parsing.extractXml).1] at hbelow)
    exact (read_walk t s₂).left fun _ => .fact fun _ => ihts _ s₂ array₂ r₂ h₂

theorem processXml_simulates (h : Walked counted cap .unset [] s r) (node : XmlNode)
    (array : KeyValuePairArray) :
    SimulatesAt s (walkAt counted cap n d doc .unset [] array r)
      (processXml (some array) (some ⟨d, node⟩)) (Parsing.processXml (some r) (some node))
      fun a b => ex fun x : KeyValuePairArray × Parsing.KeyValuePairArray × Option CString =>
        fact (a = (some x.1, b.2) ∧ b.1 = some x.2.1) *
          walkAt counted cap n d doc (.set x.2.2) (entriesOf node.descendants) x.1 x.2.1 := by
  have hguard : ¬ (node.label.name = HELLO ∧ node.label.name = RPC) := by
    rintro ⟨hhello, hrpc⟩
    exact absurd (hhello.symm.trans hrpc) (by decide)
  rw [processXml_some, processXml]
  refine (read_walk node s).left fun a => .fact fun ha => ?_
  subst ha
  rw [if_neg hguard]
  apply SimulatesAt.ex
  intro c
  apply SimulatesAt.fact
  rintro rfl
  refine ((setRequestType_simulates a.label.name array c).frame _ s).bind fun a₁ r₁ s₁ hset => ?_
  rw [Assertion.ex_mul]
  apply SimulatesAt.ex
  intro copy
  rw [mul_assoc]
  apply SimulatesAt.fact
  rintro ⟨-, hr⟩
  have hwalked : Walked counted cap (.set copy) [] s₁ r₁.1 := by
    intro hcounted
    obtain ⟨rfl, hempty⟩ := h hcounted
    have hyields := @setRequestType_yields cap [] .unset a.label.name
    rw [List.take_nil] at hempty ⊢
    rw [hempty] at hset
    obtain ⟨rfl, rfl⟩ := Prod.mk.inj (Except.ok.inj (hset.symm.trans hyields))
    have hcopy := congrArg Parsing.KeyValuePairArray.requestType hr
    rw [Contents.toArray_requestType] at hcopy
    rw [← hcopy]
    exact ⟨rfl, rfl⟩
  refine SimulatesAt.bind (.pre (traverse_simulates.1 a [] s₁ a₁.1 r₁.1 hwalked) ?_)
    fun a₂ r₂ _ _ => .pure fun f hf => ⟨(a₂, r₂, copy), fact_mul.mpr ⟨⟨rfl, rfl⟩, hf⟩⟩
  exact fun f hf => ⟨c, fact_mul.mpr ⟨hr, hf⟩⟩

end Walk

/-! ## The reply -/

section Reply
variable {cap : ℕ} {array : KeyValuePairArray} {c : Contents cap} {rt : Cell (Option CString)}
  {counted : Prop} {n m : ℕ} {messageId : CString}

/-- How many blocks a reply is made of. -/
def built : Reply → ℕ
  | .data _ => 1
  | _ => 0

/-- A reply that was built is a block of its own. -/
def replyAt : ReplyPointer → Reply → Assertion Block
  | .literal reply, r => fact (reply = r ∧ built r = 0)
  | .block p, .data text => cell p (.string text)
  | .block _, _ => fact False

/-- What lies in memory while a request is answered. -/
def requestAt {cap : ℕ} (array : KeyValuePairArray) (c : Contents cap) (rt : Cell (Option CString))
    (m : ℕ) (messageId : CString) (device : Abcc) (held : Parsing.Abcc) : Assertion Block :=
  contentsAt array c rt * (deviceAt device held * cell m (.string messageId))

variable {device : Abcc} {held : Parsing.Abcc}

theorem requestAt_mul (G : Assertion Block) :
    requestAt array c rt m messageId device held * G =
      contentsAt array c rt * (deviceAt device held * (cell m (Block.string messageId) * G)) := by
  rw [requestAt, mul_assoc, mul_assoc]

theorem getKey_bind {f : ℤ → Run Block α} {g : ℤ → Exec γ} {Q : α → γ → Assertion Block}
    (key : CString)
    (hf : ∀ code, Simulates (requestAt array c rt m messageId device held * R) (f code) (g code) Q) :
    Simulates (requestAt array c rt m messageId device held * R) (getKey array key >>= f)
      (Parsing.getKey (c.toArray rt) key >>= g) Q := by
  rw [requestAt_mul]
  refine ((getKey_simulates array c rt key).frame _).bind fun a r => ?_
  rw [mul_assoc]
  apply Simulates.fact
  rintro rfl
  rw [← requestAt_mul]
  exact hf a

theorem selectOperation_simulates :
    Simulates (requestAt array c rt m messageId device held * R) (selectOperation array)
      (Parsing.selectOperation (c.toArray rt))
      fun a r => fact (a = r) * (requestAt array c rt m messageId device held * R) := by
  have hfound (op : Option Operation) : Simulates (requestAt array c rt m messageId device held * R)
      (pure op : Run Block (Option Operation)) (pure op : Exec (Option Operation))
      fun a r => fact (a = r) * (requestAt array c rt m messageId device held * R) :=
    .pure fun f hf => fact_mul.mpr ⟨rfl, hf⟩
  apply getKey_bind
  intro code
  apply Simulates.ite (fun _ => hfound _)
  intro _
  apply getKey_bind
  intro code
  apply Simulates.ite (fun _ => hfound _)
  intro _
  apply getKey_bind
  intro code
  apply Simulates.ite (fun _ => hfound _)
  intro _
  apply getKey_bind
  intro code
  exact Simulates.ite (fun _ => hfound _) fun _ => hfound _

theorem search_ok {key : CString} {l : List Parsing.KeyValuePair} {s s' : Supply}
    {found : Option Parsing.KeyValuePair} (h : search key l s = .ok (found, s')) :
    found = l.find? (·.key = some key) := by
  by_cases hkeys : ∃ kv ∈ passed key l, kv.key = none
  · rw [search_fault hkeys] at h
    cases h
  · rw [search_eq fun kv hkv hnull => hkeys ⟨kv, hkv, hnull⟩] at h
    cases h
    rfl

/-- The value of the first `IP_ADDRESS` pair. -/
def storedValue (l : List Parsing.KeyValuePair) : Option (List UInt8) :=
  (l.find? (·.key = some (lit "IP_ADDRESS"))).bind Parsing.KeyValuePair.value

theorem getValue_ok {value : Option (List UInt8)} {code : ℤ} {s s' : Supply}
    (h : Parsing.getValue (c.toArray rt) (lit "IP_ADDRESS") none s = .ok ((value, code), s')) :
    value = storedValue c.entries := by
  rw [Contents.getValue_toArray] at h
  obtain ⟨found, s'', hsearch, h⟩ := bind_eq_ok.mp h
  obtain rfl := search_ok hsearch
  rw [storedValue]
  cases hfind : c.entries.find? (·.key = some (lit "IP_ADDRESS")) with
  | none =>
    rw [hfind] at h
    cases h
    rfl
  | some kv =>
    rw [hfind] at h
    cases h
    rfl

/-- How many addresses a reply to stored pairs writes over. -/
def overwritten (l : List Parsing.KeyValuePair) : Reply → ℕ
  | .response6 => if (storedValue l).isSome then 1 else 0
  | _ => 0

/-- What an answer leaves: the reply, the request and the blocks that nothing leads to any more. -/
def answeredAt {cap : ℕ} (counted : Prop) (n : ℕ) (array : KeyValuePairArray) (c : Contents cap)
    (rt : Cell (Option CString)) (m : ℕ) (messageId : CString) (a : ReplyPointer × Abcc)
    (r : Reply × Parsing.Abcc) : Assertion Block :=
  replyAt a.1 r.1 * (requestAt array c rt m messageId a.2 r.2 *
    garbage counted (n + overwritten c.entries r.1))

theorem literal_branch {reply : Reply} (h : overwritten c.entries reply = 0)
    (hbuilt : built reply = 0) :
    Simulates (requestAt array c rt m messageId device held * garbage counted n)
      (pure (.literal reply, device) : Run Block (ReplyPointer × Abcc))
      (pure (reply, held) : Exec (Reply × Parsing.Abcc))
      (answeredAt counted n array c rt m messageId) := by
  refine .pure fun f hf => fact_mul.mpr ⟨⟨rfl, hbuilt⟩, ?_⟩
  rw [h]
  exact hf

theorem data_branch (lib : Libxml2) :
    Simulates (requestAt array c rt m messageId device held * garbage counted n)
      (do
        let text ← createNetconfResponse4 lib device.ipAddress m
        return (.block text, device))
      (do
        let text ← Parsing.createNetconfResponse4 lib held.ipAddress messageId
        return (Reply.data text, held))
      (answeredAt counted n array c rt m messageId) := by
  have hsplit : requestAt array c rt m messageId device held * garbage counted n =
      stringAt device.ipAddress held.ipAddress *
        (cell m (.string messageId) * (contentsAt array c rt * garbage counted n)) := by
    rw [requestAt, deviceAt]
    ac_rfl
  rw [hsplit]
  refine (createNetconfResponse4_simulates lib _ _ _ _).bind fun p text => .pure fun f hf => ?_
  rwa [← hsplit] at hf

theorem owns_overwrittenAt (h : held.ipAddress.isSome)
    (content : Option (List UInt8)) :
    Owns (overwrittenAt device held content) (if content.isSome then 1 else 0) := by
  cases content with
  | none => exact .one
  | some content =>
    have howns := owns_targetAt device.ipAddress (held.ipAddress.map Block.string)
    rwa [Option.isSome_map, if_pos h] at howns

theorem edit_branch (hheld : counted → held.ipAddress.isSome) :
    Simulates (requestAt array c rt m messageId device held * garbage counted n)
      (do
        let (value, _) ← getValue array (lit "IP_ADDRESS") none
        let (device, _) ← setIpAddress device value
        return (.literal .response6, device))
      (do
        let (value, _) ← Parsing.getValue (c.toArray rt) (lit "IP_ADDRESS") none
        let ip ← readPointer value
        let (device, _) ← Parsing.setIpAddress held ip
        return (Reply.response6, device))
      (answeredAt counted n array c rt m messageId) := by
  intro s
  rw [requestAt_mul]
  refine ((getValue_simulates array c rt _).frame _ s).bind fun ⟨ip, _⟩ ⟨value, _⟩ s' hy => ?_
  obtain rfl := getValue_ok hy
  rw [mul_assoc]
  apply SimulatesAt.fact
  intro _
  have hlent (X : Assertion Block) :
      lentAt array c rt ip (storedValue c.entries) * (deviceAt device held * X) =
        bytesAt ip (storedValue c.entries) * deviceAt device held *
          (wand (bytesAt ip (storedValue c.entries)) (contentsAt array c rt) * X) := by
    rw [lentAt]
    ac_rfl
  dsimp only
  rw [hlent, ← bind_assoc]
  refine ((setIpAddress_simulates device held ip _).frame _ s').bind fun a r _ _ => ?_
  rw [mul_assoc]
  apply SimulatesAt.fact
  intro _
  refine .pure fun f hf => fact_mul.mpr ⟨⟨rfl, rfl⟩, ?_⟩
  have hparts : ∀ B O W D M G : Assertion Block, D * (B * O) * (W * (M * G)) =
      B * W * (D * (M * (O * G))) := by
    intro B O W D M G
    ac_rfl
  rw [hparts] at hf
  rw [requestAt_mul]
  have hlost : counted → Owns (overwrittenAt device held (storedValue c.entries)) _ :=
    fun hcounted => owns_overwrittenAt (hheld hcounted) _
  exact mul_mono (fun _ => wand_elim) (fun _ hf => mul_mono (fun _ => id)
    (fun _ hf => mul_mono (fun _ => id) (fun _ => garbage_mul hlost) hf) hf) hf

theorem rpcReply_simulates (lib : Libxml2) (hheld : counted → held.ipAddress.isSome)
    (op : Option Operation) :
    Simulates (requestAt array c rt m messageId device held * garbage counted n)
      (rpcReply lib array device m op) (Parsing.rpcReply lib (c.toArray rt) held messageId op)
      (answeredAt counted n array c rt m messageId) := by
  cases op with
  | none => exact literal_branch rfl rfl
  | some op =>
    cases op with
    | get =>
      apply getKey_bind
      intro code
      apply Simulates.ite (fun _ => literal_branch rfl rfl)
      intro _
      apply getKey_bind
      intro code
      exact Simulates.ite (fun _ => literal_branch rfl rfl) fun _ => data_branch lib
    | getSchema => exact literal_branch rfl rfl
    | editConfig =>
      apply getKey_bind
      intro code
      exact Simulates.ite (fun _ => data_branch lib) fun _ => edit_branch hheld
    | getConfig => exact literal_branch rfl rfl

theorem createXmlReply_simulates (lib : Libxml2) (hheld : counted → held.ipAddress.isSome) :
    Simulates (requestAt array c rt m messageId device held * garbage counted n)
      (createXmlReply lib array device m) (Parsing.createXmlReply lib (c.toArray rt) held messageId)
      (answeredAt counted n array c rt m messageId) := by
  rw [createXmlReply, Parsing.createXmlReply, Contents.toArray_requestType, requestAt_mul]
  apply requestType_lent
  rintro q s rfl
  apply follow_target Block.asString_string
  intro requestType _
  rw [← mul_assoc]
  apply Simulates.pre (P := requestAt array c (.set s) m messageId device held * garbage counted n)
  · apply Simulates.ite (fun _ => literal_branch rfl rfl)
    intro _
    apply Simulates.ite _ fun _ => literal_branch rfl rfl
    intro _
    refine selectOperation_simulates.bind fun op op' => .fact fun hop => ?_
    rw [hop]
    exact rpcReply_simulates lib hheld op'
  · intro f hf
    rw [requestAt_mul]
    exact mul_mono (fun _ => wand_elim) (fun _ => id) hf

theorem owns_replyAt (p : ReplyPointer) (reply : Reply) : Owns (replyAt p reply) (built reply) := by
  cases p with
  | literal reply' =>
    rintro f ⟨⟨-, hbuilt⟩, rfl⟩
    rw [hbuilt]
    exact Fragment.size_empty
  | block p =>
    cases reply with
    | data text => exact .cell p _
    | _ => exact fun f hf => hf.1.elim

theorem read_reply {p : ReplyPointer} {reply : Reply} {f : CString → Run Block α} {y : Exec γ}
    {Q : α → γ → Assertion Block} (hf : Simulates (replyAt p reply * R) (f reply.text) y Q) :
    Simulates (replyAt p reply * R) (p.read >>= f) y Q := by
  cases p with
  | literal reply' =>
    apply Simulates.fact
    rintro ⟨rfl, hbuilt⟩
    exact hf.pre fun _ hg => fact_mul.mpr ⟨⟨rfl, hbuilt⟩, hg⟩
  | block p =>
    cases reply with
    | data text => exact .loadAs (Block.asString_string text) hf
    | _ => exact .absurd id

end Reply

end NetconfServer.Parsing.Stored
