import NetconfServer.Networking.Server
import NetconfServer.Parsing.Serialiser

/-! # One request

Which operation a request is taken for, when it changes the device, and when it is acknowledged.
The server sees the names of ten elements and no parent of any of them; the theorems say for which
documents that is the same as looking at the tree.
-/

namespace NetconfServer.Networking
open Memory CString Library Parsing

theorem recordedKeys_eq (root : XmlNode) :
    recordedKeys root = ((elements root).take 10).map (·.label.name) := by
  simp [recordedKeys, recorded, entryOf, Function.comp_def]

/-- The operation element of an entity-free request is always among the recorded ones. -/
theorem operation_recorded {root op : XmlNode} (hfree : EntityFree root)
    (hop : (childElements root).head? = some op) : op.label.name ∈ recordedKeys root := by
  rw [recordedKeys_eq]
  have hhead : (elements root).head? = some op := (elements_head hfree).trans hop
  cases he : elements root with
  | nil => simp [he] at hhead
  | cons first rest =>
    have hfirst : first = op := by simpa [he] using hhead
    simp [hfirst]

/-- An `edit-config` of a datastore as a client writes it, with `inConfig` below `config`. -/
def editElement (datastore : CString) (inConfig : List XmlNode) : XmlNode :=
  .element (lit "edit-config") [] [
    .element (lit "target") [] [.element datastore [] []],
    .element (lit "config") [] inConfig]

def editRequest (datastore : CString) (inConfig : List XmlNode) : XmlNode :=
  .element RPC [] [editElement datastore inConfig]

def addressElement (v : CString) : XmlNode := .element (lit "IP_ADDRESS") [] [.text v]

/-! ## The reply to an answer -/

/-- An answer without the value of an edit. -/
def kind : Answer → Answer
  | .edit _ => .edit none
  | a => a

/-- The kind of answer that a reply is given to. -/
def kindOfReply : Reply → Answer
  | .hello => .hello
  | .response1 => .response1
  | .response2 => .response2
  | .response3 => .response3
  | .response6 => .edit none
  | .data _ => .data
  | .empty => .empty

section Replies
variable {lib : Libxml2} {a : Answer} {device : Abcc} {messageId : CString} {reply : Reply}

theorem kind_eq_of_reply (h : a.reply lib device messageId = .ok reply) :
    kind a = kindOfReply reply := by
  cases a with
  | data =>
    obtain ⟨text, -, rfl⟩ := data_reply_eq_ok.mp h
    rfl
  | _ =>
    cases h
    rfl

theorem reply_eq_data {text : CString} (h : a.reply lib device messageId = .ok (.data text)) :
    dataText lib device.ipAddress messageId = .ok text := by
  cases a with
  | data =>
    obtain ⟨text', htext, heq⟩ := data_reply_eq_ok.mp h
    cases heq
    exact htext
  | _ => cases h

theorem reply_eq_response6 (h : a.reply lib device messageId = .ok reply) :
    reply = .response6 ↔ ∃ value, a = .edit value := by
  have hkind := kind_eq_of_reply h
  constructor
  · rintro rfl
    cases a with
    | edit value => exact ⟨value, rfl⟩
    | _ => cases hkind
  · rintro ⟨value, rfl⟩
    cases h
    rfl

theorem exists_reply (hlib : lib.Allocates) (a : Answer) (device : Abcc) (messageId : CString) :
    ∃ reply, a.reply lib device messageId = .ok reply := by
  cases a with
  | data =>
    obtain ⟨document, hdocument⟩ := Option.isSome_iff_exists.mp
      (hlib (responseDocument lib device.ipAddress messageId))
    exact ⟨_, data_reply_eq_ok.mpr ⟨_, dataText_eq_ok.mpr ⟨document, hdocument, rfl⟩, rfl⟩⟩
  | _ => exact ⟨_, rfl⟩

end Replies

/-! ## The operation -/

/-- A fresh array after the walk of a request. -/
def walked (root : XmlNode) : Exec (Option KeyValuePairArray × ℤ) := do
  let (array, _) ← initKeyValueArray .uninitialized 10
  processXml (some array) (some root)

theorem walked_yields (root : XmlNode) : Yields (walked root) (some (requestArray root), 0) :=
  (initKeyValueArray_yields .uninitialized 10).bind (processXml_yields root 10)

/-- An `rpc` is handled in the branch of its operation element exactly when no operation tested
earlier has its name among the first ten elements. -/
theorem operation_selected_iff {root : XmlNode} {op : Operation} (hrpc : root.label.name = RPC)
    (hfree : EntityFree root)
    (hop : (childElements root).head?.map (·.label.name) = some op.name) :
    ∃ array, Yields (walked root) (some array, 0) ∧
      (∀ lib device messageId, createXmlReply lib array device messageId .all =
        (selectOperation array >>= rpcReply lib array device messageId) .all) ∧
      (Yields (selectOperation array) (some op) ↔
        ∀ op' ∈ op.earlier, op'.name ∉ recordedKeys root) := by
  refine ⟨requestArray root, walked_yields root, ?_, ?_⟩
  · intro lib device messageId
    rw [requestArray, hrpc]
    exact createXmlReply_rpc lib device messageId
  · have hselect : Yields (selectOperation (requestArray root))
        (firstOperation (recordedKeys root)) := selectOperation_yields
    have hkey : op.name ∈ recordedKeys root := by
      obtain ⟨node, hnode, hname⟩ := Option.map_eq_some_iff.mp hop
      exact hname ▸ operation_recorded hfree hnode
    constructor
    · intro h
      exact (firstOperation_eq_some.mp (hselect.unique h)).2
    · intro h
      have hfirst : firstOperation (recordedKeys root) = some op :=
        firstOperation_eq_some.mpr ⟨hkey, h⟩
      rw [← hfirst]
      exact hselect

theorem operation_selected_iff_sample :
    ∃ array,
      Yields (walked (editRequest (lit "running") [addressElement (lit "10.0.0.7")])) (some array, 0) ∧
      Yields (selectOperation array) (some .editConfig) := by
  obtain ⟨array, hwalked, -, hiff⟩ := @operation_selected_iff
    (editRequest (lit "running") [addressElement (lit "10.0.0.7")]) .editConfig rfl (by decide)
    (by decide)
  exact ⟨array, hwalked, hiff.mpr (by decide)⟩

/-- An edit that sets a leaf called `get` is handled as a `get`. -/
theorem edit_with_get_leaf :
    (editRequest (lit "running") [.element (lit "get") [] []]).label.name = RPC ∧
    EntityFree (editRequest (lit "running") [.element (lit "get") [] []]) ∧
    (childElements (editRequest (lit "running") [.element (lit "get") [] []])).head?.map
      (·.label.name) = some Operation.editConfig.name ∧
    ∃ array, Yields (walked (editRequest (lit "running") [.element (lit "get") [] []]))
      (some array, 0) ∧ Yields (selectOperation array) (some .get) := by
  refine ⟨rfl, by decide, by decide, requestArray _, walked_yields _, ?_⟩
  exact selectOperation_yields

/-! ## Edits -/

/-- The `target` of an `edit-config` has a child `running`. -/
def TargetsRunning (edit : XmlNode) : Prop :=
  ∃ target ∈ childElements edit, target.label.name = lit "target" ∧
    ∃ datastore ∈ childElements target, datastore.label.name = lit "running"

instance (edit : XmlNode) : Decidable (TargetsRunning edit) :=
  inferInstanceAs (Decidable (∃ target ∈ childElements edit, _ ∧
    ∃ datastore ∈ childElements target, _))

/-- Some `IP_ADDRESS` below the `config` of an `edit-config` has the value `v`. That a stored value
comes from there is read so: as an equality of values, not of elements. -/
def CarriesAddress (value : XmlNode → CString) (edit : XmlNode) (v : CString) : Prop :=
  ∃ config ∈ childElements edit, config.label.name = lit "config" ∧
    ∃ ip ∈ elements config, ip.label.name = lit "IP_ADDRESS" ∧ value ip = v

instance (value : XmlNode → CString) (edit : XmlNode) (v : CString) :
    Decidable (CarriesAddress value edit v) :=
  inferInstanceAs (Decidable (∃ config ∈ childElements edit, _ ∧ ∃ ip ∈ elements config, _))

/-- The document is an edit of the running datastore that carries the address `v`. -/
def EditsRunning (root : XmlNode) (v : CString) : Prop :=
  root.label.name = RPC ∧ ∃ edit, (childElements root).head? = some edit ∧
    edit.label.name = Operation.editConfig.name ∧ TargetsRunning edit ∧
    CarriesAddress leadingText edit v

/-- The reply and the device after a request, whichever branch handles it. -/
theorem answerRequest_yields {lib : Libxml2} (hlib : lib.Allocates) (root : XmlNode)
    (device : Abcc) (msgNum : Int8) :
    ∃ reply, Yields (answerRequest lib (some root) device msgNum)
        (requestArray root, reply, (answerTo root).update device) ∧
      (reply = .response6 ↔ NamesEdit root) := by
  obtain ⟨reply, hreply⟩ := exists_reply hlib (answerTo root) device (decimalString msgNum.toInt)
  refine ⟨reply, ?_, ?_⟩
  · rw [Yields, answerRequest_eq, hreply]
    rfl
  · rw [reply_eq_response6 hreply]
    constructor
    · rintro ⟨value, hvalue⟩
      exact namesEdit_of_answerTo hvalue
    · intro hnames
      exact ⟨_, answerTo_of_namesEdit hnames⟩

/-- When the `<ok/>` reply and the applied address go together. The names decide the reply, the
first `IP_ADDRESS` among ten elements decides the address. -/
theorem edit_acknowledged_iff {lib : Libxml2} (hlib : lib.Allocates) {root edit : XmlNode}
    (hrpc : root.label.name = RPC) (hfree : EntityFree root)
    (hop : (childElements root).head? = some edit)
    (hedit : edit.label.name = Operation.editConfig.name) (address : CString) (msgNum : Int8) :
    ∃ reply device, Yields (answerRequest lib (some root) ⟨some address⟩ msgNum)
        (requestArray root, reply, device) ∧
      ((reply = .response6 ↔
          ∃ v, device.ipAddress = some v ∧ CarriesAddress textContent edit v) ↔
        (Operation.get.name ∉ recordedKeys root ∧ Operation.getSchema.name ∉ recordedKeys root ∧
          lit "running" ∈ recordedKeys root ∧
          CarriesAddress textContent edit
            ((firstValue (lit "IP_ADDRESS") (recorded root)).getD address)) ∨
        (¬ (Operation.get.name ∉ recordedKeys root ∧ Operation.getSchema.name ∉ recordedKeys root ∧
          lit "running" ∈ recordedKeys root) ∧ ¬ CarriesAddress textContent edit address)) := by
  obtain ⟨reply, hyields, hreply⟩ := answerRequest_yields hlib root ⟨some address⟩ msgNum
  refine ⟨reply, _, hyields, ?_⟩
  have hkey : Operation.editConfig.name ∈ recordedKeys root := hedit ▸ operation_recorded hfree hop
  have hnames : NamesEdit root ↔ Operation.get.name ∉ recordedKeys root ∧
      Operation.getSchema.name ∉ recordedKeys root ∧ lit "running" ∈ recordedKeys root := by
    simp [NamesEdit, hrpc, hkey]
  rw [hreply, update_eq, writtenAddress]
  by_cases h : NamesEdit root
  · obtain ⟨hget, hschema, hrun⟩ := hnames.mp h
    cases hvalue : firstValue (lit "IP_ADDRESS") (recorded root) with
    | none => simp [h, hget, hschema, hrun]
    | some value => simp [h, hget, hschema, hrun]
  · rw [← hnames]
    simp only [h, if_false, Option.some.injEq, exists_eq_left', false_iff, not_false_eq_true,
      true_and]
    constructor
    · exact Or.inr
    · rintro (⟨hget, hschema, hrun, -⟩ | hno)
      · exact absurd (hnames.mpr ⟨hget, hschema, hrun⟩) h
      · exact hno

theorem edit_acknowledged_iff_sample :
    ∃ reply device,
      Yields (answerRequest (tableLibxml2 [])
          (some (editRequest (lit "running") [addressElement (lit "10.0.0.7")]))
          ⟨some initialAddress⟩ 1)
        (requestArray (editRequest (lit "running") [addressElement (lit "10.0.0.7")]), reply, device) ∧
      (reply = .response6 ↔ ∃ v, device.ipAddress = some v ∧ CarriesAddress textContent
        (editElement (lit "running") [addressElement (lit "10.0.0.7")]) v) := by
  obtain ⟨reply, device, hyields, hiff⟩ := @edit_acknowledged_iff _ (tableLibxml2_allocates [])
    (editRequest (lit "running") [addressElement (lit "10.0.0.7")]) _ rfl (by decide) rfl rfl
    initialAddress 1
  exact ⟨reply, device, hyields, hiff.mpr (.inl (by decide))⟩

/-- An edit without any `IP_ADDRESS` is acknowledged. -/
theorem empty_edit_acknowledged :
    (editRequest (lit "running") []).label.name = RPC ∧
    EntityFree (editRequest (lit "running") []) ∧
    (childElements (editRequest (lit "running") [])).head? = some (editElement (lit "running") []) ∧
    (editElement (lit "running") []).label.name = Operation.editConfig.name ∧
    TargetsRunning (editElement (lit "running") []) ∧
    ∃ device,
      Yields (answerRequest (tableLibxml2 []) (some (editRequest (lit "running") []))
          ⟨some initialAddress⟩ 1)
        (requestArray (editRequest (lit "running") []), .response6, device) ∧
      ¬ ∃ v, device.ipAddress = some v ∧
        CarriesAddress textContent (editElement (lit "running") []) v := by
  refine ⟨rfl, by decide, rfl, rfl, by decide, ⟨some initialAddress⟩, answerRequest_eq _ _ _ _, ?_⟩
  rintro ⟨v, hv, hcarries⟩
  cases hv
  exact absurd hcarries (by decide)

/-- When a changed address comes from an edit of the running datastore. -/
theorem device_changed_iff {lib : Libxml2} (hlib : lib.Allocates) (root : XmlNode) (device : Abcc)
    (msgNum : Int8) :
    ∃ reply device', Yields (answerRequest lib (some root) device msgNum)
        (requestArray root, reply, device') ∧
      ((device' ≠ device → ∃ v, device'.ipAddress = some v ∧ EditsRunning root v) ↔
        ∀ v, writtenAddress root = some v → device.ipAddress ≠ some v → EditsRunning root v) := by
  obtain ⟨reply, hyields, -⟩ := answerRequest_yields hlib root device msgNum
  refine ⟨reply, _, hyields, ?_⟩
  rw [update_eq]
  cases hvalue : writtenAddress root with
  | none => simp
  | some value =>
    have hchange : (⟨some value⟩ : Abcc) ≠ device ↔ device.ipAddress ≠ some value := by
      cases device
      simp [eq_comm]
    simp [hchange]

theorem device_changed_iff_sample :
    ∃ reply device',
      Yields (answerRequest (tableLibxml2 [])
          (some (editRequest (lit "running") [addressElement (lit "10.0.0.7")]))
          ⟨some initialAddress⟩ 1)
        (requestArray (editRequest (lit "running") [addressElement (lit "10.0.0.7")]), reply,
          device') ∧
      (device' ≠ ⟨some initialAddress⟩ → ∃ v, device'.ipAddress = some v ∧
        EditsRunning (editRequest (lit "running") [addressElement (lit "10.0.0.7")]) v) := by
  obtain ⟨reply, device', hyields, hiff⟩ := device_changed_iff (tableLibxml2_allocates [])
    (editRequest (lit "running") [addressElement (lit "10.0.0.7")]) ⟨some initialAddress⟩ 1
  refine ⟨reply, device', hyields, hiff.mpr ?_⟩
  intro v hv _
  have hvalue : v = lit "10.0.0.7" := (Option.some.inj hv).symm
  subst hvalue
  exact ⟨rfl, _, rfl, rfl, by decide, by decide⟩

/-- An edit of the candidate datastore changes the device when its data names `running`. -/
theorem candidate_edit_changes_device :
    EntityFree (editRequest (lit "candidate")
      [.element (lit "running") [] [], addressElement (lit "10.0.0.7")]) ∧
    ∃ reply device',
      Yields (answerRequest (tableLibxml2 [])
          (some (editRequest (lit "candidate")
            [.element (lit "running") [] [], addressElement (lit "10.0.0.7")]))
          ⟨some initialAddress⟩ 1)
        (requestArray (editRequest (lit "candidate")
          [.element (lit "running") [] [], addressElement (lit "10.0.0.7")]), reply, device') ∧
      device' ≠ ⟨some initialAddress⟩ ∧
      ¬ ∃ v, EditsRunning (editRequest (lit "candidate")
        [.element (lit "running") [] [], addressElement (lit "10.0.0.7")]) v := by
  refine ⟨by decide, .response6, ⟨some (lit "10.0.0.7")⟩, answerRequest_eq _ _ _ _, by decide, ?_⟩
  rintro ⟨v, -, edit, hedit, -, hrunning, -⟩
  have hfirst : edit = editElement (lit "candidate")
      [.element (lit "running") [] [], addressElement (lit "10.0.0.7")] := (Option.some.inj hedit).symm
  rw [hfirst] at hrunning
  exact absurd hrunning (by decide)

end NetconfServer.Networking
