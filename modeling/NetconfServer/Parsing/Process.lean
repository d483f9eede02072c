import NetconfServer.Parsing.Request

/-! # What `process_xml` leaves in an array

A fresh array gets the first elements of a document in document order, at most ten of them. The
return code says nothing of what was dropped, and the check of the root's name rejects nothing.
-/

namespace NetconfServer.Parsing
open Memory CString Library KeyValuePairArray

/-- `process_xml` on the array that `init_key_value_array` gives. -/
def processFresh (array : KeyValuePairArray) (capacity : UInt8) (root : XmlNode) :
    Exec (Option KeyValuePairArray × ℤ) := do
  let (array, _) ← initKeyValueArray array capacity
  processXml (some array) (some root)

theorem processFresh_yields (array : KeyValuePairArray) (capacity : UInt8) (root : XmlNode) :
    Yields (processFresh array capacity root)
      (some (entryArray (min capacity.toNat 10)
        (((elements root).take (min capacity.toNat 10)).map entryOf) (.set (some root.label.name))),
        0) :=
  (initKeyValueArray_yields array capacity).bind (processXml_yields root _)

variable {cap : ℕ} {es : List Entry} {rt : Cell (Option CString)}

theorem entryArray_slot {i : ℕ} {e : Entry} (h : es[i]? = some e) :
    Yields ((entryArray cap es rt).slot i) (.ofEntry e) := by
  obtain ⟨hi, rfl⟩ := List.getElem?_eq_some_iff.mp h
  have hslot := @slot_yields cap (es.map .ofEntry) rt i (by simpa using hi)
  rwa [List.getElem_map] at hslot

/-- A walk records the first elements in document order, as many as fit, each once: slot `i` has
the name and the leading text of element `i`. -/
theorem first_elements_recorded (array : KeyValuePairArray) (capacity : UInt8) (root : XmlNode) :
    ∃ array', Yields (processFresh array capacity root) (some array', 0) ∧
      array'.size = .set ((elements root).take (min capacity.toNat 10)).length ∧
      (∀ i element, ((elements root).take (min capacity.toNat 10))[i]? = some element →
        Yields (array'.slot i) ⟨some element.label.name, some (leadingText element).toBlock⟩) ∧
      array'.requestType = .set (some root.label.name) := by
  refine ⟨_, processFresh_yields array capacity root, ?_, ?_, rfl⟩
  · simp [entryArray, holding]
  · intro i element hi
    have hentry : (((elements root).take (min capacity.toNat 10)).map entryOf)[i]? =
        some (entryOf element) := by rw [List.getElem?_map, hi, Option.map_some]
    exact entryArray_slot hentry

/-! ## Dropped elements -/

/-- Where the walk meets an element, and what it has met before. -/
theorem split_of_getElem? {root node : XmlNode} {j : ℕ} (h : (elements root)[j]? = some node) :
    ∃ visited rest, root.descendants = visited ++ node :: rest ∧ node.label.type = .element ∧
      visited.filter (·.label.type = .element) = (elements root).take j := by
  obtain ⟨hj, rfl⟩ := List.getElem?_eq_some_iff.mp h
  have hsplit : root.descendants.filter (·.label.type = .element) =
      (elements root).take j ++ (elements root)[j] :: (elements root).drop (j + 1) := by
    rw [List.getElem_cons_drop, List.take_append_drop, elements]
  obtain ⟨earlier, others, hdesc, hearlier, hothers⟩ := List.filter_eq_append_iff.mp hsplit
  obtain ⟨between, rest, rfl, hbetween, htype, -⟩ := List.filter_eq_cons_iff.mp hothers
  refine ⟨earlier ++ between, rest, by simp [hdesc], by simpa using htype, ?_⟩
  have hnone : between.filter (·.label.type = .element) = [] := List.filter_eq_nil_iff.mpr hbetween
  rw [List.filter_append, hearlier, hnone, List.append_nil]

theorem getElem?_of_split {root node : XmlNode} {visited rest : List XmlNode}
    (h : root.descendants = visited ++ node :: rest) (htype : node.label.type = .element) :
    (elements root)[(visited.filter (·.label.type = .element)).length]? = some node ∧
      visited.filter (·.label.type = .element) =
        (elements root).take (visited.filter (·.label.type = .element)).length := by
  have helements : elements root = visited.filter (·.label.type = .element) ++
      node :: rest.filter (·.label.type = .element) := by
    rw [elements, h, List.filter_append, List.filter_cons_of_pos (by simpa using htype)]
  rw [helements]
  exact ⟨by simp, by simp⟩

/-- The array when the walk of a document starts. -/
def startWalk (array : KeyValuePairArray) (root : XmlNode) : Exec KeyValuePairArray := do
  let (array, _) ← initKeyValueArray array 10
  let (array, _) ← setRequestType root.label.name array
  return array

/-- Some `add_key_value` of the walk answers `FAIL`. -/
def AddFails (array : KeyValuePairArray) (root : XmlNode) : Prop :=
  ∃ visited element rest, root.descendants = visited ++ element :: rest ∧
    element.label.type = .element ∧ ∃ array' kv ret array'',
      Yields (visited.foldlM (fun array node => extractXml node array) array) array' ∧
      Yields (elementPair element) (kv, ret) ∧ Yields (addKeyValue array' kv) (array'', FAIL)

theorem startWalk_yields (array : KeyValuePairArray) (root : XmlNode) :
    Yields (startWalk array root) (entryArray 10 [] (.set (some root.label.name))) :=
  (initKeyValueArray_yields array 10).bind ((setRequestType_yields _).bind Yields.pure)

/-- The array that the walk has filled when it comes to a node. -/
theorem visited_yields {array start : KeyValuePairArray} {root : XmlNode}
    (hstart : Yields (startWalk array root) start) (visited : List XmlNode) :
    Yields (visited.foldlM (fun array node => extractXml node array) start)
      (entryArray 10 (((visited.filter (·.label.type = .element)).take 10).map entryOf)
        (.set (some root.label.name))) := by
  obtain rfl := (startWalk_yields array root).unique hstart
  have hwalk := @foldlM_extractXml 10 [] (.set (some root.label.name)) visited (Nat.zero_le 10)
  rwa [List.nil_append, ← List.map_take] at hwalk

/-- `add_key_value` fails in the walk exactly when there are more elements than slots. -/
theorem addFails_iff {array start : KeyValuePairArray} {root : XmlNode}
    (hstart : Yields (startWalk array root) start) :
    AddFails start root ↔ 10 < (elements root).length := by
  constructor
  · rintro ⟨visited, element, rest, hsplit, htype, array', kv, ret, array'', hwalk, hpair, hadd⟩
    obtain rfl := (visited_yields hstart visited).unique hwalk
    have hlength := (List.getElem?_eq_some_iff.mp (getElem?_of_split hsplit htype).1).1
    by_contra hfits
    have hroom : ((visited.filter (·.label.type = .element)).take 10).length < 10 := by
      rw [List.length_take]
      omega
    have hsuccess := @addKeyValue_room 10
      ((((visited.filter (·.label.type = .element)).take 10).map entryOf).map .ofEntry)
      (.set (some root.label.name)) (by simpa using hroom) kv
    have hcode : FAIL = SUCCESS := congrArg Prod.snd (hadd.unique hsuccess)
    exact absurd hcode (by decide)
  · intro hmany
    obtain ⟨visited, rest, hdesc, htype, hvisited⟩ :=
      split_of_getElem? (List.getElem?_eq_getElem hmany)
    refine ⟨visited, (elements root)[10], rest, hdesc, htype, _, _, _, _, visited_yields hstart _,
      elementPair_yields _, addKeyValue_full ?_ _⟩
    rw [hvisited]
    simp only [List.length_map, List.length_take]
    omega

/-- When no element is lost and no failure goes unreported: there are at most ten elements. -/
theorem no_element_dropped_iff (array : KeyValuePairArray) (root : XmlNode) :
    ∃ start array' ret, Yields (startWalk array root) start ∧
      Yields (processFresh array 10 root) (some array', ret) ∧
      (((ret = 0 → ∀ i element, (elements root)[i]? = some element →
            Yields (array'.slot i) (.ofEntry (entryOf element)) ∧
              Yields (getKey array' element.label.name) SUCCESS) ∧
          (AddFails start root → ret ≠ 0)) ↔
        (elements root).length ≤ 10) := by
  have hstart := startWalk_yields array root
  refine ⟨_, _, 0, hstart, processFresh_yields array 10 root, ?_⟩
  rw [addFails_iff hstart]
  constructor
  · rintro ⟨-, hreport⟩
    by_contra hmany
    exact hreport (by omega) rfl
  · intro hfits
    constructor
    · intro _ i element hi
      have htake : (elements root).take 10 = elements root := List.take_of_length_le hfits
      have hentry : (((elements root).take 10).map entryOf)[i]? = some (entryOf element) := by
        rw [htake, List.getElem?_map, hi, Option.map_some]
      have hkey : element.label.name ∈ (((elements root).take 10).map entryOf).map Entry.key :=
        List.mem_map.mpr ⟨entryOf element, List.mem_of_getElem? hentry, rfl⟩
      have hget := @getKey_yields 10 (.set (some root.label.name))
        (((elements root).take 10).map entryOf) element.label.name
      rw [if_pos hkey] at hget
      exact ⟨entryArray_slot hentry, hget⟩
    · intro hmany
      omega

/-- A request of eleven elements. -/
def elevenElements : XmlNode :=
  .element RPC [] (List.replicate 10 (.element (lit "a") [] []) ++ [.element (lit "b") [] []])

/-- The last of them is dropped, and `process_xml` reports success. -/
theorem eleventh_element_dropped :
    EntityFree elevenElements ∧ (∃ element ∈ elements elevenElements, element.label.name = lit "b") ∧
    ∃ start array', Yields (startWalk .uninitialized elevenElements) start ∧
      AddFails start elevenElements ∧
      Yields (processFresh .uninitialized 10 elevenElements) (some array', 0) ∧
      Yields (getKey array' (lit "b")) FAIL := by
  have hstart := startWalk_yields .uninitialized elevenElements
  refine ⟨by decide, by decide, _, _, hstart,
    (addFails_iff hstart).mpr (by decide), processFresh_yields _ 10 _, ?_⟩
  exact getKey_yields (lit "b")

/-! ## Rejection -/

/-- An array that `init_key_value_array` has set up, with the pairs added to it since. -/
def KeyValuePairArray.Initialised (array : KeyValuePairArray) : Prop :=
  ∃ cap l rt, l.length ≤ cap ∧ array = holding cap l rt

/-- The calls that are to be rejected. -/
def ToReject (array : Option KeyValuePairArray) (node : Option XmlNode) : Prop :=
  array = none ∨ node = none ∨
    ∃ root, node = some root ∧ root.label.name ≠ HELLO ∧ root.label.name ≠ RPC

theorem processXml_null {array : Option KeyValuePairArray} {node : Option XmlNode}
    (h : array = none ∨ node = none) : processXml array node = return (array, -1) := by
  rcases h with rfl | rfl
  · cases node <;> rfl
  · cases array <;> rfl

theorem processXml_some (array : KeyValuePairArray) (node : XmlNode) :
    processXml (some array) (some node) = do
      let (array, _) ← setRequestType node.label.name array
      let array ← traverseXml extractXml node array
      return (some array, 0) := by
  have hguard : ¬ (node.label.name = HELLO ∧ node.label.name = RPC) := by
    rintro ⟨hhello, hrpc⟩
    exact absurd (hhello.symm.trans hrpc) (by decide)
  rw [processXml, if_neg hguard]

/-- `process_xml` returns for every array that is initialised. -/
theorem processXml_returns {array : KeyValuePairArray} (h : array.Initialised) (node : XmlNode) :
    ∃ array', Yields (processXml (some array) (some node)) (some array', 0) := by
  obtain ⟨cap, l, rt, hl, rfl⟩ := h
  have hwalk := @foldlM_extractXml_holding cap (.set (some node.label.name)) l node.descendants hl
  rw [← (traverse_eq_foldlM extractXml).1] at hwalk
  rw [processXml_some]
  exact ⟨_, (setRequestType_yields _).bind (hwalk.bind Yields.pure)⟩

/-- When the check of the arguments does what its return codes say: an argument is null or the
root is named `hello` or `rpc`. -/
theorem root_rejected_iff (array : Option KeyValuePairArray) (node : Option XmlNode) :
    (∀ supply array' ret supply', processXml array node supply = .ok ((array', ret), supply') →
      (((ret = -1 ↔ ToReject array node) ∧ (ret = -1 → array' = array) ∧ (ret ≠ -1 → ret = 0)) ↔
        array = none ∨ node = none ∨
          ∃ root, node = some root ∧ (root.label.name = HELLO ∨ root.label.name = RPC))) ∧
    ((∀ a, array = some a → a.Initialised) →
      ∃ array' ret, Yields (processXml array node) (array', ret)) := by
  by_cases hnull : array = none ∨ node = none
  · rw [processXml_null hnull]
    constructor
    · intro supply array' ret supply' h
      cases h
      have hreject : ToReject array node := by
        rw [ToReject, ← or_assoc]
        exact .inl hnull
      rw [← or_assoc]
      simp [hreject, hnull]
    · intro _
      exact ⟨_, _, Yields.pure⟩
  obtain ⟨harray, hnode⟩ := not_or.mp hnull
  obtain ⟨a, rfl⟩ := Option.ne_none_iff_exists'.mp harray
  obtain ⟨root, rfl⟩ := Option.ne_none_iff_exists'.mp hnode
  constructor
  · intro supply array' ret supply' h
    rw [processXml_some] at h
    obtain ⟨_, _, -, h⟩ := bind_eq_ok.mp h
    obtain ⟨_, _, -, h⟩ := bind_eq_ok.mp h
    cases h
    have hreject : ToReject (some a) (some root) ↔
        ¬ (root.label.name = HELLO ∨ root.label.name = RPC) := by simp [ToReject]
    by_cases haccept : root.label.name = HELLO ∨ root.label.name = RPC
    · simp [hreject, haccept]
    · simp [hreject, haccept]
  · intro hinit
    obtain ⟨array', h⟩ := processXml_returns (hinit a rfl) root
    exact ⟨_, _, h⟩

/-- A root of another name is accepted, and the array is filled with what is below it. -/
theorem stranger_accepted :
    KeyValuePairArray.Initialised (holding 10 [] .unset) ∧
    ToReject (some (holding 10 [] .unset)) (some (.element (lit "a") [] [.element (lit "b") [] []])) ∧
    ∃ array', Yields (processXml (some (holding 10 [] .unset))
        (some (.element (lit "a") [] [.element (lit "b") [] []]))) (some array', 0) ∧
      array'.size = .set 1 ∧ array'.requestType = .set (some (lit "a")) := by
  refine ⟨⟨10, [], .unset, by simp, rfl⟩, .inr (.inr ⟨_, rfl, by decide, by decide⟩), _,
    processXml_yields _ 10, rfl, rfl⟩

end NetconfServer.Parsing
