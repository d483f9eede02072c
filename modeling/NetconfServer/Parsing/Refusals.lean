import NetconfServer.Parsing.AssociationList
import NetconfServer.Parsing.Process

/-! # The walk when memory is refused

Each element makes two requests, one for the copy of its name and one for its value. The walk looks at
neither answer, so a refused name is stored as a `NULL` key, and a refused block of one byte is
written to.
-/

namespace NetconfServer.Parsing
open Memory CString Library KeyValuePairArray

theorem initKeyValuePair_null_eq (key : CString) (size : ℕ) (supply : Supply) :
    initKeyValuePair key none size supply =
      if supply 1 then
        .ok ((⟨if supply 0 then some key else none, some [0]⟩, SUCCESS), later supply 2)
      else .error .nullPointer := by
  rw [initKeyValuePair, bind_of_ok (strdup_eq key supply)]
  refine (bind_of_ok (malloc_eq (later supply 1))).trans ?_
  rw [later_apply, Nat.zero_add]
  cases supply 1 <;> rfl

theorem initKeyValuePair_some_eq (key : CString) (value : List UInt8) (supply : Supply) :
    initKeyValuePair key (some value) value.length supply =
      .ok ((⟨if supply 0 then some key else none, if supply 1 then some value else none⟩,
        if supply 1 then SUCCESS else FAIL), later supply 2) := by
  have hcopy : memcpy value value.length = pure value := by simp [memcpy]
  rw [initKeyValuePair, bind_of_ok (strdup_eq key supply)]
  refine (bind_of_ok (malloc_eq (later supply 1))).trans ?_
  rw [later_apply, Nat.zero_add, hcopy]
  cases supply 1 <;> rfl

/-! ## One element -/

/-- The content that `extract_xml` passes on for an element, `NULL` when no text leads it. -/
def passedValue (node : XmlNode) : Option CString :=
  match node.children with
  | [] => none
  | child :: _ => if child.label.type = NodeType.text then some child.label.content else none

/-- The pair of an element when its two requests are answered with `key` and `value`. -/
def pairOf (key value : Bool) (node : XmlNode) : KeyValuePair where
  key := if key then some node.label.name else none
  value := match passedValue node with
    | none => some [0]
    | some content => if value then some content.toBlock else none

variable {supply : Supply} {node : XmlNode}

theorem elementPair_eq (node : XmlNode) (supply : Supply) :
    elementPair node supply =
      if passedValue node = none ∧ supply 1 = false then .error .nullPointer
      else .ok ((pairOf (supply 0) (supply 1) node, if supply 1 then SUCCESS else FAIL),
        later supply 2) := by
  change (match passedValue node with
    | none => initKeyValuePair node.label.name none 0
    | some content => initKeyValuePair node.label.name (some content.toBlock)
        (content.bytes.length + 1)) supply = _
  cases hvalue : passedValue node with
  | none =>
    change initKeyValuePair node.label.name none 0 supply = _
    rw [initKeyValuePair_null_eq]
    cases hblock : supply 1 <;> simp [pairOf, hvalue]
  | some content =>
    have hlength : content.bytes.length + 1 = content.toBlock.length := by simp [toBlock]
    change initKeyValuePair node.label.name (some content.toBlock) (content.bytes.length + 1)
      supply = _
    rw [hlength, initKeyValuePair_some_eq]
    simp [pairOf, hvalue]

/-! ## The walk -/

/-- The pairs of the elements when the walk starts at `supply`. -/
def pairsOf (supply : Supply) : List XmlNode → List KeyValuePair
  | [] => []
  | node :: nodes => pairOf (supply 0) (supply 1) node :: pairsOf (later supply 2) nodes

/-- Every element without a text gets its block of one byte. -/
def Written (supply : Supply) : List XmlNode → Prop
  | [] => True
  | node :: nodes => (passedValue node = none → supply 1 = true) ∧ Written (later supply 2) nodes

variable {cap : ℕ} {rt : Cell (Option CString)} {pairs : Bounded KeyValuePair cap}

/-- The walk only stops at elements. -/
theorem foldlM_extractXml_filter (nodes : List XmlNode) (array : KeyValuePairArray) :
    nodes.foldlM (fun array node => extractXml node array) array =
      (nodes.filter (·.label.type = .element)).foldlM
        (fun array node => extractXml node array) array := by
  induction nodes generalizing array with
  | nil => rfl
  | cons node nodes ih =>
    by_cases htype : node.label.type = .element
    · rw [List.filter_cons_of_pos (by simpa using htype), List.foldlM_cons, List.foldlM_cons]
      simp only [ih]
    · rw [List.filter_cons_of_neg (by simpa using htype), List.foldlM_cons, extractXml_skip htype,
        pure_bind, ih]

theorem addKeyValue_push (kv : KeyValuePair) :
    ∃ code, addKeyValue ((Contents.granted pairs).toArray rt) kv =
      pure ((Contents.granted (pairs.push kv)).toArray rt, code) := by
  rcases Nat.lt_or_eq_of_le pairs.fits with hroom | hfull
  · exact ⟨SUCCESS, Contents.addKeyValue_granted hroom kv⟩
  · rw [Bounded.push_full hfull]
    exact ⟨FAIL, @Contents.addKeyValue_at_capacity _ _ (.granted pairs) hfull kv⟩

theorem extractXml_at (htype : node.label.type = .element) :
    extractXml node ((Contents.granted pairs).toArray rt) supply =
      if passedValue node = none ∧ supply 1 = false then .error .nullPointer
      else .ok ((Contents.granted (pairs.push (pairOf (supply 0) (supply 1) node))).toArray rt,
        later supply 2) := by
  rw [extractXml_eq, if_pos htype]
  by_cases hfault : passedValue node = none ∧ supply 1 = false
  · have hpair := elementPair_eq node supply
    rw [if_pos hfault] at hpair
    rw [if_pos hfault]
    exact bind_of_error hpair
  · have hpair := elementPair_eq node supply
    rw [if_neg hfault] at hpair
    rw [if_neg hfault, bind_of_ok hpair]
    obtain ⟨code, hadd⟩ := @addKeyValue_push _ rt pairs (pairOf (supply 0) (supply 1) node)
    dsimp only
    rw [hadd]
    rfl

/-- The walk of some elements, on an array with a block. -/
theorem walk_written (elements : List XmlNode)
    (htypes : ∀ node ∈ elements, node.label.type = .element) (h : Written supply elements) :
    elements.foldlM (fun array node => extractXml node array)
        ((Contents.granted pairs).toArray rt) supply =
      .ok ((Contents.granted (pairs.pushAll (pairsOf supply elements))).toArray rt,
        later supply (2 * elements.length)) := by
  induction elements generalizing pairs supply with
  | nil => rfl
  | cons node elements ih =>
    have hnode := @extractXml_at supply node _ rt pairs (htypes node List.mem_cons_self)
    have hfault : ¬ (passedValue node = none ∧ supply 1 = false) := by
      rintro ⟨hvalue, hrefused⟩
      exact absurd ((h.1 hvalue).symm.trans hrefused) (by decide)
    rw [if_neg hfault] at hnode
    rw [List.foldlM_cons, bind_of_ok hnode,
      ih (fun node hn => htypes node (List.mem_cons_of_mem _ hn)) h.2, later_later,
      List.length_cons, Nat.mul_succ, Nat.add_comm]
    rfl

theorem walk_unwritten (elements : List XmlNode)
    (htypes : ∀ node ∈ elements, node.label.type = .element) (h : ¬ Written supply elements) :
    elements.foldlM (fun array node => extractXml node array)
      ((Contents.granted pairs).toArray rt) supply = .error .nullPointer := by
  induction elements generalizing pairs supply with
  | nil => exact absurd trivial h
  | cons node elements ih =>
    have hnode := @extractXml_at supply node _ rt pairs (htypes node List.mem_cons_self)
    rw [List.foldlM_cons]
    by_cases hfault : passedValue node = none ∧ supply 1 = false
    · rw [if_pos hfault] at hnode
      exact bind_of_error hnode
    · rw [if_neg hfault] at hnode
      rw [bind_of_ok hnode]
      apply ih fun node hn => htypes node (List.mem_cons_of_mem _ hn)
      intro hrest
      refine h ⟨fun hvalue => ?_, hrest⟩
      cases hgrant : supply 1 with
      | true => rfl
      | false => exact absurd ⟨hvalue, hgrant⟩ hfault

/-! ## Element by element -/

variable {elements : List XmlNode}

theorem written_iff : Written supply elements ↔
    ∀ j node, elements[j]? = some node → passedValue node = none → supply (2 * j + 1) = true := by
  induction elements generalizing supply with
  | nil => simp [Written]
  | cons node elements ih =>
    rw [Written, ih]
    constructor
    · rintro ⟨hfirst, hrest⟩ (_ | j) node' hnode hvalue
      · cases hnode
        exact hfirst hvalue
      · exact hrest j node' hnode hvalue
    · intro h
      exact ⟨h 0 node rfl, fun j node' hnode hvalue => h (j + 1) node' hnode hvalue⟩

theorem pairsOf_getElem? (j : ℕ) : (pairsOf supply elements)[j]? =
    elements[j]?.map (pairOf (supply (2 * j)) (supply (2 * j + 1))) := by
  induction elements generalizing supply j with
  | nil => rfl
  | cons node elements ih =>
    cases j with
    | zero => rfl
    | succ j => exact ih j

/-- The loop of a lookup gets to a pair of `key` before any `NULL` key. -/
def Reaches (key : CString) : List KeyValuePair → Prop
  | [] => False
  | kv :: l => kv.key = some key ∨ kv.key ≠ none ∧ Reaches key l

/-- An element of that name is among the first `n`, and no name up to it was refused. -/
theorem reaches_pairsOf_iff {key : CString} {n : ℕ} : Reaches key ((pairsOf supply elements).take n) ↔
    ∃ j node, j < n ∧ elements[j]? = some node ∧ node.label.name = key ∧
      ∀ i ≤ j, supply (2 * i) = true := by
  induction elements generalizing supply n with
  | nil => simp [pairsOf, Reaches]
  | cons node elements ih =>
    cases n with
    | zero => simp [Reaches]
    | succ n =>
      rw [pairsOf, List.take_succ_cons, Reaches, ih]
      constructor
      · rintro (hfirst | ⟨hkey, j, node', hj, hnode, hname, hgranted⟩)
        · cases hgrant : supply 0 with
          | false => simp [pairOf, hgrant] at hfirst
          | true =>
            refine ⟨0, node, Nat.succ_pos n, rfl, by simpa [pairOf, hgrant] using hfirst, ?_⟩
            intro i hi
            rwa [Nat.le_zero.mp hi]
        · refine ⟨j + 1, node', Nat.succ_lt_succ hj, hnode, hname, ?_⟩
          rintro (_ | i) hi
          · simpa [pairOf] using hkey
          · exact hgranted i (Nat.le_of_succ_le_succ hi)
      · rintro ⟨j, node', hj, hnode, hname, hgranted⟩
        have hfirst : supply 0 = true := hgranted 0 (Nat.zero_le j)
        cases j with
        | zero =>
          cases hnode
          exact .inl (by simp [pairOf, hfirst, hname])
        | succ j =>
          refine .inr ⟨by simp [pairOf, hfirst], j, node', Nat.lt_of_succ_lt_succ hj, hnode, hname, ?_⟩
          intro i hi
          exact hgranted (i + 1) (Nat.succ_le_succ hi)

/-- Every pair has a key. -/
def Whole (l : List KeyValuePair) : Prop := ∀ kv ∈ l, kv.key ≠ none

theorem whole_pairsOf_iff {n : ℕ} : Whole ((pairsOf supply elements).take n) ↔
    ∀ j < n, j < elements.length → supply (2 * j) = true := by
  constructor
  · intro h j hj hlength
    have hget : ((pairsOf supply elements).take n)[j]? =
        some (pairOf (supply (2 * j)) (supply (2 * j + 1)) elements[j]) := by
      rw [List.getElem?_take_of_lt hj, pairsOf_getElem?, List.getElem?_eq_getElem hlength]
      rfl
    simpa [pairOf] using h _ (List.mem_of_getElem? hget)
  · intro h kv hkv
    obtain ⟨j, hj⟩ := List.mem_iff_getElem?.mp hkv
    rw [List.getElem?_take, pairsOf_getElem?] at hj
    split_ifs at hj with hn
    obtain ⟨node, hnode, rfl⟩ := Option.map_eq_some_iff.mp hj
    have hgrant := h j hn (List.getElem?_eq_some_iff.mp hnode).1
    simp [pairOf, hgrant]

theorem search_reaches {key : CString} {l : List KeyValuePair} (h : Reaches key l) :
    ∃ kv, search key l = pure (some kv) := by
  induction l with
  | nil => cases h
  | cons kv l ih =>
    by_cases hkey : kv.key = some key
    · refine ⟨kv, ?_⟩
      rw [search, hkey]
      exact if_pos rfl
    · rcases h with hfirst | ⟨hkeyed, hrest⟩
      · exact absurd hfirst hkey
      · obtain ⟨k, hk⟩ := Option.ne_none_iff_exists'.mp hkeyed
        have hne : ¬ key = k := fun heq => hkey (heq ▸ hk)
        obtain ⟨found, hfound⟩ := ih hrest
        refine ⟨found, ?_⟩
        rw [search, hk, ← hfound]
        exact if_neg hne

/-- A search that does not get to its key ends at the first `NULL` key. -/
theorem search_not_reaches {key : CString} {l : List KeyValuePair} (h : ¬ Reaches key l) :
    (Whole l → search key l = pure none) ∧ (¬ Whole l → search key l = fault .nullPointer) := by
  induction l with
  | nil => exact ⟨fun _ => rfl, fun hnull => absurd (by simp [Whole]) hnull⟩
  | cons kv l ih =>
    obtain ⟨hkey, hrest⟩ := not_or.mp h
    cases hk : kv.key with
    | none =>
      refine ⟨fun hwhole => absurd hk (hwhole kv List.mem_cons_self), fun _ => ?_⟩
      rw [search, hk]
      rfl
    | some k =>
      have hne : ¬ key = k := fun heq => hkey (heq ▸ hk)
      have hkeyed : kv.key ≠ none := by simp [hk]
      have hnext : search key (kv :: l) = search key l := by
        rw [search, hk]
        exact if_neg hne
      have hwhole : Whole (kv :: l) ↔ Whole l := by simp [Whole, hkeyed]
      rw [hnext, hwhole]
      exact ih fun hreaches => hrest ⟨hkeyed, hreaches⟩

end NetconfServer.Parsing
