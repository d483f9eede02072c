import NetconfServer.Library.Links
import NetconfServer.Parsing.Process

/-! # The walk of a document with entities

Entities are not substituted. A reference points to the declaration of its entity through `children`,
a declaration to the nodes of its content through `children` and to the following declaration
through `next`; `traverse_xml` follows both links wherever they lead.
-/

namespace NetconfServer.Parsing
open Memory CString Library KeyValuePairArray Relation

/-- The declaration of a general entity with the nodes of its content. -/
structure EntityDeclaration where
  name : CString
  content : List XmlNode

/-- No node has a list of its own below an entity reference. -/
def BareReferences (nodes : List XmlNode) : Prop :=
  ∀ node ∈ Rose.forest nodes, node.label.type = .entityRef → node.children = []

instance (nodes : List XmlNode) : Decidable (BareReferences nodes) :=
  inferInstanceAs (Decidable (∀ node ∈ Rose.forest nodes, _ → node.children = []))

/-- A root element with the entity declarations of the internal subset. -/
structure EntityDocument where
  declarations : List EntityDeclaration
  root : XmlNode
  rootElement : root.label.type = .element
  bareRoot : BareReferences root.children
  bareContents : ∀ declaration ∈ declarations, BareReferences declaration.content

/-- A node is given by all that its own links lead to inside the list it is part of. -/
inductive Pointer where
  | node (node : XmlNode) (following : List XmlNode)
  | declaration (index : ℕ)

def firstOf : List XmlNode → Option Pointer
  | [] => none
  | node :: following => some (.node node following)

namespace EntityDocument
variable (doc : EntityDocument)

/-- The declaration that a name refers to. -/
def resolve (name : CString) : Option ℕ := doc.declarations.findIdx? (·.name = name)

def contentOf (index : ℕ) : List XmlNode :=
  (doc.declarations[index]?).elim [] EntityDeclaration.content

def data : Pointer → XmlData
  | .node node _ => node.label
  | .declaration index =>
    ⟨.entityDecl, (doc.declarations[index]?).elim .empty EntityDeclaration.name, .empty, []⟩

def children : Pointer → Option Pointer
  | .node node _ =>
    if node.label.type = .entityRef then (doc.resolve node.label.name).map .declaration
    else firstOf node.children
  | .declaration index => firstOf (doc.contentOf index)

def next : Pointer → Option Pointer
  | .node _ following => firstOf following
  | .declaration index =>
    if index + 1 < doc.declarations.length then some (.declaration (index + 1)) else none

def links : Links Pointer XmlData := ⟨doc.data, doc.children, doc.next⟩

/-- A node as `extract_xml` reads it: its own members and those of its first child. -/
def glance (p : Pointer) : XmlNode :=
  .node (doc.data p) ((doc.children p).toList.map fun child => .node (doc.data child) [])

/-- The loop of `traverse_xml`, stopped when `fuel` calls and turns are nested in each other. -/
def traverseFrom (xmlOperation : XmlNode → KeyValuePairArray → Exec KeyValuePairArray) :
    ℕ → Option Pointer → KeyValuePairArray → Exec KeyValuePairArray
  | _, none, array => return array
  | 0, some _, _ => fault .endlessRecursion
  | fuel + 1, some child, array => do
    let array ← xmlOperation (doc.glance child) array
    let array ← traverseFrom xmlOperation fuel (doc.children child) array
    traverseFrom xmlOperation fuel (doc.next child) array

/-- `traverse_xml(root, array, &extract_xml)`. -/
def traverse (fuel : ℕ) (array : KeyValuePairArray) : Exec KeyValuePairArray :=
  doc.traverseFrom extractXml fuel (doc.children (.node doc.root [])) array

/-- The declarations that a list of nodes refers to. -/
def references (nodes : List XmlNode) : List ℕ :=
  (Rose.forest nodes).filterMap fun node =>
    if node.label.type = .entityRef then doc.resolve node.label.name else none

/-- Every entity that a list of nodes refers to is declared. -/
def Declared (nodes : List XmlNode) : Prop :=
  ∀ node ∈ Rose.forest nodes, node.label.type = .entityRef → (doc.resolve node.label.name).isSome

instance (nodes : List XmlNode) : Decidable (doc.Declared nodes) :=
  inferInstanceAs (Decidable (∀ node ∈ Rose.forest nodes, _ → _))

/-- The documents with entities that the parser accepts: no entity refers to itself, directly or
through others. -/
structure Accepted : Prop where
  distinct : (doc.declarations.map EntityDeclaration.name).Nodup
  root : doc.Declared doc.root.children
  contents : ∀ declaration ∈ doc.declarations, doc.Declared declaration.content
  nonRecursive : ∀ i, ¬ TransGen (fun i j => j ∈ doc.references (doc.contentOf i)) i i

/-- From the first declaration that the body refers to, every one refers to later ones only. -/
def RefersForward : Prop :=
  ∀ i ∈ doc.references doc.root.children, ∀ j, i ≤ j →
    ∀ k ∈ doc.references (doc.contentOf j), j < k

variable {doc} {p : Option Pointer} {fuel : ℕ} {ts : List XmlNode} {array array' : KeyValuePairArray}

/-! ## The walk and the tree the links lead to -/

/-- `extract_xml` looks no further than the first child of a node. -/
theorem extractXml_glance {v : Pointer} {below : List XmlNode}
    (h : doc.links.unfold fuel (doc.children v) = some below) (array : KeyValuePairArray) :
    extractXml (doc.glance v) array = extractXml (.node (doc.data v) below) array := by
  rw [glance]
  cases hchild : doc.children v with
  | none =>
    rw [hchild, Links.unfold_none] at h
    cases h
    rfl
  | some child =>
    rw [hchild] at h
    cases fuel with
    | zero => cases h
    | succ fuel =>
      obtain ⟨_, _, -, -, rfl⟩ := Links.unfold_succ_eq_some.mp h
      rfl

/-- Where the links come to an end, the walk is one of the tree that they lead to. -/
theorem traverseFrom_eq (h : doc.links.unfold fuel p = some ts) (array : KeyValuePairArray) :
    doc.traverseFrom extractXml fuel p array = traverseSiblings extractXml ts array := by
  induction fuel generalizing p ts array with
  | zero =>
    cases p with
    | none =>
      cases h
      rfl
    | some v => cases h
  | succ fuel ih =>
    cases p with
    | none =>
      cases h
      rfl
    | some v =>
      obtain ⟨below, rest, hbelow, hrest, rfl⟩ := Links.unfold_succ_eq_some.mp h
      have hoperation := extractXml_glance hbelow
      have hchildren (array : KeyValuePairArray) :
          doc.traverseFrom extractXml fuel (doc.children v) array =
            traverseXml extractXml (.node (doc.data v) below) array := by
        rw [traverseXml]
        exact ih hbelow array
      have hnext (array : KeyValuePairArray) :
          doc.traverseFrom extractXml fuel (doc.next v) array =
            traverseSiblings extractXml rest array := ih hrest array
      rw [traverseFrom, traverseSiblings]
      simp only [hoperation, hchildren, hnext]
      rfl

theorem unfold_of_traverseFrom {supply supply' : Supply}
    (h : doc.traverseFrom extractXml fuel p array supply = .ok (array', supply')) :
    ∃ ts, doc.links.unfold fuel p = some ts := by
  induction fuel generalizing p array array' supply supply' with
  | zero =>
    cases p with
    | none => exact ⟨[], rfl⟩
    | some v => cases h
  | succ fuel ih =>
    cases p with
    | none => exact ⟨[], rfl⟩
    | some v =>
      obtain ⟨array₁, supply₁, -, h⟩ := bind_eq_ok.mp h
      obtain ⟨array₂, supply₂, hchildren, hnext⟩ := bind_eq_ok.mp h
      obtain ⟨below, hbelow⟩ := ih hchildren
      obtain ⟨rest, hrest⟩ := ih hnext
      exact ⟨_, Links.unfold_succ_eq_some.mpr ⟨below, rest, hbelow, hrest, rfl⟩⟩

/-- The walk returns exactly when the links below the root come to an end. -/
theorem traverse_yields_iff (harray : array.Initialised) :
    (∃ fuel array', Yields (doc.traverse fuel array) array') ↔
      ∃ fuel ts, doc.links.unfold fuel (doc.children (.node doc.root [])) = some ts := by
  constructor
  · rintro ⟨fuel, array', h⟩
    exact ⟨fuel, unfold_of_traverseFrom h⟩
  · rintro ⟨fuel, ts, h⟩
    obtain ⟨cap, l, rt, hl, rfl⟩ := harray
    have hwalk := @foldlM_extractXml_holding cap rt l (Rose.forest ts) hl
    rw [← (traverse_eq_foldlM extractXml).2, ← traverseFrom_eq h] at hwalk
    exact ⟨fuel, _, hwalk⟩

/-! ## Endless paths -/

theorem mem_references_cons {node : XmlNode} {nodes : List XmlNode} {k : ℕ} :
    k ∈ doc.references (node :: nodes) ↔
      (node.label.type = .entityRef ∧ doc.resolve node.label.name = some k) ∨
        k ∈ doc.references node.children ∨ k ∈ doc.references nodes := by
  simp only [references, Rose.forest_cons, Rose.descendants_eq, List.filterMap_cons,
    List.filterMap_append]
  by_cases htype : node.label.type = .entityRef
  · cases doc.resolve node.label.name with
    | none => simp [htype]
    | some i => simp [htype, eq_comm]
  · simp [htype]

theorem bareReferences_cons {node : XmlNode} {nodes : List XmlNode} :
    BareReferences (node :: nodes) ↔ (node.label.type = .entityRef → node.children = []) ∧
      BareReferences node.children ∧ BareReferences nodes := by
  simp only [BareReferences, Rose.forest_cons, Rose.descendants_eq, List.forall_mem_cons,
    List.forall_mem_append]

/-- Paths among the nodes of a list end if those that leave it for a declaration do. -/
theorem acc_firstOf (nodes : List XmlNode)
    (h : ∀ k ∈ doc.references nodes, Acc doc.links.Follows (.declaration k)) {v : Pointer}
    (hv : firstOf nodes = some v) : Acc doc.links.Follows v := by
  have key : (∀ node : XmlNode, (∀ k ∈ doc.references node.children,
        Acc doc.links.Follows (.declaration k)) → ∀ v, firstOf node.children = some v →
        Acc doc.links.Follows v) ∧
      ∀ nodes : List XmlNode, (∀ k ∈ doc.references nodes,
        Acc doc.links.Follows (.declaration k)) → ∀ v, firstOf nodes = some v →
        Acc doc.links.Follows v := by
    apply Rose.forest_induction
    · intro a nodes ih
      exact ih
    · intro _ v hv
      cases hv
    · intro node nodes ihnode ihnodes hrefs v hv
      cases hv
      constructor
      rintro w (hw | hw)
      · change (if _ then _ else _) = _ at hw
        split_ifs at hw with htype
        · obtain ⟨k, hk, rfl⟩ := Option.map_eq_some_iff.mp hw
          exact hrefs k (mem_references_cons.mpr (.inl ⟨htype, hk⟩))
        · exact ihnode (fun k hk => hrefs k (mem_references_cons.mpr (.inr (.inl hk)))) w hw
      · exact ihnodes (fun k hk => hrefs k (mem_references_cons.mpr (.inr (.inr hk)))) w hw
  exact key.2 nodes h v hv

/-- From the first node of a list there is a path to every declaration the list refers to. -/
theorem references_reached (nodes : List XmlNode) (hbare : BareReferences nodes) {k : ℕ}
    (hk : k ∈ doc.references nodes) :
    ∃ v, firstOf nodes = some v ∧ TransGen doc.links.Follows (.declaration k) v := by
  have key : (∀ node : XmlNode, BareReferences node.children → ∀ k ∈ doc.references node.children,
        ∃ v, firstOf node.children = some v ∧ TransGen doc.links.Follows (.declaration k) v) ∧
      ∀ nodes : List XmlNode, BareReferences nodes → ∀ k ∈ doc.references nodes,
        ∃ v, firstOf nodes = some v ∧ TransGen doc.links.Follows (.declaration k) v := by
    apply Rose.forest_induction
    · intro a nodes ih
      exact ih
    · intro _ k hk
      simp [references] at hk
    · intro node nodes ihnode ihnodes hbare k hk
      obtain ⟨hleaf, hbarenode, hbarenodes⟩ := bareReferences_cons.mp hbare
      refine ⟨.node node nodes, rfl, ?_⟩
      rcases mem_references_cons.mp hk with ⟨htype, hresolve⟩ | hk | hk
      · apply TransGen.single
        left
        change (if _ then _ else _) = _
        rw [if_pos htype, hresolve]
        rfl
      · have htype : node.label.type ≠ .entityRef := by
          intro htype
          rw [hleaf htype] at hk
          simp [references] at hk
        obtain ⟨v, hv, hpath⟩ := ihnode hbarenode k hk
        apply hpath.tail
        left
        change (if _ then _ else _) = _
        rw [if_neg htype, hv]
      · obtain ⟨v, hv, hpath⟩ := ihnodes hbarenodes k hk
        exact hpath.tail (.inr hv)
  exact key.2 nodes hbare k hk

/-- Every later declaration follows an earlier one. -/
theorem later_reached {i j : ℕ} (hij : i ≤ j) (hj : j < doc.declarations.length) :
    ReflTransGen doc.links.Follows (.declaration j) (.declaration i) := by
  induction j, hij using Nat.le_induction with
  | base => exact .refl
  | succ j hij ih =>
    apply ReflTransGen.head _ (ih (by omega))
    right
    exact if_pos hj

theorem contentOf_bare (j : ℕ) : BareReferences (doc.contentOf j) := by
  rw [contentOf]
  cases hj : doc.declarations[j]? with
  | none => simp [BareReferences]
  | some declaration => exact doc.bareContents declaration (List.mem_of_getElem? hj)

theorem lt_of_mem_references {j k : ℕ} (hk : k ∈ doc.references (doc.contentOf j)) :
    j < doc.declarations.length := by
  by_contra hj
  have hnone : doc.declarations[j]? = none := List.getElem?_eq_none (by omega)
  simp [contentOf, hnone, references] at hk

/-- A declaration that refers back to itself or an earlier one is on a cycle. -/
theorem cycle_of_backward {j k : ℕ} (hk : k ∈ doc.references (doc.contentOf j)) (hkj : k ≤ j) :
    TransGen doc.links.Follows (.declaration j) (.declaration j) := by
  obtain ⟨v, hv, hpath⟩ := references_reached _ (contentOf_bare j) hk
  exact .trans_right (later_reached hkj (lt_of_mem_references hk)) (hpath.tail (.inl hv))

/-- Paths from a declaration end when it and the later ones refer to later ones only. -/
theorem acc_declaration {i : ℕ} (h : ∀ j, i ≤ j → ∀ k ∈ doc.references (doc.contentOf j), j < k)
    (j : ℕ) (hij : i ≤ j) : Acc doc.links.Follows (.declaration j) := by
  -- The number of declarations from `j` on decreases along both links.
  induction hn : doc.declarations.length - j using Nat.strong_induction_on generalizing j with
  | _ n ih =>
    constructor
    rintro w (hw | hw)
    · apply acc_firstOf (doc.contentOf j) _ hw
      intro k hk
      have hlater := h j hij k hk
      have hj := lt_of_mem_references hk
      exact ih _ (by omega) k (by omega) rfl
    · change (if _ then _ else _) = _ at hw
      split_ifs at hw with hlast
      cases hw
      exact ih _ (by omega) (j + 1) (by omega) rfl

theorem children_root (doc : EntityDocument) :
    doc.children (.node doc.root []) = firstOf doc.root.children := by
  change (if _ then _ else _) = _
  rw [doc.rootElement, if_neg (by decide)]

/-- The links below the root come to an end when, from the first declaration that the body refers to
on, every one refers to later ones only. -/
theorem exists_unfold_iff_refersForward (doc : EntityDocument) :
    (∃ fuel ts, doc.links.unfold fuel (doc.children (.node doc.root [])) = some ts) ↔
      doc.RefersForward := by
  rw [Links.exists_unfold_iff, children_root]
  constructor
  · intro hacc i hi j hij k hk
    by_contra hback
    obtain ⟨v, hv, hpath⟩ := references_reached _ doc.bareRoot hi
    have hcycle := cycle_of_backward hk (Nat.le_of_not_lt hback)
    apply Links.not_acc_of_cycle hcycle
    apply (hacc v hv).inv_of_transGen
    exact .trans_right (later_reached hij (lt_of_mem_references hk)) hpath
  · intro hforward v hv
    apply acc_firstOf _ _ hv
    intro i hi
    exact acc_declaration (hforward i hi) i le_rfl

/-- When the walk of a document ends, whatever array it fills. -/
theorem walk_ends_iff (doc : EntityDocument) {array : KeyValuePairArray}
    (harray : array.Initialised) :
    (∃ fuel array', Yields (doc.traverse fuel array) array') ↔ doc.RefersForward :=
  (traverse_yields_iff harray).trans (exists_unfold_iff_refersForward doc)

def reference (name : CString) : XmlNode := .node ⟨.entityRef, name, .empty, []⟩ []

/-- A request whose body is a reference to `b`, with the declarations of `b` and `a` in this order;
`b` refers to `a`. -/
def forwardDocument : EntityDocument where
  declarations := [⟨lit "b", [reference (lit "a")]⟩, ⟨lit "a", [.text (lit "x")]⟩]
  root := .element RPC [] [reference (lit "b")]
  rootElement := rfl
  bareRoot := by decide
  bareContents := by decide

/-- The same with the declarations the other way round. -/
def backwardDocument : EntityDocument where
  declarations := [⟨lit "a", [.text (lit "x")]⟩, ⟨lit "b", [reference (lit "a")]⟩]
  root := .element RPC [] [reference (lit "b")]
  rootElement := rfl
  bareRoot := by decide
  bareContents := by decide

theorem walk_ends_iff_sample :
    ∃ fuel array', Yields (forwardDocument.traverse fuel (holding 10 [] .unset)) array' := by
  apply (walk_ends_iff forwardDocument ⟨10, [], .unset, by simp, rfl⟩).mpr
  intro i _ j _ k hk
  match j with
  | 0 =>
    obtain rfl : k = 1 := List.mem_singleton.mp hk
    decide
  | 1 => cases hk
  | j + 2 => cases hk

/-- The walk goes from `b` to `a`, on to the next declaration, which is `b`, and never ends. -/
theorem backward_reference_endless :
    backwardDocument.Accepted ∧
    ∀ fuel array', ¬ Yields (backwardDocument.traverse fuel (holding 10 [] .unset)) array' := by
  constructor
  · have hlt (i j : ℕ) (h : j ∈ backwardDocument.references (backwardDocument.contentOf i)) :
        j < i := by
      match i with
      | 0 => cases h
      | 1 =>
        obtain rfl : j = 0 := List.mem_singleton.mp h
        decide
      | i + 2 => cases h
    refine ⟨by decide, by decide, by decide, fun i hcycle => ?_⟩
    have hdown : ∀ j, TransGen (fun i j =>
        j ∈ backwardDocument.references (backwardDocument.contentOf i)) i j → j < i := by
      intro j hpath
      induction hpath with
      | single h => exact hlt _ _ h
      | tail _ h ih => exact (hlt _ _ h).trans ih
    exact lt_irrefl i (hdown i hcycle)
  · intro fuel array' h
    have hinit : (holding 10 [] .unset).Initialised := ⟨10, [], .unset, by simp, rfl⟩
    have hunfold := (traverse_yields_iff hinit).mp ⟨fuel, array', h⟩
    have hforward := (exists_unfold_iff_refersForward backwardDocument).mp hunfold
    exact absurd (hforward 1 (by decide) 1 le_rfl 0 (by decide)) (by decide)

/-! ## Documents as trees -/

open Classical in
/-- What the document is to the rest of the server. -/
noncomputable def xmlDocument (doc : EntityDocument) : XmlDocument :=
  if h : ∃ ts fuel, doc.links.unfold fuel (doc.children (.node doc.root [])) = some ts then
    .tree (.node doc.root.label h.choose)
  else .endless

theorem xmlDocument_eq_endless_iff : doc.xmlDocument = .endless ↔ ¬ doc.RefersForward := by
  rw [← exists_unfold_iff_refersForward, exists_comm, xmlDocument]
  split_ifs with h
  · simp [h]
  · simp [h]

/-- The server may take a document for what `xmlDocument` says. Where that is a tree, the walk along the
pointers does with enough fuel what the walk of the tree does, whatever array it fills and whatever is
refused; where it is not, no walk ever returns. -/
theorem pointers_walked_as_tree (doc : EntityDocument) :
    match doc.xmlDocument with
    | .tree root => ∃ fuel, ∀ more array,
        doc.traverse (fuel + more) array = traverseXml extractXml root array
    | .endless => ∀ fuel array supply r, doc.traverse fuel array supply ≠ .ok r := by
  rw [xmlDocument]
  split_ifs with hends
  · obtain ⟨fuel, hunfold⟩ := hends.choose_spec
    refine ⟨fuel, fun more array => ?_⟩
    rw [traverse, traverseFrom_eq (Links.unfold_mono hunfold (Nat.le_add_right _ _)), traverseXml]
  · intro fuel array supply r h
    obtain ⟨ts, hts⟩ := unfold_of_traverseFrom h
    exact hends ⟨ts, fuel, hts⟩

/-- Without references the links are those of the tree itself. -/
theorem unfold_plain (nodes : List XmlNode)
    (h : ∀ node ∈ Rose.forest nodes, node.label.type ≠ .entityRef) :
    ∃ fuel, doc.links.unfold fuel (firstOf nodes) = some nodes := by
  have key : (∀ node : XmlNode, (∀ n ∈ Rose.forest node.children, n.label.type ≠ .entityRef) →
        ∃ fuel, doc.links.unfold fuel (firstOf node.children) = some node.children) ∧
      ∀ nodes : List XmlNode, (∀ n ∈ Rose.forest nodes, n.label.type ≠ .entityRef) →
        ∃ fuel, doc.links.unfold fuel (firstOf nodes) = some nodes := by
    apply Rose.forest_induction
    · intro a nodes ih
      exact ih
    · intro _
      exact ⟨0, rfl⟩
    · intro node nodes ihnode ihnodes hplain
      simp only [Rose.forest_cons, Rose.descendants_eq, List.forall_mem_cons,
        List.forall_mem_append] at hplain
      obtain ⟨fuel₁, hbelow⟩ := ihnode hplain.2.1
      obtain ⟨fuel₂, hrest⟩ := ihnodes hplain.2.2
      have hchildren : doc.links.children (.node node nodes) = firstOf node.children :=
        if_neg hplain.1
      refine ⟨max fuel₁ fuel₂ + 1, Links.unfold_succ_eq_some.mpr ⟨node.children, nodes, ?_, ?_, ?_⟩⟩
      · rw [hchildren]
        exact Links.unfold_mono hbelow (Nat.le_max_left fuel₁ fuel₂)
      · exact Links.unfold_mono hrest (Nat.le_max_right fuel₁ fuel₂)
      · cases node
        rfl
  exact key.2 nodes h

theorem xmlDocument_plain (h : ∀ node ∈ doc.root.descendants, node.label.type ≠ .entityRef) :
    doc.xmlDocument = .tree doc.root := by
  rw [Rose.descendants_eq] at h
  obtain ⟨fuel, hfuel⟩ := @unfold_plain doc doc.root.children h
  rw [← children_root] at hfuel
  have hends : ∃ ts fuel, doc.links.unfold fuel (doc.children (.node doc.root [])) = some ts :=
    ⟨_, fuel, hfuel⟩
  obtain ⟨fuel', hfuel'⟩ := hends.choose_spec
  rw [xmlDocument, dif_pos hends, Links.unfold_unique hfuel' hfuel]
  cases doc.root
  rfl

end EntityDocument

end NetconfServer.Parsing
