import NetconfServer.Library.Rose
import NetconfServer.Memory.CString

/-! # The part of libxml2 the server calls

The library is not part of the repository. Its node type is modelled as the tree the walk sees;
the parser, the reader of `xmlNewChild`'s content argument and the serialiser are parameters.
-/

namespace NetconfServer.Parsing
open Memory CString Library

inductive NodeType where
  | element
  | text
  | cdata
  | entityRef
  | entityDecl
  | pi
  | comment
  deriving DecidableEq

/-- The members of `xmlNode` other than its links. -/
structure XmlData where
  type : NodeType
  name : CString
  content : CString
  properties : List (CString × CString)

/-- A node with everything that `children` and `next` lead to. -/
abbrev XmlNode := Rose XmlData

/-- What a document's root leads to: a finite tree, or pointers that never come to an end, as an
entity reference can produce that leads back to itself through the declarations of the DTD. -/
inductive XmlDocument where
  | tree (root : XmlNode)
  | endless

structure Libxml2 where
  /-- `none` is the `NULL` returned for a text that is not a well-formed document. -/
  xmlReadMemory : CString → Option XmlDocument
  /-- The nodes that `xmlNewChild` makes of its content argument. -/
  xmlStringGetNodeList : CString → List XmlNode
  /-- `none` when the buffer is left `NULL`. -/
  xmlDocDumpFormatMemory : XmlNode → Option CString

def XmlNode.element (name : CString) (properties : List (CString × CString))
    (children : List XmlNode) : XmlNode :=
  .node ⟨.element, name, .empty, properties⟩ children

def XmlNode.text (content : CString) : XmlNode :=
  .node ⟨.text, lit "text", content, []⟩ []

/-- A document without entity references: only elements have children. -/
def EntityFree (root : XmlNode) : Prop :=
  root.All fun node => node.label.type ≠ .entityRef ∧ node.label.type ≠ .entityDecl ∧
    (node.label.type ≠ .element → node.children = [])

instance (root : XmlNode) : Decidable (EntityFree root) :=
  inferInstanceAs (Decidable (_ ∧ ∀ node ∈ root.descendants, _))

/-- The element children of a node. -/
def childElements (node : XmlNode) : List XmlNode :=
  node.children.filter (·.label.type = .element)

/-- The elements properly below a node, in document order. -/
def elements (node : XmlNode) : List XmlNode :=
  node.descendants.filter (·.label.type = .element)

/-- The content of the first child when that child is a text node. -/
def leadingText (node : XmlNode) : CString :=
  match node.children with
  | [] => .empty
  | child :: _ => if child.label.type = .text then child.label.content else .empty

/-- The text and CDATA children of a node, concatenated. -/
def textContent (node : XmlNode) : CString :=
  node.children.foldr (fun child rest =>
    if child.label.type = .text ∨ child.label.type = .cdata then child.label.content ++ rest
    else rest) .empty

theorem elements_eq (node : XmlNode) :
    elements node = (Rose.forest node.children).filter (·.label.type = .element) := by
  rw [elements, Rose.descendants_eq]

/-- In an entity-free document the first element in document order is the first element child. -/
theorem elements_head {node : XmlNode} (h : EntityFree node) :
    (elements node).head? = (childElements node).head? := by
  have key : ∀ ts : List XmlNode, (∀ t ∈ ts, EntityFree t) →
      ((Rose.forest ts).filter (·.label.type = .element)).head? =
        (ts.filter (·.label.type = .element)).head? := by
    intro ts
    induction ts with
    | nil => intro _; simp
    | cons t ts ih =>
      intro hts
      by_cases ht : t.label.type = .element
      · simp [ht]
      · have hempty : t.children = [] := (hts t List.mem_cons_self).1.2.2 ht
        have hrest := ih fun u hu => hts u (List.mem_cons_of_mem _ hu)
        simp [ht, Rose.descendants_eq, hempty, hrest]
  rw [elements_eq, childElements]
  exact key _ fun t ht => h.child ht

end NetconfServer.Parsing
