import Mathlib.Data.List.Basic

/-! # Finitely branching ordered trees

A node carries a label and the list of its children. `descendants` lists the proper descendants
in document order: every node before its own children, siblings from left to right.
-/

namespace NetconfServer.Library

inductive Rose (α : Type) where
  | node (label : α) (children : List (Rose α))

namespace Rose
variable {α : Type}

def label : Rose α → α
  | .node a _ => a

def children : Rose α → List (Rose α)
  | .node _ ts => ts

@[simp] theorem label_node (a : α) (ts : List (Rose α)) : (node a ts).label = a := rfl

@[simp] theorem children_node (a : α) (ts : List (Rose α)) : (node a ts).children = ts := rfl

mutual

def descendants : Rose α → List (Rose α)
  | .node _ ts => forest ts

/-- The nodes of a list of trees in document order. -/
def forest : List (Rose α) → List (Rose α)
  | [] => []
  | t :: ts => t :: (t.descendants ++ forest ts)

end

@[simp] theorem forest_nil : forest ([] : List (Rose α)) = [] := by rw [forest]

@[simp] theorem forest_cons (t : Rose α) (ts : List (Rose α)) :
    forest (t :: ts) = t :: (t.descendants ++ forest ts) := by rw [forest]

theorem descendants_eq (t : Rose α) : t.descendants = forest t.children := by
  cases t with
  | node a ts => rw [descendants, children]

theorem mem_forest_of_mem {t : Rose α} {ts : List (Rose α)} (h : t ∈ ts) : t ∈ forest ts := by
  induction ts with
  | nil => cases h
  | cons u us ih =>
    rw [forest_cons]
    rcases List.mem_cons.mp h with rfl | h
    · exact List.mem_cons_self
    · exact List.mem_cons_of_mem _ (List.mem_append_right _ (ih h))

theorem mem_descendants_of_mem_children {t u : Rose α} (h : u ∈ t.children) : u ∈ t.descendants := by
  rw [descendants_eq]
  exact mem_forest_of_mem h

/-- Induction over a tree and, at the same time, over a list of trees. -/
theorem forest_induction {P : Rose α → Prop} {Q : List (Rose α) → Prop}
    (node : ∀ a ts, Q ts → P (.node a ts)) (nil : Q [])
    (cons : ∀ t ts, P t → Q ts → Q (t :: ts)) : (∀ t, P t) ∧ ∀ ts, Q ts :=
  ⟨fun t => @Rose.rec α P Q node nil cons t,
    fun ts => @Rose.rec_1 α P Q node nil cons ts⟩

/-- A node below a descendant is a descendant. -/
theorem descendants_trans {t u v : Rose α} (hu : u ∈ t.descendants) (hv : v ∈ u.descendants) :
    v ∈ t.descendants := by
  have h : (∀ t : Rose α, u ∈ t.descendants → v ∈ t.descendants) ∧
      ∀ ts : List (Rose α), u ∈ forest ts → v ∈ forest ts := by
    apply forest_induction
    · intro a ts ih h
      rw [descendants_eq] at h ⊢
      exact ih h
    · intro h
      simp at h
    · intro t ts iht ihts h
      simp only [forest_cons, List.mem_cons, List.mem_append] at h ⊢
      rcases h with rfl | h | h
      · exact .inr (.inl hv)
      · exact .inr (.inl (iht h))
      · exact .inr (.inr (ihts h))
  exact h.1 t hu

/-- Every node of the tree, the root included, has property `p`. -/
def All (p : Rose α → Prop) (t : Rose α) : Prop := p t ∧ ∀ u ∈ t.descendants, p u

theorem All.child {p : Rose α → Prop} {t u : Rose α} (h : t.All p) (hu : u ∈ t.children) : u.All p :=
  ⟨h.2 u (mem_descendants_of_mem_children hu),
    fun v hv => h.2 v (descendants_trans (mem_descendants_of_mem_children hu) hv)⟩

end Rose

end NetconfServer.Library
