import Mathlib.Data.Set.Card

/-! # Heaps

A fragment is a partial map from addresses to blocks. A heap is a fragment with the number of
addresses handed out so far: an address is never handed out twice, so a block that was released
stays unusable.
-/

namespace NetconfServer.Library

def Fragment (β : Type) := ℕ → Option β

namespace Fragment
variable {β : Type}

def empty : Fragment β := fun _ => none

def single (p : ℕ) (b : β) : Fragment β := fun q => if q = p then some b else none

def Disjoint (f g : Fragment β) : Prop := ∀ p, f p = none ∨ g p = none

def union (f g : Fragment β) : Fragment β := fun p => (f p).or (g p)

/-- How many addresses hold a block. -/
noncomputable def size (f : Fragment β) : ℕ∞ := {p | f p ≠ none}.encard

variable {f g h : Fragment β}

@[ext] theorem ext (heq : ∀ p, f p = g p) : f = g := funext heq

@[simp] theorem empty_apply (p : ℕ) : (empty : Fragment β) p = none := rfl

@[simp] theorem union_apply (f g : Fragment β) (p : ℕ) : union f g p = (f p).or (g p) := rfl

@[simp] theorem single_self (p : ℕ) (b : β) : single p b p = some b := if_pos rfl

theorem single_of_ne {p q : ℕ} (b : β) (hne : q ≠ p) : single p b q = none := if_neg hne

theorem Disjoint.symm (hd : Disjoint f g) : Disjoint g f := fun p => (hd p).symm

theorem disjoint_empty (f : Fragment β) : Disjoint f empty := fun _ => .inr rfl

theorem union_comm (hd : Disjoint f g) : union f g = union g f := by
  ext p : 1
  rcases hd p with hp | hp <;> simp [hp]

theorem union_assoc (f g h : Fragment β) : union (union f g) h = union f (union g h) := by
  ext p : 1
  simp [Option.or_assoc]

@[simp] theorem empty_union (f : Fragment β) : union empty f = f := by
  ext p : 1
  simp

theorem disjoint_union_right : Disjoint f (union g h) ↔ Disjoint f g ∧ Disjoint f h := by
  simp only [Disjoint, union_apply, Option.or_eq_none_iff, ← forall_and]
  apply forall_congr'
  intro p
  tauto

theorem disjoint_union_left : Disjoint (union f g) h ↔ Disjoint f h ∧ Disjoint g h := by
  simp only [Disjoint, union_apply, Option.or_eq_none_iff, ← forall_and]
  apply forall_congr'
  intro p
  tauto

theorem disjoint_single {p : ℕ} {b : β} : Disjoint (single p b) f ↔ f p = none := by
  constructor
  · intro hd
    simpa using hd p
  · intro hp q
    by_cases hq : q = p
    · exact .inr (hq ▸ hp)
    · exact .inl (single_of_ne b hq)

theorem size_empty : (empty : Fragment β).size = 0 := by simp [size]

theorem size_single (p : ℕ) (b : β) : (single p b).size = 1 := by
  have hset : {q | single p b q ≠ none} = {p} := by
    ext q
    simp [single]
  rw [size, hset, Set.encard_singleton]

theorem size_union (hd : Disjoint f g) : (union f g).size = f.size + g.size := by
  have hset : {p | union f g p ≠ none} = {p | f p ≠ none} ∪ {p | g p ≠ none} := by
    ext p
    simp only [union_apply, Set.mem_ofPred_eq, Set.mem_union, ne_eq, Option.or_eq_none_iff]
    tauto
  rw [size, hset, Set.encard_union_eq]
  · rfl
  · exact Set.disjoint_left.mpr fun p hf hg => (hd p).elim hf hg

end Fragment

structure Heap (β : Type) where
  next : ℕ
  cells : Fragment β
  fresh : ∀ p, next ≤ p → cells p = none

namespace Heap
variable {β : Type}

def empty : Heap β := ⟨0, .empty, fun _ _ => rfl⟩

/-- The heap with a block at the next address. -/
def grant (h : Heap β) (b : β) : Heap β where
  next := h.next + 1
  cells p := if p = h.next then some b else h.cells p
  fresh p hp := by
    rw [if_neg (by omega)]
    exact h.fresh p (by omega)

/-- The heap with the content of a block replaced; nothing happens where there is no block. -/
def write (h : Heap β) (p : ℕ) (b : β) : Heap β where
  next := h.next
  cells q := if q = p then (h.cells p).map (fun _ => b) else h.cells q
  fresh q hq := by
    split_ifs with hp
    · rw [← hp, h.fresh q hq, Option.map_none]
    · exact h.fresh q hq

def release (h : Heap β) (p : ℕ) : Heap β where
  next := h.next
  cells q := if q = p then none else h.cells q
  fresh q hq := by
    split_ifs
    · rfl
    · exact h.fresh q hq

variable {h : Heap β} {p : ℕ} {b b' : β} {f : Fragment β}

theorem disjoint_next (h : Heap β) (b : β) : Fragment.Disjoint (.single h.next b) h.cells :=
  Fragment.disjoint_single.mpr (h.fresh h.next le_rfl)

theorem cells_grant (h : Heap β) (b : β) :
    (h.grant b).cells = .union (.single h.next b) h.cells := by
  ext q : 1
  rw [Fragment.union_apply]
  by_cases hq : q = h.next
  · simp [grant, hq]
  · rw [Fragment.single_of_ne b hq, Option.none_or]
    exact if_neg hq

theorem cells_of_union (hc : h.cells = .union (.single p b) f) : h.cells p = some b := by
  rw [hc, Fragment.union_apply, Fragment.single_self, Option.some_or]

theorem cells_write (hc : h.cells = .union (.single p b) f) :
    (h.write p b').cells = .union (.single p b') f := by
  ext q : 1
  by_cases hq : q = p
  · subst hq
    simp [write, cells_of_union hc]
  · rw [Fragment.union_apply, Fragment.single_of_ne b' hq, Option.none_or]
    refine (if_neg hq).trans ?_
    rw [hc, Fragment.union_apply, Fragment.single_of_ne b hq, Option.none_or]

theorem cells_release (hd : Fragment.Disjoint (.single p b) f)
    (hc : h.cells = .union (.single p b) f) : (h.release p).cells = f := by
  ext q : 1
  by_cases hq : q = p
  · subst hq
    exact (if_pos rfl).trans (Fragment.disjoint_single.mp hd).symm
  · refine (if_neg hq).trans ?_
    rw [hc, Fragment.union_apply, Fragment.single_of_ne b hq, Option.none_or]

/-- No more blocks are held than addresses were handed out. -/
theorem size_le_next (h : Heap β) : h.cells.size ≤ h.next := by
  have hsubset : {p | h.cells p ≠ none} ⊆ (Finset.range h.next : Set ℕ) := by
    intro p hp
    by_contra hout
    exact hp (h.fresh p (by simpa using hout))
  have hle := Set.encard_le_encard hsubset
  rwa [Set.encard_coe_eq_coe_finsetCard, Finset.card_range] at hle

end Heap

end NetconfServer.Library
