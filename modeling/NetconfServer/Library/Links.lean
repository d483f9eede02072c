import Mathlib.Logic.Relation
import NetconfServer.Library.Rose

/-! # Nodes linked by first child and next sibling

Such nodes form a graph: a link can lead back to a node that was passed before. `unfold` follows
the links along paths of bounded length and gives the trees they lead to when the bound suffices.
It suffices for some bound exactly when no path from the node goes on forever.
-/

namespace NetconfServer.Library

structure Links (ν α : Type) where
  label : ν → α
  children : ν → Option ν
  next : ν → Option ν

namespace Links
open Relation
variable {ν α : Type} (links : Links ν α)

/-- The siblings from a pointer on, each with everything below it. -/
def unfold : ℕ → Option ν → Option (List (Rose α))
  | _, none => some []
  | 0, some _ => none
  | fuel + 1, some v =>
    (unfold fuel (links.children v)).bind fun below =>
      (unfold fuel (links.next v)).map fun rest => .node (links.label v) below :: rest

/-- `w` is where a link from `v` leads. -/
def Follows (w v : ν) : Prop := links.children v = some w ∨ links.next v = some w

variable {links} {v w : ν} {p : Option ν} {fuel fuel' : ℕ} {ts : List (Rose α)}

@[simp] theorem unfold_none (fuel : ℕ) : links.unfold fuel none = some [] := by
  cases fuel <;> rfl

theorem unfold_succ_eq_some :
    links.unfold (fuel + 1) (some v) = some ts ↔
      ∃ below rest, links.unfold fuel (links.children v) = some below ∧
        links.unfold fuel (links.next v) = some rest ∧
        ts = .node (links.label v) below :: rest := by
  rw [unfold]
  simp only [Option.bind_eq_some_iff, Option.map_eq_some_iff]
  constructor
  · rintro ⟨below, hbelow, rest, hrest, rfl⟩
    exact ⟨below, rest, hbelow, hrest, rfl⟩
  · rintro ⟨below, rest, hbelow, hrest, rfl⟩
    exact ⟨below, hbelow, rest, hrest, rfl⟩

/-- A larger bound does not change what the links lead to. -/
theorem unfold_mono (h : links.unfold fuel p = some ts) (hle : fuel ≤ fuel') :
    links.unfold fuel' p = some ts := by
  induction fuel generalizing fuel' p ts with
  | zero =>
    cases p with
    | none => simpa using h
    | some v => cases h
  | succ fuel ih =>
    cases p with
    | none => simpa using h
    | some v =>
      cases fuel' with
      | zero => omega
      | succ fuel' =>
        obtain ⟨below, rest, hbelow, hrest, rfl⟩ := unfold_succ_eq_some.mp h
        apply unfold_succ_eq_some.mpr
        exact ⟨below, rest, ih hbelow (by omega), ih hrest (by omega), rfl⟩

theorem unfold_unique {ts' : List (Rose α)} (h : links.unfold fuel p = some ts)
    (h' : links.unfold fuel' p = some ts') : ts = ts' := by
  have hleft := unfold_mono h (Nat.le_max_left fuel fuel')
  have hright := unfold_mono h' (Nat.le_max_right fuel fuel')
  exact Option.some.inj (hleft.symm.trans hright)

theorem acc_of_unfold (h : links.unfold fuel (some v) = some ts) : Acc links.Follows v := by
  induction fuel generalizing v ts with
  | zero => cases h
  | succ fuel ih =>
    obtain ⟨below, rest, hbelow, hrest, -⟩ := unfold_succ_eq_some.mp h
    constructor
    rintro w (hw | hw)
    · rw [hw] at hbelow
      exact ih hbelow
    · rw [hw] at hrest
      exact ih hrest

theorem exists_unfold_of_acc (h : Acc links.Follows v) :
    ∃ fuel ts, links.unfold fuel (some v) = some ts := by
  induction h with
  | intro v _ ih =>
    have hlink (p : Option ν) (hp : ∀ w, p = some w → links.Follows w v) :
        ∃ fuel ts, links.unfold fuel p = some ts := by
      cases p with
      | none => exact ⟨0, [], rfl⟩
      | some w => exact ih w (hp w rfl)
    obtain ⟨fuel₁, below, hbelow⟩ := hlink (links.children v) fun w => .inl
    obtain ⟨fuel₂, rest, hrest⟩ := hlink (links.next v) fun w => .inr
    refine ⟨max fuel₁ fuel₂ + 1, _, unfold_succ_eq_some.mpr ⟨below, rest, ?_, ?_, rfl⟩⟩
    · exact unfold_mono hbelow (Nat.le_max_left fuel₁ fuel₂)
    · exact unfold_mono hrest (Nat.le_max_right fuel₁ fuel₂)

/-- The links from a pointer come to an end exactly when no path is endless. -/
theorem exists_unfold_iff :
    (∃ fuel ts, links.unfold fuel p = some ts) ↔ ∀ v, p = some v → Acc links.Follows v := by
  cases p with
  | none =>
    apply iff_of_true
    · exact ⟨0, [], rfl⟩
    · intro v h
      cases h
  | some v =>
    constructor
    · rintro ⟨fuel, ts, h⟩ w hw
      cases hw
      exact acc_of_unfold h
    · intro h
      exact exists_unfold_of_acc (h v rfl)

/-- A cycle is an endless path. -/
theorem not_acc_of_cycle (h : TransGen links.Follows v v) : ¬ Acc links.Follows v := by
  intro hacc
  induction hacc.transGen with
  | intro v hbelow ih => exact ih v h h (hacc.inv_of_transGen h)

end Links

end NetconfServer.Library
