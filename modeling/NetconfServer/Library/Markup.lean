import Mathlib.Data.List.Basic

/-! # Text with references

In escaped text the byte `&` starts a reference. `Reads` relates such text to what it stands for,
and leaves open what becomes of a reference that is not well formed, except that its `&` is lost.
-/

namespace NetconfServer.Library.Markup

inductive Piece where
  | byte (b : UInt8)
  /-- A reference to an entity that is not predefined stays a reference. -/
  | entity (name : List UInt8)

inductive Reads : List UInt8 → List Piece → Prop where
  | nil : Reads [] []
  | literal {b : UInt8} {c : List UInt8} {ps : List Piece} (hb : b ≠ 38) (h : Reads c ps) :
      Reads (b :: c) (.byte b :: ps)
  /-- A character reference or a predefined entity stands for less text than it is; a malformed one
  for none. -/
  | character {source s c : List UInt8} {ps : List Piece} (hshort : s.length ≤ source.length)
      (h : Reads c ps) : Reads (38 :: (source ++ c)) (s.map .byte ++ ps)
  | entity {source name c : List UInt8} {ps : List Piece} (h : Reads c ps) :
      Reads (38 :: (source ++ c)) (.entity name :: ps)
  /-- A reference without an end takes with it what was not yet read for good. -/
  | unterminated {c : List UInt8} (h : 38 ∈ c) : Reads c []

variable {c s : List UInt8} {ps : List Piece}

theorem reads_of_notMem (h : 38 ∉ c) : Reads c (c.map .byte) := by
  induction c with
  | nil => exact .nil
  | cons b c ih =>
    obtain ⟨hb, hc⟩ := List.ne_and_not_mem_of_not_mem_cons h
    exact .literal hb.symm (ih hc)

theorem Reads.eq_of_notMem (h : Reads c ps) (hc : 38 ∉ c) : ps = c.map .byte := by
  induction h with
  | nil => rfl
  | literal hb h ih =>
    rw [List.map_cons, ih (List.ne_and_not_mem_of_not_mem_cons hc).2]
  | character hshort h ih => simp at hc
  | entity h ih => simp at hc
  | unterminated h => exact absurd h hc

/-- Text that reads as bytes alone is no longer than its source, and shorter with a reference. -/
theorem Reads.length_le (h : Reads c ps) (hbytes : ps = s.map .byte) :
    s.length ≤ c.length ∧ (38 ∈ c → s.length < c.length) := by
  induction h generalizing s with
  | nil =>
    obtain rfl : s = [] := List.map_eq_nil_iff.mp hbytes.symm
    simp
  | literal hb h ih =>
    cases s with
    | nil => cases hbytes
    | cons b' s =>
      have hrest := ih (List.tail_eq_of_cons_eq hbytes)
      constructor
      · simpa using hrest.1
      · intro hmem
        have hlt := hrest.2 (List.mem_of_ne_of_mem hb.symm hmem)
        simpa using hlt
  | character hshort h ih =>
    rename_i source s' c ps
    obtain ⟨s₁, s₂, rfl, h₁, h₂⟩ := List.map_eq_append_iff.mp hbytes.symm
    have hrest := (ih h₂.symm).1
    have hlength : s₁.length = s'.length := by
      have hmap := congrArg List.length h₁
      simpa using hmap
    have hlt : (s₁ ++ s₂).length < (38 :: (source ++ c)).length := by
      simp only [List.length_append, List.length_cons]
      omega
    exact ⟨Nat.le_of_lt hlt, fun _ => hlt⟩
  | entity h ih =>
    cases s <;> cases hbytes
  | unterminated h =>
    obtain rfl : s = [] := List.map_eq_nil_iff.mp hbytes.symm
    exact ⟨Nat.zero_le _, fun _ => List.length_pos_of_mem h⟩

end NetconfServer.Library.Markup
