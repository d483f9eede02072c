import Mathlib.Data.List.Basic

/-! # Bounded lists

A list with room for `cap` entries grows at its end, and an entry that finds it full is dropped.
-/

namespace NetconfServer.Library

@[ext] structure Bounded (α : Type) (cap : ℕ) where
  entries : List α
  fits : entries.length ≤ cap

namespace Bounded
variable {α : Type} {cap : ℕ}

def empty : Bounded α cap := ⟨[], Nat.zero_le cap⟩

def push (b : Bounded α cap) (a : α) : Bounded α cap :=
  ⟨(b.entries ++ [a]).take cap, List.length_take_le cap (b.entries ++ [a])⟩

def pushAll (b : Bounded α cap) (l : List α) : Bounded α cap := l.foldl push b

variable {b : Bounded α cap} {a : α} {l : List α}

theorem push_full (h : b.entries.length = cap) : b.push a = b := by
  obtain ⟨entries, fits⟩ := b
  have htake : (entries ++ [a]).take cap = entries := List.take_left' h
  simp only [push, htake]

theorem push_room (h : b.entries.length < cap) : (b.push a).entries = b.entries ++ [a] := by
  apply List.take_of_length_le
  rw [List.length_append]
  exact h

theorem pushAll_append {l' : List α} : b.pushAll (l ++ l') = (b.pushAll l).pushAll l' :=
  List.foldl_append

/-- Of all the entries that were pushed, the first ones stay. -/
theorem pushAll_entries : (b.pushAll l).entries = (b.entries ++ l).take cap := by
  induction l generalizing b with
  | nil =>
    rw [List.append_nil, List.take_of_length_le b.fits]
    rfl
  | cons a l ih =>
    change ((b.push a).pushAll l).entries = _
    rw [ih]
    rcases Nat.lt_or_eq_of_le b.fits with hroom | hfull
    · rw [push_room hroom, List.append_assoc]
      rfl
    · rw [push_full hfull, List.take_left' hfull, List.take_left' hfull]

end Bounded

end NetconfServer.Library
