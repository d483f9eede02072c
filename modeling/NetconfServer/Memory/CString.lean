import Mathlib.Data.List.Basic
import Mathlib.Data.List.TakeWhile

/-! # NUL-terminated strings

A `char *` that points to a string is the list of bytes before its terminator. The terminator
itself is not stored, so no byte of a `CString` is zero.
-/

namespace NetconfServer.Memory

structure CString where
  bytes : List UInt8
  noNul : 0 ∉ bytes
  deriving DecidableEq

namespace CString

@[ext] theorem ext {a b : CString} (h : a.bytes = b.bytes) : a = b := by
  cases a
  cases b
  cases h
  rfl

/-- The bytes the compiler stores for a string literal. -/
def utf8 (s : String) : List UInt8 := s.toByteArray.data.toList

def lit (s : String) (h : (utf8 s).contains 0 = false := by exact Eq.refl false) : CString :=
  ⟨utf8 s, by simpa using h⟩

/-- The string a buffer holds: everything before the first NUL. -/
def ofBuffer (buf : List UInt8) : CString :=
  ⟨buf.takeWhile (· ≠ 0), fun h => by simpa using List.mem_takeWhile_imp h⟩

/-- A string laid out in memory with its terminator. -/
def toBlock (s : CString) : List UInt8 := s.bytes ++ [0]

def empty : CString := ⟨[], List.not_mem_nil⟩

def append (a b : CString) : CString :=
  ⟨a.bytes ++ b.bytes, by simp [a.noNul, b.noNul]⟩

instance : Append CString := ⟨append⟩

@[simp] theorem bytes_append (a b : CString) : (a ++ b).bytes = a.bytes ++ b.bytes := rfl

@[simp] theorem bytes_empty : empty.bytes = [] := rfl

theorem append_assoc (a b c : CString) : a ++ b ++ c = a ++ (b ++ c) :=
  ext (List.append_assoc a.bytes b.bytes c.bytes)

theorem ofBuffer_of_noNul {buf : List UInt8} (h : 0 ∉ buf) : (ofBuffer buf).bytes = buf := by
  apply List.takeWhile_eq_self_iff.mpr
  intro b hb
  simpa using fun he : b = 0 => h (he ▸ hb)

@[simp] theorem ofBuffer_bytes (s : CString) : ofBuffer s.bytes = s :=
  ext (ofBuffer_of_noNul s.noNul)

@[simp] theorem ofBuffer_toBlock (s : CString) : ofBuffer s.toBlock = s := by
  apply ext
  have hs : ∀ b ∈ s.bytes, decide (b ≠ 0) = true := fun b hb => by
    simpa using fun he : b = 0 => s.noNul (he ▸ hb)
  change (s.bytes ++ [0]).takeWhile (· ≠ 0) = s.bytes
  rw [List.takeWhile_append_of_pos hs]
  simp

end CString

end NetconfServer.Memory
