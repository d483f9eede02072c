import Mathlib.Data.Nat.Digits.Lemmas
import Mathlib.Tactic.IntervalCases
import Mathlib.Tactic.NormNum

/-! # Decimal notation -/

namespace NetconfServer.Library

def naturalDigits (n : ℕ) : List UInt8 :=
  if n = 0 then [48] else (Nat.digits 10 n).reverse.map fun d => 48 + .ofNat d

/-- The digits `printf` writes for `%d`. -/
def decimal (num : ℤ) : List UInt8 :=
  if num < 0 then 45 :: naturalDigits num.natAbs else naturalDigits num.natAbs

/-- The number a list of digits stands for. -/
def digitsValue (l : List UInt8) : ℕ := Nat.ofDigits 10 (l.reverse.map fun b => (b - 48).toNat)

theorem mem_naturalDigits {n : ℕ} {b : UInt8} (h : b ∈ naturalDigits n) : 48 ≤ b ∧ b ≤ 57 := by
  rw [naturalDigits] at h
  split_ifs at h
  · obtain rfl : b = 48 := by simpa using h
    decide
  · obtain ⟨d, hd, rfl⟩ := List.mem_map.mp h
    have hlt : d < 10 := Nat.digits_lt_base (by decide) (List.mem_reverse.mp hd)
    interval_cases d <;> decide

theorem mem_decimal {num : ℤ} {b : UInt8} (h : b ∈ decimal num) : b = 45 ∨ 48 ≤ b ∧ b ≤ 57 := by
  rw [decimal] at h
  split_ifs at h
  · rcases List.mem_cons.mp h with hminus | hdigit
    · exact .inl hminus
    · exact .inr (mem_naturalDigits hdigit)
  · exact .inr (mem_naturalDigits h)

theorem notMem_decimal {b : UInt8} (hminus : b ≠ 45) (hdigit : ¬ (48 ≤ b ∧ b ≤ 57)) (num : ℤ) :
    b ∉ decimal num := by
  intro h
  rcases mem_decimal h with h | h
  · exact hminus h
  · exact hdigit h

theorem naturalDigits_length_le {n k : ℕ} (hk : 0 < k) (h : n < 10 ^ k) :
    (naturalDigits n).length ≤ k := by
  rw [naturalDigits]
  split_ifs
  · exact hk
  · rw [List.length_map, List.length_reverse]
    exact (Nat.digits_length_le_iff (by decide) n).mpr h

theorem digitsValue_naturalDigits (n : ℕ) : digitsValue (naturalDigits n) = n := by
  rw [digitsValue, naturalDigits]
  split_ifs with h
  · subst h
    rfl
  · have hdigits : ∀ d ∈ Nat.digits 10 n, (48 + UInt8.ofNat d - 48).toNat = d := by
      intro d hd
      have hlt : d < 10 := Nat.digits_lt_base (by decide) hd
      interval_cases d <;> rfl
    rw [List.map_reverse, List.map_reverse, List.map_reverse, List.reverse_reverse, List.map_map,
      List.map_congr_left (g := id) (by simpa using hdigits), List.map_id, Nat.ofDigits_digits]

theorem naturalDigits_injective : Function.Injective naturalDigits :=
  Function.LeftInverse.injective digitsValue_naturalDigits

theorem minus_notMem_naturalDigits (n : ℕ) : 45 ∉ naturalDigits n := by
  intro h
  have hle : (48 : UInt8) ≤ 45 := (mem_naturalDigits h).1
  exact absurd hle (by decide)

theorem decimal_injective : Function.Injective decimal := by
  intro a b h
  simp only [decimal] at h
  split_ifs at h with ha hb hb
  · have hab := naturalDigits_injective (List.tail_eq_of_cons_eq h)
    omega
  · have hminus : 45 ∈ naturalDigits b.natAbs := by
      rw [← h]
      exact List.mem_cons_self
    exact absurd hminus (minus_notMem_naturalDigits _)
  · have hminus : 45 ∈ naturalDigits a.natAbs := by
      rw [h]
      exact List.mem_cons_self
    exact absurd hminus (minus_notMem_naturalDigits _)
  · have hab := naturalDigits_injective h
    omega

theorem decimal_ne_nil (num : ℤ) : decimal num ≠ [] := by
  have hdigits (n : ℕ) : naturalDigits n ≠ [] := by
    intro h
    have hvalue := digitsValue_naturalDigits n
    rw [h] at hvalue
    obtain rfl : 0 = n := hvalue
    cases h
  rw [decimal]
  split_ifs
  · exact List.cons_ne_nil _ _
  · exact hdigits _

end NetconfServer.Library
