import Mathlib.Data.List.Basic

/-! # What a register holds after a history

Some events store a value and the others leave the register alone, so a history determines what the
register holds.
-/

namespace NetconfServer.Library.Register
variable {ε α : Type} (stored : ε → Option α)

def held (a : Option α) (es : List ε) : Option α := es.foldl (fun v e => (stored e).or v) a

variable {stored} {a : Option α} {es es₁ es₂ : List ε} {e : ε} {v w : α}

@[simp] theorem held_append : held stored a (es₁ ++ es₂) = held stored (held stored a es₁) es₂ := by
  rw [held, List.foldl_append, held, held]

@[simp] theorem held_cons : held stored a (e :: es) = held stored ((stored e).or a) es := rfl

theorem held_of_none (h : ∀ e ∈ es, stored e = none) : held stored a es = a := by
  induction es generalizing a with
  | nil => rfl
  | cons e es ih =>
    rw [held_cons, h e List.mem_cons_self, Option.none_or]
    exact ih fun e he => h e (List.mem_cons_of_mem _ he)

/-- A value survives until the next one is stored. -/
theorem held_of_latest (he : stored e = some v) (h : ∀ e ∈ es₂, stored e = none) :
    held stored a (es₁ ++ e :: es₂) = some v := by
  rw [held_append, held_cons, he, Option.some_or, held_of_none h]

/-- Either nothing is stored or there is a latest event that stores. -/
theorem exists_latest (stored : ε → Option α) (es : List ε) : (∀ e ∈ es, stored e = none) ∨
    ∃ es₁ e es₂ v, es = es₁ ++ e :: es₂ ∧ stored e = some v ∧ ∀ e ∈ es₂, stored e = none := by
  induction es with
  | nil => exact .inl (by simp)
  | cons e es ih =>
    rcases ih with hnone | ⟨es₁, e', es₂, v, rfl, hv, hnone⟩
    · cases he : stored e with
      | none => exact .inl (List.forall_mem_cons.mpr ⟨he, hnone⟩)
      | some v => exact .inr ⟨[], e, es, v, rfl, he, hnone⟩
    · exact .inr ⟨e :: es₁, e', es₂, v, rfl, hv, hnone⟩

/-- What is held was there before or was stored by some event. -/
theorem eq_or_stored_of_held (h : held stored a es = some v) :
    a = some v ∨ ∃ e ∈ es, stored e = some v := by
  rcases exists_latest stored es with hnone | ⟨es₁, e, es₂, w, rfl, hw, hnone⟩
  · rw [held_of_none hnone] at h
    exact .inl h
  · rw [held_of_latest hw hnone] at h
    exact .inr ⟨e, by simp, hw.trans h⟩

end NetconfServer.Library.Register
