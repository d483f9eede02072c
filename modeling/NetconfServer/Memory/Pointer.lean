import NetconfServer.Library.Pointers
import NetconfServer.Memory.Exec

/-! # Following pointers

C code on a heap of blocks. Following `NULL` is a fault of the code; following an address that holds
no block, or a block of another kind, is a misuse of the heap.
-/

namespace NetconfServer.Memory
open Library Program Assertion

/-- An address, or `NULL`. -/
abbrev Address := Option ℕ

abbrev Run (β : Type) := Program β Supply Fault

/-- What a pointer to a block of some kind points to. -/
def follow {β δ : Type} (kind : β → Option δ) (p : Address) : Run β δ := do
  loadAs kind (← lift (deref p))

/-- The block a pointer leads to; without one it is `NULL`. -/
def targetAt {β : Type} (p : Address) : Option β → Assertion β
  | none => fact (p = none)
  | some b => ex fun a => fact (p = some a) * cell a b

variable {α β γ δ : Type} {kind : β → Option δ} {mk : δ → β} {b : Option β} {o : Option δ}
  {p : Address} {P R : Assertion β} {y : Exec γ} {Q : α → γ → Assertion β}

@[simp] theorem follow_some (kind : β → Option δ) (p : ℕ) :
    follow kind (some p) = loadAs kind p := rfl

theorem targetAt_null : targetAt none (none : Option β) = 1 := fact_true rfl

theorem isNone_of_targetAt {f : Fragment β} (h : targetAt p b f) : p.isNone = b.isNone := by
  cases b with
  | none =>
    obtain ⟨rfl, -⟩ := h
    rfl
  | some b =>
    obtain ⟨a, h⟩ := h
    obtain ⟨rfl, -⟩ := fact_mul.mp h
    rfl

theorem targetAt_intro {a : ℕ} {b : β} {f : Fragment β} (h : (cell a b * R) f) :
    (targetAt (some a) (some b) * R) f :=
  mul_mono (fun _ hf => ⟨a, fact_mul.mpr ⟨rfl, hf⟩⟩) (fun _ => id) h

theorem targetAt_elim {b : β} {x : Run β α}
    (h : ∀ a, p = some a → Simulates (cell a b * R) x y Q) :
    Simulates (targetAt p (some b) * R) x y Q := by
  apply Simulates.ex_mul
  intro a
  rw [mul_assoc]
  exact .fact (h a)

theorem owns_targetAt (p : Address) (b : Option β) :
    Owns (targetAt p b) (if b.isSome then 1 else 0) := by
  cases b with
  | none =>
    rw [targetAt, ← mul_one (fact _)]
    exact .fact_mul fun _ => .one
  | some b => exact .ex fun a => .fact_mul fun _ => .cell a b

/-- What a pointer leads to is released once, and `NULL` never. -/
theorem free_target {f : Unit → Run β α} (hf : Simulates R (f ()) y Q) :
    Simulates (targetAt p b * R) (free p >>= f) y Q := by
  cases b with
  | none =>
    apply Simulates.fact
    rintro rfl
    exact hf
  | some b =>
    apply targetAt_elim
    rintro a rfl
    exact .free hf

/-- A pointer is followed as the code without addresses follows it. -/
theorem follow_target {f : δ → Run β α} {g : δ → Exec γ} (hkind : ∀ d, kind (mk d) = some d)
    (hf : ∀ d, o = some d → Simulates (targetAt p (o.map mk) * R) (f d) (g d) Q) :
    Simulates (targetAt p (o.map mk) * R) (follow kind p >>= f) (deref o >>= g) Q := by
  cases o with
  | none =>
    apply Simulates.fact
    rintro rfl
    exact .abort (fun _ _ => rfl) (fun _ => rfl)
  | some d =>
    apply targetAt_elim
    rintro a rfl
    apply Simulates.loadAs (hkind d)
    exact (hf d rfl).pre fun _ => targetAt_intro

/-- A copy of a string is a block of its own, or `NULL`. -/
theorem strdup_target (mk : CString → β) (s : CString) :
    Simulates P (allocate malloc (mk s)) (strdup s) fun p c => targetAt p (c.map mk) * P := by
  rw [← bind_pure (allocate _ _)]
  apply Simulates.allocate
  · intro a
    exact .pure fun _ => targetAt_intro
  · exact .pure fun _ hf => fact_mul.mpr ⟨rfl, hf⟩

theorem allocate_eq (b : β) (h : Heap β) (s : Supply) :
    allocate malloc b (h, s) =
      .ok (if s 0 then (some h.next, h.grant b, later s 1) else (none, h, later s 1)) := by
  change (if s 0 then (do return some (← grant b)) else return none : Run β Address)
    (h, later s 1) = _
  cases s 0 <;> rfl

/-- A request whose outcome makes no difference. -/
theorem allocate_stops {f : Address → Run β α} {e : HeapFault Fault}
    (hf : ∀ p m, f p m = .error e) (b : β) (m : Heap β × Supply) :
    (allocate malloc b >>= f) m = .error e := by
  change (allocate malloc b (m.1, m.2) >>= fun r => f r.1 r.2) = _
  rw [allocate_eq]
  exact hf _ _

end NetconfServer.Memory
