import Mathlib.Control.Monad.Basic
import NetconfServer.Library.Separation

/-! # Programs with pointers

A program works on a heap beside the state of the code it refines. `Simulates` relates it to code
without a heap: on the part of the heap that `P` describes it does what the code does, faults
included, and leaves the rest alone. A program that simulates anything never misuses memory.
-/

namespace NetconfServer.Library

/-- Code without a heap. -/
abbrev Code (σ ε : Type) := StateT σ (Except ε)

inductive HeapFault (ε : Type) where
  /-- A fault of the code. -/
  | code (e : ε)
  /-- An access to a block that is not held. -/
  | dangling
  /-- A release of a block that is not held. -/
  | invalidFree
  /-- A block of another kind than the access expects. -/
  | mistyped
  /-- A loop that runs on for ever. -/
  | endless

abbrev Program (β σ ε : Type) := StateT (Heap β × σ) (Except (HeapFault ε))

namespace Program
variable {α β γ σ ε : Type}

def lift (y : Code σ ε α) : Program β σ ε α := fun s =>
  match y s.2 with
  | .error e => .error (.code e)
  | .ok (a, s') => .ok (a, (s.1, s'))

def stop (f : HeapFault ε) : Program β σ ε α := fun _ => .error f

def grant (b : β) : Program β σ ε ℕ := fun s => .ok (s.1.next, (s.1.grant b, s.2))

/-- A block with the content `b` where the request for it is granted, else `NULL`. -/
def allocate (request : Code σ ε Bool) (b : β) : Program β σ ε (Option ℕ) := do
  if ← lift request then return some (← grant b) else return none

def load (p : ℕ) : Program β σ ε β := fun s =>
  match s.1.cells p with
  | none => .error .dangling
  | some b => .ok (b, s)

/-- A load that expects a block of one kind. -/
def loadAs (kind : β → Option γ) (p : ℕ) : Program β σ ε γ := do
  match kind (← load p) with
  | none => stop .mistyped
  | some c => return c

def store (p : ℕ) (b : β) : Program β σ ε Unit := fun s =>
  match s.1.cells p with
  | none => .error .dangling
  | some _ => .ok ((), (s.1.write p b, s.2))

/-- The release of `NULL` does nothing. -/
def free : Option ℕ → Program β σ ε Unit
  | none => return ()
  | some p => fun s =>
    match s.1.cells p with
    | none => .error .invalidFree
    | some _ => .ok ((), (s.1.release p, s.2))

/-- The number of addresses handed out so far. -/
def addresses : Program β σ ε ℕ := fun s => .ok (s.1.next, s)

@[simp] theorem lift_pure (a : α) : lift (pure a : Code σ ε α) = (pure a : Program β σ ε α) := rfl

@[simp] theorem free_none : (free none : Program β σ ε Unit) = pure () := rfl

end Program

open Program Assertion

/-- What the program and the code do from the state `s`. -/
def SimulatesAt {α β γ σ ε : Type} (s : σ) (P : Assertion β) (x : Program β σ ε α)
    (y : Code σ ε γ) (Q : α → γ → Assertion β) : Prop :=
  ∀ (rest : Assertion β) (h : Heap β), (P * rest) h.cells →
    match y s with
    | .error e => x (h, s) = .error (.code e)
    | .ok (c, s') => ∃ a h', x (h, s) = .ok (a, (h', s')) ∧ (Q a c * rest) h'.cells

def Simulates {α β γ σ ε : Type} (P : Assertion β) (x : Program β σ ε α) (y : Code σ ε γ)
    (Q : α → γ → Assertion β) : Prop :=
  ∀ s, SimulatesAt s P x y Q

namespace SimulatesAt
variable {α α' β γ γ' σ ε : Type} {P P' R : Assertion β} {x : Program β σ ε α} {y : Code σ ε γ}
  {Q Q' : α → γ → Assertion β} {f : α → Program β σ ε α'} {g : γ → Code σ ε γ'}
  {Q₁ : α' → γ' → Assertion β} {s : σ}

theorem of_ok {rest : Assertion β} {h : Heap β} {s' : σ} {c : γ} (hx : SimulatesAt s P x y Q)
    (hh : (P * rest) h.cells) (hy : y s = .ok (c, s')) :
    ∃ a h', x (h, s) = .ok (a, (h', s')) ∧ (Q a c * rest) h'.cells := by
  have hrun := hx rest h hh
  rwa [hy] at hrun

theorem of_error {rest : Assertion β} {h : Heap β} {e : ε} (hx : SimulatesAt s P x y Q)
    (hh : (P * rest) h.cells) (hy : y s = .error e) : x (h, s) = .error (.code e) := by
  have hrun := hx rest h hh
  rwa [hy] at hrun

/-- A run with nothing beside what the specification speaks of. -/
theorem run (hx : SimulatesAt s P x y Q) {h : Heap β} (hh : P h.cells) :
    match y s with
    | .error e => x (h, s) = .error (.code e)
    | .ok (c, s') => ∃ a h', x (h, s) = .ok (a, (h', s')) ∧ Q a c h'.cells := by
  have hrun := hx 1 h (by rwa [mul_one])
  simpa only [mul_one] using hrun

theorem pre (hx : SimulatesAt s P x y Q) (hP : ∀ f, P' f → P f) : SimulatesAt s P' x y Q :=
  fun rest h hh => hx rest h (mul_mono hP (fun _ => id) hh)

theorem post (hx : SimulatesAt s P x y Q) (hQ : ∀ a c f, Q a c f → Q' a c f) :
    SimulatesAt s P x y Q' := by
  intro rest h hh
  cases hy : y s with
  | error e => exact hx.of_error hh hy
  | ok r =>
    obtain ⟨a, h', hrun, hh'⟩ := hx.of_ok hh hy
    exact ⟨a, h', hrun, mul_mono (hQ a r.1) (fun _ => id) hh'⟩

/-- What the program does not touch stays beside it. -/
theorem frame (hx : SimulatesAt s P x y Q) (R : Assertion β) :
    SimulatesAt s (P * R) x y fun a c => Q a c * R := by
  intro rest h hh
  rw [mul_assoc] at hh
  cases hy : y s with
  | error e => exact hx.of_error hh hy
  | ok r =>
    obtain ⟨a, h', hrun, hh'⟩ := hx.of_ok hh hy
    rw [← mul_assoc] at hh'
    exact ⟨a, h', hrun, hh'⟩

/-- The second half may use what the code has returned in the first. -/
theorem bind (hx : SimulatesAt s P x y Q)
    (hf : ∀ a c s', y s = .ok (c, s') → SimulatesAt s' (Q a c) (f a) (g c) Q₁) :
    SimulatesAt s P (x >>= f) (y >>= g) Q₁ := by
  intro rest h hh
  change match (y s >>= fun r => g r.1 r.2) with
    | .error e => (x (h, s) >>= fun r => f r.1 r.2) = .error (.code e)
    | .ok (c, s') => ∃ a h', (x (h, s) >>= fun r => f r.1 r.2) = .ok (a, (h', s')) ∧ _
  cases hy : y s with
  | error e =>
    rw [hx.of_error hh hy]
    rfl
  | ok r =>
    obtain ⟨a, h', hrun, hh'⟩ := hx.of_ok hh hy
    rw [hrun]
    exact hf a r.1 r.2 hy rest h' hh'

theorem pure {a : α} {c : γ} (hP : ∀ f, P f → Q a c f) :
    SimulatesAt s P (Pure.pure a : Program β σ ε α) (Pure.pure c : Code σ ε γ) Q :=
  fun _ h hh => ⟨a, h, rfl, mul_mono hP (fun _ => id) hh⟩

theorem ex {ι : Type} {P : ι → Assertion β} (h : ∀ i, SimulatesAt s (P i) x y Q) :
    SimulatesAt s (ex P) x y Q := by
  intro rest heap hh
  rw [ex_mul] at hh
  obtain ⟨i, hi⟩ := hh
  exact h i rest heap hi

theorem fact {φ : Prop} (h : φ → SimulatesAt s P x y Q) :
    SimulatesAt s (fact φ * P) x y Q := by
  intro rest heap hh
  rw [mul_assoc] at hh
  obtain ⟨hφ, hh⟩ := fact_mul.mp hh
  exact h hφ rest heap hh

/-- What holds of every fragment that a part describes may be used. -/
theorem learn {φ : Prop} (h : ∀ f, P f → φ) (hx : φ → SimulatesAt s (P * R) x y Q) :
    SimulatesAt s (P * R) x y Q := by
  intro rest heap hh
  have hφ := hh
  rw [mul_assoc] at hφ
  obtain ⟨f, _, _, _, hf, _⟩ := hφ
  exact hx (h f hf) rest heap hh

/-- A step that the code does not take. -/
theorem left {Q : α → Unit → Assertion β} {y : Code σ ε γ'}
    (hx : SimulatesAt s P x (Pure.pure () : Code σ ε Unit) Q)
    (hf : ∀ a, SimulatesAt s (Q a ()) (f a) y Q₁) : SimulatesAt s P (x >>= f) y Q₁ := by
  have hbind := hx.bind (g := fun _ => y) fun a _ s' hs => by
    cases hs
    exact hf a
  rwa [pure_bind] at hbind

end SimulatesAt

namespace Simulates
variable {α α' β γ γ' σ ε : Type} {P P' R : Assertion β} {x : Program β σ ε α} {y : Code σ ε γ}
  {Q Q' : α → γ → Assertion β} {f : α → Program β σ ε α'} {g : γ → Code σ ε γ'}
  {Q₁ : α' → γ' → Assertion β}

theorem pre (hx : Simulates P x y Q) (hP : ∀ f, P' f → P f) : Simulates P' x y Q :=
  fun s => (hx s).pre hP

theorem post (hx : Simulates P x y Q) (hQ : ∀ a c f, Q a c f → Q' a c f) : Simulates P x y Q' :=
  fun s => (hx s).post hQ

theorem frame (hx : Simulates P x y Q) (R : Assertion β) :
    Simulates (P * R) x y fun a c => Q a c * R :=
  fun s => (hx s).frame R

/-- A specification used on a part of what is held. -/
theorem within (hx : Simulates P x y Q) (R : Assertion β) (hP : P' = P * R)
    (hQ : ∀ a c f, (Q a c * R) f → Q' a c f) : Simulates P' x y Q' :=
  hP ▸ (hx.frame R).post hQ

theorem bind (hx : Simulates P x y Q) (hf : ∀ a c, Simulates (Q a c) (f a) (g c) Q₁) :
    Simulates P (x >>= f) (y >>= g) Q₁ :=
  fun s => (hx s).bind fun a c s' _ => hf a c s'

theorem pure {a : α} {c : γ} (hP : ∀ f, P f → Q a c f) :
    Simulates P (Pure.pure a : Program β σ ε α) (Pure.pure c : Code σ ε γ) Q :=
  fun _ => .pure hP

/-- Both stop with the same fault. -/
theorem abort {e : ε} (hx : ∀ h s, x (h, s) = .error (.code e)) (hy : ∀ s, y s = .error e) :
    Simulates P x y Q := by
  intro s rest h _
  rw [hy]
  exact hx h s

theorem ex {ι : Type} {P : ι → Assertion β} (h : ∀ i, Simulates (P i) x y Q) :
    Simulates (ex P) x y Q :=
  fun s => .ex fun i => h i s

theorem fact {φ : Prop} (h : φ → Simulates P x y Q) : Simulates (fact φ * P) x y Q :=
  fun s => .fact fun hφ => h hφ s

theorem learn {φ : Prop} (h : ∀ f, P f → φ) (hx : φ → Simulates (P * R) x y Q) :
    Simulates (P * R) x y Q :=
  fun s => .learn h fun hφ => hx hφ s

/-- What the code goes on to compute from its result needs no step of the program. -/
theorem map {h : γ → γ'} {Q₁ : α → γ' → Assertion β} (hx : Simulates P x y Q)
    (hQ : ∀ a c f, Q a c f → Q₁ a (h c) f) :
    Simulates P x (y >>= fun c => Pure.pure (h c)) Q₁ := by
  have hbind := hx.bind fun a c => Simulates.pure (hQ a c)
  rwa [bind_pure] at hbind

theorem ex_mul {ι : Type} {P : ι → Assertion β} (h : ∀ i, Simulates (P i * R) x y Q) :
    Simulates (Assertion.ex P * R) x y Q := by
  rw [Assertion.ex_mul]
  exact .ex h

theorem only_fact {φ : Prop} (h : φ → Simulates 1 x y Q) : Simulates (Assertion.fact φ) x y Q := by
  rw [← mul_one (Assertion.fact φ)]
  exact .fact h

theorem absurd {φ : Prop} (h : ¬ φ) : Simulates (Assertion.fact φ * R) x y Q :=
  .fact fun hφ => (h hφ).elim

theorem ite {φ : Prop} [Decidable φ] {x' : Program β σ ε α} {y' : Code σ ε γ}
    (hx : φ → Simulates P x y Q) (hx' : ¬ φ → Simulates P x' y' Q) :
    Simulates P (if φ then x else x') (if φ then y else y') Q := by
  split
  · exact hx ‹φ›
  · exact hx' ‹¬ φ›

/-! ## One step of the program -/

theorem left {Q : α → Unit → Assertion β} {y : Code σ ε γ'}
    (hx : Simulates P x (Pure.pure () : Code σ ε Unit) Q)
    (hf : ∀ a, Simulates (Q a ()) (f a) y Q₁) : Simulates P (x >>= f) y Q₁ :=
  fun s => (hx s).left fun a => hf a s

theorem lifted (y : Code σ ε γ) :
    Simulates P (lift y) y fun a c => Assertion.fact (a = c) * P := by
  intro s rest h hh
  rw [lift]
  cases y s with
  | error e => rfl
  | ok r =>
    refine ⟨r.1, h, rfl, ?_⟩
    rw [mul_assoc]
    exact fact_mul.mpr ⟨rfl, hh⟩

/-- A step taken by both. -/
theorem both {y : Code σ ε α} {g : α → Code σ ε γ'} (hf : ∀ a, Simulates P (f a) (g a) Q₁) :
    Simulates P (lift y >>= f) (y >>= g) Q₁ :=
  (lifted y).bind fun a _ => .fact fun heq => heq ▸ hf a

theorem load {p : ℕ} {b : β} {f : β → Program β σ ε α'} {y : Code σ ε γ'}
    (hf : Simulates (cell p b * R) (f b) y Q₁) :
    Simulates (cell p b * R) (Program.load p >>= f) y Q₁ := by
  have hload : Simulates (cell p b * R) (Program.load p) (Pure.pure () : Code σ ε Unit)
      fun a _ => Assertion.fact (a = b) * (cell p b * R) := by
    intro s rest h hh
    have hcell := hh
    rw [mul_assoc] at hcell
    obtain ⟨g, k, -, hc, rfl, -⟩ := hcell
    refine ⟨b, h, ?_, ?_⟩
    · rw [Program.load, Heap.cells_of_union hc]
    · rw [mul_assoc]
      exact fact_mul.mpr ⟨rfl, hh⟩
  exact hload.left fun a => .fact fun heq => heq ▸ hf

theorem loadAs {kind : β → Option γ} {c : γ} {p : ℕ} {b : β} {f : γ → Program β σ ε α'}
    {y : Code σ ε γ'} (hkind : kind b = some c) (hf : Simulates (cell p b * R) (f c) y Q₁) :
    Simulates (cell p b * R) (Program.loadAs kind p >>= f) y Q₁ := by
  rw [Program.loadAs, bind_assoc]
  apply load
  rw [hkind]
  exact hf

theorem store {p : ℕ} {b b' : β} {f : Unit → Program β σ ε α'} {y : Code σ ε γ'}
    (hf : Simulates (cell p b' * R) (f ()) y Q₁) :
    Simulates (cell p b * R) (Program.store p b' >>= f) y Q₁ := by
  have hstore : Simulates (cell p b) (Program.store p b') (Pure.pure () : Code σ ε Unit)
      fun _ _ => cell p b' := by
    rintro s rest h ⟨g, k, hd, hc, rfl, hk⟩
    refine ⟨(), h.write p b', ?_, .single p b', k, ?_, Heap.cells_write hc, rfl, hk⟩
    · rw [Program.store, Heap.cells_of_union hc]
    · exact Fragment.disjoint_single.mpr (Fragment.disjoint_single.mp hd)
  exact (hstore.frame R).left fun _ => hf

theorem free {p : ℕ} {b : β} {f : Unit → Program β σ ε α'} {y : Code σ ε γ'}
    (hf : Simulates R (f ()) y Q₁) :
    Simulates (cell p b * R) (Program.free (some p) >>= f) y Q₁ := by
  have hfree : Simulates (cell p b) (Program.free (some p)) (Pure.pure () : Code σ ε Unit)
      fun _ _ => 1 := by
    rintro s rest h ⟨g, k, hd, hc, rfl, hk⟩
    refine ⟨(), h.release p, ?_, ?_⟩
    · simp only [Program.free, Heap.cells_of_union hc]
    · rwa [one_mul, Heap.cells_release hd hc]
  apply (hfree.frame R).left
  intro _
  rwa [one_mul]

theorem grant {b : β} {f : ℕ → Program β σ ε α'} {y : Code σ ε γ'}
    (hf : ∀ p, Simulates (cell p b * P) (f p) y Q₁) : Simulates P (Program.grant b >>= f) y Q₁ := by
  have hgrant : Simulates P (Program.grant b) (Pure.pure () : Code σ ε Unit)
      fun p _ => cell p b * P := by
    intro s rest h hh
    refine ⟨h.next, h.grant b, rfl, ?_⟩
    rw [mul_assoc]
    exact ⟨.single h.next b, h.cells, h.disjoint_next b, h.cells_grant b, rfl, hh⟩
  exact hgrant.left hf

theorem allocate {request : Code σ ε Bool} {b : β} {f : Option ℕ → Program β σ ε α'}
    {g : Bool → Code σ ε γ'} (hyes : ∀ p, Simulates (cell p b * P) (f (some p)) (g true) Q₁)
    (hno : Simulates P (f none) (g false) Q₁) :
    Simulates P (Program.allocate request b >>= f) (request >>= g) Q₁ := by
  rw [Program.allocate, bind_assoc]
  apply both
  intro granted
  cases granted with
  | false => exact hno
  | true =>
    rw [if_pos rfl, bind_assoc]
    exact grant hyes

/-- There are at least as many addresses as blocks held. -/
theorem addresses {n : ℕ} {f : ℕ → Program β σ ε α'} {y : Code σ ε γ'} (hP : Owns P n)
    (hf : ∀ m, n ≤ m → Simulates (P * R) (f m) y Q₁) :
    Simulates (P * R) (Program.addresses >>= f) y Q₁ := by
  intro s rest h hh
  have hle := hh
  rw [mul_assoc] at hle
  exact hf h.next (hP.le_next hle) s rest h hh

/-- A program that needs nothing and leaves nothing runs on any heap, and gives back every block it
was granted. -/
theorem closed {φ : α → γ → Prop} (hx : Simulates 1 x y fun a c => Assertion.fact (φ a c))
    (h : Heap β) (s : σ) :
    match y s with
    | .error e => x (h, s) = .error (.code e)
    | .ok (c, s') => ∃ a h', x (h, s) = .ok (a, (h', s')) ∧ φ a c ∧ h'.cells = h.cells := by
  have hh : (1 * exactly h.cells : Assertion β) h.cells := by
    rw [one_mul]
    exact rfl
  cases hy : y s with
  | error e => exact (hx s).of_error hh hy
  | ok r =>
    obtain ⟨a, h', hrun, hh'⟩ := (hx s).of_ok hh hy
    obtain ⟨hφ, hcells⟩ := fact_mul.mp hh'
    exact ⟨a, h', hrun, hφ, hcells⟩

end Simulates

end NetconfServer.Library
