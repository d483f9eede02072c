import NetconfServer.Memory.CString

/-! # Running C code

Code that allocates reads the outcome of each request from a supply. A fault stops the run: it is a
step that ISO C or POSIX leaves undefined, whatever a platform then does, or a recursion without an
end. `Yields` is the specification most modules are stated with: what the code returns when every
request is granted. `Ends` bounds what can happen under any pattern of refusals.
-/

namespace NetconfServer.Memory

inductive Fault where
  | nullPointer
  | unsetField
  | outOfBounds
  | unterminated
  | badFormat
  | endlessRecursion
  | divisionByZero
  | signedOverflow
  deriving DecidableEq, Repr

/-- Whether each allocation request still to come is granted. -/
abbrev Supply := ℕ → Bool

def Supply.all : Supply := fun _ => true

abbrev Exec := StateT Supply (Except Fault)

def fault {α : Type} (f : Fault) : Exec α := fun _ => .error f

/-- One request to the allocator. -/
def malloc : Exec Bool := fun s => .ok (s 0, fun n => s (n + 1))

/-- A pointer is `none` when it is `NULL`. -/
def deref {α : Type} : Option α → Exec α
  | none => fault .nullPointer
  | some a => pure a

def strdup (s : CString) : Exec (Option CString) := do
  if ← malloc then return some s else return none

def memcpy (block : List UInt8) (size : ℕ) : Exec (List UInt8) :=
  if size ≤ block.length then pure (block.take size) else fault .outOfBounds

/-- `strncpy` to the start of a block: `size` bytes of the string, and zeros once it has ended. -/
def strncpy (block : List UInt8) (s : CString) (size : ℕ) : Exec (List UInt8) :=
  if size ≤ block.length then
    pure ((s.bytes ++ List.replicate (size - s.bytes.length) 0).take size ++ block.drop size)
  else fault .outOfBounds

/-- `strcpy` to an offset in a block. -/
def strcpy (block : List UInt8) (offset : ℕ) (s : CString) : Exec (List UInt8) :=
  if offset + s.toBlock.length ≤ block.length then
    pure (block.take offset ++ s.toBlock ++ block.drop (offset + s.toBlock.length))
  else fault .outOfBounds

def store (block : List UInt8) (i : ℕ) (b : UInt8) : Exec (List UInt8) :=
  if i < block.length then pure (block.set i b) else fault .outOfBounds

/-- A block read as a string. -/
def readString (block : List UInt8) : Exec CString :=
  if 0 ∈ block then pure (.ofBuffer block) else fault .unterminated

/-- A pointer to a string, followed unless it is `NULL`. -/
def readPointer : Option (List UInt8) → Exec (Option CString)
  | none => return none
  | some block => do
    let s ← readString block
    return some s

/-- A variable or structure member of automatic storage: indeterminate until it is assigned. -/
inductive Cell (α : Type) where
  | unset
  | set (a : α)
  deriving DecidableEq

def Cell.read {α : Type} : Cell α → Exec α
  | .unset => fault .unsetField
  | .set a => pure a

@[simp] theorem deref_some {α : Type} (a : α) : deref (some a) = pure a := rfl

@[simp] theorem Cell.read_set {α : Type} (a : α) : (Cell.set a).read = pure a := rfl

/-- With every request granted, `x` returns `a`. -/
def Yields {α : Type} (x : Exec α) (a : α) : Prop := x .all = .ok (a, .all)

section Yields
variable {α β : Type} {x : Exec α} {f : α → Exec β} {a a' : α} {b : β}

@[simp] theorem yields_pure_iff : Yields (pure a) a' ↔ a = a' := by
  change Except.ok (a, Supply.all) = Except.ok (a', Supply.all) ↔ _
  simp

theorem Yields.pure : Yields (pure a) a := rfl

theorem Yields.of_eq (h : x = Pure.pure a) : Yields x a := by
  rw [h]
  exact Yields.pure

theorem Yields.bind_eq (h : Yields x a) : (x >>= f) .all = f a .all := by
  change (x .all >>= fun p => f p.1 p.2) = _
  rw [h]
  rfl

theorem Yields.bind (hx : Yields x a) (hf : Yields (f a) b) : Yields (x >>= f) b :=
  hx.bind_eq.trans hf

theorem Yields.unique (h : Yields x a) (h' : Yields x a') : a = a' := by
  have heq : (Except.ok (a, Supply.all) : Except Fault _) = .ok (a', .all) := h.symm.trans h'
  simpa using heq

end Yields

/-! ## Code that asks for no memory -/

/-- Whenever `x` returns, the supply is as it was. -/
def Steady {α : Type} (x : Exec α) : Prop :=
  ∀ ⦃supply a supply'⦄, x supply = .ok (a, supply') → supply' = supply

section Steady
variable {α β : Type} {x : Exec α} {f : α → Exec β}

theorem bind_eq_ok {b : β} {supply supply' : Supply} :
    (x >>= f) supply = .ok (b, supply') ↔
      ∃ a supply'', x supply = .ok (a, supply'') ∧ f a supply'' = .ok (b, supply') := by
  change (x supply >>= fun p => f p.1 p.2) = _ ↔ _
  cases x supply with
  | error e =>
    constructor
    · intro h
      cases h
    · rintro ⟨a, supply'', h, -⟩
      cases h
  | ok p =>
    obtain ⟨a, supply''⟩ := p
    constructor
    · intro h
      exact ⟨a, supply'', rfl, h⟩
    · rintro ⟨a', supply₁, h, hf⟩
      cases h
      exact hf

theorem bind_of_ok {a : α} {supply supply' : Supply} (h : x supply = .ok (a, supply')) :
    (x >>= f) supply = f a supply' := by
  change (x supply >>= fun p => f p.1 p.2) = _
  rw [h]
  rfl

theorem bind_of_error {e : Fault} {supply : Supply} (h : x supply = .error e) :
    (x >>= f) supply = .error e := by
  change (x supply >>= fun p => f p.1 p.2) = _
  rw [h]
  rfl

theorem Steady.pure (a : α) : Steady (pure a) := by
  intro supply a' supply' h
  cases h
  rfl

theorem Steady.fault (f : Fault) : Steady (fault f : Exec α) := by
  intro supply a supply' h
  cases h

theorem Steady.bind (hx : Steady x) (hf : ∀ a, Steady (f a)) : Steady (x >>= f) := by
  intro supply b supply' h
  obtain ⟨a, supply'', ha, hb⟩ := bind_eq_ok.mp h
  rw [hf a hb, hx ha]

theorem Steady.ite {p : Prop} [Decidable p] {y : Exec α} (hx : Steady x) (hy : Steady y) :
    Steady (if p then x else y) := by
  split
  · exact hx
  · exact hy

theorem Steady.deref (a : Option α) : Steady (deref a) := by
  cases a with
  | none => exact .fault _
  | some a => exact .pure a

theorem Cell.read_steady (c : Cell α) : Steady c.read := by
  cases c with
  | unset => exact .fault _
  | set a => exact .pure a

theorem Steady.yields {a : α} {supply : Supply} (hx : Steady x) (h : x .all = .ok (a, supply)) :
    Yields x a := by
  obtain rfl := hx h
  exact h

end Steady

/-! ## Under every pattern of refusals -/

/-- Whatever requests are granted, `x` returns a result with `post` or stops with one of `faults`. -/
def Ends {α : Type} (x : Exec α) (post : α → Prop) (faults : Fault → Prop) : Prop :=
  ∀ supply, match x supply with
    | .ok (a, _) => post a
    | .error f => faults f

section Ends
variable {α β : Type} {x : Exec α} {f : α → Exec β} {post post' : α → Prop} {posts : β → Prop}
  {faults faults' : Fault → Prop}

theorem Ends.of_ok {supply supply' : Supply} {a : α} (h : Ends x post faults)
    (hx : x supply = .ok (a, supply')) : post a := by
  have hend := h supply
  rw [hx] at hend
  exact hend

theorem Ends.of_error {supply : Supply} {e : Fault} (h : Ends x post faults)
    (hx : x supply = .error e) : faults e := by
  have hend := h supply
  rw [hx] at hend
  exact hend

theorem Ends.any : Ends x (fun _ => True) (fun _ => True) := by
  intro supply
  cases x supply <;> trivial

theorem Ends.pure {a : α} (h : post a) : Ends (pure a) post faults := fun _ => h

theorem Ends.fault {e : Fault} (h : faults e) : Ends (fault e : Exec α) post faults := fun _ => h

theorem Ends.malloc : Ends malloc (fun _ => True) faults := fun _ => trivial

theorem Ends.bind (hx : Ends x post faults) (hf : ∀ a, post a → Ends (f a) posts faults) :
    Ends (x >>= f) posts faults := by
  intro supply
  change match x supply >>= fun p => f p.1 p.2 with
    | .ok (b, _) => posts b
    | .error e => faults e
  cases h : x supply with
  | error e => exact hx.of_error h
  | ok p =>
    obtain ⟨a, supply'⟩ := p
    exact hf a (hx.of_ok h) supply'

theorem Ends.mono (hx : Ends x post faults) (hpost : ∀ a, post a → post' a)
    (hfaults : ∀ e, faults e → faults' e) : Ends x post' faults' := by
  intro supply
  cases h : x supply with
  | error e => exact hfaults e (hx.of_error h)
  | ok p => exact hpost p.1 (hx.of_ok h)

theorem Ends.ite {p : Prop} [Decidable p] {y : Exec α} (hx : p → Ends x post faults)
    (hy : ¬p → Ends y post faults) : Ends (if p then x else y) post faults := by
  split
  · exact hx ‹p›
  · exact hy ‹¬p›

/-- What each step of a loop over a list keeps, the loop keeps. -/
theorem Ends.foldlM {f : α → β → Exec α} {l : List β}
    (hstep : ∀ a b, b ∈ l → post a → Ends (f a b) post faults) {a : α} (ha : post a) :
    Ends (l.foldlM f a) post faults := by
  induction l generalizing a with
  | nil => exact .pure ha
  | cons b l ih =>
    rw [List.foldlM_cons]
    exact (hstep a b List.mem_cons_self ha).bind
      fun a' ha' => ih (fun a b hb => hstep a b (List.mem_cons_of_mem _ hb)) ha'

end Ends

/-- The supply after `k` requests. -/
def later (supply : Supply) (k : ℕ) : Supply := fun n => supply (n + k)

@[simp] theorem later_apply (supply : Supply) (k n : ℕ) : later supply k n = supply (n + k) := rfl

theorem later_later (supply : Supply) (j k : ℕ) :
    later (later supply j) k = later supply (j + k) := by
  funext n
  rw [later_apply, later_apply, later_apply, Nat.add_right_comm, Nat.add_assoc]

theorem malloc_eq (supply : Supply) : malloc supply = .ok (supply 0, later supply 1) := rfl

theorem strdup_eq (s : CString) (supply : Supply) :
    strdup s supply = .ok (if supply 0 then some s else none, later supply 1) := by
  rw [strdup, bind_of_ok (malloc_eq supply)]
  cases supply 0 <;> rfl

theorem malloc_yields : Yields malloc true := rfl

theorem deref_yields {α : Type} (a : α) : Yields (deref (some a)) a := rfl

theorem Cell.read_yields {α : Type} (a : α) : Yields (Cell.set a).read a := rfl

theorem strdup_yields (s : CString) : Yields (strdup s) (some s) :=
  malloc_yields.bind Yields.pure

theorem memcpy_yields (block : List UInt8) : Yields (memcpy block block.length) block := by
  simp [memcpy]

theorem strncpy_yields (s : CString) (block rest : List UInt8) (h : block.length = s.bytes.length) :
    Yields (strncpy (block ++ rest) s s.bytes.length) (s.bytes ++ rest) := by
  have hfits : s.bytes.length ≤ (block ++ rest).length := by
    rw [List.length_append, h]
    exact Nat.le_add_right _ _
  rw [strncpy, if_pos hfits, Nat.sub_self, List.replicate_zero, List.append_nil, List.take_length,
    ← h, List.drop_left]
  exact Yields.pure

theorem strcpy_yields (s : CString) (init block rest : List UInt8)
    (h : block.length = s.toBlock.length) :
    Yields (strcpy (init ++ (block ++ rest)) init.length s) (init ++ (s.toBlock ++ rest)) := by
  have hfits : init.length + s.toBlock.length ≤ (init ++ (block ++ rest)).length := by
    rw [List.length_append, List.length_append, h]
    omega
  rw [strcpy, if_pos hfits, List.take_left, ← h, ← List.length_append, ← List.append_assoc init,
    List.drop_left, List.append_assoc]
  exact Yields.pure

theorem store_yields (init rest : List UInt8) (a b : UInt8) :
    Yields (store (init ++ a :: rest) init.length b) (init ++ b :: rest) := by
  have hfits : init.length < (init ++ a :: rest).length := by simp
  rw [store, if_pos hfits, List.set_append_right _ _ (le_refl _), Nat.sub_self, List.set_cons_zero]
  exact Yields.pure

theorem readString_toBlock (s : CString) : readString s.toBlock = pure s := by
  rw [readString, if_pos (by simp [CString.toBlock]), CString.ofBuffer_toBlock]

theorem readString_yields (s : CString) : Yields (readString s.toBlock) s :=
  .of_eq (readString_toBlock s)

theorem readPointer_yields (s : Option CString) :
    Yields (readPointer (s.map CString.toBlock)) s := by
  cases s with
  | none => exact Yields.pure
  | some s => exact (readString_yields s).bind Yields.pure

end NetconfServer.Memory
