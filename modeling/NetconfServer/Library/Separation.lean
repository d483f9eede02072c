import Mathlib.Algebra.BigOperators.Group.List.Basic
import NetconfServer.Library.Heap

/-! # Separation

An assertion describes a fragment of a heap. The product of two holds of a fragment that splits into
one part for each, so assertions are a commutative monoid and `1` owns nothing.
-/

namespace NetconfServer.Library

def Assertion (β : Type) := Fragment β → Prop

namespace Assertion
variable {β : Type}

instance : Mul (Assertion β) where
  mul P Q := fun f => ∃ g h, Fragment.Disjoint g h ∧ f = g.union h ∧ P g ∧ Q h

instance : One (Assertion β) where
  one := fun f => f = .empty

/-- One block and its content. -/
def cell (p : ℕ) (b : β) : Assertion β := fun f => f = .single p b

/-- A fact that owns nothing. -/
def fact (φ : Prop) : Assertion β := fun f => φ ∧ f = .empty

/-- The fragment is a given one. -/
def exactly (f : Fragment β) : Assertion β := fun g => g = f

def ex {ι : Type} (P : ι → Assertion β) : Assertion β := fun f => ∃ i, P i f

variable {P Q R : Assertion β} {f : Fragment β} {φ : Prop}

theorem one_apply : (1 : Assertion β) f ↔ f = .empty := Iff.rfl

@[ext] theorem ext (h : ∀ f, P f ↔ Q f) : P = Q := funext fun f => propext (h f)

protected theorem mul_comm (P Q : Assertion β) : P * Q = Q * P := by
  have hswap (P Q : Assertion β) (f : Fragment β) (hf : (P * Q) f) : (Q * P) f := by
    obtain ⟨g, h, hd, rfl, hg, hh⟩ := hf
    exact ⟨h, g, hd.symm, Fragment.union_comm hd, hh, hg⟩
  ext f
  exact ⟨hswap P Q f, hswap Q P f⟩

protected theorem one_mul (P : Assertion β) : 1 * P = P := by
  ext f
  constructor
  · rintro ⟨g, h, -, rfl, rfl, hh⟩
    rwa [Fragment.empty_union]
  · intro hf
    exact ⟨.empty, f, (Fragment.disjoint_empty f).symm, (Fragment.empty_union f).symm, rfl, hf⟩

protected theorem mul_assoc (P Q R : Assertion β) : P * Q * R = P * (Q * R) := by
  ext f
  constructor
  · rintro ⟨gh, k, hd, rfl, ⟨g, h, hd', rfl, hg, hh⟩, hk⟩
    obtain ⟨hgk, hhk⟩ := Fragment.disjoint_union_left.mp hd
    exact ⟨g, h.union k, Fragment.disjoint_union_right.mpr ⟨hd', hgk⟩, Fragment.union_assoc g h k,
      hg, h, k, hhk, rfl, hh, hk⟩
  · rintro ⟨g, hk, hd, rfl, hg, h, k, hd', rfl, hh, hk⟩
    obtain ⟨hgh, hgk⟩ := Fragment.disjoint_union_right.mp hd
    exact ⟨g.union h, k, Fragment.disjoint_union_left.mpr ⟨hgk, hd'⟩,
      (Fragment.union_assoc g h k).symm, ⟨g, h, hgh, rfl, hg, hh⟩, hk⟩

instance : CommMonoid (Assertion β) where
  mul_assoc := Assertion.mul_assoc
  one_mul := Assertion.one_mul
  mul_one P := (Assertion.mul_comm P 1).trans (Assertion.one_mul P)
  mul_comm := Assertion.mul_comm

theorem mul_mono {P' Q' : Assertion β} (hP : ∀ f, P f → P' f) (hQ : ∀ f, Q f → Q' f)
    (hf : (P * Q) f) : (P' * Q') f := by
  obtain ⟨g, h, hd, rfl, hg, hh⟩ := hf
  exact ⟨g, h, hd, rfl, hP g hg, hQ h hh⟩

theorem fact_mul : (fact φ * P : Assertion β) f ↔ φ ∧ P f := by
  constructor
  · rintro ⟨g, h, -, rfl, ⟨hφ, rfl⟩, hh⟩
    rw [Fragment.empty_union]
    exact ⟨hφ, hh⟩
  · rintro ⟨hφ, hf⟩
    exact ⟨.empty, f, (Fragment.disjoint_empty f).symm, (Fragment.empty_union f).symm, ⟨hφ, rfl⟩, hf⟩

theorem fact_true (h : φ) : (fact φ : Assertion β) = 1 := by
  ext f
  simp [fact, one_apply, h]

theorem ex_mul {ι : Type} (P : ι → Assertion β) (Q : Assertion β) :
    ex P * Q = ex fun i => P i * Q := by
  ext f
  constructor
  · rintro ⟨g, h, hd, rfl, ⟨i, hg⟩, hh⟩
    exact ⟨i, g, h, hd, rfl, hg, hh⟩
  · rintro ⟨i, g, h, hd, rfl, hg, hh⟩
    exact ⟨g, h, hd, rfl, ⟨i, hg⟩, hh⟩

theorem ex_mul_intro {ι : Type} {P : ι → Assertion β} (i : ι) (h : (P i * Q) f) : (ex P * Q) f := by
  rw [ex_mul]
  exact ⟨i, h⟩

/-! ## What is lent -/

/-- What makes a `Q` of a fragment once a `P` is given back. -/
def wand (P Q : Assertion β) : Assertion β :=
  fun f => ∀ g, Fragment.Disjoint g f → P g → Q (g.union f)

theorem wand_elim (h : (P * wand P Q) f) : Q f := by
  obtain ⟨g, h, hd, rfl, hg, hh⟩ := h
  exact hh g hd hg

/-- A part is lent, and the rest waits for it. -/
theorem wand_intro (hQ : ∀ f, (P * R) f → Q f) (h : (P * R) f) : (P * wand P Q) f :=
  mul_mono (fun _ => id) (fun k hk g hd hg => hQ _ ⟨g, k, hd, rfl, hg, hk⟩) h

/-! ## Lists of parts -/

section Each
variable {ι κ : Type} {S : ι → κ → Assertion β} {is : List ι} {ks : List κ} {a : ι} {k : κ} {n : ℕ}

/-- One part for each two elements at the same place of two lists. -/
def each (S : ι → κ → Assertion β) : List ι → List κ → Assertion β
  | [], [] => 1
  | i :: is, k :: ks => S i k * each S is ks
  | _, _ => fact False

@[simp] theorem each_nil : each S [] [] = 1 := rfl

@[simp] theorem each_cons (i : ι) (is : List ι) (k : κ) (ks : List κ) :
    each S (i :: is) (k :: ks) = S i k * each S is ks := rfl

theorem length_of_each (h : each S is ks f) : is.length = ks.length := by
  induction is generalizing ks f with
  | nil =>
    cases ks with
    | nil => rfl
    | cons _ _ => exact h.1.elim
  | cons i is ih =>
    cases ks with
    | nil => exact h.1.elim
    | cons k ks =>
      obtain ⟨_, _, _, _, _, hrest⟩ := h
      rw [List.length_cons, List.length_cons, ih hrest]

/-- The parts at one place and all the others. -/
theorem each_eraseIdx (ha : is[n]? = some a) (hk : ks[n]? = some k) :
    each S is ks = S a k * each S (is.eraseIdx n) (ks.eraseIdx n) := by
  induction n generalizing is ks with
  | zero =>
    cases is with
    | nil => cases ha
    | cons i is =>
      cases ks with
      | nil => cases hk
      | cons k' ks =>
        cases ha
        cases hk
        rfl
  | succ n ih =>
    cases is with
    | nil => cases ha
    | cons i is =>
      cases ks with
      | nil => cases hk
      | cons k' ks =>
        rw [List.getElem?_cons_succ] at ha hk
        rw [each, ih ha hk, List.eraseIdx_cons_succ, List.eraseIdx_cons_succ, each, mul_left_comm]

theorem each_concat (h : is.length = ks.length) :
    each S (is ++ [a]) (ks ++ [k]) = each S is ks * S a k := by
  induction is generalizing ks with
  | nil =>
    cases ks with
    | nil => exact mul_comm _ _
    | cons _ _ => cases h
  | cons i is ih =>
    cases ks with
    | nil => cases h
    | cons k' ks =>
      rw [List.cons_append, List.cons_append, each, ih (Nat.succ.inj h), each, mul_assoc]

end Each

/-! ## How many blocks an assertion owns -/

/-- Every fragment the assertion holds of has `n` blocks. -/
def Owns (P : Assertion β) (n : ℕ) : Prop := ∀ f, P f → f.size = n

theorem Owns.one : Owns (1 : Assertion β) 0 := by
  rintro f rfl
  exact Fragment.size_empty

theorem Owns.cell (p : ℕ) (b : β) : Owns (cell p b) 1 := by
  rintro f rfl
  exact Fragment.size_single p b

theorem Owns.mul {m n : ℕ} (hP : Owns P m) (hQ : Owns Q n) : Owns (P * Q) (m + n) := by
  rintro f ⟨g, h, hd, rfl, hg, hh⟩
  rw [Fragment.size_union hd, hP g hg, hQ h hh, Nat.cast_add]

theorem Owns.ex {ι : Type} {P : ι → Assertion β} {n : ℕ} (h : ∀ i, Owns (P i) n) :
    Owns (ex P) n := by
  rintro f ⟨i, hf⟩
  exact h i f hf

theorem Owns.fact_mul {n : ℕ} (h : φ → Owns P n) : Owns (fact φ * P) n := by
  intro f hf
  obtain ⟨hφ, hf⟩ := Assertion.fact_mul.mp hf
  exact h hφ f hf

theorem Owns.each {ι κ : Type} {S : ι → κ → Assertion β} {n : κ → ℕ} (h : ∀ i k, Owns (S i k) (n k))
    (is : List ι) (ks : List κ) : Owns (each S is ks) (ks.map n).sum := by
  induction is generalizing ks with
  | nil =>
    cases ks with
    | nil => exact .one
    | cons _ _ => exact fun f hf => hf.1.elim
  | cons i is ih =>
    cases ks with
    | nil => exact fun f hf => hf.1.elim
    | cons k ks => exact (h i k).mul (ih ks)

/-- A heap that holds `n` blocks has handed out at least as many addresses. -/
theorem Owns.le_next {n : ℕ} (hP : Owns P n) {h : Heap β} (hh : (P * Q) h.cells) : n ≤ h.next := by
  obtain ⟨f, g, hd, hc, hf, -⟩ := hh
  have hsize := h.size_le_next
  rw [hc, Fragment.size_union hd, hP f hf] at hsize
  exact_mod_cast le_self_add.trans hsize

/-- Blocks that nothing leads to any more: where they are counted there are `n`. -/
def garbage (counted : Prop) (n : ℕ) : Assertion β := fun f => counted → f.size = n

theorem garbage_congr {counted : Prop} {m n : ℕ} (hmn : counted → m = n)
    (h : garbage counted m f) : garbage counted n f :=
  fun hcounted => hmn hcounted ▸ h hcounted

theorem garbage_mul {counted : Prop} {m n : ℕ} (hP : counted → Owns P m)
    (h : (P * (garbage counted n : Assertion β)) f) : garbage counted (n + m) f := by
  obtain ⟨g, k, hd, rfl, hg, hk⟩ := h
  intro hcounted
  rw [Fragment.size_union hd, hP hcounted g hg, hk hcounted, add_comm, Nat.cast_add]

end Assertion

end NetconfServer.Library
