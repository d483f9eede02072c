import Mathlib.Algebra.Ring.Nat
import Mathlib.Data.Finset.Card
import NetconfServer.Library.Register

/-! # Chained buckets

Keys with the same slot share a chain of entries. However the keys are spread over the slots, looking
one up gives what was put for it last, and there are as many entries as different keys.
-/

namespace NetconfServer.Library.Buckets
variable {κ ν : Type} [DecidableEq κ]

/-! ## One chain -/

/-- The chain with the first entry of a key changed, when the key has one. -/
def assign (k : κ) (v : ν) : List (κ × ν) → Option (List (κ × ν))
  | [] => none
  | (k', v') :: chain =>
    if k' = k then some ((k', v) :: chain) else (assign k v chain).map ((k', v') :: ·)

/-- A new key goes to the front. -/
def putChain (k : κ) (v : ν) (chain : List (κ × ν)) : List (κ × ν) :=
  (assign k v chain).getD ((k, v) :: chain)

variable {k k' : κ} {v : ν} {chain chain' : List (κ × ν)}

theorem lookup_cons (e : κ × ν) :
    (e :: chain).lookup k = if e.1 = k then some e.2 else chain.lookup k := by
  obtain ⟨k', v'⟩ := e
  rw [List.lookup_cons]
  by_cases h : k' = k
  · simp [h]
  · simp [h, beq_eq_false_iff_ne.mpr (Ne.symm h)]

theorem assign_eq_none : assign k v chain = none ↔ chain.lookup k = none := by
  induction chain with
  | nil => simp [assign]
  | cons e chain ih =>
    rw [assign, lookup_cons]
    by_cases h : e.1 = k
    · simp [h]
    · simp [h, ih]

theorem lookup_assign (h : assign k v chain = some chain') (k' : κ) :
    chain'.lookup k' = if k = k' then some v else chain.lookup k' := by
  induction chain generalizing chain' with
  | nil => cases h
  | cons e chain ih =>
    rw [assign] at h
    split_ifs at h with he
    · cases h
      simp only [lookup_cons, he]
      split_ifs <;> rfl
    · obtain ⟨rest, hrest, rfl⟩ := Option.map_eq_some_iff.mp h
      rw [lookup_cons, lookup_cons, ih hrest]
      split_ifs with h₁ h₂
      · exact absurd (h₁.trans h₂.symm) he
      · rfl
      · rfl
      · rfl

theorem length_assign (h : assign k v chain = some chain') : chain'.length = chain.length := by
  induction chain generalizing chain' with
  | nil => cases h
  | cons e chain ih =>
    rw [assign] at h
    split_ifs at h with he
    · cases h
      rfl
    · obtain ⟨rest, hrest, rfl⟩ := Option.map_eq_some_iff.mp h
      simp [ih hrest]

@[simp] theorem lookup_putChain (k k' : κ) (v : ν) (chain : List (κ × ν)) :
    (putChain k v chain).lookup k' = if k = k' then some v else chain.lookup k' := by
  rw [putChain]
  cases h : assign k v chain with
  | none => exact lookup_cons (k, v)
  | some chain' => exact lookup_assign h k'

theorem length_putChain (k : κ) (v : ν) (chain : List (κ × ν)) :
    (putChain k v chain).length = chain.length + if chain.lookup k = none then 1 else 0 := by
  rw [putChain]
  cases h : assign k v chain with
  | none => simp [assign_eq_none.mp h]
  | some chain' =>
    have hkey : chain.lookup k ≠ none := fun hnone => by
      rw [assign_eq_none.mpr hnone] at h
      cases h
    simp [length_assign h, hkey]

/-! ## All chains -/

variable (slot : κ → ℕ)

def get (table : List (List (κ × ν))) (k : κ) : Option ν :=
  (table[slot k]?).bind (·.lookup k)

def put (table : List (List (κ × ν))) (k : κ) (v : ν) : List (List (κ × ν)) :=
  table.modify (slot k) (putChain k v)

def putAll (table : List (List (κ × ν))) (puts : List (κ × ν)) : List (List (κ × ν)) :=
  puts.foldl (fun table p => put slot table p.1 p.2) table

/-- The number of entries. -/
def total (table : List (List (κ × ν))) : ℕ := (table.map List.length).sum

variable {slot} {table : List (List (κ × ν))}

@[simp] theorem length_put : (put slot table k v).length = table.length := by simp [put]

theorem get_put (h : slot k < table.length) (k' : κ) :
    get slot (put slot table k v) k' = if k = k' then some v else get slot table k' := by
  rw [get, get, put, List.getElem?_modify]
  by_cases hslot : slot k = slot k'
  · rw [← hslot, List.getElem?_eq_getElem h]
    simp
  · have hkey : k ≠ k' := fun hk => hslot (congrArg slot hk)
    simp [hslot, hkey]

theorem total_put (h : slot k < table.length) :
    total (put slot table k v) = total table + if get slot table k = none then 1 else 0 := by
  obtain ⟨left, chain, right, rfl, hleft, hmodify⟩ := List.exists_of_modify (putChain k v) h
  have hget : get slot (left ++ chain :: right) k = chain.lookup k := by
    rw [get, ← hleft]
    simp
  rw [put, hmodify, hget, total, total]
  simp only [List.map_append, List.map_cons, List.sum_append, List.sum_cons, length_putChain]
  omega

/-! ## Histories -/

/-- What a pair stores for a key. -/
def storedFor (k : κ) (p : κ × ν) : Option ν := if p.1 = k then some p.2 else none

variable {puts : List (κ × ν)}

theorem putAll_append_singleton (table : List (List (κ × ν))) (puts : List (κ × ν)) (p : κ × ν) :
    putAll slot table (puts ++ [p]) = put slot (putAll slot table puts) p.1 p.2 := by
  rw [putAll, List.foldl_append, putAll]
  rfl

theorem length_putAll : (putAll slot table puts).length = table.length := by
  induction puts using List.reverseRecOn with
  | nil => rfl
  | append_singleton puts p ih => rw [putAll_append_singleton, length_put, ih]

/-- A key has the value that was put for it last. -/
theorem get_putAll (hslot : ∀ k, slot k < table.length) (k : κ) :
    get slot (putAll slot table puts) k =
      Register.held (storedFor k) (get slot table k) puts := by
  induction puts using List.reverseRecOn with
  | nil => rfl
  | append_singleton puts p ih =>
    rw [putAll_append_singleton, get_put (by rw [length_putAll]; exact hslot p.1), ih,
      Register.held_append, Register.held_cons, storedFor]
    split_ifs <;> rfl

theorem get_empty (n : ℕ) (k : κ) : get slot (List.replicate n ([] : List (κ × ν))) k = none := by
  rw [get, List.getElem?_replicate]
  split_ifs <;> rfl

theorem get_putAll_eq_none {n : ℕ} (hslot : ∀ k, slot k < n) :
    get slot (putAll slot (List.replicate n []) puts) k = none ↔ k ∉ puts.map Prod.fst := by
  rw [get_putAll (by simpa using hslot), get_empty]
  rcases Register.exists_latest (storedFor k) puts with
    hnone | ⟨before, p, after, v, rfl, hp, hnone⟩
  · rw [Register.held_of_none hnone]
    simp only [true_iff, List.mem_map, not_exists, not_and]
    rintro p hp rfl
    simpa [storedFor] using hnone p hp
  · rw [Register.held_of_latest hp hnone]
    have hkey : p.1 = k := by
      by_contra hne
      simp [storedFor, hne] at hp
    simp [hkey]

theorem toFinset_append_singleton (l : List κ) (k : κ) : (l ++ [k]).toFinset = insert k l.toFinset := by
  ext
  simp

/-- There are as many entries as different keys. -/
theorem total_putAll {n : ℕ} (hslot : ∀ k, slot k < n) (puts : List (κ × ν)) :
    total (putAll slot (List.replicate n []) puts) = (puts.map Prod.fst).toFinset.card := by
  induction puts using List.reverseRecOn with
  | nil => simp [putAll, total]
  | append_singleton puts p ih =>
    have hlength : slot p.1 < (putAll slot (List.replicate n []) puts).length := by
      rw [length_putAll, List.length_replicate]
      exact hslot p.1
    rw [putAll_append_singleton, total_put hlength, ih, List.map_append, List.map_singleton,
      toFinset_append_singleton]
    by_cases hmem : p.1 ∈ puts.map Prod.fst
    · rw [if_neg (by rw [get_putAll_eq_none hslot]; exact not_not_intro hmem),
        Finset.insert_eq_of_mem (List.mem_toFinset.mpr hmem), Nat.add_zero]
    · rw [if_pos ((get_putAll_eq_none hslot).mpr hmem),
        Finset.card_insert_of_notMem (by simpa using hmem)]

end NetconfServer.Library.Buckets
