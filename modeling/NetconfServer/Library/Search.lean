import Mathlib.Data.List.Infix

/-! # The text before a delimiter

`before pat s` is the part of `s` in front of the first occurrence of `pat`, and all of `s` when
there is none.
-/

namespace NetconfServer.Library
variable {α : Type}

/-! ## Where an occurrence can begin -/

/-- None begins in a text without the first byte of the delimiter. -/
theorem prefix_drop_append_iff {a : α} {pat f l : List α} (ha : a ∉ f) (k : ℕ) :
    a :: pat <+: (f ++ l).drop k ↔ f.length ≤ k ∧ a :: pat <+: l.drop (k - f.length) := by
  induction f generalizing k with
  | nil => simp
  | cons b f ih =>
    obtain ⟨hab, hf⟩ := List.ne_and_not_mem_of_not_mem_cons ha
    cases k with
    | zero => simp [hab]
    | succ k => simpa using ih hf k

/-- One that begins before a byte that the delimiter does not have ends before it. -/
theorem prefix_drop_append_cons_iff {c : α} {pat l m : List α} (hpat : pat ≠ []) (hc : c ∉ pat)
    (k : ℕ) : pat <+: (l ++ c :: m).drop k ↔
      pat <+: l.drop k ∨ l.length < k ∧ pat <+: m.drop (k - (l.length + 1)) := by
  rcases Nat.lt_or_ge l.length k with hk | hk
  · have hdrop : (l ++ c :: m).drop k = m.drop (k - (l.length + 1)) := by
      have hlength : (l ++ [c]).length ≤ k := by
        rw [List.length_append]
        exact hk
      rw [← List.singleton_append, ← List.append_assoc, List.drop_append,
        List.drop_eq_nil_of_le hlength, List.nil_append, List.length_append,
        List.length_singleton]
    have hnil : l.drop k = [] := List.drop_eq_nil_of_le (Nat.le_of_lt hk)
    rw [hdrop, hnil]
    simp [hk, hpat]
  · rw [List.drop_append_of_le_length hk]
    constructor
    · intro h
      rcases Nat.lt_or_ge (l.drop k).length pat.length with hlength | hlength
      · -- The byte would be one of the delimiter's.
        have hlong : l.drop k ++ [c] <+: pat := by
          have hbyte : l.drop k ++ [c] <+: l.drop k ++ c :: m := by simp
          apply List.prefix_of_prefix_length_le hbyte h
          rw [List.length_append]
          exact hlength
        exact absurd (hlong.subset (by simp)) hc
      · exact .inl (List.prefix_of_prefix_length_le h (List.prefix_append _ _) hlength)
    · rintro (h | ⟨hlt, -⟩)
      · exact h.trans (List.prefix_append _ _)
      · omega

theorem infix_iff_exists_drop {pat l : List α} : pat <:+: l ↔ ∃ k, pat <+: l.drop k := by
  constructor
  · rintro ⟨s, t, rfl⟩
    exact ⟨s.length, by simp⟩
  · rintro ⟨k, h⟩
    exact h.isInfix.trans (List.drop_suffix k l).isInfix

theorem infix_append_cons_iff {c : α} {pat l m : List α} (hpat : pat ≠ []) (hc : c ∉ pat) :
    pat <:+: l ++ c :: m ↔ pat <:+: l ∨ pat <:+: m := by
  constructor
  · intro h
    obtain ⟨k, hk⟩ := infix_iff_exists_drop.mp h
    rcases (prefix_drop_append_cons_iff hpat hc k).mp hk with hk | ⟨-, hk⟩
    · exact .inl (infix_iff_exists_drop.mpr ⟨k, hk⟩)
    · exact .inr (infix_iff_exists_drop.mpr ⟨_, hk⟩)
  · rintro (h | h)
    · exact h.trans (List.prefix_append _ _).isInfix
    · exact h.trans ((List.suffix_cons c m).trans (List.suffix_append _ _)).isInfix

/-! ## The text before the first occurrence -/

variable [DecidableEq α]

def before (pat : List α) : List α → List α
  | [] => []
  | a :: s => if pat <+: a :: s then [] else a :: before pat s

/-- What follows that occurrence. -/
def after (pat s : List α) : List α := s.drop ((before pat s).length + pat.length)

theorem before_isPrefix (pat s : List α) : before pat s <+: s := by
  induction s with
  | nil => exact List.prefix_rfl
  | cons a s ih =>
    rw [before]
    split_ifs
    · exact List.nil_prefix
    · exact (List.prefix_cons_inj a).mpr ih

theorem before_eq_self {pat s : List α} (h : ¬ pat <:+: s) : before pat s = s := by
  induction s with
  | nil => rfl
  | cons a s ih =>
    rw [before, if_neg (fun hp => h hp.isInfix),
      ih (fun hs => h (hs.trans (List.suffix_cons a s).isInfix))]

/-- A beginning that stops short of the first occurrence's end has none. -/
theorem before_of_isPrefix {pat l r : List α} (h : r <+: l)
    (hlength : r.length < (before pat l).length + pat.length) : before pat r = r := by
  induction r generalizing l with
  | nil => rfl
  | cons a r ih =>
    cases l with
    | nil => exact absurd h (by simp)
    | cons b l =>
      obtain ⟨rfl, hprefix⟩ := List.cons_prefix_cons.mp h
      have hshort : ¬ pat <+: a :: r := by
        intro hpat
        have hpat' : pat <+: a :: l := hpat.trans h
        rw [before, if_pos hpat'] at hlength
        have hle := hpat.length_le
        simp only [List.length_nil] at hlength
        omega
      rw [before, if_neg hshort, ih hprefix]
      rw [before] at hlength
      split_ifs at hlength
      · simp only [List.length_cons, List.length_nil] at hlength
        omega
      · simp only [List.length_cons] at hlength
        omega

/-- A text up to its delimiter, when no occurrence starts inside the text. -/
theorem before_append {pat d r : List α} (hpat : pat ≠ [])
    (h : ∀ k < d.length, ¬ pat <+: (d ++ (pat ++ r)).drop k) : before pat (d ++ (pat ++ r)) = d := by
  induction d with
  | nil =>
    cases pat with
    | nil => exact absurd rfl hpat
    | cons p pat =>
      rw [List.nil_append, List.cons_append, before, if_pos]
      exact List.prefix_append (p :: pat) r
  | cons a d ih =>
    have h0 : ¬ pat <+: a :: (d ++ (pat ++ r)) := h 0 (by simp)
    rw [List.cons_append, before, if_neg h0, ih]
    intro k hk
    exact h (k + 1) (by simpa using hk)

/-- Appending a text after the delimiter does not move the first occurrence. -/
theorem before_append_right {pat d r : List α} (h : before pat (d ++ pat) = d) :
    before pat (d ++ (pat ++ r)) = d := by
  induction d with
  | nil =>
    cases pat with
    | nil => cases r <;> simp [before]
    | cons p pat =>
      rw [List.nil_append, List.cons_append, before, if_pos]
      exact List.prefix_append (p :: pat) r
  | cons a d ih =>
    rw [List.cons_append, before] at h
    split_ifs at h with hp
    have hp' : ¬ pat <+: a :: (d ++ (pat ++ r)) := by
      intro hlong
      apply hp
      have hshort : a :: (d ++ pat) <+: a :: (d ++ (pat ++ r)) := by
        rw [← List.append_assoc]
        exact List.prefix_append (a :: (d ++ pat)) r
      exact List.prefix_of_prefix_length_le hlong hshort (by simp; omega)
    rw [List.cons_append, before, if_neg hp', ih (List.tail_eq_of_cons_eq h)]

/-- Nothing after a delimiter is kept. -/
theorem before_append_isPrefix (pat d r : List α) : before pat (d ++ (pat ++ r)) <+: d := by
  induction d with
  | nil =>
    cases pat with
    | nil => cases r <;> simp [before]
    | cons p pat =>
      rw [List.nil_append, List.cons_append, before, if_pos]
      exact List.prefix_append (p :: pat) r
  | cons a d ih =>
    rw [List.cons_append, before]
    split_ifs
    · exact List.nil_prefix
    · exact (List.prefix_cons_inj a).mpr ih

theorem after_append_right {pat d r : List α} (h : before pat (d ++ pat) = d) :
    after pat (d ++ (pat ++ r)) = r := by
  rw [after, before_append_right h, ← List.append_assoc]
  exact List.drop_left' (by simp)

/-- A text without the first byte of the delimiter ends where the delimiter begins. -/
theorem before_append_cons {a : α} {pat d r : List α} (h : a ∉ d) :
    before (a :: pat) (d ++ (a :: pat ++ r)) = d := by
  induction d with
  | nil => exact before_append (List.cons_ne_nil a pat) (by simp)
  | cons b d ih =>
    obtain ⟨hb, hd⟩ := List.ne_and_not_mem_of_not_mem_cons h
    have hp : ¬ a :: pat <+: b :: (d ++ (a :: pat ++ r)) := by
      rw [List.cons_prefix_cons]
      exact fun hab => hb hab.1
    rw [List.cons_append, before, if_neg hp, ih hd]

end NetconfServer.Library
