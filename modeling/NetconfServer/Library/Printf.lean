import Mathlib.Data.List.Count
import Mathlib.Tactic.SplitIfs

/-! # Formatted output with one string argument

`render` reads a format byte by byte. The argument list holds one pointer to a string, so `%s` and
`%p` are the conversions with a meaning. They name the argument by its place, and then it can be
used once, or by its number as in `%1$s`, and then any number of times; a format does not mix the
two. `%%` takes no argument. ISO C and POSIX leave every other directive undefined; it gives `none`.
-/

namespace NetconfServer.Library.Printf

structure Argument where
  text : List UInt8
  /-- The digits that `%p` writes for the pointer itself. -/
  pointer : List UInt8

/-- How far into a directive the format has been read. -/
inductive Mode where
  | literal
  | flags (first left : Bool)
  /-- Digits right after the percent sign: an argument number or a width. -/
  | number (padded : Bool) (n : ℕ)
  | width (left : Bool) (width : ℕ)
  | precision (left : Bool) (width precision : ℕ)
  deriving DecidableEq

/-- How the format has used the argument so far. -/
inductive Usage where
  | unused
  | used
  /-- By number only; `current` while the directive being read has given the number. -/
  | numbered (current : Bool)
  deriving DecidableEq

def Usage.number : Usage → Option Usage
  | .unused => some (.numbered true)
  | .numbered false => some (.numbered true)
  | _ => none

def Usage.take : Usage → Option Usage
  | .unused => some .used
  | .numbered true => some (.numbered false)
  | _ => none

def isDigit (c : UInt8) : Bool := 48 ≤ c ∧ c ≤ 57

def pad (left : Bool) (width : ℕ) (s : List UInt8) : List UInt8 :=
  if left then s ++ List.replicate (width - s.length) 32
  else List.replicate (width - s.length) 32 ++ s

/-- The field a conversion specifier writes. -/
def field (arg : Argument) (left : Bool) (width : ℕ) (precision : Option ℕ) (c : UInt8) :
    Option (List UInt8) :=
  if c = 115 then
    some (pad left width (match precision with
      | none => arg.text
      | some p => arg.text.take p))
  else if c = 112 ∧ precision = none then some (pad left width arg.pointer)
  else none

def render (arg : Argument) : Mode → Usage → List UInt8 → Option (List UInt8)
  | .literal, _, [] => some []
  | .literal, usage, c :: cs =>
    if c = 37 then render arg (.flags true false) usage cs
    else (render arg .literal usage cs).map (c :: ·)
  | .flags _ _, _, [] => none
  | .flags first left, usage, c :: cs =>
    if c = 37 then
      if first then (render arg .literal usage cs).map (c :: ·) else none
    else if c = 45 then render arg (.flags false true) usage cs
    else if c = 43 ∨ c = 32 then render arg (.flags false left) usage cs
    else if isDigit c ∧ first then render arg (.number (c = 48) (c.toNat - 48)) usage cs
    else if isDigit c ∧ c ≠ 48 then render arg (.width left (c.toNat - 48)) usage cs
    else if c = 46 then render arg (.precision left 0 0) usage cs
    else
      (field arg left 0 none c).bind fun f => usage.take.bind fun usage =>
        (render arg .literal usage cs).map (f ++ ·)
  | .number _ _, _, [] => none
  | .number padded n, usage, c :: cs =>
    if isDigit c then render arg (.number padded (10 * n + (c.toNat - 48))) usage cs
    else if c = 36 then
      if n = 1 then usage.number.bind fun usage => render arg (.flags false false) usage cs else none
    -- The flag `0` has no meaning for a string or a pointer.
    else if padded then none
    else if c = 46 then render arg (.precision false n 0) usage cs
    else
      (field arg false n none c).bind fun f => usage.take.bind fun usage =>
        (render arg .literal usage cs).map (f ++ ·)
  | .width _ _, _, [] => none
  | .width left w, usage, c :: cs =>
    if isDigit c then render arg (.width left (10 * w + (c.toNat - 48))) usage cs
    else if c = 46 then render arg (.precision left w 0) usage cs
    else
      (field arg left w none c).bind fun f => usage.take.bind fun usage =>
        (render arg .literal usage cs).map (f ++ ·)
  | .precision _ _ _, _, [] => none
  | .precision left w p, usage, c :: cs =>
    if isDigit c then render arg (.precision left w (10 * p + (c.toNat - 48))) usage cs
    else
      (field arg left w (some p) c).bind fun f => usage.take.bind fun usage =>
        (render arg .literal usage cs).map (f ++ ·)

/-- What `sprintf` writes, or `none` where the format has no meaning for the argument. -/
def sprintf (format : List UInt8) (arg : Argument) : Option (List UInt8) :=
  render arg .literal .unused format

variable {arg : Argument} {usage : Usage}

theorem render_of_no_percent {format : List UInt8} (h : 37 ∉ format) :
    render arg .literal usage format = some format := by
  induction format with
  | nil => rfl
  | cons c cs ih =>
    have hc : c ≠ 37 := fun he => h (he ▸ List.mem_cons_self)
    rw [render, if_neg hc, ih fun hcs => h (List.mem_cons_of_mem c hcs)]
    rfl

theorem pad_count (left : Bool) (width : ℕ) (s : List UInt8) :
    (pad left width s).count 37 = s.count 37 := by
  have hspaces : (List.replicate (width - s.length) (32 : UInt8)).count 37 = 0 := by
    simp [List.count_replicate]
  rw [pad]
  split <;> simp [hspaces]

theorem field_count (htext : 37 ∉ arg.text) (hpointer : 37 ∉ arg.pointer) {left : Bool}
    {width : ℕ} {precision : Option ℕ} {c : UInt8} {f : List UInt8}
    (h : field arg left width precision c = some f) : f.count 37 = 0 := by
  unfold field at h
  split_ifs at h
  · cases precision with
    | none =>
      cases h
      rw [pad_count]
      exact List.count_eq_zero.mpr htext
    | some p =>
      cases h
      rw [pad_count]
      exact List.count_eq_zero.mpr fun hm => htext (List.mem_of_mem_take hm)
  · cases h
    rw [pad_count]
    exact List.count_eq_zero.mpr hpointer

/-- The percent signs a mode has already consumed. -/
def Mode.opened : Mode → ℕ
  | .literal => 0
  | _ => 1

/-- Every percent sign of the output stands for two of the format. -/
theorem render_count (htext : 37 ∉ arg.text) (hpointer : 37 ∉ arg.pointer) {mode : Mode}
    {format out : List UInt8} (h : render arg mode usage format = some out) :
    2 * out.count 37 ≤ format.count 37 + mode.opened := by
  have hfield : ∀ {usage : Usage} {left : Bool} {w : ℕ} {p : Option ℕ} {c : UInt8}
      {cs out : List UInt8},
      (∀ {usage mode out}, render arg mode usage cs = some out →
        2 * out.count 37 ≤ cs.count 37 + mode.opened) →
      ((field arg left w p c).bind fun f => usage.take.bind fun usage =>
        (render arg .literal usage cs).map (f ++ ·)) = some out →
      2 * out.count 37 ≤ (c :: cs).count 37 + 1 := by
    intro usage left w p c cs out ih h
    obtain ⟨f, hf, h⟩ := Option.bind_eq_some_iff.mp h
    obtain ⟨usage', -, h⟩ := Option.bind_eq_some_iff.mp h
    obtain ⟨rest, hrest, rfl⟩ := Option.map_eq_some_iff.mp h
    have hr := ih hrest
    have hcons : cs.count 37 ≤ (c :: cs).count 37 := List.count_le_count_cons
    rw [List.count_append, field_count htext hpointer hf]
    simp only [Mode.opened] at hr
    omega
  induction format generalizing mode usage out with
  | nil =>
    cases mode with
    | literal =>
      cases h
      simp
    | flags first left => cases h
    | number padded n => cases h
    | width left w => cases h
    | precision left w p => cases h
  | cons c cs ih =>
    have hcons : cs.count 37 ≤ (c :: cs).count 37 := List.count_le_count_cons
    have hskip : ∀ {usage mode'}, render arg mode' usage cs = some out → mode'.opened = 1 →
        2 * out.count 37 ≤ (c :: cs).count 37 + 1 := by
      intro usage mode' h hm
      have hr := ih h
      omega
    cases mode with
    | literal =>
      rw [render] at h
      split_ifs at h with hc
      · have hr := ih h
        simp only [hc, List.count_cons_self, Mode.opened] at hr ⊢
        omega
      · obtain ⟨rest, hrest, rfl⟩ := Option.map_eq_some_iff.mp h
        have hr := ih hrest
        rw [List.count_cons_of_ne hc, List.count_cons_of_ne hc]
        exact hr
    | flags first left =>
      rw [render] at h
      split_ifs at h with hc hfirst
      · obtain ⟨rest, hrest, rfl⟩ := Option.map_eq_some_iff.mp h
        have hr := ih hrest
        simp only [hc, List.count_cons_self, Mode.opened] at hr ⊢
        omega
      · exact hskip h rfl
      · exact hskip h rfl
      · exact hskip h rfl
      · exact hskip h rfl
      · exact hskip h rfl
      · exact hfield ih h
    | number padded n =>
      rw [render] at h
      split_ifs at h
      · exact hskip h rfl
      · obtain ⟨usage', -, h⟩ := Option.bind_eq_some_iff.mp h
        exact hskip h rfl
      · exact hskip h rfl
      · exact hfield ih h
    | width left w =>
      rw [render] at h
      split_ifs at h
      · exact hskip h rfl
      · exact hskip h rfl
      · exact hfield ih h
    | precision left w p =>
      rw [render] at h
      split_ifs at h
      · exact hskip h rfl
      · exact hfield ih h

/-- A format is written literally exactly when it has no percent sign. -/
theorem sprintf_eq_self_iff (htext : 37 ∉ arg.text) (hpointer : 37 ∉ arg.pointer)
    {format : List UInt8} : sprintf format arg = some format ↔ 37 ∉ format := by
  constructor
  · intro h
    have hcount := render_count htext hpointer h
    simp only [Mode.opened] at hcount
    exact List.count_eq_zero.mp (by omega)
  · exact render_of_no_percent

/-- The bytes a directive is made of. -/
def inDirective (c : UInt8) : Bool :=
  c = 37 ∨ c = 45 ∨ c = 43 ∨ c = 32 ∨ isDigit c ∨ c = 36 ∨ c = 46 ∨ c = 115 ∨ c = 112

/-- A format that ends in an ordinary byte writes something. -/
theorem render_ne_nil {c : UInt8} (hc : inDirective c = false) {mode : Mode} {format out : List UInt8}
    (h : render arg mode usage (format ++ [c]) = some out) : out ≠ [] := by
  simp only [inDirective, decide_eq_false_iff_not, not_or] at hc
  obtain ⟨h37, h45, h43, h32, hdigit, h36, h46, h115, h112⟩ := hc
  have hfield : ∀ {left : Bool} {w : ℕ} {p : Option ℕ}, field arg left w p c = none := by
    intro left w p
    unfold field
    rw [if_neg h115, if_neg fun h => h112 h.1]
  have hrest : ∀ {usage : Usage} {left : Bool} {w : ℕ} {p : Option ℕ} {b : UInt8}
      {bs out : List UInt8},
      (∀ {usage mode out}, render arg mode usage bs = some out → out ≠ []) →
      ((field arg left w p b).bind fun f => usage.take.bind fun usage =>
        (render arg .literal usage bs).map (f ++ ·)) = some out →
      out ≠ [] := by
    intro usage left w p b bs out ih h
    obtain ⟨f, -, h⟩ := Option.bind_eq_some_iff.mp h
    obtain ⟨usage', -, h⟩ := Option.bind_eq_some_iff.mp h
    obtain ⟨rest, hr, rfl⟩ := Option.map_eq_some_iff.mp h
    exact List.append_ne_nil_of_right_ne_nil _ (ih hr)
  induction format generalizing mode usage out with
  | nil =>
    cases mode with
    | literal =>
      simp only [List.nil_append, render, if_neg h37, Option.map_some, Option.some_inj] at h
      simp [← h]
    | flags first left => simp [render, h37, h45, h43, h32, hdigit, h46, hfield] at h
    | number padded n => simp [render, hdigit, h36, h46, hfield] at h
    | width left w => simp [render, hdigit, h46, hfield] at h
    | precision left w p => simp [render, hdigit, hfield] at h
  | cons b bs ih =>
    rw [List.cons_append] at h
    cases mode with
    | literal =>
      rw [render] at h
      split_ifs at h
      · exact ih h
      · obtain ⟨rest, -, rfl⟩ := Option.map_eq_some_iff.mp h
        exact List.cons_ne_nil _ _
    | flags first left =>
      rw [render] at h
      split_ifs at h
      · obtain ⟨rest, -, rfl⟩ := Option.map_eq_some_iff.mp h
        exact List.cons_ne_nil _ _
      · exact ih h
      · exact ih h
      · exact ih h
      · exact ih h
      · exact ih h
      · exact hrest ih h
    | number padded n =>
      rw [render] at h
      split_ifs at h
      · exact ih h
      · obtain ⟨usage', -, h⟩ := Option.bind_eq_some_iff.mp h
        exact ih h
      · exact ih h
      · exact hrest ih h
    | width left w =>
      rw [render] at h
      split_ifs at h
      · exact ih h
      · exact ih h
      · exact hrest ih h
    | precision left w p =>
      rw [render] at h
      split_ifs at h
      · exact ih h
      · exact hrest ih h

end NetconfServer.Library.Printf
