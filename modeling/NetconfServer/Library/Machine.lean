import Mathlib.Data.List.Basic

/-! # Runs of a machine

A machine is a partial step function on states and inputs. A run feeds it a list of inputs and
stops with `none` at the first input the machine is not waiting for.
-/

namespace NetconfServer.Library.Machine
variable {σ ι : Type} (step : σ → ι → Option σ)

def run (s : σ) : List ι → Option σ
  | [] => some s
  | i :: is => (step s i).bind fun s' => run s' is

/-- Every input of the run is offered to a state for which `Q` allows it. -/
def Along (Q : σ → ι → Prop) (s : σ) : List ι → Prop
  | [] => True
  | i :: is => Q s i ∧ ∀ s', step s i = some s' → Along Q s' is

variable {step} {s t : σ} {i : ι} {is js : List ι} {Q : σ → ι → Prop} {P : σ → Prop}

theorem run_cons : run step s (i :: is) = (step s i).bind fun s' => run step s' is := rfl

theorem run_append : run step s (is ++ js) = (run step s is).bind fun s' => run step s' js := by
  induction is generalizing s with
  | nil => rfl
  | cons i is ih =>
    rw [List.cons_append, run_cons, run_cons, Option.bind_assoc]
    simp only [ih]

theorem run_append_of_eq (h : run step s is = some t) :
    run step s (is ++ js) = run step t js := by
  rw [run_append, h, Option.bind_some]

theorem run_concat : run step s (is ++ [i]) = (run step s is).bind fun s' => step s' i := by
  rw [run_append]
  congr
  funext s'
  rw [run_cons]
  exact Option.bind_fun_some (step s' i)

/-- What one step preserves, a whole run preserves. -/
theorem run_invariant (hstep : ∀ s i s', P s → step s i = some s' → P s')
    (hrun : run step s is = some t) (hs : P s) : P t := by
  induction is generalizing s with
  | nil =>
    cases hrun
    exact hs
  | cons i is ih =>
    obtain ⟨s', hi, hrun⟩ := Option.bind_eq_some_iff.mp hrun
    exact ih hrun (hstep s i s' hs hi)

/-- Machines whose related states take the same inputs to related states run in step. -/
theorem run_lockstep {τ : Type} {step' : τ → ι → Option τ} {R : τ → σ → Prop}
    (hstep : ∀ t s i, R t s → Option.Rel R (step' t i) (step s i)) {t : τ} (h : R t s)
    (is : List ι) : Option.Rel R (run step' t is) (run step s is) := by
  induction is generalizing s t with
  | nil => exact .some h
  | cons i is ih =>
    rw [run_cons, run_cons]
    have hrel := hstep t s i h
    generalize step' t i = t', step s i = s' at hrel ⊢
    cases hrel with
    | none => exact .none
    | some h' => exact ih h'

theorem exists_of_rel_some_left {α β : Type} {R : α → β → Prop} {a : α} {b : Option β}
    (h : Option.Rel R (some a) b) : ∃ b', b = some b' ∧ R a b' := by
  cases h with
  | some h => exact ⟨_, rfl, h⟩

theorem exists_of_rel_some_right {α β : Type} {R : α → β → Prop} {a : Option α} {b : β}
    (h : Option.Rel R a (some b)) : ∃ a', a = some a' ∧ R a' b := by
  cases h with
  | some h => exact ⟨_, rfl, h⟩

/-- The last step of a run is matched by the last step of the other machine. -/
theorem lockstep_last {τ : Type} {step' : τ → ι → Option τ} {R : τ → σ → Prop}
    (hstep : ∀ t s i, R t s → Option.Rel R (step' t i) (step s i)) {t t' : τ} (h : R t s)
    (hrun : run step' t (is ++ [i]) = some t') :
    ∃ u v s', run step' t is = some u ∧ step' u i = some t' ∧
      run step s is = some v ∧ R u v ∧ step v i = some s' ∧ R t' s' := by
  rw [run_concat] at hrun
  obtain ⟨u, hu, ht'⟩ := Option.bind_eq_some_iff.mp hrun
  have hfirst := run_lockstep hstep h is
  rw [hu] at hfirst
  obtain ⟨v, hv, huv⟩ := exists_of_rel_some_left hfirst
  have hlast := hstep u v i huv
  rw [ht'] at hlast
  obtain ⟨s', hs', hnext⟩ := exists_of_rel_some_left hlast
  exact ⟨u, v, s', hu, ht', hv, huv, hs', hnext⟩

/-- Where no step leads out of `F`, a run ends in `F` exactly when one of its steps led into it. -/
theorem run_terminal_iff {F : σ → Prop} {B : σ → ι → Prop}
    (hstep : ∀ s i s', P s → Q s i → step s i = some s' → P s' ∧ (F s' ↔ B s i))
    (hF : ∀ s i, F s → step s i = none) (hall : Along step Q s is) (hrun : run step s is = some t)
    (hs : P s) (hstart : ¬ F s) :
    F t ↔ ∃ is₁ i is₂ u, is = is₁ ++ i :: is₂ ∧ run step s is₁ = some u ∧ B u i := by
  induction is generalizing s with
  | nil =>
    cases hrun
    simp [hstart]
  | cons i is ih =>
    obtain ⟨s', hi, hrun⟩ := Option.bind_eq_some_iff.mp hrun
    obtain ⟨hs', hiff⟩ := hstep s i s' hs hall.1 hi
    by_cases hF' : F s'
    · cases is with
      | nil =>
        cases hrun
        exact iff_of_true hF' ⟨[], i, [], s, rfl, rfl, hiff.mp hF'⟩
      | cons j is =>
        rw [run_cons, hF s' j hF'] at hrun
        cases hrun
    · rw [ih (hall.2 s' hi) hrun hs' hF']
      constructor
      · rintro ⟨is₁, j, is₂, u, rfl, hu, hj⟩
        exact ⟨i :: is₁, j, is₂, u, rfl, by rw [run_cons, hi]; exact hu, hj⟩
      · rintro ⟨is₁, j, is₂, u, his, hu, hj⟩
        cases is₁ with
        | nil =>
          obtain ⟨rfl, rfl⟩ := List.cons_eq_cons.mp his
          cases hu
          exact absurd (hiff.mpr hj) hF'
        | cons k is₁ =>
          obtain ⟨rfl, rfl⟩ := List.cons_eq_cons.mp his
          rw [run_cons, hi] at hu
          exact ⟨is₁, j, is₂, u, rfl, hu, hj⟩

/-! ## What a run puts out -/

/-- The output of a run when that of a step is `out`. -/
def emitted {ω : Type} (step : σ → ι → Option σ) (out : σ → ι → List ω) (s : σ) : List ι → List ω
  | [] => []
  | i :: is => match step s i with
    | none => []
    | some s' => out s i ++ emitted step out s' is

section Output
variable {ω : Type} {out : σ → ι → List ω}

theorem emitted_cons_of_eq {s' : σ} (h : step s i = some s') :
    emitted step out s (i :: is) = out s i ++ emitted step out s' is := by
  rw [emitted, h]

theorem emitted_append_of_eq (h : run step s is = some t) :
    emitted step out s (is ++ js) = emitted step out s is ++ emitted step out t js := by
  induction is generalizing s with
  | nil =>
    cases h
    rfl
  | cons i is ih =>
    obtain ⟨s', hi, hrun⟩ := Option.bind_eq_some_iff.mp h
    rw [List.cons_append, emitted_cons_of_eq hi, emitted_cons_of_eq hi, ih hrun, List.append_assoc]

/-- What one step preserves of a state and the output so far, a whole run preserves. -/
theorem run_emitted {R : σ → List ω → Prop}
    (hstep : ∀ s i s' sent, R s sent → step s i = some s' → R s' (sent ++ out s i))
    (hrun : run step s is = some t) {sent : List ω} (h : R s sent) :
    R t (sent ++ emitted step out s is) := by
  induction is generalizing s sent with
  | nil =>
    cases hrun
    rwa [emitted, List.append_nil]
  | cons i is ih =>
    obtain ⟨s', hi, hrun⟩ := Option.bind_eq_some_iff.mp hrun
    rw [emitted_cons_of_eq hi, ← List.append_assoc]
    exact ih hrun (hstep s i s' sent h hi)

/-- Machines that run in step put out the same when their related states do. -/
theorem emitted_lockstep {τ : Type} {step' : τ → ι → Option τ} {out' : τ → ι → List ω}
    {R : τ → σ → Prop} (hstep : ∀ t s i, R t s → Option.Rel R (step' t i) (step s i))
    (hout : ∀ t s i, R t s → out' t i = out s i) {t : τ} (h : R t s) (is : List ι) :
    emitted step' out' t is = emitted step out s is := by
  induction is generalizing s t with
  | nil => rfl
  | cons i is ih =>
    have hrel := hstep t s i h
    rw [emitted, emitted]
    generalize step' t i = t', step s i = s' at hrel ⊢
    cases hrel with
    | none => rfl
    | some h' =>
      dsimp only
      rw [hout t s i h, ih h']

end Output

theorem along_cons_of_eq {s' : σ} (h : step s i = some s') :
    Along step Q s (i :: is) ↔ Q s i ∧ Along step Q s' is := by
  simp [Along, h]

end NetconfServer.Library.Machine
