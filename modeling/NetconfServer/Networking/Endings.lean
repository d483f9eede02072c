import NetconfServer.Networking.Availability
import NetconfServer.Networking.Contexts
import NetconfServer.Networking.Faults

/-! # How the process ends

A set-up call, an `accept` or a write may fail for good: then the process ends by `mbedtls_exit`
with the error. A message that does not parse ends it as well, with the 0 that `main` returns. Of
either the parent of the process is told the low eight bits.
-/

namespace NetconfServer.Networking
open Memory CString Library Parsing
variable {lib : Libxml2} {s s' : Server} {o : Outcome} {ret : ℤ}

/-! ## The server -/

/-- The outcomes that end the process, with what `mbedtls_exit` is passed or `main` returns. -/
inductive Ending (lib : Libxml2) (s : Server) : Outcome → ℤ → Prop where
  | accept (ret : ℤ) (hcontrol : s.control = .accepting) (hret : ret ≠ 0) :
      Ending lib s (.accept ret) ret
  | write (ret : ℤ) (buf : List UInt8) (array : KeyValuePairArray)
      (hcontrol : s.control = .writing buf array) (hret : FatalWrite ret ∨ ret = 0) :
      Ending lib s (.write ret) EXIT
  /-- The copy of the message was refused, or the message does not parse. -/
  | read (chunk : Chunk) (hcontrol : s.control = .reading)
      (hmessage : s.supply 0 = false ∨ documentOf lib chunk = none) : Ending lib s (.read chunk) 0

theorem afterRead_returned_iff {chunk : Chunk} : (s.afterRead lib chunk).control = .returned ↔
    s.supply 0 = false ∨ documentOf lib chunk = none := by
  have hmessage := handleMessage_at lib chunk s.device s.msgNum s.supply
  rw [Server.afterRead]
  cases hhandle : handleMessage lib (.ofBuffer chunk.bytes) s.device s.msgNum s.supply with
  | error f =>
    rw [hhandle] at hmessage
    obtain ⟨hcopied, hmessage⟩ := hmessage
    refine iff_of_false (fun h => by cases h) ?_
    rcases hmessage with ⟨hdocument, -⟩ | ⟨root, hdocument, -⟩ <;> simp [hcopied, hdocument]
  | ok r =>
    obtain ⟨m, supply⟩ := r
    rw [hhandle] at hmessage
    cases m with
    | none => exact iff_of_true rfl hmessage
    | some m =>
      obtain ⟨hcopied, hdocument, -⟩ := hmessage
      refine iff_of_false ?_ (by simp [hcopied, hdocument])
      dsimp only
      cases formatReply m.reply.text s.ciphersuite supply with
      | error f => exact fun h => by cases h
      | ok r => exact fun h => by cases h

/-- What ends a step, and with which value. -/
def EndsWith (o : Outcome) (ret : ℤ) (s' : Server) : Prop :=
  s'.control = .exited ∧ o.ret = ret ∨ s'.control = .returned ∧ ret = 0

/-- Only the read of a message leads to the `return -1`. -/
theorem Hop.to_return {c : Control} (h : Hop c o .returned) :
    ∃ chunk, c = .reading ∧ o = .read chunk := by
  generalize hc' : Control.returned = c' at h
  cases h with
  | read chunk => exact ⟨chunk, rfl, rfl⟩
  | written buf array ret result hturn c hc =>
    rcases hc with rfl | rfl | ⟨rfl, -⟩ | ⟨f, rfl⟩ <;> cases hc'
  | agreed ciphersuite c hc => rcases hc with rfl | ⟨f, rfl⟩ <;> cases hc'
  | readError ret c hc => rcases hc with rfl | rfl <;> cases hc'
  | closed ret c hc => rcases hc with rfl | rfl <;> cases hc'
  | _ => cases hc'

theorem ending_of_step (h : step lib s o = some s') (hended : EndsWith o ret s') :
    Ending lib s o ret := by
  have hhop := step_hop h
  rcases hended with ⟨hcontrol, rfl⟩ | ⟨hcontrol, rfl⟩
  · rw [hcontrol] at hhop
    rcases hhop.to_exit with ⟨ret, hc, rfl, hret⟩ | ⟨buf, array, ret, hc, rfl, hturn⟩
    · exact .accept ret hc hret
    · rw [ret_of_writeTurn hturn]
      exact .write ret buf array hc (writeTurn_eq_exit.mp hturn)
  · rw [hcontrol] at hhop
    obtain ⟨chunk, hc, rfl⟩ := hhop.to_return
    have hread : step lib s (.read chunk) = some (s.afterRead lib chunk) := by
      unfold step
      rw [hc]
    obtain rfl := Option.some.inj (hread.symm.trans h)
    exact .read chunk hc (afterRead_returned_iff.mp hcontrol)

theorem step_of_ending (hs : Releasable s) (h : Ending lib s o ret) :
    ∃ s', step lib s o = some s' ∧ EndsWith o ret s' := by
  cases h with
  | accept ret hcontrol hret =>
    refine ⟨{ s with control := .exited }, ?_, .inl ⟨rfl, rfl⟩⟩
    unfold step
    rw [hcontrol]
    dsimp only
    rw [if_neg hret]
  | write ret buf array hcontrol hret =>
    refine ⟨s.afterWrite array ret, ?_, .inl ⟨?_, ?_⟩⟩
    · unfold step
      rw [hcontrol]
    · obtain ⟨c, copy, rfl⟩ := hs buf array hcontrol
      rw [Server.afterWrite, writeTurn_eq_exit.mpr hret, freeKeyValuePairArray_eq]
      rfl
    · exact ret_of_writeTurn (writeTurn_eq_exit.mpr hret)
  | read chunk hcontrol hmessage =>
    refine ⟨s.afterRead lib chunk, ?_, .inr ⟨afterRead_returned_iff.mpr hmessage, rfl⟩⟩
    unfold step
    rw [hcontrol]

/-! ## The process -/

/-- The process is at the label `exit` or runs the server. -/
inductive Runs (p : Process) (s : Server) : Prop where
  | serving (hstage : p.stage = .serving s) (hcontrol : s.control ≠ .exited)
  | exited (ret : ℤ) (hstage : p.stage = .exited ret) (hcontrol : s.control = .exited)

theorem step_runs (lib : Libxml2) {p : Process} (h : Runs p s) (o : Outcome) :
    Option.Rel Runs (p.step lib o) (step lib s o) := by
  cases h with
  | exited ret hstage hcontrol =>
    have hnone : step lib s o = none := by
      unfold step
      rw [hcontrol]
    rw [Process.step, hstage, hnone]
    exact .none
  | serving hstage hcontrol =>
    rw [Process.step, hstage]
    dsimp only
    cases step lib s o with
    | none => exact .none
    | some s' =>
      refine .some ?_
      by_cases hexited : s'.control = .exited
      · refine .exited o.ret ?_ hexited
        dsimp only
        rw [hexited]
      · refine .serving ?_ hexited
        dsimp only
        cases hc : s'.control with
        | exited => exact absurd hc hexited
        | _ => rfl

theorem start_eq (answers : ℕ → ℤ) (supply : Supply) :
    (∃ ret, (Process.start answers supply).stage = .exited ret ∧ ret ≠ 0 ∧
        ∃ k < 8, (∀ j < k, answers j = 0) ∧ answers k = ret) ∨
      (∀ k < 8, answers k = 0) ∧ Runs (Process.start answers supply) (.boot supply) := by
  have hsetUp := setUp_leads ⟨answers, []⟩ .none
  rw [Process.start]
  cases hresult : setUp ⟨answers, []⟩ with
  | mk r w =>
    rw [hresult] at hsetUp
    cases r with
    | error ret => exact .inl ⟨ret, rfl, hsetUp.1, hsetUp.2.1⟩
    | ok u => exact .inr ⟨hsetUp.1, .serving rfl fun h => by cases h⟩

theorem ended_iff {p p' : Process} (hruns : Runs p s) (h : p.step lib o = some p')
    (hstep : step lib s o = some s') : p'.ended = some ret ↔ EndsWith o ret s' := by
  obtain ⟨t, t', hstage, ht', hnext⟩ := Process.step_cases h
  cases hruns with
  | exited _ hexited =>
    rw [hstage] at hexited
    cases hexited
  | serving hserving =>
    rw [hstage] at hserving
    cases hserving
    obtain rfl := Option.some.inj (ht'.symm.trans hstep)
    rcases hnext with ⟨hcontrol, rfl⟩ | ⟨hcontrol, rfl⟩
    · simp [Process.ended, EndsWith, hcontrol]
    · rw [Process.ended, EndsWith]
      cases hc : t'.control with
      | exited => exact absurd hc hcontrol
      | returned => simp [hc, eq_comm]
      | _ => simp [hc]

theorem unserved_ends_iff {p₀ : Process} {ret' : ℤ} {os : List Outcome}
    (hstage : p₀.stage = .exited ret') :
    (∃ p, Machine.run (Process.step lib) p₀ os = some p ∧ p.ended = some ret) ↔
      os = [] ∧ ret' = ret := by
  have hended' : p₀.ended = some ret' := by rw [Process.ended, hstage]
  cases os with
  | nil =>
    constructor
    · rintro ⟨p, hrun, h⟩
      cases hrun
      rw [hended'] at h
      exact ⟨rfl, Option.some.inj h⟩
    · rintro ⟨-, rfl⟩
      exact ⟨p₀, rfl, hended'⟩
  | cons o os =>
    have hdead : p₀.step lib o = none := by rw [Process.step, hstage]
    simp [Machine.run_cons, hdead]

theorem served_ends_iff {p₀ : Process} {supply : Supply} {os : List Outcome}
    (hruns : Runs p₀ (.boot supply)) :
    (∃ p, Machine.run (Process.step lib) p₀ os = some p ∧ p.ended = some ret) ↔
      ∃ os' o s, os = os' ++ [o] ∧ Machine.run (step lib) (.boot supply) os' = some s ∧
        Ending lib s o ret := by
  have hfresh : p₀.ended = none := by
    cases hruns with
    | serving hstage =>
      rw [Process.ended, hstage]
      rfl
    | exited _ _ hcontrol => cases hcontrol
  have hstep := fun p s o (h : Runs p s) => step_runs lib h o
  constructor
  · rintro ⟨p, hrun, hended'⟩
    rcases List.eq_nil_or_concat' os with rfl | ⟨os', o, rfl⟩
    · cases hrun
      rw [hfresh] at hended'
      cases hended'
    · obtain ⟨p', s, s', -, hp, hs, hruns', hs', -⟩ := Machine.lockstep_last hstep hruns hrun
      have hended := (ended_iff hruns' hp hs').mp hended'
      exact ⟨os', o, s, rfl, hs, ending_of_step hs' hended⟩
  · rintro ⟨os', o, s, rfl, hs, hending⟩
    obtain ⟨s', hs', hended⟩ := step_of_ending (run_releasable hs) hending
    have hfirst := Machine.run_lockstep hstep hruns os'
    rw [hs] at hfirst
    obtain ⟨p, hp, hruns'⟩ := Machine.exists_of_rel_some_right hfirst
    have hnext := step_runs lib hruns' o
    rw [hs'] at hnext
    obtain ⟨p', hp', -⟩ := Machine.exists_of_rel_some_right hnext
    refine ⟨p', ?_, (ended_iff hruns' hp' hs').mpr hended⟩
    rw [Machine.run_concat, hp, Option.bind_some, hp']

/-- What `mbedtls_exit` is passed or `main` returns. -/
theorem process_ended_iff (lib : Libxml2) (answers : ℕ → ℤ) (supply : Supply) (os : List Outcome)
    (ret : ℤ) :
    (∃ p, Machine.run (Process.step lib) (.start answers supply) os = some p ∧
        p.ended = some ret) ↔
      (os = [] ∧ ret ≠ 0 ∧ ∃ k < 8, (∀ j < k, answers j = 0) ∧ answers k = ret) ∨
      ((∀ k < 8, answers k = 0) ∧ ∃ os' o s, os = os' ++ [o] ∧
        Machine.run (step lib) (.boot supply) os' = some s ∧ Ending lib s o ret) := by
  rcases start_eq answers supply with ⟨ret', hstage, hret', k, hk, hzero, hanswer⟩ | ⟨hzero, hruns⟩
  · rw [unserved_ends_iff hstage]
    constructor
    · rintro ⟨rfl, rfl⟩
      exact .inl ⟨rfl, hret', k, hk, hzero, hanswer⟩
    · rintro (⟨rfl, hret, j, hj, hzero', rfl⟩ | ⟨hall, -⟩)
      · -- both are the first result that is not 0
        rcases Nat.lt_trichotomy j k with hlt | rfl | hgt
        · exact absurd (hzero j hlt) hret
        · exact ⟨rfl, hanswer.symm⟩
        · exact absurd (hanswer.symm.trans (hzero' k hgt)) hret'
      · exact absurd (hanswer.symm.trans (hall k hk)) hret'
  · rw [served_ends_iff hruns]
    constructor
    · intro hends
      exact .inr ⟨hzero, hends⟩
    · rintro (⟨-, hret, k, hk, -, hanswer⟩ | ⟨-, hends⟩)
      · exact absurd (hanswer.symm.trans (hzero k hk)) hret
      · exact hends

/-- All the ways in which the process ends without leaving what C defines, whatever the set-up calls
and the network answer and whatever memory is refused, and the status it ends with: the low eight bits
of the error of a set-up call, of that of an `accept`, which the last outcome is, or of -2 after a
write error other than a reset or a write of nothing; and 0 after a message that is not copied or does
not parse. So a status of 0 may come from an error. -/
theorem process_ends_iff (lib : Libxml2) (answers : ℕ → ℤ) (supply : Supply) (os : List Outcome)
    (status : ℤ) :
    (∃ p, Machine.run (Process.step lib) (.start answers supply) os = some p ∧
        p.status = some status) ↔
      (os = [] ∧ ∃ k < 8, (∀ j < k, answers j = 0) ∧ answers k ≠ 0 ∧ status = answers k % 256) ∨
      ((∀ k < 8, answers k = 0) ∧ ∃ os' o s ret, os = os' ++ [o] ∧
        Machine.run (step lib) (.boot supply) os' = some s ∧ Ending lib s o ret ∧
        status = ret % 256) := by
  have hstatus (p : Process) : p.status = some status ↔
      ∃ ret, p.ended = some ret ∧ status = ret % 256 := by
    simp [Process.status, eq_comm]
  constructor
  · rintro ⟨p, hrun, hp⟩
    obtain ⟨ret, hended, rfl⟩ := (hstatus p).mp hp
    rcases (process_ended_iff lib answers supply os ret).mp ⟨p, hrun, hended⟩ with
      ⟨hos, hret, k, hk, hzero, rfl⟩ | ⟨hall, os', o, s, hos, hs, hending⟩
    · exact .inl ⟨hos, k, hk, hzero, hret, rfl⟩
    · exact .inr ⟨hall, os', o, s, ret, hos, hs, hending, rfl⟩
  · intro h
    obtain ⟨ret, hends, hret⟩ : ∃ ret, (∃ p, Machine.run (Process.step lib)
        (.start answers supply) os = some p ∧ p.ended = some ret) ∧ status = ret % 256 := by
      rcases h with ⟨hos, k, hk, hzero, hret, rfl⟩ | ⟨hall, os', o, s, ret, hos, hs, hending, rfl⟩
      · exact ⟨answers k, (process_ended_iff lib answers supply os _).mpr
          (.inl ⟨hos, hret, k, hk, hzero, rfl⟩), rfl⟩
      · exact ⟨ret, (process_ended_iff lib answers supply os ret).mpr
          (.inr ⟨hall, os', o, s, hos, hs, hending⟩), rfl⟩
    obtain ⟨p, hrun, hended⟩ := hends
    exact ⟨p, hrun, (hstatus p).mpr ⟨ret, hended, hret⟩⟩

end NetconfServer.Networking
