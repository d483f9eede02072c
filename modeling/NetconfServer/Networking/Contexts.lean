import NetconfServer.Networking.History
import NetconfServer.Networking.Process
import NetconfServer.Parsing.Serialiser

/-! # The contexts of the library

The local variables of `mbed_ssl_server` that belong to the library are initialised by one call,
passed to others and released by a last one. Whatever the calls return, none is passed to a call
before the first or after the last.
-/

namespace NetconfServer.Networking
open Memory CString Library Parsing

/-- The contexts a call is passed, other than for initialisation. -/
def Call.contexts : Call → List Context
  | .init _ | .debugSetThreshold _ | .exit _ => []
  | .ctrDrbgSeed _ => [.ctrDrbg, .entropy]
  | .x509CrtParseFile crt _ => [crt]
  | .pkParseKeyfile _ => [.pkey]
  | .netBind _ => [.listenFd]
  | .sslConfigDefaults | .sslConfDbg | .sslConfAuthmode _ => [.conf]
  | .sslConfRng => [.conf, .ctrDrbg]
  | .sslConfSessionCache => [.conf, .cache]
  | .sslConfCaChain crt => [.conf, crt]
  | .sslConfOwnCert crt => [.conf, crt, .pkey]
  | .sslSetup => [.ssl, .conf]
  | .netFree c => [c]
  | .netAccept => [.listenFd, .clientFd]
  | .sslSetBio => [.ssl, .clientFd]
  | .sslSessionReset | .sslHandshake | .sslRead | .sslGetCiphersuite | .sslWrite
  | .sslCloseNotify => [.ssl]
  | .free c => [c]

/-- After `calls`, what the call is passed is initialised and not released, and what it initialises
is not yet initialised. -/
structure Follows (calls : List Call) (c : Call) : Prop where
  passed : ∀ x ∈ c.contexts, .init x ∈ calls ∧ .free x ∉ calls
  fresh : ∀ x, c = .init x → .init x ∉ calls

def Disciplined (calls : List Call) : Prop :=
  ∀ earlier c later, calls = earlier ++ c :: later → Follows earlier c

variable {calls : List Call} {c : Call} {ret : ℤ} {live live' live'' released : List Context}
  {x : Context}

theorem Disciplined.snoc (h : Disciplined calls) (hc : Follows calls c) :
    Disciplined (calls ++ [c]) := by
  intro earlier c' later heq
  rcases List.eq_nil_or_concat' later with rfl | ⟨later, last, rfl⟩
  · obtain ⟨rfl, hlast⟩ := List.append_inj' heq rfl
    cases hlast
    exact hc
  · rw [← List.cons_append, ← List.append_assoc] at heq
    obtain ⟨rfl, -⟩ := List.append_inj' heq rfl
    exact h earlier c' later rfl

/-- The calls so far kept the order, initialised just `live` and released just `released`. -/
structure Holding (live released : List Context) (calls : List Call) : Prop where
  disciplined : Disciplined calls
  initialised : ∀ x, .init x ∈ calls ↔ x ∈ live
  freed : ∀ x, .free x ∈ calls ↔ x ∈ released

/-- A call that neither initialises nor releases, of contexts that are there. -/
def Call.uses (live released : List Context) : Call → Bool
  | .init _ | .free _ => false
  | c => c.contexts.all fun x => x ∈ live ∧ x ∉ released

theorem Call.uses_iff : c.uses live released = true ↔
    (∀ x, c ≠ .init x) ∧ (∀ x, c ≠ .free x) ∧ ∀ x ∈ c.contexts, x ∈ live ∧ x ∉ released := by
  cases c <;> simp [uses, contexts]

namespace Holding

theorem none : Holding [] [] [] where
  disciplined earlier c later h := by simp at h
  initialised x := by simp
  freed x := by simp

theorem init (h : Holding live [] calls) (hx : x ∉ live) :
    Holding (x :: live) [] (calls ++ [.init x]) where
  disciplined := by
    refine h.disciplined.snoc ⟨fun y hy => absurd hy List.not_mem_nil, fun y hy => ?_⟩
    cases hy
    rwa [h.initialised]
  initialised y := by simp [h.initialised, or_comm]
  freed y := by simp [h.freed]

theorem call (h : Holding live released calls) (hc : c.uses live released = true) :
    Holding live released (calls ++ [c]) := by
  obtain ⟨hinit, hfree, hcontexts⟩ := Call.uses_iff.mp hc
  constructor
  · refine h.disciplined.snoc ⟨fun y hy => ?_, fun y hy => absurd hy (hinit y)⟩
    rw [h.initialised, h.freed]
    exact hcontexts y hy
  · intro y
    simp [h.initialised, (hinit y).symm]
  · intro y
    simp [h.freed, (hfree y).symm]

theorem append (h : Holding live released calls) {more : List Call}
    (hmore : ∀ c ∈ more, c.uses live released = true) : Holding live released (calls ++ more) := by
  induction more generalizing calls with
  | nil => rwa [List.append_nil]
  | cons c more ih =>
    obtain ⟨hc, hrest⟩ := List.forall_mem_cons.mp hmore
    have hnext := ih (h.call hc) hrest
    rwa [List.append_assoc] at hnext

theorem free (h : Holding live released calls) (hx : x ∈ live) (hfresh : x ∉ released) :
    Holding live (x :: released) (calls ++ [.free x]) where
  disciplined := by
    refine h.disciplined.snoc ⟨fun y hy => ?_, fun y hy => Call.noConfusion hy⟩
    obtain rfl : y = x := List.mem_singleton.mp hy
    rw [h.initialised, h.freed]
    exact ⟨hx, hfresh⟩
  initialised y := by simp [h.initialised]
  freed y := by simp [h.freed, or_comm]

end Holding

/-- All ten contexts, the last initialised first. -/
def Context.all : List Context :=
  [.ctrDrbg, .entropy, .pkey, .cacert, .srvcert, .cache, .conf, .ssl, .clientFd, .listenFd]

theorem Context.mem_all (x : Context) : x ∈ Context.all := by
  cases x <;> decide

/-- The contexts that the label `exit` releases, the last first. -/
def Context.freed : List Context := [.entropy, .ctrDrbg, .cache, .conf, .ssl, .pkey, .srvcert]

/-- The way out releases all contexts but the sockets, which it closes, and the chain. -/
theorem Holding.exit (h : Holding Context.all [] calls) (ret : ℤ) :
    Holding Context.all Context.freed (calls ++ exitCalls ret) := by
  have hclosed := (h.call (c := .netFree .clientFd) rfl).call (c := .netFree .listenFd) rfl
  have hcerts := (hclosed.free (x := .srvcert) (by decide) (by decide)).free (x := .pkey)
    (by decide) (by decide)
  have hssl := ((hcerts.free (x := .ssl) (by decide) (by decide)).free (x := .conf)
    (by decide) (by decide)).free (x := .cache) (by decide) (by decide)
  have hrandom := (hssl.free (x := .ctrDrbg) (by decide) (by decide)).free (x := .entropy)
    (by decide) (by decide)
  have hexit := hrandom.call (c := .exit ret) rfl
  simpa [exitCalls, Context.freed, List.append_assoc] using hexit

/-! ## The set-up -/

/-- With the contexts `live` initialised `x` leads to `live'` when the next `n` results are 0, and
else it stops at the first that is not, with all contexts initialised. -/
def Leads (x : SetUp Unit) (n : ℕ) (live live' : List Context) : Prop :=
  ∀ w, Holding live [] w.calls → match x w with
    | (.ok _, w') => (∀ j < n, w.answers j = 0) ∧ w'.answers = (fun j => w.answers (j + n)) ∧
      Holding live' [] w'.calls
    | (.error ret, w') => ret ≠ 0 ∧ (∃ j < n, (∀ i < j, w.answers i = 0) ∧ w.answers j = ret) ∧
      Holding Context.all [] w'.calls

theorem Leads.init (h : x ∉ live) : Leads (SetUp.call (.init x)) 0 live (x :: live) :=
  fun _ hw => ⟨fun j hj => absurd hj (Nat.not_lt_zero j), rfl, hw.init h⟩

theorem Leads.call (h : c.uses live [] = true) : Leads (SetUp.call c) 0 live live :=
  fun _ hw => ⟨fun j hj => absurd hj (Nat.not_lt_zero j), rfl, hw.call h⟩

theorem Leads.checked (h : c.uses Context.all [] = true) :
    Leads (SetUp.checked c) 1 Context.all Context.all := by
  intro w hw
  have hholding := hw.call h
  rw [SetUp.checked]
  by_cases hret : w.answers 0 = 0
  · rw [if_neg (not_not_intro hret)]
    refine ⟨fun j hj => ?_, rfl, hholding⟩
    rwa [Nat.lt_one_iff.mp hj]
  · rw [if_pos hret]
    exact ⟨hret, ⟨0, Nat.one_pos, fun i hi => absurd hi (Nat.not_lt_zero i), rfl⟩, hholding⟩

theorem setUp_bind_ok {x : SetUp Unit} {f : Unit → SetUp Unit} {w w' : World}
    (h : x w = (.ok (), w')) : (x >>= f) w = f () w' := by
  simp only [Bind.bind, ExceptT.bind, ExceptT.mk, StateT.bind, h]
  rfl

theorem setUp_bind_error {x : SetUp Unit} {f : Unit → SetUp Unit} {w w' : World}
    (h : x w = (.error ret, w')) : (x >>= f) w = (.error ret, w') := by
  simp only [Bind.bind, ExceptT.bind, ExceptT.mk, StateT.bind, h]
  rfl

theorem Leads.bind {x y : SetUp Unit} {m n : ℕ} (hx : Leads x m live live')
    (hy : Leads y n live' live'') : Leads (x >>= fun _ => y) (m + n) live live'' := by
  intro w hw
  have hfirst := hx w hw
  cases hxw : x w with
  | mk r w' =>
    rw [hxw] at hfirst
    cases r with
    | error ret =>
      obtain ⟨hret, ⟨j, hj, hanswers⟩, hlive⟩ := hfirst
      rw [setUp_bind_error hxw]
      exact ⟨hret, ⟨j, by omega, hanswers⟩, hlive⟩
    | ok u =>
      obtain ⟨hzero, hshift, hused⟩ := hfirst
      have hsecond := hy w' hused
      rw [setUp_bind_ok hxw]
      have hlater (i : ℕ) : w'.answers i = w.answers (i + m) := congrFun hshift i
      have hbelow (j : ℕ) (h : ∀ i < j, w'.answers i = 0) : ∀ i < m + j, w.answers i = 0 := by
        intro i hi
        by_cases him : i < m
        · exact hzero i him
        · have hw' := h (i - m) (by omega)
          rwa [hlater, Nat.sub_add_cancel (by omega)] at hw'
      cases hyw : y w' with
      | mk r w'' =>
        rw [hyw] at hsecond
        cases r with
        | error ret =>
          obtain ⟨hret, ⟨j, hj, hanswers, hret'⟩, hlive⟩ := hsecond
          refine ⟨hret, ⟨m + j, by omega, hbelow j hanswers, ?_⟩, hlive⟩
          rw [← hret', hlater, Nat.add_comm]
        | ok u =>
          obtain ⟨hzero', hshift', hused'⟩ := hsecond
          refine ⟨hbelow n hzero', ?_, hused'⟩
          rw [hshift']
          funext j
          rw [hlater, Nat.add_assoc, Nat.add_comm n]

/-- The ten contexts are initialised, and each of the eight results is looked at. -/
theorem setUp_leads : Leads setUp 8 [] Context.all :=
  (Leads.init (by decide)).bind <| (Leads.init (by decide)).bind <|
  (Leads.init (by decide)).bind <| (Leads.init (by decide)).bind <|
  (Leads.init (by decide)).bind <| (Leads.init (by decide)).bind <|
  (Leads.init (by decide)).bind <| (Leads.init (by decide)).bind <|
  (Leads.init (by decide)).bind <| (Leads.init (by decide)).bind <| (Leads.call rfl).bind <|
  (Leads.checked rfl).bind <| (Leads.checked rfl).bind <| (Leads.checked rfl).bind <|
  (Leads.checked rfl).bind <| (Leads.checked rfl).bind <| (Leads.checked rfl).bind <|
  (Leads.call rfl).bind <| (Leads.call rfl).bind <| (Leads.call rfl).bind <| (Leads.call rfl).bind <|
  (Leads.call rfl).bind <| (Leads.checked rfl).bind <| Leads.checked rfl

/-! ## The server -/

/-- Where a step leads, as far as the control is concerned. -/
inductive Hop : Control → Outcome → Control → Prop where
  | accepted : Hop .accepting (.accept 0) .handshaking
  | refused (ret : ℤ) (hret : ret ≠ 0) : Hop .accepting (.accept ret) .exited
  | agreed (ciphersuite : Printf.Argument) (c : Control)
      (hc : c = .reading ∨ ∃ f, c = .faulted f) : Hop .handshaking (.handshake 0 ciphersuite) c
  | again (ret : ℤ) (hret : ret ≠ 0) (ciphersuite : Printf.Argument) :
      Hop .handshaking (.handshake ret ciphersuite) .handshaking
  | failed (ret : ℤ) (hret : ret ≠ 0) (ciphersuite : Printf.Argument) :
      Hop .handshaking (.handshake ret ciphersuite) .accepting
  | read (chunk : Chunk) (c : Control)
      (hc : c = .returned ∨ (∃ f, c = .faulted f) ∨ ∃ buf array, c = .writing buf array) :
      Hop .reading (.read chunk) c
  | readError (ret : {ret : ℤ // ret ≤ 0}) (c : Control) (hc : c = .reading ∨ c = .closing) :
      Hop .reading (.readError ret) c
  | blocked (buf : List UInt8) (array : KeyValuePairArray) (ret : ℤ) (hturn : writeTurn ret = none) :
      Hop (.writing buf array) (.write ret) (.writing buf array)
  | written (buf : List UInt8) (array : KeyValuePairArray) (ret result : ℤ)
      (hturn : writeTurn ret = some result) (c : Control)
      (hc : c = .reading ∨ c = .accepting ∨ c = .exited ∧ result = EXIT ∨ ∃ f, c = .faulted f) :
      Hop (.writing buf array) (.write ret) c
  | closed (ret : ℤ) (c : Control) (hc : c = .closing ∨ c = .accepting) :
      Hop .closing (.closeNotify ret) c

theorem afterHandshake_hop {s : Server} (hcontrol : s.control = .handshaking) (ret : ℤ)
    (ciphersuite : Printf.Argument) :
    Hop s.control (.handshake ret ciphersuite) (s.afterHandshake ret ciphersuite).control := by
  rw [Server.afterHandshake, hcontrol]
  split_ifs with hret
  · subst hret
    cases initAbcc ⟨none⟩ s.supply with
    | error f => exact .agreed ciphersuite _ (.inr ⟨f, rfl⟩)
    | ok r => exact .agreed ciphersuite _ (.inl rfl)
  · rw [hcontrol]
    exact .again ret hret ciphersuite
  · exact .failed ret hret ciphersuite

theorem afterRead_hop {lib : Libxml2} {s : Server} (hcontrol : s.control = .reading)
    (chunk : Chunk) : Hop s.control (.read chunk) (s.afterRead lib chunk).control := by
  rw [hcontrol]
  refine .read chunk _ ?_
  rw [Server.afterRead]
  cases handleMessage lib (.ofBuffer chunk.bytes) s.device s.msgNum s.supply with
  | error f => exact .inr (.inl ⟨f, rfl⟩)
  | ok r =>
    obtain ⟨m, supply⟩ := r
    cases m with
    | none => exact .inl rfl
    | some m =>
      dsimp only
      cases formatReply m.reply.text s.ciphersuite supply with
      | error f => exact .inr (.inl ⟨f, rfl⟩)
      | ok r => exact .inr (.inr ⟨r.1, m.array, rfl⟩)

theorem afterWrite_hop {s : Server} {buf : List UInt8} {array : KeyValuePairArray}
    (hcontrol : s.control = .writing buf array) (ret : ℤ) :
    Hop s.control (.write ret) (s.afterWrite array ret).control := by
  rw [Server.afterWrite]
  cases hturn : writeTurn ret with
  | none =>
    rw [hcontrol]
    exact .blocked buf array ret hturn
  | some result =>
    rw [hcontrol]
    refine .written buf array ret result hturn _ ?_
    cases freeKeyValuePairArray array s.supply with
    | error f => exact .inr (.inr (.inr ⟨f, rfl⟩))
    | ok r =>
      dsimp only
      split_ifs with hreset hexit
      · exact .inr (.inl rfl)
      · exact .inr (.inr (.inl ⟨rfl, hexit⟩))
      · exact .inl rfl

theorem step_hop {lib : Libxml2} {s s' : Server} {o : Outcome} (h : step lib s o = some s') :
    Hop s.control o s'.control := by
  unfold step at h
  split at h
  · rename_i ret hcontrol
    cases h
    rw [hcontrol]
    dsimp only
    split_ifs with hret
    · subst hret
      exact .accepted
    · exact .refused ret hret
  · rename_i hcontrol
    cases h
    exact afterHandshake_hop hcontrol _ _
  · rename_i hcontrol
    cases h
    exact afterRead_hop hcontrol _
  · rename_i ret hcontrol
    cases h
    rw [Server.afterReadError, hcontrol]
    split_ifs
    · rw [hcontrol]
      exact .readError ret _ (.inl rfl)
    · exact .readError ret _ (.inr rfl)
  · rename_i hcontrol
    cases h
    exact afterWrite_hop hcontrol _
  · rename_i ret hcontrol
    cases h
    rw [Server.afterCloseNotify, hcontrol]
    split_ifs
    · rw [hcontrol]
      exact .closed ret _ (.inl rfl)
    · exact .closed ret _ (.inr rfl)
  · cases h

/-- Only a failed `accept` and a failed write lead to the label `exit`. -/
theorem Hop.to_exit {c : Control} {o : Outcome} (h : Hop c o .exited) :
    (∃ ret, c = .accepting ∧ o = .accept ret ∧ ret ≠ 0) ∨
      ∃ buf array ret, c = .writing buf array ∧ o = .write ret ∧ writeTurn ret = some EXIT := by
  generalize hc' : Control.exited = c' at h
  cases h with
  | refused ret hret => exact .inl ⟨ret, rfl, rfl, hret⟩
  | written buf array ret result hturn c hc =>
    rcases hc with rfl | rfl | ⟨-, rfl⟩ | ⟨f, rfl⟩
    · cases hc'
    · cases hc'
    · exact .inr ⟨buf, array, ret, rfl, rfl, hturn⟩
    · cases hc'
  | agreed ciphersuite c hc => rcases hc with rfl | ⟨f, rfl⟩ <;> cases hc'
  | read chunk c hc => rcases hc with rfl | ⟨f, rfl⟩ | ⟨buf, array, rfl⟩ <;> cases hc'
  | readError ret c hc => rcases hc with rfl | rfl <;> cases hc'
  | closed ret c hc => rcases hc with rfl | rfl <;> cases hc'
  | _ => cases hc'

theorem ret_of_writeTurn {ret result : ℤ} (h : writeTurn ret = some result) :
    (Outcome.write ret).ret = result := by
  rw [Outcome.ret, h]
  rfl

/-- The calls of a step neither initialise a context nor release one, short of the label `exit`. -/
theorem callsAfter_uses (o : Outcome) {c c' : Control} (hc' : c' ≠ .exited) :
    ∀ call ∈ callsAfter o c c', call.uses Context.all [] = true := by
  unfold callsAfter
  split
  · decide
  · decide
  · decide
  · exact absurd rfl hc'
  · decide

/-! ## The process -/

/-- Every step of the process is a step of the server. -/
theorem Process.step_cases {lib : Libxml2} {p p' : Process} {o : Outcome}
    (h : p.step lib o = some p') :
    ∃ s s', p.stage = .serving s ∧ Networking.step lib s o = some s' ∧
      (s'.control = .exited ∧ p' = ⟨.exited o.ret, p.calls ++ ([o.call] ++ exitCalls o.ret)⟩ ∨
        s'.control ≠ .exited ∧
          p' = ⟨.serving s', p.calls ++ o.call :: callsAfter o s.control s'.control⟩) := by
  rw [Process.step] at h
  cases hstage : p.stage with
  | exited ret =>
    rw [hstage] at h
    cases h
  | serving s =>
    rw [hstage] at h
    obtain ⟨s', hs', rfl⟩ := Option.map_eq_some_iff.mp h
    refine ⟨s, s', rfl, hs', ?_⟩
    by_cases hcontrol : s'.control = .exited
    · refine .inl ⟨hcontrol, ?_⟩
      rw [hcontrol]
      cases s.control <;> rfl
    · refine .inr ⟨hcontrol, ?_⟩
      cases hc : s'.control with
      | exited => exact absurd hc hcontrol
      | _ => rfl

/-- A process that serves has released nothing; one that ended has gone through the label `exit`. -/
inductive Process.Proper (p : Process) : Prop where
  | serving (s : Server) (hstage : p.stage = .serving s) (hcalls : Holding Context.all [] p.calls)
  | exited (ret : ℤ) (earlier : List Call) (hstage : p.stage = .exited ret)
      (hcalls : p.calls = earlier ++ exitCalls ret) (hearlier : Holding Context.all [] earlier)

theorem start_proper (answers : ℕ → ℤ) (supply : Supply) : (Process.start answers supply).Proper := by
  have hsetUp := setUp_leads ⟨answers, []⟩ .none
  rw [Process.start]
  cases hresult : setUp ⟨answers, []⟩ with
  | mk r w =>
    rw [hresult] at hsetUp
    cases r with
    | error ret => exact .exited ret w.calls rfl rfl hsetUp.2.2
    | ok u =>
      have hreset : ∀ c ∈ resetCalls, c.uses Context.all [] = true := by decide
      exact .serving (.boot supply) rfl (hsetUp.2.2.append hreset)

theorem step_proper {lib : Libxml2} {p p' : Process} {o : Outcome} (h : p.Proper)
    (hstep : p.step lib o = some p') : p'.Proper := by
  obtain ⟨s, s', hstage, hs', hnext⟩ := Process.step_cases hstep
  cases h with
  | exited ret earlier hexited =>
    rw [hstage] at hexited
    cases hexited
  | serving s₀ hserving hcalls =>
    have hcall : o.call.uses Context.all [] = true := by cases o <;> rfl
    rcases hnext with ⟨hcontrol, rfl⟩ | ⟨hcontrol, rfl⟩
    · exact .exited o.ret (p.calls ++ [o.call]) rfl (by simp) (hcalls.call hcall)
    · refine .serving s' rfl (hcalls.append (List.forall_mem_cons.mpr ⟨hcall, ?_⟩))
      exact callsAfter_uses o hcontrol

/-- In every run, whatever the calls of the set-up, the network and the library return and whatever
memory is refused, each context is initialised once, before it is passed to any call, and is passed
to none after its release. A process that ends by `mbedtls_exit` has released all of them but the
sockets, which it closed, and the chain; one that serves has released none. -/
theorem contexts_disciplined {lib : Libxml2} {answers : ℕ → ℤ} {supply : Supply} {os : List Outcome}
    {p : Process}
    (hrun : Machine.run (Process.step lib) (.start answers supply) os = some p) :
    Disciplined p.calls ∧ (∀ x, .init x ∈ p.calls) ∧ match p.stage with
      | .serving _ => ∀ x, .free x ∉ p.calls
      | .exited ret => p.calls.getLast? = some (.exit ret) ∧
        ∀ x, .free x ∈ p.calls ↔ x ≠ .listenFd ∧ x ≠ .clientFd ∧ x ≠ .cacert := by
  have hproper := Machine.run_invariant (P := Process.Proper) (fun _ _ _ => step_proper) hrun
    (start_proper answers supply)
  cases hproper with
  | serving s hstage hcalls =>
    rw [hstage]
    refine ⟨hcalls.disciplined, fun x => (hcalls.initialised x).mpr x.mem_all, fun x hx => ?_⟩
    exact List.not_mem_nil ((hcalls.freed x).mp hx)
  | exited ret earlier hstage hcalls hearlier =>
    have hexit := hearlier.exit ret
    rw [hstage, hcalls]
    refine ⟨hexit.disciplined, fun x => (hexit.initialised x).mpr x.mem_all, by simp [exitCalls],
      fun x => ?_⟩
    rw [hexit.freed]
    cases x <;> decide

/-- A session, and an `accept` that fails after it. -/
theorem contexts_disciplined_sample :
    ∃ p, Machine.run (Process.step (tableLibxml2 [])) (.start (fun _ => 0) .all)
        (connect ⟨[], []⟩ ++ (disconnect ++ [.accept (-1)])) = some p ∧
      p.stage = .exited (-1) ∧ Disciplined p.calls := by
  obtain ⟨p, hrun, hstage⟩ : ∃ p, Machine.run (Process.step (tableLibxml2 []))
      (.start (fun _ => 0) .all) (connect ⟨[], []⟩ ++ (disconnect ++ [.accept (-1)])) = some p ∧
        p.stage = .exited (-1) := ⟨_, rfl, rfl⟩
  exact ⟨p, hrun, hstage, (contexts_disciplined hrun).1⟩

end NetconfServer.Networking
