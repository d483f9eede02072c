import NetconfServer.Networking.History

/-! # One session after another

`init_abcc` and `msg_num = 0` stand behind every handshake, so that a server between two clients
goes on as one that has just started. The logs it can have are exactly the histories of messages
that a client can deliver.
-/

namespace NetconfServer.Networking
open Memory CString Library Parsing
variable {lib : Libxml2}

/-! ## Nothing is left of a session -/

/-- The device, the counter and the ciphersuite are in use. -/
def Control.AtWork : Control → Prop
  | .reading | .writing _ _ => True
  | _ => False

/-- `s'` is in the phase of `s` and has done more before: `earlier`. Only in a session do they agree
on what a session reads. -/
structure Resumes (earlier : List Event) (s' s : Server) : Prop where
  control : s'.control = s.control
  supply : s'.supply = s.supply
  log : s'.log = earlier ++ s.log
  session : s.control.AtWork →
    s'.msgNum = s.msgNum ∧ s'.device = s.device ∧ s'.ciphersuite = s.ciphersuite

variable {earlier : List Event} {s s' : Server}

/-- Outside a session the rest of the state is not looked at. -/
theorem Resumes.goto (h : Resumes earlier s' s) (c : Control) (hc : ¬ c.AtWork) :
    Resumes earlier { s' with control := c } { s with control := c } :=
  ⟨rfl, h.supply, h.log, fun hsession => absurd hsession hc⟩

/-- In a session the two servers differ in nothing but their past. -/
theorem Resumes.eq (h : Resumes earlier s' s) (hsession : s.control.AtWork) :
    s' = { s with log := earlier ++ s.log } := by
  obtain ⟨hnum, hdevice, hciphersuite⟩ := h.session hsession
  obtain ⟨control, msgNum, device, ciphersuite, supply, log⟩ := s'
  obtain rfl : control = s.control := h.control
  obtain rfl : supply = s.supply := h.supply
  obtain rfl : log = earlier ++ s.log := h.log
  obtain rfl : msgNum = s.msgNum := hnum
  obtain rfl : device = s.device := hdevice
  obtain rfl : ciphersuite = s.ciphersuite := hciphersuite
  rfl

theorem Resumes.of_log (earlier : List Event) (s : Server) :
    Resumes earlier { s with log := earlier ++ s.log } s :=
  ⟨rfl, rfl, rfl, fun _ => ⟨rfl, rfl, rfl⟩⟩

theorem Resumes.afterHandshake (h : Resumes earlier s' s) (ret : ℤ) (ciphersuite : Printf.Argument) :
    Resumes earlier (s'.afterHandshake ret ciphersuite) (s.afterHandshake ret ciphersuite) := by
  rw [Server.afterHandshake, Server.afterHandshake]
  split_ifs
  · have hinit : initAbcc ⟨none⟩ s'.supply = initAbcc ⟨none⟩ s.supply := by rw [h.supply]
    rw [hinit]
    cases initAbcc ⟨none⟩ s.supply with
    | error f => exact h.goto (.faulted f) id
    | ok result => exact ⟨rfl, rfl, by simp [h.log], fun _ => ⟨rfl, rfl, rfl⟩⟩
  · exact h
  · exact h.goto .accepting id

theorem Resumes.afterRead (h : Resumes earlier s' s) (hcontrol : s.control = .reading)
    (chunk : Chunk) : Resumes earlier (s'.afterRead lib chunk) (s.afterRead lib chunk) := by
  rw [h.eq (by simp [hcontrol, Control.AtWork]), Server.afterRead, Server.afterRead]
  dsimp only
  cases handleMessage lib (.ofBuffer chunk.bytes) s.device s.msgNum s.supply with
  | error f => exact .of_log earlier { s with control := .faulted f }
  | ok result =>
    obtain ⟨answered, supply⟩ := result
    cases answered with
    | none => exact .of_log earlier { s with control := .returned, supply }
    | some m =>
      dsimp only
      rw [List.append_assoc]
      cases formatReply m.reply.text s.ciphersuite supply with
      | error f =>
        exact .of_log earlier
          { s with control := .faulted f, device := m.device, supply, log := _ }
      | ok result =>
        exact .of_log earlier
          { s with
            control := .writing result.1 m.array
            device := m.device
            supply := result.2
            log := _ }

theorem Resumes.afterWrite (h : Resumes earlier s' s) {buf : List UInt8}
    {array : KeyValuePairArray} (hcontrol : s.control = .writing buf array) (ret : ℤ) :
    Resumes earlier (s'.afterWrite array ret) (s.afterWrite array ret) := by
  rw [h.eq (by simp [hcontrol, Control.AtWork]), Server.afterWrite, Server.afterWrite]
  cases writeTurn ret with
  | none => exact .of_log earlier s
  | some result =>
    dsimp only
    cases freeKeyValuePairArray array s.supply with
    | error f => exact .of_log earlier { s with control := .faulted f }
    | ok freed =>
      exact .of_log earlier { s with msgNum := s.msgNum + 1, supply := freed.2, control := _ }

theorem Resumes.step (lib : Libxml2) (h : Resumes earlier s' s) (o : Outcome) :
    Option.Rel (Resumes earlier) (step lib s' o) (step lib s o) := by
  unfold Networking.step
  rw [h.control]
  cases hcontrol : s.control <;> cases o <;> try exact .none
  case accepting.accept ret =>
    refine .some ?_
    split_ifs
    · exact h.goto .handshaking id
    · exact h.goto .exited id
  case handshaking.handshake ret ciphersuite =>
    exact .some (h.afterHandshake ret ciphersuite)
  case reading.read chunk => exact .some (h.afterRead hcontrol chunk)
  case reading.readError ret =>
    refine .some ?_
    rw [Server.afterReadError, Server.afterReadError]
    split_ifs
    · exact h
    · exact h.goto .closing id
  case writing.write buf array ret => exact .some (h.afterWrite hcontrol ret)
  case closing.closeNotify ret =>
    refine .some ?_
    rw [Server.afterCloseNotify, Server.afterCloseNotify]
    split_ifs
    · exact h
    · exact h.goto .accepting id

/-- From any state in which the server waits for the next client, whatever the sessions before it did
to the device, the counter and the array, it goes on exactly as one that has just started: through
the same calls, with the same bytes to write, the same faults and the same new events. -/
theorem starts_afresh (lib : Libxml2) (s : Server) (os : List Outcome) :
    (Machine.run (step lib) { s with control := .accepting } os).map
        (fun t => (t.control, t.supply, t.log)) =
      (Machine.run (step lib) (.boot s.supply) os).map
        (fun t => (t.control, t.supply, s.log ++ t.log)) := by
  have hstart : Resumes s.log { s with control := .accepting } (.boot s.supply) :=
    ⟨rfl, rfl, (List.append_nil s.log).symm, False.elim⟩
  have hrun := Machine.run_lockstep (fun _ _ o h => Resumes.step lib h o) hstart os
  generalize Machine.run (step lib) { s with control := .accepting } os = t',
    Machine.run (step lib) (.boot s.supply) os = t at hrun ⊢
  cases hrun with
  | none => rfl
  | some h => rw [Option.map_some, Option.map_some, h.control, h.supply, h.log]

/-! ## The logs the server can have -/

/-- The messages handled since the last session began. -/
def inSession (log : List Event) : List Exchange :=
  log.foldl (fun es event => match event with | .session => [] | .exchange e => es ++ [e]) []

theorem inSession_session (log : List Event) : inSession (log ++ [.session]) = [] := by
  rw [inSession, List.foldl_append]
  rfl

theorem inSession_exchange (log : List Event) (e : Exchange) :
    inSession (log ++ [.exchange e]) = inSession log ++ [e] := by
  rw [inSession, List.foldl_append]
  rfl

/-- One ciphersuite goes with all messages of a session so far. -/
def Agreed (lib : Libxml2) (log : List Event) (ciphersuite : Printf.Argument) : Prop :=
  ∀ e ∈ inSession log, Deliverable lib ciphersuite e

/-- Every session of the log, up to wherever one looks, had a ciphersuite of its own. -/
def Delivered (lib : Libxml2) (log : List Event) : Prop :=
  ∀ earlier, earlier <+: log → ∃ ciphersuite, Agreed lib earlier ciphersuite

variable {log : List Event} {device : Abcc} {ciphersuite : Printf.Argument}

theorem Delivered.snoc (h : Delivered lib log) {event : Event}
    (hagreed : Agreed lib (log ++ [event]) ciphersuite) : Delivered lib (log ++ [event]) := by
  intro earlier hearlier
  rcases List.prefix_concat_iff.mp hearlier with rfl | hprefix
  · exact ⟨ciphersuite, hagreed⟩
  · exact h earlier hprefix

theorem Delivered.of_append {later : List Event} (h : Delivered lib (log ++ later)) :
    Delivered lib log :=
  fun earlier hearlier => h earlier (hearlier.trans (List.prefix_append log later))

theorem agreed_session (log : List Event) (ciphersuite : Printf.Argument) :
    Agreed lib (log ++ [.session]) ciphersuite := by
  rw [Agreed, inSession_session]
  exact fun e he => absurd he List.not_mem_nil

/-- Every history of sessions that were delivered is the log of a run, which ends in the last of them
with any ciphersuite that goes with its messages. -/
theorem History.realised (h : History lib log device) (hdelivered : Delivered lib log)
    (hsession : .session ∈ log) (hagreed : Agreed lib log ciphersuite) :
    ∃ os, Machine.run (step lib) (.boot .all) os =
      some (.ready log device (.ofNat (answeredInSession log)) ciphersuite) := by
  induction h generalizing ciphersuite with
  | boot => simp at hsession
  | session h ih =>
    rename_i log device
    by_cases hfirst : .session ∈ log
    · have hlast := hdelivered.of_append
      obtain ⟨before, hbefore⟩ := hlast log List.prefix_rfl
      obtain ⟨os, hos⟩ := ih hlast hfirst hbefore
      refine ⟨os ++ (disconnect ++ connect ciphersuite), ?_⟩
      rw [Machine.run_append_of_eq hos, Machine.run_append_of_eq run_disconnect,
        run_connect _ rfl rfl, answeredInSession_session]
      rfl
    · cases h with
      | boot => exact ⟨connect ciphersuite, run_connect _ rfl rfl ciphersuite⟩
      | session h => simp at hfirst
      | exchange h hmem => simp [hmem] at hfirst
  | exchange h hmem e hbefore hnum hreply ih =>
    rename_i log device
    rw [Agreed, inSession_exchange] at hagreed
    obtain ⟨os, hos⟩ := ih hdelivered.of_append hmem fun e' he' => hagreed e' (by simp [he'])
    obtain ⟨⟨chunk, hchunk⟩, buf, hbuf⟩ := hagreed e (by simp)
    obtain ⟨root, before, msgNum, reply⟩ := e
    subst hbefore hnum
    refine ⟨os ++ send chunk, ?_⟩
    rw [Machine.run_append_of_eq hos, run_message _ hchunk hreply hbuf, answeredInSession_exchange,
      Int8.ofNat_add]
    rfl

/-- What has been answered so far was delivered, in the current session with the server's
ciphersuite. Only a reply that cannot be formatted was not, and nothing follows it. -/
structure Delivers (lib : Libxml2) (s : Server) : Prop where
  current : Agreed lib s.log s.ciphersuite
  log : Delivered lib s.log

theorem Move.delivers {s s' : Server} {o : Outcome} (h : Move lib s o s')
    (hs : Delivers lib s) (hworks : ∀ f, s'.control ≠ .faulted f) : Delivers lib s' := by
  cases h with
  | session ciphersuite =>
    have hsession := @agreed_session lib s.log ciphersuite
    exact ⟨hsession, hs.log.snoc hsession⟩
  | message chunk root reply c hreading hdocument hreply hc =>
    rcases hc with ⟨f, rfl, -⟩ | ⟨buf, -, hformat⟩
    · exact absurd rfl (hworks f)
    · have hexchange : Agreed lib (s.log ++ [.exchange ⟨root, s.device, s.msgNum, reply⟩])
          s.ciphersuite := by
        rw [Agreed, inSession_exchange]
        intro e he
        rcases List.mem_append.mp he with he | he
        · exact hs.current e he
        · obtain rfl := List.mem_singleton.mp he
          exact ⟨⟨chunk, hdocument⟩, buf, hformat⟩
      exact ⟨hexchange, hs.log.snoc hexchange⟩
  | _ => exact ⟨hs.current, hs.log⟩

theorem step_works {s s' : Server} {o : Outcome} (h : step lib s o = some s') (f : Fault) :
    s.control ≠ .faulted f := by
  intro hcontrol
  unfold step at h
  rw [hcontrol] at h
  cases h

theorem run_delivers {os : List Outcome} {s : Server}
    (hrun : Machine.run (step lib) (.boot .all) os = some s) (hworks : ∀ f, s.control ≠ .faulted f) :
    Delivers lib s := by
  have hboot : Delivers lib (.boot .all) := by
    refine ⟨fun e he => absurd he List.not_mem_nil, fun earlier hearlier => ?_⟩
    obtain rfl := List.prefix_nil.mp hearlier
    exact ⟨⟨[], []⟩, fun e he => absurd he List.not_mem_nil⟩
  refine (Machine.run_invariant
    (P := fun s => Sound s ∧ ((∀ f, s.control ≠ .faulted f) → Delivers lib s)) ?_ hrun
    ⟨boot_sound, fun _ => hboot⟩).2 hworks
  intro s o s' ⟨hs, hdelivers⟩ hstep
  have hm := step_move hs hstep
  exact ⟨hm.sound hs, hm.delivers (hdelivers (step_works hstep))⟩

/-- The abstract server and the machine have the same logs: a server about to read has handled some
messages and holds some address exactly when there is a history that ends so, of sessions each of
which had some ciphersuite with which its messages could be read and their replies formatted. -/
theorem logs_are_histories (lib : Libxml2) (log : List Event) (device : Abcc) :
    (∃ os s, Machine.run (step lib) (.boot .all) os = some s ∧
        s.control = .reading ∧ s.log = log ∧ s.device = device) ↔
      History lib log device ∧ .session ∈ log ∧ Delivered lib log := by
  constructor
  · rintro ⟨os, s, hrun, hreading, rfl, rfl⟩
    have hcount : Counted s := run_move_invariant trivial (fun _ _ _ hs hm => hm.counted hs) hrun
    rw [Counted, hreading] at hcount
    have hdelivers := run_delivers hrun fun f => by rw [hreading]; simp
    exact ⟨run_history hrun, hcount.1, hdelivers.log⟩
  · rintro ⟨h, hsession, hdelivered⟩
    obtain ⟨ciphersuite, hagreed⟩ := hdelivered log List.prefix_rfl
    obtain ⟨os, hrun⟩ := h.realised hdelivered hsession hagreed
    exact ⟨os, _, hrun, rfl, rfl, rfl⟩

end NetconfServer.Networking
