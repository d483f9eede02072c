import NetconfServer.Networking.Availability
import NetconfServer.Networking.Delivery
import NetconfServer.Networking.StoredServer

/-! # What clients see

`Conversation` is the server as its clients know it: sessions, messages and replies, without control
states, arrays or memory. With all memory granted the conversations that the server in memory can
have, up to a message that leads into undefined behaviour, are exactly these.
-/

namespace NetconfServer.Networking
open Memory CString Library Parsing
variable {lib : Libxml2}

/-- What passes between the server and its clients. -/
inductive Observation where
  | session (ciphersuite : Printf.Argument)
  | message (chunk : Chunk)
  /-- The bytes given to `mbedtls_ssl_write`, and the result that ended its loop. -/
  | reply (buf : List UInt8) (ret : ℤ)

/-- What a step shows. -/
def observe : Stored.Phase → Outcome → List Observation
  | .handshaking, .handshake ret ciphersuite => if ret = 0 then [.session ciphersuite] else []
  | .reading, .read chunk => [.message chunk]
  | .writing buf, .write ret => if writeTurn ret = none then [] else [.reply buf ret]
  | _, _ => []

/-- What a run from the start shows. -/
def shown (lib : Libxml2) (os : List Outcome) : List Observation :=
  Machine.emitted (step lib) (fun s o => observe (Stored.phaseOf s.control) o) (.boot .all) os

/-! ## The abstract server -/

/-- What a conversation has come to. `count` is the number of messages that were answered in the
session. -/
inductive Talk where
  | between
  | listening (device : Abcc) (count : ℕ) (ciphersuite : Printf.Argument)
  | owing (device : Abcc) (count : ℕ) (ciphersuite : Printf.Argument) (buf : List UInt8)
  | ended
  /-- What follows is not for the program to say. -/
  | undefined

/-- No reply is owed, and a session may begin. -/
def Talk.Ready : Talk → Prop
  | between | listening _ _ _ => True
  | owing _ _ _ _ | ended | undefined => False

/-- The read holds a document, and `buf` is the reply to it. -/
structure Answers (lib : Libxml2) (device : Abcc) (count : ℕ) (ciphersuite : Printf.Argument)
    (chunk : Chunk) (root : XmlNode) (buf : List UInt8) : Prop where
  document : documentOf lib chunk = some (.tree root)
  reply : ∃ reply, (answerTo root).reply lib device (decimalString (Int8.ofNat count).toInt) =
    .ok reply ∧ formatReply reply.text ciphersuite .all = .ok (buf, .all)

/-- Where C does not say what becomes of a message: its document has no end, the dump of its data reply
failed, or its reply is a broken format or too long for `buf`. -/
inductive Breaks (lib : Libxml2) (device : Abcc) (count : ℕ) (ciphersuite : Printf.Argument)
    (chunk : Chunk) : Prop where
  | endless (hdocument : documentOf lib chunk = some .endless)
  | undumped (root : XmlNode) (f : Fault) (hdocument : documentOf lib chunk = some (.tree root))
      (hreply : (answerTo root).reply lib device (decimalString (Int8.ofNat count).toInt) = .error f)
  | unformatted (root : XmlNode) (reply : Reply) (f : Fault)
      (hdocument : documentOf lib chunk = some (.tree root))
      (hreply : (answerTo root).reply lib device (decimalString (Int8.ofNat count).toInt) = .ok reply)
      (hformat : formatReply reply.text ciphersuite .all = .error f)

/-- A message is answered by one reply, before the next is heard; the reply reaches the client or ends
the session, if not the server; and a message that is no document ends the server. -/
inductive Conversation (lib : Libxml2) : List Observation → Talk → Prop where
  | silence : Conversation lib [] .between
  | session {obs : List Observation} {talk : Talk} (h : Conversation lib obs talk)
      (hready : talk.Ready) (ciphersuite : Printf.Argument) :
      Conversation lib (obs ++ [.session ciphersuite])
        (.listening ⟨some initialAddress⟩ 0 ciphersuite)
  | message {obs : List Observation} {device : Abcc} {count : ℕ} {ciphersuite : Printf.Argument}
      (h : Conversation lib obs (.listening device count ciphersuite)) (chunk : Chunk)
      (root : XmlNode) (buf : List UInt8)
      (hanswer : Answers lib device count ciphersuite chunk root buf) :
      Conversation lib (obs ++ [.message chunk])
        (.owing ((answerTo root).update device) count ciphersuite buf)
  | unparsed {obs : List Observation} {device : Abcc} {count : ℕ} {ciphersuite : Printf.Argument}
      (h : Conversation lib obs (.listening device count ciphersuite)) (chunk : Chunk)
      (hdocument : documentOf lib chunk = none) : Conversation lib (obs ++ [.message chunk]) .ended
  | undefined {obs : List Observation} {device : Abcc} {count : ℕ} {ciphersuite : Printf.Argument}
      (h : Conversation lib obs (.listening device count ciphersuite)) (chunk : Chunk)
      (hbreaks : Breaks lib device count ciphersuite chunk) :
      Conversation lib (obs ++ [.message chunk]) .undefined
  | reply {obs : List Observation} {device : Abcc} {count : ℕ} {ciphersuite : Printf.Argument}
      {buf : List UInt8} (h : Conversation lib obs (.owing device count ciphersuite buf)) (ret : ℤ)
      (hret : 0 < ret) :
      Conversation lib (obs ++ [.reply buf ret]) (.listening device (count + 1) ciphersuite)
  | reset {obs : List Observation} {device : Abcc} {count : ℕ} {ciphersuite : Printf.Argument}
      {buf : List UInt8} (h : Conversation lib obs (.owing device count ciphersuite buf)) :
      Conversation lib (obs ++ [.reply buf MBEDTLS_ERR_NET_CONN_RESET]) .between
  | broken {obs : List Observation} {device : Abcc} {count : ℕ} {ciphersuite : Printf.Argument}
      {buf : List UInt8} (h : Conversation lib obs (.owing device count ciphersuite buf)) (ret : ℤ)
      (hret : FatalWrite ret ∨ ret = 0) :
      Conversation lib (obs ++ [.reply buf ret]) .ended

/-! ## What is observed is a conversation -/

/-- Where the server is in a conversation. A server that was stopped may be anywhere. -/
def Keeps (s : Server) (talk : Talk) : Prop :=
  match s.control with
  | .accepting | .handshaking | .closing => talk.Ready
  | .reading => ∃ count, s.msgNum = .ofNat count ∧ talk = .listening s.device count s.ciphersuite
  | .writing buf _ =>
    ∃ count, s.msgNum = .ofNat count ∧ talk = .owing s.device count s.ciphersuite buf
  | .exited | .returned => talk ≠ .undefined
  | .faulted _ => talk = .undefined

theorem Talk.Ready.defined {talk : Talk} (h : talk.Ready) : talk ≠ .undefined := by
  rintro rfl
  exact h

/-- The observations so far are a conversation, and the server has kept up with it. -/
def Converses (lib : Libxml2) (s : Server) (obs : List Observation) : Prop :=
  ∃ talk, Conversation lib obs talk ∧ Keeps s talk

variable {s s' : Server} {o : Outcome} {obs : List Observation}

theorem Converses.afterHandshake (hs : Sound s) (h : Converses lib s obs)
    (hcontrol : s.control = .handshaking) (ret : ℤ) (ciphersuite : Printf.Argument) :
    Converses lib (s.afterHandshake ret ciphersuite)
      (obs ++ if ret = 0 then [.session ciphersuite] else []) := by
  have hinit : initAbcc ⟨none⟩ s.supply = .ok ((⟨some initialAddress⟩, 0), .all) := by
    rw [hs.supply]
    exact initAbcc_yields ⟨none⟩
  obtain ⟨talk, hconversation, hkeeps⟩ := h
  have hready : talk.Ready := by rwa [Keeps, hcontrol] at hkeeps
  rw [Server.afterHandshake]
  by_cases hret : ret = 0
  · rw [if_pos hret, if_pos hret, hinit]
    exact ⟨_, hconversation.session hready ciphersuite, 0, rfl, rfl⟩
  · rw [if_neg hret, if_neg hret, List.append_nil]
    split_ifs
    · exact ⟨talk, hconversation, hkeeps⟩
    · exact ⟨talk, hconversation, hready⟩

theorem Converses.afterRead (hs : Sound s) (h : Converses lib s obs)
    (hcontrol : s.control = .reading) (chunk : Chunk) :
    Converses lib (s.afterRead lib chunk) (obs ++ [.message chunk]) := by
  obtain ⟨talk, hconversation, hkeeps⟩ := h
  rw [Keeps, hcontrol] at hkeeps
  obtain ⟨count, hnum, rfl⟩ := hkeeps
  have hmove := afterRead_move lib hs hcontrol chunk
  generalize s.afterRead lib chunk = t at hmove ⊢
  cases hmove with
  | stay _ ho => exact ho.elim
  | wait _ c ho => exact ho.elim
  | unparsed _ hdocument =>
    exact ⟨.ended, hconversation.unparsed chunk hdocument, by simp [Keeps]⟩
  | crashed _ f hcrash =>
    refine ⟨.undefined, hconversation.undefined chunk ?_, rfl⟩
    rcases hcrash with hendless | ⟨root, hdocument, herror⟩
    · exact .endless hendless
    · rw [hnum] at herror
      exact .undumped root _ hdocument herror
  | message _ root reply c _ hdocument hreply hc =>
    rw [hnum] at hreply
    rcases hc with ⟨f, rfl, hformat⟩ | ⟨buf, rfl, hformat⟩
    · have hbreaks := Breaks.unformatted root reply f hdocument hreply hformat
      exact ⟨.undefined, hconversation.undefined chunk hbreaks, rfl⟩
    · exact ⟨_, hconversation.message chunk root buf ⟨hdocument, reply, hreply, hformat⟩,
        count, hnum, rfl⟩

/-- The three ways in which the loop around `mbedtls_ssl_write` ends. -/
theorem writeTurn_cases {ret result : ℤ} (h : writeTurn ret = some result) :
    0 < ret ∧ result = 0 ∨ ret = MBEDTLS_ERR_NET_CONN_RESET ∧ result = RESET ∨
      (FatalWrite ret ∨ ret = 0) ∧ result = EXIT := by
  by_cases hexit : result = EXIT
  · rw [hexit] at h
    exact .inr (.inr ⟨writeTurn_eq_exit.mp h, hexit⟩)
  · rw [writeTurn] at h
    split_ifs at h with hle hreset hfatal
    · cases h
      exact .inr (.inl ⟨hreset, rfl⟩)
    · cases h
      exact absurd rfl hexit
    · cases h
      exact .inl ⟨Int.not_le.mp hle, rfl⟩

theorem Converses.afterWrite (hs : Sound s) (h : Converses lib s obs) {buf : List UInt8}
    {array : KeyValuePairArray} (hcontrol : s.control = .writing buf array) (ret : ℤ) :
    Converses lib (s.afterWrite array ret)
      (obs ++ if writeTurn ret = none then [] else [.reply buf ret]) := by
  obtain ⟨root, rfl⟩ := hs.array buf array hcontrol
  have hfree : freeKeyValuePairArray (requestArray root) s.supply = .ok (SUCCESS, .all) := by
    rw [hs.supply]
    exact freeKeyValuePairArray_yields _
  rw [Server.afterWrite]
  cases hturn : writeTurn ret with
  | none =>
    rw [if_pos rfl, List.append_nil]
    exact h
  | some result =>
    obtain ⟨talk, hconversation, hkeeps⟩ := h
    rw [Keeps, hcontrol] at hkeeps
    obtain ⟨count, hnum, rfl⟩ := hkeeps
    rw [if_neg (by simp)]
    dsimp only
    rw [hfree]
    rcases writeTurn_cases hturn with ⟨hret, rfl⟩ | ⟨rfl, rfl⟩ | ⟨hret, rfl⟩
    · refine ⟨_, hconversation.reply ret hret, count + 1, ?_, rfl⟩
      rw [Int8.ofNat_add, ← hnum]
      rfl
    · exact ⟨.between, hconversation.reset, trivial⟩
    · refine ⟨.ended, hconversation.broken ret hret, ?_⟩
      rw [if_neg (by decide)]
      exact fun h => by cases h

/-- A step goes on with the conversation. -/
theorem Converses.step (hs : Sound s) (h : Converses lib s obs) (hstep : step lib s o = some s') :
    Converses lib s' (obs ++ observe (Stored.phaseOf s.control) o) := by
  unfold Networking.step at hstep
  split at hstep
  · rename_i ret hcontrol
    cases hstep
    obtain ⟨talk, hconversation, hkeeps⟩ := h
    rw [Keeps, hcontrol] at hkeeps
    rw [hcontrol]
    change Converses lib _ (obs ++ [])
    rw [List.append_nil]
    refine ⟨talk, hconversation, ?_⟩
    dsimp only [Keeps]
    split_ifs
    · exact hkeeps
    · exact Talk.Ready.defined hkeeps
  · rename_i hcontrol
    cases hstep
    rw [hcontrol]
    exact h.afterHandshake hs hcontrol _ _
  · rename_i hcontrol
    cases hstep
    rw [hcontrol]
    exact h.afterRead hs hcontrol _
  · rename_i ret hcontrol
    cases hstep
    obtain ⟨talk, hconversation, hkeeps⟩ := h
    rw [hcontrol]
    change Converses lib _ (obs ++ [])
    rw [List.append_nil, Server.afterReadError]
    split_ifs
    · exact ⟨talk, hconversation, hkeeps⟩
    · rw [Keeps, hcontrol] at hkeeps
      obtain ⟨count, -, rfl⟩ := hkeeps
      exact ⟨_, hconversation, trivial⟩
  · rename_i hcontrol
    cases hstep
    rw [hcontrol]
    exact h.afterWrite hs hcontrol _
  · rename_i ret hcontrol
    cases hstep
    obtain ⟨talk, hconversation, hkeeps⟩ := h
    rw [hcontrol]
    change Converses lib _ (obs ++ [])
    rw [List.append_nil, Server.afterCloseNotify]
    split_ifs
    · exact ⟨talk, hconversation, hkeeps⟩
    · rw [Keeps, hcontrol] at hkeeps
      exact ⟨talk, hconversation, hkeeps⟩
  · cases hstep

theorem run_converses {os : List Outcome}
    (hrun : Machine.run (step lib) (.boot .all) os = some s) : Converses lib s (shown lib os) :=
  (Machine.run_emitted (R := fun s obs => Sound s ∧ Converses lib s obs)
    (fun _ _ _ _ h hs' => ⟨(step_move h.1 hs').sound h.1, h.2.step h.1 hs'⟩) hrun
    ⟨boot_sound, .between, .silence, trivial⟩).2

/-! ## Every conversation can be had -/

/-- Some run leads to `s` and shows `obs`. -/
def Seen (lib : Libxml2) (obs : List Observation) (s : Server) : Prop :=
  ∃ os, Machine.run (step lib) (.boot .all) os = some s ∧ shown lib os = obs

theorem Seen.step (h : Seen lib obs s) (hstep : step lib s o = some s') {more : List Observation}
    (hmore : observe (Stored.phaseOf s.control) o = more) : Seen lib (obs ++ more) s' := by
  obtain ⟨os, hrun, rfl⟩ := h
  refine ⟨os ++ [o], ?_, ?_⟩
  · rw [Machine.run_concat, hrun, Option.bind_some, hstep]
  · rw [shown, Machine.emitted_append_of_eq hrun, Machine.emitted_cons_of_eq hstep, hmore,
      Machine.emitted, List.append_nil]
    rfl

theorem Seen.quiet (h : Seen lib obs s) (hstep : Networking.step lib s o = some s')
    (hquiet : observe (Stored.phaseOf s.control) o = []) : Seen lib obs s' := by
  have hnext := h.step hstep hquiet
  rwa [List.append_nil] at hnext

/-- What the server holds where a conversation has come to `talk`. -/
def Holds (s : Server) : Talk → Prop
  | .between => s.control = .accepting ∧ s.supply = .all
  | .listening device count ciphersuite => ∃ log, s = .ready log device (.ofNat count) ciphersuite
  | .owing device count ciphersuite buf => ∃ log root,
    s = { Server.ready log device (.ofNat count) ciphersuite with
      control := .writing buf (requestArray root) }
  | .ended => s.control = .exited ∨ s.control = .returned
  | .undefined => ∃ f, s.control = .faulted f

/-- A session can be ended where no reply is owed. -/
theorem Seen.hangup {talk : Talk} (h : Seen lib obs s) (hholds : Holds s talk)
    (hready : talk.Ready) : ∃ t, Seen lib obs t ∧ Holds t .between := by
  cases talk with
  | between => exact ⟨s, h, hholds⟩
  | listening device count ciphersuite =>
    obtain ⟨log, rfl⟩ := hholds
    have hclosing : Seen lib obs { Server.ready log device (.ofNat count) ciphersuite with
        control := .closing } := h.quiet (o := .readError ⟨0, le_refl 0⟩) rfl rfl
    exact ⟨_, hclosing.quiet (o := .closeNotify 0) rfl rfl, rfl, rfl⟩
  | owing device count ciphersuite buf => exact hready.elim
  | ended => exact hready.elim
  | undefined => exact hready.elim

theorem Seen.session (h : Seen lib obs s) (hholds : Holds s .between)
    (ciphersuite : Printf.Argument) :
    Seen lib (obs ++ [.session ciphersuite])
      (.ready (s.log ++ [.session]) ⟨some initialAddress⟩ 0 ciphersuite) := by
  obtain ⟨control, msgNum, device, ciphersuite', supply, log⟩ := s
  obtain ⟨rfl, rfl⟩ : control = .accepting ∧ supply = .all := hholds
  exact (h.quiet (o := .accept 0) rfl rfl).step (o := .handshake 0 ciphersuite) rfl rfl

/-- The read of a message that breaks the server. -/
theorem Breaks.faulted {device : Abcc} {count : ℕ} {ciphersuite : Printf.Argument} {chunk : Chunk}
    (h : Breaks lib device count ciphersuite chunk) (log : List Event) :
    ∃ f, ((Server.ready log device (.ofNat count) ciphersuite).afterRead lib chunk).control =
      .faulted f := by
  rw [Server.afterRead]
  dsimp only [Server.ready]
  rw [handleMessage_eq]
  cases h with
  | endless hdocument =>
    rw [hdocument]
    exact ⟨_, rfl⟩
  | undumped root f hdocument hreply =>
    rw [hdocument]
    dsimp only
    rw [hreply]
    exact ⟨f, rfl⟩
  | unformatted root reply f hdocument hreply hformat =>
    rw [hdocument]
    dsimp only
    rw [hreply]
    simp only [Except.map]
    rw [hformat]
    exact ⟨f, rfl⟩

theorem afterRead_unparsed {chunk : Chunk} (hdocument : documentOf lib chunk = none)
    (log : List Event) (device : Abcc) (msgNum : Int8) (ciphersuite : Printf.Argument) :
    ((Server.ready log device msgNum ciphersuite).afterRead lib chunk).control = .returned := by
  rw [Server.afterRead]
  dsimp only [Server.ready]
  rw [handleMessage_eq, hdocument]

theorem Conversation.seen {talk : Talk} (h : Conversation lib obs talk) :
    ∃ s, Seen lib obs s ∧ Holds s talk := by
  induction h with
  | silence => exact ⟨.boot .all, ⟨[], rfl, rfl⟩, rfl, rfl⟩
  | session h hready ciphersuite ih =>
    obtain ⟨s, hseen, hholds⟩ := ih
    obtain ⟨t, hseen, hholds⟩ := hseen.hangup hholds hready
    exact ⟨_, hseen.session hholds ciphersuite, _, rfl⟩
  | message h chunk root buf hanswer ih =>
    obtain ⟨s, hseen, log, rfl⟩ := ih
    obtain ⟨reply, hreply, hformat⟩ := hanswer.reply
    exact ⟨_, hseen.step (step_message hanswer.document hreply hformat) rfl, _, root, rfl⟩
  | unparsed h chunk hdocument ih =>
    obtain ⟨s, hseen, log, rfl⟩ := ih
    exact ⟨_, hseen.step (o := .read chunk) rfl rfl, .inr (afterRead_unparsed hdocument log _ _ _)⟩
  | undefined h chunk hbreaks ih =>
    obtain ⟨s, hseen, log, rfl⟩ := ih
    exact ⟨_, hseen.step (o := .read chunk) rfl rfl, hbreaks.faulted log⟩
  | reply h ret hret ih =>
    obtain ⟨s, hseen, log, root, rfl⟩ := ih
    refine ⟨_, hseen.step (step_write ret hret _ root) ?_, log, ?_⟩
    · exact if_neg (by simp [writeTurn_eq_zero.mpr hret])
    · rw [Int8.ofNat_add]
      rfl
  | reset h ih =>
    obtain ⟨s, hseen, log, root, rfl⟩ := ih
    have hturn : writeTurn MBEDTLS_ERR_NET_CONN_RESET = some RESET := by decide
    exact ⟨_, hseen.step (step_written hturn _ root) rfl, rfl, rfl⟩
  | broken h ret hret ih =>
    obtain ⟨s, hseen, log, root, rfl⟩ := ih
    have hturn := writeTurn_eq_exit.mpr hret
    exact ⟨_, hseen.step (step_written hturn _ root) (if_neg (by simp [hturn])), .inl rfl⟩

/-! ## The server in memory -/

theorem Keeps.undefined_iff {talk : Talk} (h : Keeps s talk) :
    (∃ f, s.control = .faulted f) ↔ talk = .undefined := by
  rw [Keeps] at h
  split at h
  case h_8 f hcontrol => exact iff_of_true ⟨f, hcontrol⟩ h
  all_goals
    rename_i hcontrol
    simp only [hcontrol, reduceCtorEq, exists_false, false_iff]
  · exact h.defined
  · exact h.defined
  · exact h.defined
  · obtain ⟨count, -, rfl⟩ := h
    simp
  · obtain ⟨count, -, rfl⟩ := h
    simp
  · exact h
  · exact h

theorem Holds.undefined_iff {talk : Talk} (h : Holds s talk) :
    (∃ f, s.control = .faulted f) ↔ talk = .undefined := by
  cases talk with
  | between => simp [h.1]
  | listening device count ciphersuite =>
    obtain ⟨log, rfl⟩ := h
    simp [Server.ready]
  | owing device count ciphersuite buf =>
    obtain ⟨log, root, rfl⟩ := h
    simp
  | ended => rcases h with h | h <;> simp [h]
  | undefined => exact iff_of_true h rfl

/-- The conversations that clients can have with the server in memory, on whatever heap it starts and
as long as memory is granted, are exactly those of the abstract server: those of the runs in which
nothing undefined has happened, and those of the runs whose last message led into it. -/
theorem conversations_iff (lib : Libxml2) (heap : Heap Parsing.Stored.Block)
    (obs : List Observation) :
    ((∃ os t, Machine.run (Stored.step lib) (.boot (heap, .all)) os = some t ∧
        (∀ f, t.control ≠ .faulted f) ∧
        Machine.emitted (Stored.step lib) (fun t o => observe t.control.phase o)
          (.boot (heap, .all)) os = obs) ↔
      ∃ talk, talk ≠ .undefined ∧ Conversation lib obs talk) ∧
    ((∃ os t f, Machine.run (Stored.step lib) (.boot (heap, .all)) os = some t ∧
        t.control = .faulted f ∧
        Machine.emitted (Stored.step lib) (fun t o => observe t.control.phase o)
          (.boot (heap, .all)) os = obs) ↔
      Conversation lib obs .undefined) := by
  have hboot := @Stored.boot_tracks False heap .all False.elim
  have hstep := fun t s o (h : Stored.Tracks False t s) => Stored.step_tracks lib h o
  have hshown (os : List Outcome) : Machine.emitted (Stored.step lib)
      (fun t o => observe t.control.phase o) (.boot (heap, .all)) os = shown lib os :=
    Machine.emitted_lockstep hstep (fun t s o h => by rw [h.phase]) hboot os
  -- A run in memory, with the conversation it shows.
  have hforward {os : List Outcome} {t : Stored.Server}
      (hrun : Machine.run (Stored.step lib) (.boot (heap, .all)) os = some t) :
      ∃ talk, Conversation lib (shown lib os) talk ∧
        ((∃ f, t.control = .faulted f) ↔ talk = .undefined) := by
    have hrunning := Machine.run_lockstep hstep hboot os
    rw [hrun] at hrunning
    obtain ⟨s, hs, htracks⟩ := Machine.exists_of_rel_some_left hrunning
    obtain ⟨talk, hconversation, hkeeps⟩ := run_converses hs
    refine ⟨talk, hconversation, ?_⟩
    rw [← hkeeps.undefined_iff]
    exact htracks.exists_faulted_iff
  -- A conversation, with a run in memory that shows it.
  have hbackward {talk : Talk} (h : Conversation lib obs talk) :
      ∃ os t, Machine.run (Stored.step lib) (.boot (heap, .all)) os = some t ∧
        shown lib os = obs ∧ ((∃ f, t.control = .faulted f) ↔ talk = .undefined) := by
    obtain ⟨s, ⟨os, hs, hobs⟩, hholds⟩ := h.seen
    have hrunning := Machine.run_lockstep hstep hboot os
    rw [hs] at hrunning
    obtain ⟨t, ht, htracks⟩ := Machine.exists_of_rel_some_right hrunning
    refine ⟨os, t, ht, hobs, ?_⟩
    rw [← hholds.undefined_iff]
    exact htracks.exists_faulted_iff
  refine ⟨⟨?_, ?_⟩, ⟨?_, ?_⟩⟩
  · rintro ⟨os, t, hrun, hdefined, rfl⟩
    obtain ⟨talk, hconversation, hiff⟩ := hforward hrun
    rw [hshown os]
    refine ⟨talk, fun htalk => ?_, hconversation⟩
    obtain ⟨f, hf⟩ := hiff.mpr htalk
    exact hdefined f hf
  · rintro ⟨talk, htalk, hconversation⟩
    obtain ⟨os, t, hrun, hobs, hiff⟩ := hbackward hconversation
    refine ⟨os, t, hrun, fun f hf => htalk (hiff.mp ⟨f, hf⟩), (hshown os).trans hobs⟩
  · rintro ⟨os, t, f, hrun, hf, rfl⟩
    obtain ⟨talk, hconversation, hiff⟩ := hforward hrun
    rw [hshown os, ← hiff.mp ⟨f, hf⟩]
    exact hconversation
  · intro hconversation
    obtain ⟨os, t, hrun, hobs, hiff⟩ := hbackward hconversation
    obtain ⟨f, hf⟩ := hiff.mpr rfl
    exact ⟨os, t, f, hrun, hf, (hshown os).trans hobs⟩

end NetconfServer.Networking
