import NetconfServer.Library.Register
import NetconfServer.Networking.Move

/-! # Histories

`History` says which logs the server can have: an abstract server that is either idle or answers the
next message of a session at once. Every run of the machine has such a log, and every log of
deliverable messages has a run.
-/

namespace NetconfServer.Networking
open Memory CString Library Parsing

/-- The messages handled since the last session began. -/
def answeredInSession (log : List Event) : ℕ :=
  log.foldl (fun n e => match e with | .session => 0 | .exchange _ => n + 1) 0

theorem answeredInSession_session (log : List Event) :
    answeredInSession (log ++ [.session]) = 0 := by
  rw [answeredInSession, List.foldl_append]
  rfl

theorem answeredInSession_exchange (log : List Event) (e : Exchange) :
    answeredInSession (log ++ [.exchange e]) = answeredInSession log + 1 := by
  rw [answeredInSession, List.foldl_append]
  rfl

/-- The logs of the server, each with the device it leaves. -/
inductive History (lib : Libxml2) : List Event → Abcc → Prop where
  | boot : History lib [] ⟨none⟩
  | session {log : List Event} {device : Abcc} (h : History lib log device) :
      History lib (log ++ [.session]) ⟨some initialAddress⟩
  | exchange {log : List Event} {device : Abcc} (h : History lib log device)
      (hsession : .session ∈ log) (e : Exchange) (hbefore : e.before = device)
      (hnum : e.msgNum = .ofNat (answeredInSession log))
      (hreply : (answerTo e.root).reply lib device (decimalString e.msgNum.toInt) = .ok e.reply) :
      History lib (log ++ [.exchange e]) ((answerTo e.root).update device)

variable {lib : Libxml2}

/-- In a session the counter is the number of messages handled in it, wrapped to a `char`. -/
def Counted (s : Server) : Prop :=
  match s.control with
  | .reading => .session ∈ s.log ∧ s.msgNum = .ofNat (answeredInSession s.log)
  | .writing _ _ => .session ∈ s.log ∧ s.msgNum + 1 = .ofNat (answeredInSession s.log)
  | _ => True

theorem Move.counted {s s' : Server} {o : Outcome} (h : Move lib s o s') (hs : Counted s) :
    Counted s' := by
  cases h with
  | stay => exact hs
  | wait o c ho hc => rcases hc with rfl | rfl | rfl <;> trivial
  | refused ret hret => trivial
  | session ciphersuite =>
    constructor
    · simp
    · rw [answeredInSession_session]
      rfl
  | unparsed chunk hdocument => trivial
  | crashed chunk f hcrash => trivial
  | message chunk root reply c hreading hdocument hreply hc =>
    rw [Counted, hreading] at hs
    rcases hc with ⟨f, rfl, -⟩ | ⟨buf, rfl, -⟩
    · trivial
    · constructor
      · simp [hs.1]
      · rw [answeredInSession_exchange, Int8.ofNat_add, hs.2]
        rfl
  | sent ret result buf array hwriting hturn =>
    rw [Counted, hwriting] at hs
    dsimp only [Counted]
    split_ifs
    · trivial
    · trivial
    · exact hs

/-- The machine's log and device are those of a history. -/
theorem Move.history {s s' : Server} {o : Outcome} (h : Move lib s o s') (hcount : Counted s)
    (hs : History lib s.log s.device) : History lib s'.log s'.device := by
  cases h with
  | stay => exact hs
  | wait o c ho hc => exact hs
  | refused ret hret => exact hs
  | session ciphersuite => exact .session hs
  | unparsed chunk hdocument => exact hs
  | crashed chunk f hcrash => exact hs
  | message chunk root reply c hreading hdocument hreply hc =>
    rw [Counted, hreading] at hcount
    exact .exchange hs hcount.1 _ rfl hcount.2 hreply
  | sent ret result buf array hwriting hturn => exact hs

theorem run_history {os : List Outcome} {s : Server}
    (hrun : Machine.run (step lib) (.boot .all) os = some s) : History lib s.log s.device := by
  have hboth := run_move_invariant (P := fun s => Counted s ∧ History lib s.log s.device)
    ⟨trivial, .boot⟩ (fun s o s' ⟨hcount, hs⟩ hm => ⟨hm.counted hcount, hm.history hcount hs⟩) hrun
  exact hboth.2

/-! ## Reading a history -/

theorem History.exchange_inv {log : List Event} {e : Exchange} {device : Abcc}
    (h : History lib (log ++ [.exchange e]) device) :
    History lib log e.before ∧ .session ∈ log ∧ e.msgNum = .ofNat (answeredInSession log) ∧
      (answerTo e.root).reply lib e.before (decimalString e.msgNum.toInt) = .ok e.reply ∧
      device = (answerTo e.root).update e.before := by
  generalize hlog : log ++ [.exchange e] = log' at h
  cases h with
  | boot => simp at hlog
  | session h => simpa using List.append_inj_right' hlog rfl
  | exchange h hsession e' hbefore hnum hreply =>
    obtain ⟨rfl, he⟩ := List.append_inj' hlog rfl
    obtain rfl : e = e' := by simpa using he
    subst hbefore
    exact ⟨h, hsession, hnum, hreply, rfl⟩

theorem History.initial_segment {log log' : List Event} {device : Abcc}
    (h : History lib (log ++ log') device) : ∃ device', History lib log device' := by
  induction log' using List.reverseRecOn generalizing device with
  | nil => exact ⟨device, by simpa using h⟩
  | append_singleton log' e ih =>
    generalize hlog : log ++ (log' ++ [e]) = full at h
    rw [← List.append_assoc] at hlog
    cases h with
    | boot => simp at hlog
    | session h =>
      rw [← (List.append_inj' hlog rfl).1] at h
      exact ih h
    | exchange h =>
      rw [← (List.append_inj' hlog rfl).1] at h
      exact ih h

/-- What a history says of an exchange anywhere in it. -/
theorem History.at_exchange {log log' : List Event} {e : Exchange} {device : Abcc}
    (h : History lib (log ++ .exchange e :: log') device) :
    History lib log e.before ∧ .session ∈ log ∧ e.msgNum = .ofNat (answeredInSession log) ∧
      (answerTo e.root).reply lib e.before (decimalString e.msgNum.toInt) = .ok e.reply := by
  rw [← List.singleton_append, ← List.append_assoc] at h
  obtain ⟨device', h⟩ := h.initial_segment
  obtain ⟨hlog, hsession, hnum, hreply, -⟩ := h.exchange_inv
  exact ⟨hlog, hsession, hnum, hreply⟩

/-! ## From a history to a run -/

/-- The server about to read, as every exchange but a fatal one leaves it. -/
def Server.ready (log : List Event) (device : Abcc) (msgNum : Int8)
    (ciphersuite : Printf.Argument) : Server :=
  { control := .reading, msgNum, device, ciphersuite, supply := .all, log }

def connect (ciphersuite : Printf.Argument) : List Outcome :=
  [.accept 0, .handshake 0 ciphersuite]

def send (chunk : Chunk) : List Outcome := [.read chunk, .write 1]

def disconnect : List Outcome := [.readError ⟨0, le_refl 0⟩, .closeNotify 0]

theorem run_connect (s : Server) (hcontrol : s.control = .accepting) (hsupply : s.supply = .all)
    (ciphersuite : Printf.Argument) :
    Machine.run (step lib) s (connect ciphersuite) =
      some (.ready (s.log ++ [.session]) ⟨some initialAddress⟩ 0 ciphersuite) := by
  obtain ⟨control, msgNum, device, ciphersuite', supply, log⟩ := s
  obtain rfl : control = .accepting := hcontrol
  obtain rfl : supply = .all := hsupply
  rfl

variable {log : List Event} {device : Abcc} {msgNum : Int8} {ciphersuite : Printf.Argument}

theorem run_disconnect :
    Machine.run (step lib) (.ready log device msgNum ciphersuite) disconnect =
      some { Server.ready log device msgNum ciphersuite with control := .accepting } := rfl

/-- A read that holds a message: it is answered, and its reply formatted. -/
theorem step_read {chunk : Chunk} {root : XmlNode} {reply : Reply}
    (hdocument : documentOf lib chunk = some (.tree root))
    (hreply : (answerTo root).reply lib device (decimalString msgNum.toInt) = .ok reply) :
    step lib (.ready log device msgNum ciphersuite) (.read chunk) =
      some (match formatReply reply.text ciphersuite .all with
        | .error f =>
          { Server.ready (log ++ [.exchange ⟨root, device, msgNum, reply⟩])
              ((answerTo root).update device) msgNum ciphersuite with
            control := .faulted f }
        | .ok (buf, supply) =>
          { Server.ready (log ++ [.exchange ⟨root, device, msgNum, reply⟩])
              ((answerTo root).update device) msgNum ciphersuite with
            control := .writing buf (requestArray root), supply }) := by
  have hhandle : handleMessage lib (.ofBuffer chunk.bytes) device msgNum .all =
      .ok (some ⟨root, requestArray root, reply, (answerTo root).update device⟩, .all) := by
    rw [handleMessage_eq, hdocument]
    dsimp only
    rw [hreply]
    rfl
  change some (Server.afterRead lib (.ready log device msgNum ciphersuite) chunk) = _
  rw [Server.afterRead, Server.ready]
  dsimp only
  rw [hhandle]
  rfl

theorem step_message {chunk : Chunk} {root : XmlNode} {reply : Reply} {buf : List UInt8}
    (hdocument : documentOf lib chunk = some (.tree root))
    (hreply : (answerTo root).reply lib device (decimalString msgNum.toInt) = .ok reply)
    (hformat : formatReply reply.text ciphersuite .all = .ok (buf, .all)) :
    step lib (.ready log device msgNum ciphersuite) (.read chunk) =
      some { Server.ready (log ++ [.exchange ⟨root, device, msgNum, reply⟩])
          ((answerTo root).update device) msgNum ciphersuite with
        control := .writing buf (requestArray root) } := by
  rw [step_read hdocument hreply, hformat]
  rfl

/-- What the end of a write leaves. -/
theorem step_written {ret result : ℤ} (hturn : writeTurn ret = some result) (buf : List UInt8)
    (root : XmlNode) :
    step lib { Server.ready log device msgNum ciphersuite with
        control := .writing buf (requestArray root) } (.write ret) =
      some { Server.ready log device (msgNum + 1) ciphersuite with
        control := if result = RESET then .accepting else if result = EXIT then .exited
          else .reading } := by
  have hfree : freeKeyValuePairArray (requestArray root) Supply.all = .ok (SUCCESS, .all) :=
    freeKeyValuePairArray_yields _
  change some (Server.afterWrite _ _ _) = _
  rw [Server.afterWrite, hturn]
  dsimp only [Server.ready]
  rw [hfree]

theorem step_write (ret : ℤ) (hret : 0 < ret) (buf : List UInt8) (root : XmlNode) :
    step lib { Server.ready log device msgNum ciphersuite with
        control := .writing buf (requestArray root) } (.write ret) =
      some (.ready log device (msgNum + 1) ciphersuite) := by
  have hturn : writeTurn ret = some 0 := by
    rw [writeTurn, if_neg (by omega)]
  rw [step_written hturn]
  rfl

theorem run_message (log : List Event) {chunk : Chunk} {root : XmlNode} {reply : Reply}
    {buf : List UInt8} (hdocument : documentOf lib chunk = some (.tree root))
    (hreply : (answerTo root).reply lib device (decimalString msgNum.toInt) = .ok reply)
    (hformat : formatReply reply.text ciphersuite .all = .ok (buf, .all)) :
    Machine.run (step lib) (.ready log device msgNum ciphersuite) (send chunk) =
      some (.ready (log ++ [.exchange ⟨root, device, msgNum, reply⟩])
        ((answerTo root).update device) (msgNum + 1) ciphersuite) := by
  rw [send, Machine.run_cons, step_message hdocument hreply hformat, Option.bind_some,
    Machine.run_cons, step_write 1 (by decide)]
  rfl

theorem formatReply_literal {reply : CString} (h : 37 ∉ reply.bytes)
    (hfits : reply.bytes.length < 1024) (ciphersuite : Printf.Argument) :
    formatReply reply ciphersuite .all = .ok (reply.bytes, .all) := by
  rw [formatReply_eq_ok]
  exact ⟨Printf.render_of_no_percent h, hfits, rfl⟩

/-- Every canned reply is sent as it stands. -/
theorem canned_literal (reply : Reply) (h : ∀ text, reply ≠ .data text) :
    37 ∉ reply.text.bytes ∧ reply.text.bytes.length < 1024 := by
  cases reply with
  | data text => exact absurd rfl (h text)
  | hello => decide +kernel
  | response1 => decide +kernel
  | response2 => decide +kernel
  | response3 => decide +kernel
  | response6 => decide +kernel
  | empty => decide

theorem formatReply_canned (reply : Reply) (h : ∀ text, reply ≠ .data text)
    (ciphersuite : Printf.Argument) :
    formatReply reply.text ciphersuite .all = .ok (reply.text.bytes, .all) :=
  formatReply_literal (canned_literal reply h).1 (canned_literal reply h).2 ciphersuite

/-- A message some read delivers whole, and whose reply can be formatted. -/
def Deliverable (lib : Libxml2) (ciphersuite : Printf.Argument) (e : Exchange) : Prop :=
  (∃ chunk, documentOf lib chunk = some (.tree e.root)) ∧
    ∃ buf, formatReply e.reply.text ciphersuite .all = .ok (buf, .all)

end NetconfServer.Networking
