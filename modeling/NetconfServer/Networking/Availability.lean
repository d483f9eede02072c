import NetconfServer.Networking.History
import NetconfServer.Parsing.Serialiser

/-! # What stops the server

The label `exit`, the `return -1` and undefined behaviour are the ways out of the machine. Apart
from a failed `accept` they are taken after a message that does not parse or has no end, over a data
reply that cannot be sent, after a write error other than a reset and after the empty reply, whose
write reports no byte written.
-/

namespace NetconfServer.Networking
open Memory CString Library Parsing

def Stopped (s : Server) : Prop :=
  s.control = .exited ∨ s.control = .returned ∨ ∃ f, s.control = .faulted f

/-- What the calls of the TLS layer may report when `accept` succeeds. -/
def Legal (s : Server) : Outcome → Prop
  | .accept ret => ret = 0
  | .write ret => ∀ buf array, s.control = .writing buf array →
      ret < 0 ∨ 0 < ret ∧ ret ≤ buf.length ∨ ret = 0 ∧ buf = []
  | _ => True

/-- The messages with a reply: `hello`, and `rpc` with one of the four operations among the names
of the first ten elements. -/
def Recognised (root : XmlNode) : Prop :=
  root.label.name = HELLO ∨
    root.label.name = RPC ∧ ∃ op : Operation, op.name ∈ recordedKeys root

/-- The write errors that are neither a reset nor a request to try again. -/
def FatalWrite (ret : ℤ) : Prop :=
  ret < 0 ∧ ret ≠ MBEDTLS_ERR_NET_CONN_RESET ∧ ret ≠ MBEDTLS_ERR_SSL_WANT_READ ∧
    ret ≠ MBEDTLS_ERR_SSL_WANT_WRITE

/-- The names of a request send it to the branch of `create_netconf_response_4`. -/
def NamesData (root : XmlNode) : Prop :=
  root.label.name = RPC ∧
    (Operation.get.name ∈ recordedKeys root ∧ lit "netconf-state" ∉ recordedKeys root ∧
        lit "modules-state" ∉ recordedKeys root ∨
      Operation.get.name ∉ recordedKeys root ∧ Operation.getSchema.name ∉ recordedKeys root ∧
        Operation.editConfig.name ∈ recordedKeys root ∧ lit "running" ∉ recordedKeys root)
  deriving Decidable

theorem answerTo_eq_data {root : XmlNode} : answerTo root = .data ↔ NamesData root := by
  rw [answerTo, answer, NamesData, ← recordedKeys]
  by_cases hhello : root.label.name = HELLO
  · have hrpc : root.label.name ≠ RPC := fun h => absurd (hhello.symm.trans h) (by decide)
    simp [hhello, hhello ▸ hrpc]
  by_cases hrpc : root.label.name = RPC
  · rw [if_neg hhello, if_pos hrpc, and_iff_right hrpc]
    cases hop : firstOperation (recordedKeys root) with
    | none =>
      have hnone := firstOperation_eq_none.mp hop
      simp [hnone]
    | some op =>
      obtain ⟨hkey, hearlier⟩ := firstOperation_eq_some.mp hop
      cases op with
      | get =>
        dsimp only
        split_ifs <;> simp_all
      | getSchema =>
        have hget := hearlier .get (by simp [Operation.earlier])
        simp [hget, hkey]
      | editConfig =>
        have hget := hearlier .get (by simp [Operation.earlier])
        have hschema := hearlier .getSchema (by simp [Operation.earlier])
        dsimp only
        split_ifs <;> simp_all
      | getConfig =>
        have hget := hearlier .get (by simp [Operation.earlier])
        have hedit := hearlier .editConfig (by simp [Operation.earlier])
        simp [hget, hedit]
  · simp [hhello, hrpc]

/-- The data reply for the stored address can be sent: the dump succeeds, its text has a meaning as
a format, and what that writes fits `buf`. -/
def AddressSendable (lib : Libxml2) (s : Server) : Prop :=
  ∃ text buf, dataText lib s.device.ipAddress (decimalString s.msgNum.toInt) = .ok text ∧
    Printf.sprintf text.bytes s.ciphersuite = some buf ∧ buf.length < 1024

/-- The outcomes that stop the server: a message that does not parse or has no end, a message that
asks for an address that cannot be sent, a fatal write error, and a write of nothing after a message
without a reply. -/
def Stops (lib : Libxml2) (s : Server) : Outcome → Prop
  | .read chunk => documentOf lib chunk = none ∨ documentOf lib chunk = some .endless ∨
      ∃ root, documentOf lib chunk = some (.tree root) ∧ NamesData root ∧ ¬ AddressSendable lib s
  | .write ret => FatalWrite ret ∨
      ret = 0 ∧ ∃ log e, s.log = log ++ [.exchange e] ∧ ¬ Recognised e.root
  | _ => False

/-! ## Empty replies -/

theorem answerTo_eq_empty {root : XmlNode} : answerTo root = .empty ↔ ¬ Recognised root := by
  rw [answerTo, answer, Recognised, ← recordedKeys]
  by_cases hhello : root.label.name = HELLO
  · simp [hhello]
  by_cases hrpc : root.label.name = RPC
  · rw [if_neg hhello, if_pos hrpc]
    cases hop : firstOperation (recordedKeys root) with
    | none =>
      simp [hhello, firstOperation_eq_none.mp hop]
    | some op =>
      have hsome : op.name ∈ recordedKeys root := (firstOperation_eq_some.mp hop).1
      have hrecognised : root.label.name = HELLO ∨
          root.label.name = RPC ∧ ∃ op : Operation, op.name ∈ recordedKeys root :=
        .inr ⟨hrpc, op, hsome⟩
      simp only [hrecognised, not_true, iff_false]
      cases op with
      | get =>
        dsimp only
        split_ifs <;> simp
      | getSchema => simp
      | editConfig =>
        dsimp only
        split_ifs <;> simp
      | getConfig => simp
  · simp [hhello, hrpc]

variable {lib : Libxml2}

/-- Every reply but the empty one ends with the delimiter. -/
theorem reply_ends {a : Answer} {device : Abcc} {messageId : CString} {reply : Reply}
    (h : a.reply lib device messageId = .ok reply) (hempty : a ≠ .empty) :
    endOfMessage.bytes <:+ reply.text.bytes := by
  cases a with
  | hello =>
    cases h
    decide +kernel
  | response1 =>
    cases h
    decide +kernel
  | response2 =>
    cases h
    decide +kernel
  | response3 =>
    cases h
    decide +kernel
  | edit value =>
    cases h
    decide +kernel
  | empty => exact absurd rfl hempty
  | data =>
    obtain ⟨text, htext, rfl⟩ := data_reply_eq_ok.mp h
    obtain ⟨document, -, rfl⟩ := dataText_eq_ok.mp htext
    exact List.suffix_append document.bytes endOfMessage.bytes

/-- Only the empty reply has no text. -/
theorem reply_ne_nil {a : Answer} {device : Abcc} {messageId : CString} {reply : Reply}
    (h : a.reply lib device messageId = .ok reply) (hempty : a ≠ .empty)
    {ciphersuite : Printf.Argument} {out : List UInt8}
    (hout : Printf.sprintf reply.text.bytes ciphersuite = some out) : out ≠ [] := by
  obtain ⟨init, hinit⟩ := reply_ends h hempty
  have hend : endOfMessage.bytes = (lit "]]>]]").bytes ++ [62] := by decide
  rw [← hinit, hend, ← List.append_assoc] at hout
  exact Printf.render_ne_nil (by decide) hout

/-- While a reply is written the log ends with its exchange. -/
def Answering (lib : Libxml2) (s : Server) : Prop :=
  match s.control with
  | .writing buf _ => ∃ log e, s.log = log ++ [.exchange e] ∧
      (answerTo e.root).reply lib e.before (decimalString e.msgNum.toInt) = .ok e.reply ∧
      formatReply e.reply.text s.ciphersuite .all = .ok (buf, .all)
  | _ => True

theorem Move.answering {s s' : Server} {o : Outcome} (h : Move lib s o s')
    (hs : Answering lib s) : Answering lib s' := by
  cases h with
  | stay => exact hs
  | wait o c ho hc => rcases hc with rfl | rfl | rfl <;> trivial
  | refused ret hret => trivial
  | session ciphersuite => trivial
  | unparsed chunk hdocument => trivial
  | crashed chunk f hcrash => trivial
  | message chunk root reply c hreading hdocument hreply hc =>
    rcases hc with ⟨f, rfl, -⟩ | ⟨buf, rfl, hformat⟩
    · trivial
    · exact ⟨s.log, _, rfl, hreply, hformat⟩
  | sent ret result buf array hwriting hturn =>
    dsimp only [Answering]
    split_ifs <;> trivial

/-- An empty buffer is written about a message without a reply. -/
theorem Answering.unrecognised {s : Server} {array : KeyValuePairArray} (hs : Answering lib s)
    (hwriting : s.control = .writing [] array) :
    ∃ log e, s.log = log ++ [.exchange e] ∧ ¬ Recognised e.root := by
  rw [Answering, hwriting] at hs
  obtain ⟨log, e, hlog, hreply, hformat⟩ := hs
  refine ⟨log, e, hlog, fun hrecognised => ?_⟩
  have hempty : answerTo e.root ≠ .empty := fun h => answerTo_eq_empty.mp h hrecognised
  exact reply_ne_nil hreply hempty (formatReply_eq_ok.mp hformat).1 rfl

/-! ## Replies that cannot be sent -/

theorem addressSendable_of_format {s : Server} {text : CString} {buf : List UInt8} {supply : Supply}
    (htext : dataText lib s.device.ipAddress (decimalString s.msgNum.toInt) = .ok text)
    (hformat : formatReply text s.ciphersuite .all = .ok (buf, supply)) : AddressSendable lib s := by
  obtain ⟨hout, hfits, -⟩ := formatReply_eq_ok.mp hformat
  exact ⟨text, buf, htext, hout, hfits⟩

/-- Only a data reply can fail to be built, and then it cannot be sent. -/
theorem unsendable_of_reply {s : Server} {root : XmlNode} {f : Fault}
    (h : (answerTo root).reply lib s.device (decimalString s.msgNum.toInt) = .error f) :
    NamesData root ∧ ¬ AddressSendable lib s := by
  cases hanswer : answerTo root with
  | data =>
    rw [hanswer, Answer.reply] at h
    refine ⟨answerTo_eq_data.mp hanswer, ?_⟩
    rintro ⟨text, buf, htext, -⟩
    rw [htext] at h
    cases h
  | _ =>
    rw [hanswer] at h
    cases h

/-- Only a data reply can fail to be formatted, and then it cannot be sent. -/
theorem unsendable_of_format {s : Server} {root : XmlNode} {reply : Reply} {f : Fault}
    (hreply : (answerTo root).reply lib s.device (decimalString s.msgNum.toInt) = .ok reply)
    (hformat : formatReply reply.text s.ciphersuite .all = .error f) :
    NamesData root ∧ ¬ AddressSendable lib s := by
  cases hanswer : answerTo root with
  | data =>
    rw [hanswer] at hreply
    obtain ⟨text, htext, rfl⟩ := data_reply_eq_ok.mp hreply
    refine ⟨answerTo_eq_data.mp hanswer, ?_⟩
    rintro ⟨text', buf, htext', hout, hfits⟩
    obtain rfl : text = text' := Except.ok.inj (htext.symm.trans htext')
    have hok : formatReply text s.ciphersuite .all = .ok (buf, .all) :=
      formatReply_eq_ok.mpr ⟨hout, hfits, rfl⟩
    rw [Reply.text, hok] at hformat
    cases hformat
  | _ =>
    rw [hanswer] at hreply
    cases hreply
    rw [formatReply_canned _ (by simp)] at hformat
    cases hformat

/-- A reply to a request for the address is written out only when that address can be sent. -/
theorem sendable_of_format {s : Server} {root : XmlNode} {reply : Reply} {buf : List UInt8}
    (hdata : NamesData root)
    (hreply : (answerTo root).reply lib s.device (decimalString s.msgNum.toInt) = .ok reply)
    (hformat : formatReply reply.text s.ciphersuite .all = .ok (buf, .all)) :
    AddressSendable lib s := by
  rw [answerTo_eq_data.mpr hdata] at hreply
  obtain ⟨text, htext, rfl⟩ := data_reply_eq_ok.mp hreply
  exact addressSendable_of_format htext hformat

/-! ## The way out -/

theorem step_of_stopped (s : Server) (o : Outcome) (h : Stopped s) : step lib s o = none := by
  unfold step
  rcases h with h | h | ⟨f, h⟩ <;> rw [h]

theorem writeTurn_eq_exit {ret : ℤ} : writeTurn ret = some EXIT ↔ FatalWrite ret ∨ ret = 0 := by
  have hreset : (some RESET : Option ℤ) ≠ some EXIT := by decide
  have hzero : (some 0 : Option ℤ) ≠ some EXIT := by decide
  have hcodes : MBEDTLS_ERR_NET_CONN_RESET ≠ 0 ∧ MBEDTLS_ERR_SSL_WANT_READ ≠ 0 ∧
      MBEDTLS_ERR_SSL_WANT_WRITE ≠ 0 := by decide
  rw [writeTurn, FatalWrite]
  split_ifs with hle hconn hfatal
  · simp only [hreset, false_iff]
    omega
  · simp only [true_iff]
    omega
  · simp only [false_iff]
    omega
  · simp only [hzero, false_iff]
    omega

theorem stopped_iff_stops {s s' : Server} {o : Outcome} (hs : Sound s) (hanswer : Answering lib s)
    (hlegal : Legal s o) (hstep : step lib s o = some s') : Stopped s' ↔ Stops lib s o := by
  have hrunning : ¬ Stopped s := fun h => by
    rw [step_of_stopped s o h] at hstep
    cases hstep
  have htransport (ho : o.Transport) : ¬ Stops lib s o := by
    cases o with
    | write ret =>
      have hnot : writeTurn ret ≠ some EXIT := by
        rw [show writeTurn ret = none from ho]
        simp
      rw [Ne, writeTurn_eq_exit, not_or] at hnot
      rintro (hfatal | ⟨hzero, -⟩)
      · exact hnot.1 hfatal
      · exact hnot.2 hzero
    | read chunk => exact absurd ho id
    | accept ret => exact id
    | handshake ret ciphersuite => exact id
    | readError ret => exact id
    | closeNotify ret => exact id
  cases step_move hs hstep with
  | stay o ho => exact iff_of_false hrunning (htransport ho)
  | wait o c ho hc =>
    refine iff_of_false ?_ (htransport ho)
    rcases hc with rfl | rfl | rfl <;> simp [Stopped]
  | refused ret hret => exact absurd hlegal hret
  | session ciphersuite => exact iff_of_false (by simp [Stopped]) id
  | unparsed chunk hdocument => exact iff_of_true (.inr (.inl rfl)) (.inl hdocument)
  | crashed chunk f hcrash =>
    apply iff_of_true (.inr (.inr ⟨f, rfl⟩))
    right
    rcases hcrash with hdocument | ⟨root, hdocument, hreply⟩
    · exact .inl hdocument
    · exact .inr ⟨root, hdocument, unsendable_of_reply hreply⟩
  | message chunk root reply c hreading hdocument hreply hc =>
    rcases hc with ⟨f, rfl, hformat⟩ | ⟨buf, rfl, hformat⟩
    · refine iff_of_true (.inr (.inr ⟨f, rfl⟩)) (.inr (.inr ⟨root, hdocument, ?_⟩))
      exact unsendable_of_format hreply hformat
    · refine iff_of_false (by simp [Stopped]) ?_
      rintro (hnone | hendless | ⟨root', htree, hdata, hunsendable⟩)
      · simp [hdocument] at hnone
      · simp [hdocument] at hendless
      · obtain rfl : root = root' := by simpa [hdocument] using htree
        exact hunsendable (sendable_of_format hdata hreply hformat)
  | sent ret result buf array hwriting hturn =>
    have hexit : Stopped { s with
        msgNum := s.msgNum + 1
        control := if result = RESET then .accepting else if result = EXIT then .exited
          else .reading } ↔ writeTurn ret = some EXIT := by
      rw [hturn, Option.some_inj, Stopped]
      have hcodes : EXIT ≠ RESET := by decide
      split_ifs with hreset hexit
      · simp [hreset, hcodes.symm]
      · simp [hexit]
      · simp [hexit]
    rw [hexit, writeTurn_eq_exit, Stops]
    refine or_congr_right ⟨fun hzero => ⟨hzero, ?_⟩, And.left⟩
    rcases hlegal buf array hwriting with hneg | ⟨hpos, -⟩ | ⟨-, hbuf⟩
    · omega
    · omega
    · exact hanswer.unrecognised (hbuf ▸ hwriting)

/-- In a run whose calls to `accept` succeed the server stops, by leaving its loop or in undefined
behaviour, exactly when some outcome stops it. So it serves on as long as every message parses to a
tree, is a `hello` or has a known operation among its first ten elements, none asks for an address
that cannot be sent, and no write fails but by a reset. -/
theorem server_stops_iff {os : List Outcome} {s : Server}
    (hlegal : Machine.Along (step lib) Legal (.boot .all) os)
    (hrun : Machine.run (step lib) (.boot .all) os = some s) :
    (s.control = .exited ∨ s.control = .returned ∨ ∃ f, s.control = .faulted f) ↔
      ∃ os₁ o os₂ t, os = os₁ ++ o :: os₂ ∧
        Machine.run (step lib) (.boot .all) os₁ = some t ∧ Stops lib t o := by
  refine Machine.run_terminal_iff (P := fun s => Sound s ∧ Answering lib s) (F := Stopped) ?_
    step_of_stopped hlegal hrun ⟨boot_sound, trivial⟩ (by simp [Stopped, Server.boot])
  intro s o s' ⟨hs, hanswer⟩ hlegal hstep
  have hm := step_move hs hstep
  exact ⟨⟨hm.sound hs, hm.answering hanswer⟩, stopped_iff_stops hs hanswer hlegal hstep⟩

def strangerText : CString := lit "<a/>"

def stranger : XmlNode := .element (lit "a") [] []

def strangerLibxml2 : Libxml2 := tableLibxml2 [(strangerText, stranger)]

/-- A message whose root is neither `hello` nor `rpc`, and the write of its reply. -/
def strangerRun : List Outcome :=
  connect ⟨[], []⟩ ++ [.read (frame strangerText (by decide)), .write 0]

theorem strangerRun_along : Machine.Along (step strangerLibxml2) Legal (.boot .all) strangerRun := by
  refine (Machine.along_cons_of_eq rfl).mpr ⟨rfl, ?_⟩
  refine (Machine.along_cons_of_eq rfl).mpr ⟨trivial, ?_⟩
  refine (Machine.along_cons_of_eq rfl).mpr ⟨trivial, ?_⟩
  refine (Machine.along_cons_of_eq rfl).mpr ⟨?_, trivial⟩
  intro buf array h
  cases h
  exact .inr (.inr ⟨rfl, rfl⟩)

theorem server_stops_iff_sample :
    ∃ s, Machine.run (step strangerLibxml2) (.boot .all) strangerRun = some s ∧
      (s.control = .exited ∨ s.control = .returned ∨ ∃ f, s.control = .faulted f) := by
  refine ⟨_, rfl, (server_stops_iff strangerRun_along rfl).mpr ?_⟩
  refine ⟨connect ⟨[], []⟩ ++ [.read (frame strangerText (by decide))], .write 0, [], _, rfl, rfl, ?_⟩
  exact .inr ⟨rfl, [.session], ⟨stranger, ⟨some initialAddress⟩, 0, .empty⟩, rfl, by
    rw [← answerTo_eq_empty]
    rfl⟩

/-- One message that does not parse ends the process. -/
theorem unparsed_message_stops :
    Machine.Along (step (tableLibxml2 [])) Legal (.boot .all)
        (connect ⟨[], []⟩ ++ [.read (frame (lit "x") (by decide))]) ∧
      ∃ s, Machine.run (step (tableLibxml2 [])) (.boot .all)
        (connect ⟨[], []⟩ ++ [.read (frame (lit "x") (by decide))]) = some s ∧
        s.control = .returned :=
  ⟨⟨rfl, fun _ _ => ⟨trivial, fun _ _ => ⟨trivial, fun _ _ => trivial⟩⟩⟩, _, rfl, rfl⟩

end NetconfServer.Networking
