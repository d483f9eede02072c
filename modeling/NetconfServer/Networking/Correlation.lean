import NetconfServer.Networking.History
import NetconfServer.Parsing.Serialiser

/-! # Replies and the requests they answer

The `message-id` of a reply is baked into its text or is the message counter. A client that counts
its requests gets its own numbers back only where the two agree.
-/

namespace NetconfServer.Networking
open Memory CString Library Parsing

/-- The `message-id` attribute of a request. -/
def requestMessageId (root : XmlNode) : Option CString :=
  (root.label.properties.find? (·.1 = lit "message-id")).map Prod.snd

/-- The value of the first `message-id` attribute in the text of a reply. -/
def replyMessageId (text : CString) : List UInt8 :=
  before [34] (after (lit "message-id=\"").bytes text.bytes)

/-! ## The number in a reply -/

theorem replyMessageId_data (num : ℤ) (rest : CString) :
    replyMessageId (responseHead ++ decimalString num ++ responseOpen ++ rest) = decimal num := by
  have hhead : ∃ head, responseHead.bytes = head ++ (lit "message-id=\"").bytes ∧
      before (lit "message-id=\"").bytes (head ++ (lit "message-id=\"").bytes) = head :=
    ⟨before (lit "message-id=\"").bytes responseHead.bytes, by decide, by decide⟩
  obtain ⟨head, heq, hbefore⟩ := hhead
  have hopen : ∃ tail, responseOpen.bytes = 34 :: tail := ⟨responseOpen.bytes.tail, by decide⟩
  obtain ⟨tail, htail⟩ := hopen
  have hquote : 34 ∉ decimal num := notMem_decimal (by decide) (by decide) num
  rw [replyMessageId]
  simp only [bytes_append, heq, htail, List.append_assoc, List.cons_append]
  rw [after_append_right hbefore]
  exact before_append_cons hquote

theorem replyMessageId_hello : replyMessageId NETCONF_HELLO = [] := by decide +kernel

theorem replyMessageId_response1 : replyMessageId NETCONF_RESPONSE_1 = decimal 1 := by
  decide +kernel

theorem replyMessageId_response2 : replyMessageId NETCONF_RESPONSE_2 = decimal 2 := by
  decide +kernel

theorem replyMessageId_response3 : replyMessageId NETCONF_RESPONSE_3 = decimal 3 := by
  decide +kernel

theorem replyMessageId_response6 : replyMessageId NETCONF_RESPONSE_6 = decimal 6 := by
  decide +kernel

/-- Whether the answer to the `n`-th message after the first of a session is numbered `n`. -/
def Numbers (n : ℕ) : Answer → Prop
  | .hello => False
  | .response1 => n = 1
  | .response2 => n = 2
  | .response3 => n = 3
  | .data => n ≤ 127
  | .edit _ => n = 6
  | .empty => False

/-- A `char` holds the count as long as it has not wrapped. -/
theorem int8_ofNat_toInt (n : ℕ) : (Int8.ofNat n).toInt = n ↔ n ≤ 127 := by
  constructor
  · intro h
    have hlt : (Int8.ofNat n).toInt < 2 ^ 7 := Int8.toInt_lt _
    omega
  · intro h
    exact Int8.toInt_ofNat_of_lt (by omega)

variable {lib : Libxml2} {escape : CString → CString}

theorem reply_numbered_iff (hwrites : lib.Writes escape) {a : Answer} {device : Abcc} {n : ℕ}
    {reply : Reply} (h : a.reply lib device (decimalString (Int8.ofNat n).toInt) = .ok reply) :
    replyMessageId reply.text = decimal n ↔ Numbers n a := by
  have hnone : [] ≠ decimal n := (decimal_ne_nil n).symm
  have hcanned (m : ℕ) : decimal m = decimal n ↔ n = m := by
    rw [decimal_injective.eq_iff, Nat.cast_inj]
    exact eq_comm
  cases a with
  | hello =>
    cases h
    rw [Reply.text, replyMessageId_hello]
    exact iff_of_false hnone id
  | response1 =>
    cases h
    rw [Reply.text, replyMessageId_response1]
    exact hcanned 1
  | response2 =>
    cases h
    rw [Reply.text, replyMessageId_response2]
    exact hcanned 2
  | response3 =>
    cases h
    rw [Reply.text, replyMessageId_response3]
    exact hcanned 3
  | edit value =>
    cases h
    rw [Reply.text, replyMessageId_response6]
    exact hcanned 6
  | empty =>
    cases h
    exact iff_of_false hnone id
  | data =>
    obtain ⟨text, htext, rfl⟩ := data_reply_eq_ok.mp h
    rw [dataText_of_writes hwrites] at htext
    cases htext
    rw [Reply.text, append_assoc, append_assoc, replyMessageId_data, decimal_injective.eq_iff]
    exact int8_ofNat_toInt n

/-! ## A session -/

theorem answeredInSession_of_session (older : List Event) (messages : List Exchange) :
    answeredInSession (older ++ .session :: messages.map Event.exchange) = messages.length := by
  induction messages using List.reverseRecOn with
  | nil => exact answeredInSession_session older
  | append_singleton messages e ih =>
    rw [List.map_append, ← List.cons_append, ← List.append_assoc, List.map_singleton,
      answeredInSession_exchange, ih, List.length_append, List.length_singleton]

/-- The exchange at position `n` of a session is numbered from `n`. -/
theorem History.msgNum_of_position {log later : List Event} {older : List Event}
    {earlier messages : List Exchange} {e : Exchange} {device : Abcc}
    (h : History lib log device)
    (hlog : log = older ++ .session :: ((earlier ++ e :: messages).map Event.exchange ++ later)) :
    e.msgNum = .ofNat earlier.length ∧
      (answerTo e.root).reply lib e.before (decimalString (Int8.ofNat earlier.length).toInt) =
        .ok e.reply := by
  have hsplit : log = (older ++ .session :: earlier.map Event.exchange) ++
      .exchange e :: (messages.map Event.exchange ++ later) := by
    simp [hlog]
  rw [hsplit] at h
  obtain ⟨-, -, hnum, hreply⟩ := h.at_exchange
  rw [answeredInSession_of_session] at hnum
  rw [hnum] at hreply
  exact ⟨hnum, hreply⟩

/-- When every reply of a session carries the number of the request it answers: a canned reply to
the one request that has its number, a data reply before the counter wraps. -/
theorem replies_correlated_iff (hwrites : lib.Writes escape) {os : List Outcome} {s : Server}
    (hrun : Machine.run (step lib) (.boot .all) os = some s) {older later : List Event}
    {hello : Exchange} {requests : List Exchange}
    (hlog : s.log = older ++ .session :: ((hello :: requests).map Event.exchange ++ later))
    (hnumbered : ∀ i (hi : i < requests.length),
      requestMessageId requests[i].root = some (decimalString (i + 1))) :
    ((∀ e ∈ requests, (requestMessageId e.root).map CString.bytes =
        some (replyMessageId e.reply.text)) ∧
      (requests.map fun e => replyMessageId e.reply.text).Nodup) ↔
    ∀ i (hi : i < requests.length), Numbers (i + 1) (answerTo requests[i].root) := by
  have hreply : ∀ i (hi : i < requests.length),
      replyMessageId requests[i].reply.text = decimal (i + 1) ↔
        Numbers (i + 1) (answerTo requests[i].root) := by
    intro i hi
    have hsplit : hello :: requests =
        (hello :: requests.take i) ++ requests[i] :: requests.drop (i + 1) := by
      rw [List.cons_append, List.getElem_cons_drop, List.take_append_drop]
    rw [hsplit] at hlog
    obtain ⟨-, hi'⟩ := (run_history hrun).msgNum_of_position hlog
    have hlength : (hello :: requests.take i).length = i + 1 := by
      rw [List.length_cons, List.length_take, min_eq_left hi.le]
    rw [hlength] at hi'
    exact_mod_cast reply_numbered_iff hwrites hi'
  have hmatch : (∀ e ∈ requests, (requestMessageId e.root).map CString.bytes =
      some (replyMessageId e.reply.text)) ↔
      ∀ i (hi : i < requests.length), Numbers (i + 1) (answerTo requests[i].root) := by
    rw [List.forall_mem_iff_getElem]
    apply forall₂_congr
    intro i hi
    rw [hnumbered i hi, ← hreply i hi, Option.map_some, Option.some_inj]
    exact eq_comm
  constructor
  · intro h
    exact hmatch.mp h.1
  · intro h
    constructor
    · exact hmatch.mpr h
    · rw [List.nodup_iff_injective_get]
      intro i j hij
      have hvalue (k : ℕ) (hk : k < requests.length) :
          replyMessageId requests[k].reply.text = decimal (k + 1) := (hreply k hk).mpr (h k hk)
      have hi : i.val < requests.length := by simpa using i.isLt
      have hj : j.val < requests.length := by simpa using j.isLt
      have heq : decimal (i.val + 1) = decimal (j.val + 1) := by
        rw [← hvalue i hi, ← hvalue j hj]
        simpa using hij
      have hval := decimal_injective heq
      ext
      omega

def helloText : CString := lit "<hello><capabilities/></hello>"

def sampleHello : XmlNode := .element HELLO [] [.element (lit "capabilities") [] []]

/-- The first request of a session, for the operation `op`. -/
def firstRequest (op : Operation) : XmlNode :=
  .element RPC [(lit "message-id", lit "1")] [.element op.name [] []]

def firstRequestText (op : Operation) : CString :=
  lit "<rpc message-id=\"1\"><" ++ op.name ++ lit "/></rpc>"

/-- A read as the second request. -/
def secondRead : XmlNode := .element RPC [(lit "message-id", lit "2")] [.element (lit "get") [] []]

def secondReadText : CString := lit "<rpc message-id=\"2\"><get/></rpc>"

def numberedLibxml2 : Libxml2 :=
  tableLibxml2 [(helloText, sampleHello),
    (firstRequestText .getSchema, firstRequest .getSchema),
    (firstRequestText .getConfig, firstRequest .getConfig),
    (secondReadText, secondRead)]

/-- The log after a `hello` and one request. -/
def firstLog (op : Operation) (reply : Reply) : List Event :=
  [.session, .exchange ⟨sampleHello, ⟨some initialAddress⟩, 0, .hello⟩,
    .exchange ⟨firstRequest op, ⟨some initialAddress⟩, 1, reply⟩]

theorem run_hello :
    Machine.run (step numberedLibxml2) (.boot .all)
        (connect ⟨[], []⟩ ++ send (frame helloText (by decide))) =
      some (.ready [.session, .exchange ⟨sampleHello, ⟨some initialAddress⟩, 0, .hello⟩]
        ⟨some initialAddress⟩ 1 ⟨[], []⟩) := by
  have hdocument : documentOf numberedLibxml2 (frame helloText (by decide)) =
      some (.tree sampleHello) := by
    rw [documentOf_frame _ _ (by decide)]
    rfl
  have hanswer : answerTo sampleHello = .hello := by decide
  have hmessage := @run_message _ ⟨some initialAddress⟩ 0 _ [.session] _ _ _ _ hdocument
    (by rw [hanswer]; rfl) (formatReply_canned .hello (by simp) ⟨[], []⟩)
  rw [hanswer] at hmessage
  rw [Machine.run_append_of_eq (run_connect _ rfl rfl _)]
  exact hmessage

/-- A session of a `hello` and one request. -/
def helloThen (op : Operation) (h : (firstRequestText op).bytes.length ≤ 1017) : List Outcome :=
  connect ⟨[], []⟩ ++ send (frame helloText (by decide)) ++ send (frame (firstRequestText op) h)

theorem helloThen_run {op : Operation} {reply : Reply}
    (h : (firstRequestText op).bytes.length ≤ 1017)
    (hdocument : documentOf numberedLibxml2 (frame (firstRequestText op) h) =
      some (.tree (firstRequest op)))
    (hreply : ∀ messageId, (answerTo (firstRequest op)).reply numberedLibxml2 ⟨some initialAddress⟩
      messageId = .ok reply)
    (hupdate : (answerTo (firstRequest op)).update ⟨some initialAddress⟩ = ⟨some initialAddress⟩)
    (hcanned : ∀ text, reply ≠ .data text) :
    Machine.run (step numberedLibxml2) (.boot .all) (helloThen op h) =
      some (.ready (firstLog op reply) ⟨some initialAddress⟩ 2 ⟨[], []⟩) := by
  rw [helloThen, Machine.run_append_of_eq run_hello,
    run_message _ hdocument (hreply _) (formatReply_canned reply hcanned _), hupdate]
  rfl

theorem answerTo_getSchema : answerTo (firstRequest .getSchema) = .response1 := by decide

theorem helloThenGetSchema_run :
    Machine.run (step numberedLibxml2) (.boot .all) (helloThen .getSchema (by decide)) =
      some (.ready (firstLog .getSchema .response1) ⟨some initialAddress⟩ 2 ⟨[], []⟩) := by
  apply helloThen_run
  · rw [documentOf_frame _ _ (by decide)]
    rfl
  · intro messageId
    rw [answerTo_getSchema]
    rfl
  · rw [answerTo_getSchema]
    rfl
  · simp

/-- The reply to the read. -/
def secondData : CString :=
  documentText escapeText
    (responseDocument numberedLibxml2 (some initialAddress) (decimalString 2)) ++ endOfMessage

/-- A session of a `hello`, a `get-schema` and a read. -/
def helloThenTwo : List Outcome :=
  helloThen .getSchema (by decide) ++ send (frame secondReadText (by decide))

def twoRequests : List Exchange :=
  [⟨firstRequest .getSchema, ⟨some initialAddress⟩, 1, .response1⟩,
    ⟨secondRead, ⟨some initialAddress⟩, 2, .data secondData⟩]

theorem answerTo_secondRead : answerTo secondRead = .data := by decide

theorem helloThenTwo_run :
    Machine.run (step numberedLibxml2) (.boot .all) helloThenTwo =
      some (.ready ([] ++ .session ::
        ((⟨sampleHello, ⟨some initialAddress⟩, 0, .hello⟩ :: twoRequests).map Event.exchange ++ []))
        ⟨some initialAddress⟩ 3 ⟨[], []⟩) := by
  have hdocument : documentOf numberedLibxml2 (frame secondReadText (by decide)) =
      some (.tree secondRead) := by
    rw [documentOf_frame _ _ (by decide)]
    rfl
  have hreply : (answerTo secondRead).reply numberedLibxml2 ⟨some initialAddress⟩
      (decimalString (2 : Int8).toInt) = .ok (.data secondData) := by
    rw [answerTo_secondRead]
    rfl
  have hformat := @formatReply_literal secondData (by decide +kernel) (by decide +kernel) ⟨[], []⟩
  have hmessage := run_message (firstLog .getSchema .response1) hdocument hreply hformat
  rw [answerTo_secondRead] at hmessage
  rw [helloThenTwo, Machine.run_append_of_eq helloThenGetSchema_run]
  exact hmessage

theorem replies_correlated_iff_sample :
    ∃ s, Machine.run (step numberedLibxml2) (.boot .all) helloThenTwo = some s ∧
      (∀ e ∈ twoRequests, (requestMessageId e.root).map CString.bytes =
        some (replyMessageId e.reply.text)) ∧
      (twoRequests.map fun e => replyMessageId e.reply.text).Nodup := by
  have hlength : twoRequests.length = 2 := rfl
  have hfirst : requestMessageId (firstRequest .getSchema) = some (decimalString 1) := by decide
  have hsecond : requestMessageId secondRead = some (decimalString 2) := by decide
  have hnumbered : ∀ i (hi : i < twoRequests.length),
      requestMessageId twoRequests[i].root = some (decimalString (i + 1)) := by
    intro i hi
    rcases (show i = 0 ∨ i = 1 by omega) with rfl | rfl
    · exact hfirst
    · exact hsecond
  have hnumbers : ∀ i (hi : i < twoRequests.length),
      Numbers (i + 1) (answerTo twoRequests[i].root) := by
    intro i hi
    rcases (show i = 0 ∨ i = 1 by omega) with rfl | rfl
    · change Numbers 1 (answerTo (firstRequest .getSchema))
      rw [answerTo_getSchema]
      rfl
    · change Numbers 2 (answerTo secondRead)
      rw [answerTo_secondRead, Numbers]
      decide
  have hiff := replies_correlated_iff (tableLibxml2_writes _) helloThenTwo_run rfl
    hnumbered
  exact ⟨_, helloThenTwo_run, hiff.mpr hnumbers⟩

theorem answerTo_getConfig : answerTo (firstRequest .getConfig) = .response3 := by decide

/-- A `get-config` numbered 1 is answered with the number 3. -/
theorem get_config_misnumbered :
    ∃ s, Machine.run (step numberedLibxml2) (.boot .all) (helloThen .getConfig (by decide)) =
        some s ∧
      s.log = firstLog .getConfig .response3 ∧
      (childElements (firstRequest .getConfig)).head?.map (·.label.name) =
        some Operation.getConfig.name ∧
      requestMessageId (firstRequest .getConfig) = some (lit "1") ∧
      replyMessageId Reply.response3.text = (lit "3").bytes := by
  refine ⟨_, helloThen_run _ ?_ ?_ ?_ ?_, rfl, by decide, by decide, by decide +kernel⟩
  · rw [documentOf_frame _ _ (by decide)]
    rfl
  · intro messageId
    rw [answerTo_getConfig]
    rfl
  · rw [answerTo_getConfig]
    rfl
  · simp

end NetconfServer.Networking
