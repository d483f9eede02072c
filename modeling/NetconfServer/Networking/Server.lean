import NetconfServer.Library.Machine
import NetconfServer.Library.Printf
import NetconfServer.Parsing.Request

/-! # The server from the label `reset` on

`mbed_ssl_server` is a machine whose inputs are the outcomes of the calls into the TLS layer. A
control state is the call it waits in. `log` is a history variable: the code has no such
variable and nothing of the machine reads it.
-/

namespace NetconfServer.Networking
open Memory CString Library Parsing

def RESET : ℤ := -1
def EXIT : ℤ := -2
def MBEDTLS_ERR_SSL_WANT_READ : ℤ := -0x6900
def MBEDTLS_ERR_SSL_WANT_WRITE : ℤ := -0x6880
def MBEDTLS_ERR_NET_CONN_RESET : ℤ := -0x0050

/-! ## Writing a reply -/

/-- The `sprintf` of `write_to_client` into `buf[1024]`, with the reply as its format. -/
def formatReply (reply : CString) (ciphersuite : Printf.Argument) : Exec (List UInt8) :=
  match Printf.sprintf reply.bytes ciphersuite with
  | none => fault .badFormat
  | some out => if out.length < 1024 then pure out else fault .outOfBounds

/-- One turn of the loop around `mbedtls_ssl_write`; `none` is another turn. -/
def writeTurn (ret : ℤ) : Option ℤ :=
  if ret ≤ 0 then
    if ret = MBEDTLS_ERR_NET_CONN_RESET then some RESET
    else if ret ≠ MBEDTLS_ERR_SSL_WANT_READ ∧ ret ≠ MBEDTLS_ERR_SSL_WANT_WRITE then some EXIT
    else none
  else some 0

/-! ## One message -/

structure Answered where
  root : XmlNode
  array : KeyValuePairArray
  reply : Reply
  device : Abcc

/-- From `init_key_value_array` to `create_xml_reply`. -/
def answerRequest (lib : Libxml2) (root : Option XmlNode) (device : Abcc) (msgNum : Int8) :
    Exec (KeyValuePairArray × Reply × Abcc) := do
  let (array, _) ← initKeyValueArray .uninitialized 10
  let (array, _) ← processXml (some array) root
  let array ← deref array
  let _ ← printAllNodes array
  let msgNumStr ← intToStr msgNum.toInt
  let (reply, device) ← createXmlReply lib array device msgNumStr
  return (array, reply, device)

/-- The loop body up to the reply; `none` is the `return -1` after a message that does not parse. -/
def handleMessage (lib : Libxml2) (request : CString) (device : Abcc) (msgNum : Int8) :
    Exec (Option Answered) := do
  let (document, result) ← parseXml lib request
  if result = -1 then return none
  else
    match ← deref document with
    | .endless => fault .endlessRecursion
    | .tree root =>
      let (array, reply, device) ← answerRequest lib (some root) device msgNum
      return some ⟨root, array, reply, device⟩

/-! ## The machine -/

/-- What one `mbedtls_ssl_read` puts into `buf`. -/
structure Chunk where
  bytes : List UInt8
  nonempty : bytes ≠ []
  fits : bytes.length ≤ 1023

/-- A read that holds exactly one message. -/
def frame (text : CString) (h : text.bytes.length ≤ 1017) : Chunk where
  bytes := (text ++ endOfMessage).bytes
  nonempty := by
    rw [bytes_append]
    exact List.append_ne_nil_of_right_ne_nil _ (by decide)
  fits := by
    have hlen : endOfMessage.bytes.length = 6 := by decide
    rw [bytes_append, List.length_append, hlen]
    omega

inductive Outcome where
  | accept (ret : ℤ)
  | handshake (ret : ℤ) (ciphersuite : Printf.Argument)
  | read (chunk : Chunk)
  | readError (ret : {ret : ℤ // ret ≤ 0})
  | write (ret : ℤ)
  | closeNotify (ret : ℤ)

inductive Control where
  | accepting
  | handshaking
  | reading
  | writing (buf : List UInt8) (array : KeyValuePairArray)
  | closing
  /-- The label `exit`. -/
  | exited
  /-- The `return -1`. -/
  | returned
  | faulted (f : Fault)

/-- A message, the device and the message number it was met with, and the reply to it. -/
structure Exchange where
  root : XmlNode
  before : Abcc
  msgNum : Int8
  reply : Reply

inductive Event where
  | session
  | exchange (e : Exchange)

structure Server where
  control : Control
  msgNum : Int8
  device : Abcc
  ciphersuite : Printf.Argument
  supply : Supply
  log : List Event

/-- The first time the label `reset` is reached. -/
def Server.boot (supply : Supply) : Server :=
  { control := .accepting, msgNum := 0, device := ⟨none⟩, ciphersuite := ⟨[], []⟩, supply,
    log := [] }

def Server.afterHandshake (s : Server) (ret : ℤ) (ciphersuite : Printf.Argument) : Server :=
  if ret = 0 then
    match initAbcc ⟨none⟩ s.supply with
    | .error f => { s with control := .faulted f }
    | .ok ((device, _), supply) =>
      { control := .reading, msgNum := 0, device, ciphersuite, supply, log := s.log ++ [.session] }
  else if ret = MBEDTLS_ERR_SSL_WANT_READ ∨ ret = MBEDTLS_ERR_SSL_WANT_WRITE then s
  else { s with control := .accepting }

def Server.afterReadError (s : Server) (ret : ℤ) : Server :=
  if ret = MBEDTLS_ERR_SSL_WANT_READ ∨ ret = MBEDTLS_ERR_SSL_WANT_WRITE then s
  else { s with control := .closing }

def Server.afterRead (lib : Libxml2) (s : Server) (chunk : Chunk) : Server :=
  match handleMessage lib (.ofBuffer chunk.bytes) s.device s.msgNum s.supply with
  | .error f => { s with control := .faulted f }
  | .ok (none, supply) => { s with control := .returned, supply }
  | .ok (some m, supply) =>
    let s := { s with
      device := m.device, supply, log := s.log ++ [Event.exchange ⟨m.root, s.device, s.msgNum, m.reply⟩] }
    match formatReply m.reply.text s.ciphersuite s.supply with
    | .error f => { s with control := .faulted f }
    | .ok (buf, supply) => { s with control := .writing buf m.array, supply }

def Server.afterWrite (s : Server) (array : KeyValuePairArray) (ret : ℤ) : Server :=
  match writeTurn ret with
  | none => s
  | some result =>
    match freeKeyValuePairArray array s.supply with
    | .error f => { s with control := .faulted f }
    | .ok (_, supply) =>
      { s with
        msgNum := s.msgNum + 1
        supply
        control := if result = RESET then .accepting else if result = EXIT then .exited else .reading }

def Server.afterCloseNotify (s : Server) (ret : ℤ) : Server :=
  if ret < 0 ∧ (ret = MBEDTLS_ERR_SSL_WANT_READ ∨ ret = MBEDTLS_ERR_SSL_WANT_WRITE) then s
  else { s with control := .accepting }

/-- The machine takes the outcome of the call it waits in and of no other. -/
def step (lib : Libxml2) (s : Server) (o : Outcome) : Option Server :=
  match s.control, o with
  | .accepting, .accept ret =>
    some { s with control := if ret = 0 then .handshaking else .exited }
  | .handshaking, .handshake ret ciphersuite => some (s.afterHandshake ret ciphersuite)
  | .reading, .read chunk => some (s.afterRead lib chunk)
  | .reading, .readError ret => some (s.afterReadError ret)
  | .writing _ array, .write ret => some (s.afterWrite array ret)
  | .closing, .closeNotify ret => some (s.afterCloseNotify ret)
  | _, _ => none

/-! ## What the functions do when every request for memory is granted -/

/-- The array left by the walk of a request. -/
def requestArray (root : XmlNode) : KeyValuePairArray :=
  entryArray 10 (recorded root) (.set (some root.label.name))

theorem intToStr_yields (num : ℤ) : Yields (intToStr num) (decimalString num) :=
  malloc_yields.bind Yields.pure

theorem answerRequest_eq (lib : Libxml2) (root : XmlNode) (device : Abcc) (msgNum : Int8) :
    answerRequest lib (some root) device msgNum .all =
      ((answerTo root).reply lib device (decimalString msgNum.toInt)).map fun reply =>
        ((requestArray root, reply, (answerTo root).update device), .all) := by
  have hinit := initKeyValueArray_yields .uninitialized 10
  have hwalk := @processXml_yields .unset root 10
  rw [answerRequest, hinit.bind_eq]
  change (processXml (some (entryArray 10 [] .unset)) (some root) >>= _) Supply.all = _
  rw [hwalk.bind_eq]
  dsimp only
  rw [(deref_yields _).bind_eq, (printAllNodes_yields _).bind_eq, (intToStr_yields _).bind_eq]
  change (createXmlReply lib _ device _ .all >>= _) = _
  rw [createXmlReply_eq, answerTo, recorded]
  cases (answer root.label.name (((elements root).take 10).map entryOf)).reply lib device
    (decimalString msgNum.toInt) <;> rfl

theorem parseXml_yields (lib : Libxml2) (request : CString) :
    Yields (parseXml lib request)
      (match lib.xmlReadMemory (cutAtDelimiter request) with
        | none => (none, -1)
        | some document => (some document, 1)) := by
  apply (strdup_yields request).bind
  dsimp only
  cases lib.xmlReadMemory (cutAtDelimiter request) <;> exact Yields.pure

/-- The document a buffer holds: the text up to the first NUL and the first delimiter, parsed. -/
def documentOf (lib : Libxml2) (chunk : Chunk) : Option XmlDocument :=
  lib.xmlReadMemory (cutAtDelimiter (.ofBuffer chunk.bytes))

theorem documentOf_frame (lib : Libxml2) {text : CString} (h : text.bytes.length ≤ 1017)
    (hcut : before endOfMessage.bytes (text.bytes ++ endOfMessage.bytes) = text.bytes) :
    documentOf lib (frame text h) = lib.xmlReadMemory text := by
  have htext : cutAtDelimiter (.ofBuffer (frame text h).bytes) = text := by
    apply CString.ext
    rw [frame, ofBuffer_bytes, cutAtDelimiter]
    dsimp only
    rw [bytes_append]
    exact hcut
  rw [documentOf, htext]

theorem handleMessage_eq (lib : Libxml2) (chunk : Chunk) (device : Abcc) (msgNum : Int8) :
    handleMessage lib (.ofBuffer chunk.bytes) device msgNum .all =
      match documentOf lib chunk with
      | none => .ok (none, .all)
      | some .endless => .error .endlessRecursion
      | some (.tree root) =>
        ((answerTo root).reply lib device (decimalString msgNum.toInt)).map fun reply =>
          (some ⟨root, requestArray root, reply, (answerTo root).update device⟩, .all) := by
  rw [handleMessage, (parseXml_yields lib _).bind_eq, documentOf]
  cases lib.xmlReadMemory (cutAtDelimiter (.ofBuffer chunk.bytes)) with
  | none => rfl
  | some document =>
    dsimp only
    rw [if_neg (by decide), (deref_yields document).bind_eq]
    cases document with
    | endless => rfl
    | tree root =>
      change (answerRequest lib (some root) device msgNum .all >>= _) = _
      rw [answerRequest_eq]
      dsimp only
      cases (answerTo root).reply lib device (decimalString msgNum.toInt) <;> rfl

end NetconfServer.Networking
