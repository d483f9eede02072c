import NetconfServer.Library.Decimal
import NetconfServer.Library.Search
import NetconfServer.Networking.Replies
import NetconfServer.Parsing.Abcc
import NetconfServer.Parsing.KeyValuePairArray
import NetconfServer.Parsing.Libxml2

/-! # Parsing a request and choosing the reply

The functions of `parse.c`. A reply is one of the canned literals or a freshly allocated text, so
`Reply` says which pointer `create_xml_reply` returns; `Reply.text` is the string it points to.
-/

namespace NetconfServer.Parsing
open Memory CString Library Networking

def HELLO : CString := lit "hello"
def RPC : CString := lit "rpc"

def endOfMessage : CString := lit "]]>]]>"

/-- `strstr` for the end of the message, and the NUL written over its first byte. -/
def cutAtDelimiter (request : CString) : CString :=
  ⟨before endOfMessage.bytes request.bytes,
    fun h => request.noNul ((before_isPrefix _ _).subset h)⟩

/-- The document is the content of `*document`; `-1` is the return code of a failure. -/
def parseXml (lib : Libxml2) (request : CString) : Exec (Option XmlDocument × ℤ) := do
  match ← strdup request with
  | none => return (none, -1)
  | some copy =>
    match lib.xmlReadMemory (cutAtDelimiter copy) with
    | none => return (none, -1)
    | some document => return (some document, 1)

def extractXml (node : XmlNode) (array : KeyValuePairArray) : Exec KeyValuePairArray := do
  if node.label.type = .element then
    let value : Option CString := match node.children with
      | [] => none
      | child :: _ => if child.label.type = NodeType.text then some child.label.content else none
    let (kv, _) ← match value with
      | none => initKeyValuePair node.label.name none 0
      | some content =>
        initKeyValuePair node.label.name (some content.toBlock) (content.bytes.length + 1)
    let (array, _) ← addKeyValue array kv
    return array
  else return array

section Traverse
variable (xmlOperation : XmlNode → KeyValuePairArray → Exec KeyValuePairArray)

mutual

def traverseXml : XmlNode → KeyValuePairArray → Exec KeyValuePairArray
  | .node _ children, array => traverseSiblings children array

/-- The loop along `next`, started at a node's `children`. -/
def traverseSiblings : List XmlNode → KeyValuePairArray → Exec KeyValuePairArray
  | [], array => return array
  | child :: next, array => do
    let array ← xmlOperation child array
    let array ← traverseXml child array
    traverseSiblings next array

end

end Traverse

/-- Both pointers may be `NULL`. The guard asks for a name that is both words at once, so it never
fires. -/
def processXml (array : Option KeyValuePairArray) (node : Option XmlNode) :
    Exec (Option KeyValuePairArray × ℤ) := do
  match node, array with
  | some node, some array =>
    if node.label.name = HELLO ∧ node.label.name = RPC then return (some array, -1)
    else
      let (array, _) ← setRequestType node.label.name array
      let array ← traverseXml extractXml node array
      return (some array, 0)
  | _, array => return (array, -1)

def decimalString (num : ℤ) : CString :=
  ⟨decimal num, notMem_decimal (by decide) (by decide) num⟩

def intToStr (num : ℤ) : Exec CString := do
  if ← malloc then return decimalString num else fault .nullPointer

/-- The children that `xmlNewChild` gives a node for its content argument. -/
def contentNodes (lib : Libxml2) : Option CString → List XmlNode
  | none => []
  | some content => lib.xmlStringGetNodeList content

/-- The tree built around the stored address, innermost element first. -/
def responseDocument (lib : Libxml2) (ipAdr : Option CString) (msgNum : CString) : XmlNode :=
  let ipAddress := XmlNode.element (lit "IP_ADDRESS") [] (contentNodes lib ipAdr)
  let attributes := XmlNode.element (lit "attributes") [] [ipAddress]
  let abcc := XmlNode.element (lit "abcc") [(lit "xmlns", lit "urn:hms:abcc")] [attributes]
  let data := XmlNode.element (lit "data") [] [abcc]
  XmlNode.element (lit "rpc-reply")
    [(lit "xmlns", lit "urn:ietf:params:xml:ns:netconf:base:1.0"), (lit "message-id", msgNum)] [data]

def createNetconfResponse4 (lib : Libxml2) (ipAdr : Option CString) (msgNum : CString) :
    Exec CString := do
  let xmlBuff ← deref (lib.xmlDocDumpFormatMemory (responseDocument lib ipAdr msgNum))
  -- The output buffer is written without a check that it was granted.
  if ← malloc then return xmlBuff ++ endOfMessage else fault .nullPointer

inductive Reply where
  | hello
  | response1
  | response2
  | response3
  | response6
  /-- A text built by `create_netconf_response_4`. -/
  | data (text : CString)
  | empty
  deriving DecidableEq

def Reply.text : Reply → CString
  | .hello => NETCONF_HELLO
  | .response1 => NETCONF_RESPONSE_1
  | .response2 => NETCONF_RESPONSE_2
  | .response3 => NETCONF_RESPONSE_3
  | .response6 => NETCONF_RESPONSE_6
  | .data text => text
  | .empty => .empty

inductive Operation where
  | get
  | getSchema
  | editConfig
  | getConfig
  deriving DecidableEq

def Operation.name : Operation → CString
  | .get => lit "get"
  | .getSchema => lit "get-schema"
  | .editConfig => lit "edit-config"
  | .getConfig => lit "get-config"

/-- The four outer `get_key` tests of the `rpc` branch, in the order of the source. -/
def selectOperation (array : KeyValuePairArray) : Exec (Option Operation) := do
  if (← getKey array Operation.get.name) = SUCCESS then return some .get
  else if (← getKey array Operation.getSchema.name) = SUCCESS then return some .getSchema
  else if (← getKey array Operation.editConfig.name) = SUCCESS then return some .editConfig
  else if (← getKey array Operation.getConfig.name) = SUCCESS then return some .getConfig
  else return none

/-- The four branches for an `rpc`, and the fall-through past all of them. -/
def rpcReply (lib : Libxml2) (array : KeyValuePairArray) (device : Abcc) (messageId : CString) :
    Option Operation → Exec (Reply × Abcc)
  | some .get => do
    if (← getKey array (lit "netconf-state")) = SUCCESS then return (.response2, device)
    else if (← getKey array (lit "modules-state")) = SUCCESS then return (.response1, device)
    else
      let text ← createNetconfResponse4 lib device.ipAddress messageId
      return (.data text, device)
  | some .getSchema => return (.response1, device)
  | some .editConfig => do
    if (← getKey array (lit "running")) ≠ SUCCESS then
      let text ← createNetconfResponse4 lib device.ipAddress messageId
      return (.data text, device)
    else
      let (value, _) ← getValue array (lit "IP_ADDRESS") none
      let ip ← readPointer value
      -- The return code of the setter is not looked at.
      let (device, _) ← setIpAddress device ip
      return (.response6, device)
  | some .getConfig => return (.response3, device)
  | none => return (.empty, device)

def createXmlReply (lib : Libxml2) (array : KeyValuePairArray) (device : Abcc)
    (messageId : CString) : Exec (Reply × Abcc) := do
  let requestType ← deref (← array.requestType.read)
  if requestType = HELLO then return (.hello, device)
  else if requestType = RPC then rpcReply lib array device messageId (← selectOperation array)
  else return (.empty, device)

end NetconfServer.Parsing
