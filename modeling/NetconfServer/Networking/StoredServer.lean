import NetconfServer.Networking.Literal
import NetconfServer.Parsing.StoredRequest

/-! # The server in memory

The machine of `Server` with the heap: the state holds addresses, every step runs the code with
pointers. A misuse of the heap would be a fault that the machine without addresses does not have.
-/

namespace NetconfServer.Networking.Stored
open Memory CString Library Program Assertion Parsing.Stored
open Parsing (Libxml2 XmlNode Reply)

structure Answered where
  array : KeyValuePairArray
  document : ℕ
  msgNumStr : ℕ
  reply : ReplyPointer
  device : Abcc

/-- From `init_key_value_array` to `create_xml_reply`. -/
def answerRequest (lib : Libxml2) (root : NodePointer) (device : Abcc) (msgNum : Int8) :
    Run Block Answered := do
  let (array, _) ← initKeyValueArray .uninitialized 10
  let (array, _) ← processXml (some array) (some root)
  let array ← lift (deref array)
  let _ ← printAllNodes array
  let msgNumStr ← intToStr msgNum.toInt
  let (reply, device) ← createXmlReply lib array device msgNumStr
  return ⟨array, root.document, msgNumStr, reply, device⟩

/-- The loop body up to the reply. -/
def handleMessage (lib : Libxml2) (request : CString) (device : Abcc) (msgNum : Int8) :
    Run Block (Option Answered) := do
  let (document, result) ← parseXml lib request
  if result = -1 then return none
  else
    let document ← lift (deref document)
    match ← loadAs Block.asDocument document with
    | .endless => lift (fault .endlessRecursion)
    | .tree root =>
      let m ← answerRequest lib ⟨document, root⟩ device msgNum
      return some m

/-- What follows the write of a reply. -/
def cleanUp (array : KeyValuePairArray) (document msgNumStr : ℕ) : Run Block Unit := do
  let _ ← freeKeyValuePairArray array
  free (some document)
  free (some msgNumStr)

inductive Control where
  | accepting
  | handshaking
  | reading
  | writing (buf : List UInt8) (array : KeyValuePairArray) (document msgNumStr : ℕ)
  | closing
  | exited
  | returned
  | faulted (f : HeapFault Fault)

structure Server where
  control : Control
  msgNum : Int8
  device : Abcc
  ciphersuite : Printf.Argument
  memory : Heap Block × Supply

def Server.boot (memory : Heap Block × Supply) : Server :=
  { control := .accepting, msgNum := 0, device := ⟨none⟩, ciphersuite := ⟨[], []⟩, memory }

def Server.afterHandshake (s : Server) (ret : ℤ) (ciphersuite : Printf.Argument) : Server :=
  if ret = 0 then
    match initAbcc ⟨none⟩ s.memory with
    | .error f => { s with control := .faulted f }
    | .ok ((device, _), memory) => { control := .reading, msgNum := 0, device, ciphersuite, memory }
  else if ret = MBEDTLS_ERR_SSL_WANT_READ ∨ ret = MBEDTLS_ERR_SSL_WANT_WRITE then s
  else { s with control := .accepting }

def Server.afterReadError (s : Server) (ret : ℤ) : Server :=
  if ret = MBEDTLS_ERR_SSL_WANT_READ ∨ ret = MBEDTLS_ERR_SSL_WANT_WRITE then s
  else { s with control := .closing }

def Server.afterRead (lib : Libxml2) (s : Server) (chunk : Chunk) : Server :=
  match handleMessage lib (.ofBuffer chunk.bytes) s.device s.msgNum s.memory with
  | .error f => { s with control := .faulted f }
  | .ok (none, memory) => { s with control := .returned, memory }
  | .ok (some m, memory) =>
    let s := { s with device := m.device, memory }
    match (do lift (formatReply (← m.reply.read) s.ciphersuite) : Run Block _) s.memory with
    | .error f => { s with control := .faulted f }
    | .ok (buf, memory) =>
      { s with control := .writing buf m.array m.document m.msgNumStr, memory }

def Server.afterWrite (s : Server) (array : KeyValuePairArray) (document msgNumStr : ℕ) (ret : ℤ) :
    Server :=
  match writeTurn ret with
  | none => s
  | some result =>
    match cleanUp array document msgNumStr s.memory with
    | .error f => { s with control := .faulted f }
    | .ok (_, memory) =>
      { s with
        msgNum := s.msgNum + 1
        memory
        control := if result = RESET then .accepting else if result = EXIT then .exited else .reading }

def Server.afterCloseNotify (s : Server) (ret : ℤ) : Server :=
  if ret < 0 ∧ (ret = MBEDTLS_ERR_SSL_WANT_READ ∨ ret = MBEDTLS_ERR_SSL_WANT_WRITE) then s
  else { s with control := .accepting }

def step (lib : Libxml2) (s : Server) (o : Outcome) : Option Server :=
  match s.control, o with
  | .accepting, .accept ret =>
    some { s with control := if ret = 0 then .handshaking else .exited }
  | .handshaking, .handshake ret ciphersuite => some (s.afterHandshake ret ciphersuite)
  | .reading, .read chunk => some (s.afterRead lib chunk)
  | .reading, .readError ret => some (s.afterReadError ret)
  | .writing _ array document msgNumStr, .write ret =>
    some (s.afterWrite array document msgNumStr ret)
  | .closing, .closeNotify ret => some (s.afterCloseNotify ret)
  | _, _ => none

/-! ## One message -/

section Message
open Parsing (entryOf recorded elements firstValue entryArray Contents decimalString XmlDocument)
variable {counted : Prop} {n d : ℕ} {doc : XmlDocument} {s : Supply} {device : Abcc}
  {held : Parsing.Abcc} {root : XmlNode}

/-- What is held until a reply is written. -/
def heldAt (array : KeyValuePairArray) (document msgNumStr : ℕ) (r : Parsing.KeyValuePairArray) :
    Assertion Block :=
  ex fun x : (Contents 10 × Cell (Option CString)) × XmlDocument × CString =>
    fact (r = x.1.1.toArray x.1.2) * (contentsAt array x.1.1 x.1.2 *
      (cell document (.document x.2.1) * cell msgNumStr (.string x.2.2)))

/-- How many blocks the answer to a request leaves behind beside the reply itself: those of the pairs
that were dropped, and the address that an edit writes over. -/
def dropped (root : XmlNode) (reply : Reply) : ℕ :=
  2 * ((elements root).length - 10) + match reply with
    | .response6 => if (firstValue (lit "IP_ADDRESS") (recorded root)).isSome then 1 else 0
    | _ => 0

theorem overwritten_recorded (root : XmlNode) (reply : Reply) :
    2 * ((elements root).length - 10) +
        overwritten ((recorded root).map Parsing.KeyValuePair.ofEntry) reply = dropped root reply := by
  have hvalue : (storedValue ((recorded root).map Parsing.KeyValuePair.ofEntry)).isSome =
      (firstValue (lit "IP_ADDRESS") (recorded root)).isSome := by
    have hkey : ((fun kv : Parsing.KeyValuePair => decide (kv.key = some (lit "IP_ADDRESS"))) ∘
        Parsing.KeyValuePair.ofEntry) = fun e => decide (e.key = lit "IP_ADDRESS") := by
      funext e
      simp [Parsing.KeyValuePair.ofEntry]
    rw [storedValue, firstValue, List.find?_map, hkey, Option.isSome_map]
    cases (recorded root).find? (·.key = lit "IP_ADDRESS") <;> rfl
  cases reply <;> simp only [overwritten, dropped, hvalue]

/-- What an answer holds beside the reply, and what it leaves behind. -/
def messageAt (counted : Prop) (n : ℕ) (root : XmlNode) (a : Answered)
    (array : Parsing.KeyValuePairArray) (reply : Reply) (held : Parsing.Abcc) : Assertion Block :=
  replyAt a.reply reply * (heldAt a.array a.document a.msgNumStr array *
    (deviceAt a.device held * garbage counted (n + dropped root reply)))

theorem initWalk_simulates (R : Assertion Block) :
    Simulates (cell d (Block.document doc) * garbage counted n * R)
      (initKeyValueArray .uninitialized 10) (Parsing.initKeyValueArray .uninitialized 10)
      fun a r => walkAt counted 10 n d doc .unset [] a.1 r.1 * R := by
  apply (initKeyValueArray_simulates 10).within _ (one_mul _).symm
  intro a r f hf
  rw [← mul_assoc] at hf
  refine mul_mono (fun f hf => ?_) (fun _ => id) hf
  rw [Assertion.ex_mul] at hf
  obtain ⟨c, hf⟩ := hf
  rw [mul_assoc] at hf
  obtain ⟨⟨hr, -⟩, hf⟩ := fact_mul.mp hf
  exact ⟨c, fact_mul.mpr ⟨hr, hf⟩⟩

/-- From `print_all_nodes` on. -/
theorem finish_simulates (lib : Libxml2) (hheld : counted → held.ipAddress.isSome)
    (array : KeyValuePairArray) (c : Contents 10) (rt : Cell (Option CString)) (msgNum : ℤ) :
    Simulates (contentsAt array c rt * (cell d (Block.document doc) * garbage counted n) *
        deviceAt device held)
      (do
        let _ ← printAllNodes array
        let msgNumStr ← intToStr msgNum
        let (reply, device) ← createXmlReply lib array device msgNumStr
        return (⟨array, d, msgNumStr, reply, device⟩ : Answered))
      (do
        let _ ← Parsing.printAllNodes (c.toArray rt)
        let msgNumStr ← Parsing.intToStr msgNum
        let (reply, device) ← Parsing.createXmlReply lib (c.toArray rt) held msgNumStr
        return (c.toArray rt, reply, device))
      fun a r => replyAt a.reply r.2.1 * (heldAt a.array a.document a.msgNumStr r.1 *
        (deviceAt a.device r.2.2 * garbage counted (n + overwritten c.entries r.2.1))) := by
  rw [mul_assoc]
  refine ((printAllNodes_simulates array c rt).frame _).bind fun _ _ => ?_
  rw [mul_assoc]
  apply Simulates.fact
  intro _
  refine (intToStr_simulates msgNum).bind fun m messageId => ?_
  have hsplit (D C G : Assertion Block) : cell m (.string messageId) *
      (contentsAt array c rt * (C * G * D)) =
        contentsAt array c rt * (D * cell m (.string messageId)) * G * C := by
    ac_rfl
  rw [hsplit]
  refine ((createXmlReply_simulates lib hheld).frame _).bind fun a r => ?_
  refine .pure fun f hf => ?_
  have hparts (L K D M G C : Assertion Block) :
      L * (K * (D * M) * G) * C = L * (K * (C * M) * (D * G)) := by
    ac_rfl
  rw [answeredAt, requestAt, hparts] at hf
  exact mul_mono (fun _ => id) (fun f hf => mul_mono
    (fun f hf => ⟨((c, rt), doc, messageId), fact_mul.mpr ⟨rfl, hf⟩⟩) (fun _ => id) hf) hf

theorem entries_of_toArray {cap : ℕ} {c : Contents cap} {l : List Parsing.KeyValuePair}
    {rt rt' : Cell (Option CString)} (h : c.toArray rt = Parsing.KeyValuePairArray.holding cap l rt') :
    c.entries = l := by
  cases c with
  | refused => cases h
  | granted pairs =>
    obtain ⟨hdata, hsize, -, -⟩ := Parsing.KeyValuePairArray.mk.inj h
    have hlength : pairs.entries.length = l.length := Cell.set.inj hsize
    have hslots := (List.append_inj (Option.some.inj (Cell.set.inj hdata)) (by simpa using hlength)).1
    exact List.map_injective_iff.mpr (fun _ _ => Cell.set.inj) hslots

theorem answerRequest_simulates (lib : Libxml2) (hs : counted → s = .all)
    (hheld : counted → held.ipAddress.isSome) (msgNum : Int8) :
    SimulatesAt s
      (cell d (.document doc) * garbage counted n * deviceAt device held)
      (answerRequest lib ⟨d, root⟩ device msgNum)
      (Networking.answerRequest lib (some root) held msgNum)
      fun a r => messageAt counted n root a r.1 r.2.1 r.2.2 := by
  refine (initWalk_simulates _ s).bind fun a₁ r₁ s₁ hinit => ?_
  have hfresh : Walked counted 10 .unset [] s₁ r₁.1 := by
    intro hcounted
    obtain rfl := hs hcounted
    have hyields := Parsing.initKeyValueArray_yields .uninitialized 10
    rw [Yields, hinit] at hyields
    cases hyields
    exact ⟨rfl, rfl⟩
  refine ((processXml_simulates hfresh root a₁.1).frame _).bind fun a₂ r₂ s₂ hprocess => ?_
  rw [Assertion.ex_mul]
  apply SimulatesAt.ex
  rintro ⟨array, r, copy⟩
  rw [mul_assoc]
  apply SimulatesAt.fact
  rintro ⟨rfl, hr⟩
  obtain ⟨_, code⟩ := r₂
  obtain rfl : _ = some r := hr
  simp only [deref_some, lift_pure, pure_bind]
  rw [walkAt, Assertion.ex_mul]
  apply SimulatesAt.ex
  intro c
  rw [mul_assoc]
  apply SimulatesAt.fact
  rintro rfl
  have hentries : counted → c.entries = (recorded root).map Parsing.KeyValuePair.ofEntry := by
    intro hcounted
    obtain ⟨rfl, hempty⟩ := hfresh hcounted
    have hyields := @Parsing.processXml_yields .unset root 10
    rw [List.take_nil] at hempty
    rw [hempty] at hprocess
    rw [Yields, hprocess] at hyields
    exact entries_of_toArray (Option.some.inj (Prod.mk.inj (Prod.mk.inj (Except.ok.inj hyields)).1).1)
  refine (finish_simulates lib hheld array c (.set copy) msgNum.toInt s₂).post fun a r f hf => ?_
  refine mul_mono (fun _ => id) (fun f hf => mul_mono (fun _ => id) (fun f hf => mul_mono
    (fun _ => id) (fun f => garbage_congr fun hcounted => ?_) hf) hf) hf
  rw [hentries hcounted, Nat.add_assoc, entriesOf, List.length_map, ← elements]
  exact congrArg (n + ·) (overwritten_recorded root r.2.1)

/-- What a message leaves: nothing new where it does not parse. -/
def handledAt (counted : Prop) (n : ℕ) (device : Abcc) (held : Parsing.Abcc) :
    Option Answered → Option Networking.Answered → Assertion Block
  | none, none => garbage counted n * deviceAt device held
  | some a, some m => messageAt counted n m.root a m.array m.reply m.device
  | _, _ => fact False

theorem handleMessage_simulates (lib : Libxml2) (hs : counted → s = .all)
    (hheld : counted → held.ipAddress.isSome) (request : CString) (msgNum : Int8) :
    SimulatesAt s (garbage counted n * deviceAt device held)
      (handleMessage lib request device msgNum)
      (Networking.handleMessage lib request held msgNum)
      (handledAt counted n device held) := by
  refine (parseXml_simulates lib request s).bind fun ⟨document, result⟩ r s₁ hparse => .fact ?_
  rintro ⟨rfl, hnone⟩
  have hs₁ : counted → s₁ = .all := by
    intro hcounted
    obtain rfl := hs hcounted
    exact (Prod.mk.inj (Except.ok.inj (hparse.symm.trans (parseXml_yields lib request)))).2
  dsimp only
  by_cases hresult : r.2 = -1
  · rw [if_pos hresult, if_pos hresult, hnone hresult]
    exact .fact fun _ => .pure fun _ => id
  · rw [if_neg hresult, if_neg hresult]
    obtain ⟨value, code⟩ := r
    cases value with
    | none =>
      apply SimulatesAt.fact
      rintro rfl
      exact Simulates.abort (fun _ _ => rfl) (fun _ => rfl) s₁
    | some doc =>
      rw [documentAt, Option.map_some, targetAt, Assertion.ex_mul]
      apply SimulatesAt.ex
      intro d
      rw [mul_assoc]
      apply SimulatesAt.fact
      rintro rfl
      simp only [deref_some, lift_pure, pure_bind]
      refine (load_document s₁).left fun a => .fact fun ha => ?_
      subst ha
      cases a with
      | endless => exact Simulates.abort (fun _ _ => rfl) (fun _ => rfl) s₁
      | tree root =>
        rw [← mul_assoc]
        exact (answerRequest_simulates lib hs₁ hheld msgNum).bind
          fun a r _ _ => .pure fun _ => id

theorem cleanUp_simulates (array : KeyValuePairArray) (d m : ℕ) (r : Parsing.KeyValuePairArray)
    (R : Assertion Block) :
    Simulates (heldAt array d m r * R) (cleanUp array d m) (Parsing.freeKeyValuePairArray r)
      fun _ _ => R := by
  apply Simulates.ex_mul
  rintro ⟨⟨c, rt⟩, doc, messageId⟩
  rw [mul_assoc]
  apply Simulates.fact
  rintro rfl
  rw [mul_assoc, ← bind_pure (Parsing.freeKeyValuePairArray _)]
  refine ((freeKeyValuePairArray_simulates array c rt).frame _).bind fun _ _ => .fact fun _ => ?_
  rw [mul_assoc]
  apply Simulates.free
  rw [← bind_pure (free _)]
  apply Simulates.free
  exact .pure fun _ => id

theorem format_simulates (p : ReplyPointer) (reply : Reply) (ciphersuite : Printf.Argument)
    (R : Assertion Block) :
    Simulates (replyAt p reply * (R * garbage counted n))
      (do lift (formatReply (← p.read) ciphersuite)) (formatReply reply.text ciphersuite)
      fun a b => fact (a = b) * (R * garbage counted (n + built reply)) := by
  apply read_reply
  refine (Simulates.lifted _).post fun a b f hf => mul_mono (fun _ => id) (fun f hf => ?_) hf
  rw [mul_left_comm] at hf
  exact mul_mono (fun _ => id) (fun _ => garbage_mul fun _ => owns_replyAt p reply) hf

end Message

/-! ## The machine -/

/-- The two control states are the same, and `held` is what is kept for them in memory. -/
inductive Matches : Control → Networking.Control → Assertion Block → Prop where
  | accepting : Matches .accepting .accepting 1
  | handshaking : Matches .handshaking .handshaking 1
  | reading : Matches .reading .reading 1
  | writing (buf : List UInt8) (array : KeyValuePairArray) (document msgNumStr : ℕ)
      (r : Parsing.KeyValuePairArray) :
      Matches (.writing buf array document msgNumStr) (.writing buf r)
        (heldAt array document msgNumStr r)
  | closing : Matches .closing .closing 1
  | exited : Matches .exited .exited 1
  | returned : Matches .returned .returned 1

/-- The blocks that an event leaves behind for good. -/
def unreleased : Event → ℕ
  | .session => 1
  | .exchange e => dropped e.root e.reply + built e.reply

def ledger (log : List Event) : ℕ := (log.map unreleased).sum

structure Working (counted : Prop) (held : Assertion Block) (s' : Server) (s : Networking.Server) :
    Prop where
  msgNum : s'.msgNum = s.msgNum
  ciphersuite : s'.ciphersuite = s.ciphersuite
  supply : s'.memory.2 = s.supply
  granted : counted → s.supply = .all
  memory : ∃ n, (counted → n + blocks s.device.ipAddress = ledger s.log) ∧
    (held * (garbage counted n * deviceAt s'.device s.device) : Assertion Block) s'.memory.1.cells

def InSession : Networking.Control → Prop
  | .reading | .writing _ _ | .closing => True
  | _ => False

/-- The server in memory is the server, and when it is `counted` every block of its heap is known to
the log. A fault of the one is a fault of the code in the other. -/
inductive Tracks (counted : Prop) (s' : Server) (s : Networking.Server) : Prop where
  | working (held : Assertion Block) (hcontrol : Matches s'.control s.control held)
      (h : Working counted held s' s)
      (hdevice : counted → InSession s.control → s.device.ipAddress.isSome)
  | faulted (f : Fault) (hcontrol' : s'.control = .faulted (.code f))
      (hcontrol : s.control = .faulted f)

variable {counted : Prop} {s' : Server} {s : Networking.Server} {held : Assertion Block}

theorem Working.control (h : Working counted held s' s) (c' : Control) (c : Networking.Control) :
    Working counted held { s' with control := c' } { s with control := c } :=
  ⟨h.msgNum, h.ciphersuite, h.supply, h.granted, h.memory⟩

theorem ledger_append (log : List Event) (e : Event) :
    ledger (log ++ [e]) = ledger log + unreleased e := by
  rw [ledger, ledger, List.map_append, List.sum_append, List.map_singleton, List.sum_singleton]

/-- A new session overwrites the address of the one before. -/
theorem afterHandshake_tracks (h : Working counted 1 s' s) (hcontrol' : s'.control = .handshaking)
    (hcontrol : s.control = .handshaking) (ret : ℤ) (ciphersuite : Printf.Argument) :
    Tracks counted (s'.afterHandshake ret ciphersuite) (s.afterHandshake ret ciphersuite) := by
  rw [Server.afterHandshake, Networking.Server.afterHandshake]
  split_ifs
  · obtain ⟨control', msgNum, device', ciphersuite', heap, supply⟩ := s'
    obtain ⟨control, _, device, _, _, log⟩ := s
    obtain ⟨rfl, rfl, rfl, hgranted, n, hn, hmem⟩ := h
    rw [one_mul] at hmem
    have hinit := (initAbcc_simulates ⟨none⟩ ⟨none⟩ supply).run hmem
    dsimp only
    cases hy : Parsing.initAbcc ⟨none⟩ supply with
    | error f =>
      rw [hy] at hinit
      rw [hinit]
      exact .faulted f rfl rfl
    | ok r =>
      obtain ⟨⟨new, code⟩, supply'⟩ := r
      rw [hy] at hinit
      obtain ⟨⟨address, code'⟩, heap', hx, hmem⟩ := hinit
      obtain ⟨-, hmem⟩ := fact_mul.mp hmem
      have hall : counted → supply' = .all ∧ new = ⟨some Parsing.initialAddress⟩ := by
        intro hcounted
        obtain rfl : supply = .all := hgranted hcounted
        cases hy.symm.trans (Parsing.initAbcc_yields ⟨none⟩)
        exact ⟨rfl, rfl⟩
      have hnew : (1 * (garbage counted (n + blocks device.ipAddress) * deviceAt address new) :
          Assertion Block) heap'.cells := by
        rw [one_mul, mul_comm]
        refine mul_mono (fun _ => id) (fun f hf => ?_) hmem
        rw [mul_comm] at hf
        exact garbage_mul (fun _ => owns_stringAt _ _) hf
      rw [hx]
      refine .working 1 .reading ⟨rfl, rfl, rfl, fun hcounted => (hall hcounted).1, _, ?_, hnew⟩
        fun hcounted _ => by rw [(hall hcounted).2]; rfl
      intro hcounted
      dsimp only
      rw [ledger_append, (hall hcounted).2, hn hcounted]
      rfl
  · exact .working 1 (by rw [hcontrol', hcontrol]; exact .handshaking) h
      fun _ hsession => by rw [hcontrol] at hsession; exact hsession.elim
  · exact .working 1 .accepting (h.control _ _) fun _ hsession => hsession.elim

theorem isSome_update (root : XmlNode) {held : Parsing.Abcc}
    (h : held.ipAddress.isSome) : ((Parsing.answerTo root).update held).ipAddress.isSome := by
  rw [Parsing.update_eq]
  cases Parsing.writtenAddress root with
  | none => exact h
  | some value => rfl

theorem handleMessage_granted {lib : Libxml2} {chunk : Chunk} {held : Parsing.Abcc} {msgNum : Int8}
    {m : Option Networking.Answered} {supply : Supply} (hheld : held.ipAddress.isSome)
    (h : Networking.handleMessage lib (.ofBuffer chunk.bytes) held msgNum .all = .ok (m, supply)) :
    supply = .all ∧ ∀ a, m = some a → a.device.ipAddress.isSome := by
  rw [handleMessage_eq] at h
  cases hdocument : documentOf lib chunk with
  | none =>
    rw [hdocument] at h
    cases h
    exact ⟨rfl, fun a ha => by cases ha⟩
  | some document =>
    rw [hdocument] at h
    cases document with
    | endless => cases h
    | tree root =>
      dsimp only at h
      cases hreply : (Parsing.answerTo root).reply lib held (Parsing.decimalString msgNum.toInt) with
      | error f =>
        rw [hreply] at h
        cases h
      | ok reply =>
        rw [hreply] at h
        cases h
        refine ⟨rfl, fun a ha => ?_⟩
        cases ha
        exact isSome_update root hheld

/-- A message is answered, and what it drops and builds is left behind. -/
theorem afterRead_tracks (lib : Libxml2) (h : Working counted 1 s' s)
    (hdevice : counted → s.device.ipAddress.isSome) (chunk : Chunk) :
    Tracks counted (s'.afterRead lib chunk) (s.afterRead lib chunk) := by
  rw [Server.afterRead, Networking.Server.afterRead]
  obtain ⟨control', msgNum, device', ciphersuite, heap, supply⟩ := s'
  obtain ⟨control, _, device, _, _, log⟩ := s
  obtain ⟨rfl, rfl, rfl, hgranted, n, hn, hmem⟩ := h
  rw [one_mul] at hmem
  have hhandle := (handleMessage_simulates lib hgranted hdevice (.ofBuffer chunk.bytes) msgNum).run hmem
  dsimp only
  cases hy : Networking.handleMessage lib (.ofBuffer chunk.bytes) device msgNum supply with
  | error f =>
    rw [hy] at hhandle
    rw [hhandle]
    exact .faulted f rfl rfl
  | ok r =>
    obtain ⟨m, supply₁⟩ := r
    rw [hy] at hhandle
    obtain ⟨a, heap₁, hx, hmem₁⟩ := hhandle
    have hknown : counted → supply₁ = .all ∧ ∀ a, m = some a → a.device.ipAddress.isSome := by
      intro hcounted
      obtain rfl : supply = .all := hgranted hcounted
      exact handleMessage_granted (hdevice hcounted) hy
    rw [hx]
    cases m with
    | none =>
      cases a with
      | some a => exact hmem₁.1.elim
      | none =>
        exact .working 1 .returned ⟨rfl, rfl, rfl, fun hcounted => (hknown hcounted).1, n, hn,
          by rwa [one_mul]⟩ fun _ hsession => hsession.elim
    | some m =>
      cases a with
      | none => exact hmem₁.1.elim
      | some a =>
        dsimp only
        have hparts : messageAt counted n m.root a m.array m.reply m.device =
            replyAt a.reply m.reply * (heldAt a.array a.document a.msgNumStr m.array *
              deviceAt a.device m.device * garbage counted (n + dropped m.root m.reply)) := by
          rw [messageAt, mul_assoc (heldAt _ _ _ _)]
        rw [handledAt, hparts] at hmem₁
        have hformat := (format_simulates a.reply m.reply ciphersuite _ supply₁).run hmem₁
        cases hy₂ : formatReply m.reply.text ciphersuite supply₁ with
        | error f =>
          rw [hy₂] at hformat
          rw [hformat]
          exact .faulted f rfl rfl
        | ok r =>
          obtain ⟨buf, supply₂⟩ := r
          rw [hy₂] at hformat
          obtain ⟨buf', heap₂, hx₂, hformatted⟩ := hformat
          obtain ⟨rfl, hmem₂⟩ := fact_mul.mp hformatted
          obtain ⟨-, -, rfl⟩ := formatReply_eq_ok.mp hy₂
          rw [mul_assoc, mul_comm (deviceAt _ _)] at hmem₂
          rw [hx₂]
          refine .working _ (.writing _ _ _ _ _)
            ⟨rfl, rfl, rfl, fun hcounted => (hknown hcounted).1, _, fun hcounted => ?_, hmem₂⟩
            fun hcounted _ => (hknown hcounted).2 m rfl
          dsimp only
          rw [ledger_append, blocks, if_pos ((hknown hcounted).2 m rfl), ← hn hcounted,
            blocks, if_pos (hdevice hcounted)]
          change _ = n + 1 + (dropped m.root m.reply + built m.reply)
          omega

theorem freeKeyValuePairArray_steady (r : Parsing.KeyValuePairArray) :
    Steady (Parsing.freeKeyValuePairArray r) := by
  have hloop (todo i : ℕ) : Steady (Parsing.forSlots r (fun _ => return ()) todo i) := by
    induction todo generalizing i with
    | zero => exact .pure _
    | succ todo ih => exact (slot_steady r i).bind fun _ => (Steady.pure _).bind fun _ => ih (i + 1)
  exact r.size.read_steady.bind fun _ => (hloop _ _).bind fun _ =>
    r.requestType.read_steady.bind fun _ => r.data.read_steady.bind fun _ => .pure _

/-- After a write everything that was held for the message is released. -/
theorem afterWrite_tracks {array : KeyValuePairArray} {d m : ℕ} {r : Parsing.KeyValuePairArray}
    {buf : List UInt8} (hcontrol' : s'.control = .writing buf array d m)
    (hcontrol : s.control = .writing buf r) (h : Working counted (heldAt array d m r) s' s)
    (hdevice : counted → s.device.ipAddress.isSome) (ret : ℤ) :
    Tracks counted (s'.afterWrite array d m ret) (s.afterWrite r ret) := by
  rw [Server.afterWrite, Networking.Server.afterWrite]
  cases writeTurn ret with
  | none =>
    exact .working _ (by rw [hcontrol', hcontrol]; exact .writing buf array d m r) h
      fun hcounted _ => hdevice hcounted
  | some result =>
    obtain ⟨control', msgNum, device', ciphersuite, heap, supply⟩ := s'
    obtain ⟨control, _, device, _, _, log⟩ := s
    obtain ⟨rfl, rfl, rfl, hgranted, n, hn, hmem⟩ := h
    have hfree := (cleanUp_simulates array d m r _ supply).run hmem
    dsimp only
    cases hy : Parsing.freeKeyValuePairArray r supply with
    | error f =>
      rw [hy] at hfree
      rw [hfree]
      exact .faulted f rfl rfl
    | ok x =>
      obtain ⟨code, supply₁⟩ := x
      rw [hy] at hfree
      obtain ⟨_, heap₁, hx, hmem₁⟩ := hfree
      rw [hx]
      have hsteady : supply₁ = supply := freeKeyValuePairArray_steady r hy
      have hworking (c' : Control) (c : Networking.Control) : Working counted 1
          ⟨c', msgNum + 1, device', ciphersuite, heap₁, supply₁⟩
          ⟨c, msgNum + 1, device, ciphersuite, supply₁, log⟩ :=
        ⟨rfl, rfl, rfl, fun hcounted => hsteady.trans (hgranted hcounted), n, hn, by rwa [one_mul]⟩
      dsimp only
      split_ifs
      · exact .working 1 .accepting (hworking _ _) fun _ hsession => hsession.elim
      · exact .working 1 .exited (hworking _ _) fun _ hsession => hsession.elim
      · exact .working 1 .reading (hworking _ _) fun hcounted _ => hdevice hcounted

/-- What one step does, misuses of the heap included, is what the step without addresses does. -/
theorem step_tracks (lib : Libxml2) (h : Tracks counted s' s) (o : Outcome) :
    Option.Rel (Tracks counted) (step lib s' o) (Networking.step lib s o) := by
  obtain ⟨control', msgNum', device', ciphersuite', memory'⟩ := s'
  obtain ⟨control, msgNum, device, ciphersuite, supply, log⟩ := s
  cases h with
  | faulted f hcontrol' hcontrol =>
    obtain rfl : control' = .faulted (.code f) := hcontrol'
    obtain rfl : control = .faulted f := hcontrol
    exact .none
  | working held hcontrol h hdevice =>
    dsimp only at hcontrol
    cases hcontrol with
    | accepting =>
      cases o with
      | accept ret =>
        refine .some ?_
        dsimp only
        split_ifs
        · exact .working 1 .handshaking (h.control _ _) fun _ hsession => hsession.elim
        · exact .working 1 .exited (h.control _ _) fun _ hsession => hsession.elim
      | _ => exact .none
    | handshaking =>
      cases o with
      | handshake ret ciphersuite => exact .some (afterHandshake_tracks h rfl rfl ret ciphersuite)
      | _ => exact .none
    | reading =>
      cases o with
      | read chunk =>
        exact .some (afterRead_tracks lib h (fun hcounted => hdevice hcounted trivial) chunk)
      | readError ret =>
        refine .some ?_
        rw [Server.afterReadError, Networking.Server.afterReadError]
        split_ifs
        · exact .working 1 .reading h hdevice
        · exact .working 1 .closing (h.control _ _) fun hcounted _ => hdevice hcounted trivial
      | _ => exact .none
    | writing buf array d m r =>
      cases o with
      | write ret =>
        exact .some (afterWrite_tracks rfl rfl h (fun hcounted => hdevice hcounted trivial) ret)
      | _ => exact .none
    | closing =>
      cases o with
      | closeNotify ret =>
        refine .some ?_
        rw [Server.afterCloseNotify, Networking.Server.afterCloseNotify]
        split_ifs
        · exact .working 1 .closing h hdevice
        · exact .working 1 .accepting (h.control _ _) fun _ hsession => hsession.elim
      | _ => exact .none
    | exited => cases o <;> exact .none
    | returned => cases o <;> exact .none

theorem boot_tracks (heap : Heap Block) (supply : Supply)
    (hcounted : counted → heap.cells = .empty ∧ supply = .all) :
    Tracks counted (.boot (heap, supply)) (.boot supply) := by
  refine .working 1 .accepting ⟨rfl, rfl, rfl, fun h => (hcounted h).2, 0, fun _ => rfl, ?_⟩
    fun _ hsession => hsession.elim
  have hnothing : deviceAt ⟨none⟩ ⟨none⟩ = (1 : Assertion Block) := targetAt_null
  rw [one_mul, Server.boot, Networking.Server.boot, hnothing, mul_one]
  intro h
  rw [(hcounted h).1]
  exact Fragment.size_empty

theorem run_tracks (lib : Libxml2) (h : Tracks counted s' s) (os : List Outcome) :
    Option.Rel (Tracks counted) (Machine.run (step lib) s' os)
      (Machine.run (Networking.step lib) s os) :=
  Machine.run_lockstep (fun _ _ o h => step_tracks lib h o) h os

theorem run_tracks_some {lib : Libxml2} {os : List Outcome} {t : Networking.Server}
    (h : Tracks counted s' s) (hrun : Machine.run (Networking.step lib) s os = some t) :
    ∃ t', Machine.run (step lib) s' os = some t' ∧ Tracks counted t' t := by
  have htracks := run_tracks lib h os
  rw [hrun] at htracks
  exact Machine.exists_of_rel_some_right htracks

/-! ## What is seen from outside -/

inductive Phase where
  | accepting
  | handshaking
  | reading
  | writing (buf : List UInt8)
  | closing
  | exited
  | returned
  | faulted (f : HeapFault Fault)

def Control.phase : Control → Phase
  | accepting => .accepting
  | handshaking => .handshaking
  | reading => .reading
  | writing buf _ _ _ => .writing buf
  | closing => .closing
  | exited => .exited
  | returned => .returned
  | faulted f => .faulted f

/-- A server without addresses knows no faults but those of the code. -/
def phaseOf : Networking.Control → Phase
  | .accepting => .accepting
  | .handshaking => .handshaking
  | .reading => .reading
  | .writing buf _ => .writing buf
  | .closing => .closing
  | .exited => .exited
  | .returned => .returned
  | .faulted f => .faulted (.code f)

/-- The string that `device.IP_ADDRESS` points to. -/
def Server.address (s : Server) : Option CString :=
  s.device.ipAddress.bind fun p => (s.memory.1.cells p).bind Block.asString

theorem Matches.phase {c' : Control} {c : Networking.Control} (h : Matches c' c held) :
    c'.phase = phaseOf c := by
  cases h <;> rfl

theorem Working.address (h : Working counted held s' s) : s'.address = s.device.ipAddress := by
  obtain ⟨n, -, hmem⟩ := h.memory
  rw [mul_comm (garbage _ _), mul_left_comm] at hmem
  obtain ⟨g, k, -, hcells, hg, -⟩ := hmem
  rw [Server.address]
  rw [deviceAt, stringAt] at hg
  cases hheld : s.device.ipAddress with
  | none =>
    rw [hheld] at hg
    rw [hg.1]
    rfl
  | some address =>
    rw [hheld] at hg
    obtain ⟨p, hg⟩ := hg
    obtain ⟨hp, rfl⟩ := fact_mul.mp hg
    rw [hp, Option.bind_some, Heap.cells_of_union hcells]
    rfl

theorem Tracks.phase (h : Tracks counted s' s) : s'.control.phase = phaseOf s.control := by
  cases h with
  | working held hcontrol => exact hcontrol.phase
  | faulted f hcontrol' hcontrol =>
    rw [hcontrol', hcontrol]
    rfl

theorem Tracks.reading_iff (h : Tracks counted s' s) :
    s'.control = .reading ↔ s.control = .reading := by
  have hphase := h.phase
  constructor
  · intro hcontrol
    rw [hcontrol] at hphase
    cases hc : s.control with
    | reading => rfl
    | _ =>
      rw [hc] at hphase
      cases hphase
  · intro hcontrol
    rw [hcontrol] at hphase
    cases hc : s'.control with
    | reading => rfl
    | _ =>
      rw [hc] at hphase
      cases hphase

theorem Tracks.faulted_iff (h : Tracks counted s' s) {f : HeapFault Fault} :
    s'.control = .faulted f ↔ ∃ f', f = .code f' ∧ s.control = .faulted f' := by
  have hphase := h.phase
  constructor
  · intro hcontrol
    rw [hcontrol] at hphase
    cases hc : s.control with
    | faulted f' =>
      rw [hc] at hphase
      cases hphase
      exact ⟨f', rfl, rfl⟩
    | _ =>
      rw [hc] at hphase
      cases hphase
  · rintro ⟨f', rfl, hcontrol⟩
    rw [hcontrol] at hphase
    cases hc : s'.control with
    | faulted f =>
      rw [hc] at hphase
      cases hphase
      rfl
    | _ =>
      rw [hc] at hphase
      cases hphase

theorem Tracks.exists_faulted_iff (h : Tracks counted s' s) :
    (∃ f, s'.control = .faulted f) ↔ ∃ f, s.control = .faulted f := by
  constructor
  · rintro ⟨f, hf⟩
    obtain ⟨f', -, hf'⟩ := h.faulted_iff.mp hf
    exact ⟨f', hf'⟩
  · rintro ⟨f, hf⟩
    exact ⟨.code f, h.faulted_iff.mpr ⟨f, rfl, hf⟩⟩

/-- Whatever is refused and whatever is on the heap before, the server in memory goes through the
phases of the server without addresses and stores the same address. So it never uses a block that it
does not hold, releases none twice and takes none for one of another kind: it stops by faults of the
code alone. -/
theorem server_refines (lib : Libxml2) (heap : Heap Block) (supply : Supply) (os : List Outcome) :
    (Machine.run (step lib) (.boot (heap, supply)) os).map (fun t => t.control.phase) =
        (Machine.run (Networking.step lib) (.boot supply) os).map (fun t => phaseOf t.control) ∧
      ∀ t' t, Machine.run (step lib) (.boot (heap, supply)) os = some t' →
        Machine.run (Networking.step lib) (.boot supply) os = some t →
        (∀ f, t.control ≠ .faulted f) →
        t'.msgNum = t.msgNum ∧ t'.memory.2 = t.supply ∧ t'.address = t.device.ipAddress := by
  have hrun := run_tracks lib (@boot_tracks False heap supply False.elim) os
  generalize Machine.run (step lib) (.boot (heap, supply)) os = r',
    Machine.run (Networking.step lib) (.boot supply) os = r at hrun ⊢
  cases hrun with
  | none => exact ⟨rfl, fun t' t h => by cases h⟩
  | some htracks =>
    refine ⟨congrArg some htracks.phase, ?_⟩
    rintro _ _ ⟨⟩ ⟨⟩ hworks
    cases htracks with
    | faulted f _ hcontrol => exact absurd hcontrol (hworks f)
    | working held _ h => exact ⟨h.msgNum, h.supply, h.address⟩

/-- The blocks that a reply still to be written keeps: the slots and the request type, two for each
stored pair, the document and the message number. -/
def keptBlocks : Networking.Control → ℕ
  | .writing _ array => match array.size with
    | .set stored => 2 * stored + 4
    | .unset => 0
  | _ => 0

theorem sum_blocks (es : List Parsing.Entry) :
    ((es.map Parsing.KeyValuePair.ofEntry).map fun kv => blocks kv.key + blocks kv.value).sum =
      2 * es.length := by
  induction es with
  | nil => rfl
  | cons e es ih =>
    rw [List.map_cons, List.map_cons, List.sum_cons, ih, List.length_cons]
    change 1 + 1 + _ = _
    omega

theorem owns_heldAt (array : KeyValuePairArray) (d m : ℕ) (root : XmlNode) :
    Owns (heldAt array d m (requestArray root)) (2 * (Parsing.recorded root).length + 4) := by
  refine .ex fun x => .fact_mul fun hr => ?_
  obtain ⟨⟨c, rt⟩, doc, messageId⟩ := x
  dsimp only at hr ⊢
  have hrt := congrArg Parsing.KeyValuePairArray.requestType hr
  rw [Parsing.Contents.toArray_requestType] at hrt
  subst hrt
  have howns := (owns_contentsAt array c (some root.label.name)).mul
    ((Owns.cell d (Block.document doc)).mul (Owns.cell m (Block.string messageId)))
  have hentries := entries_of_toArray hr.symm
  cases c with
  | refused => cases hr
  | granted pairs =>
    change pairs.entries = _ at hentries
    have hcount : 2 * (Parsing.recorded root).length + 4 =
        1 + (1 + 2 * (Parsing.recorded root).length) + (1 + 1) := by
      omega
    rw [Contents.blocks, hentries, sum_blocks] at howns
    rw [hcount]
    exact howns

theorem Matches.owns {c' : Control} {c : Networking.Control} (h : Matches c' c held)
    (hsound : ∀ buf array, c = .writing buf array → ∃ root, array = requestArray root) :
    Owns held (keptBlocks c) := by
  cases h with
  | writing buf array d m r =>
    obtain ⟨root, rfl⟩ := hsound buf r rfl
    have howns := owns_heldAt array d m root
    have hkept : keptBlocks (.writing buf (requestArray root)) =
        2 * (Parsing.recorded root).length + 4 := by
      change 2 * List.length _ + 4 = _
      rw [List.length_map]
    rwa [hkept]
  | _ => exact .one

/-- With all memory granted, what is allocated in any state that a run reaches is known to the log:
one block for each session, two for each element after the tenth of each message, one for each reply
that was built and each address that was written over, and what the reply still to be written keeps.
Nothing else is allocated and nothing of it is ever released. -/
theorem live_blocks {lib : Libxml2} {os : List Outcome} {t' : Server}
    (hrun : Machine.run (step lib) (.boot (.empty, .all)) os = some t')
    (hworks : ∀ f, t'.control ≠ .faulted f) :
    ∃ t, Machine.run (Networking.step lib) (.boot .all) os = some t ∧
      t'.memory.1.cells.size = (ledger t.log + keptBlocks t.control : ℕ) := by
  have htracks := run_tracks lib (@boot_tracks True .empty .all fun _ => ⟨rfl, rfl⟩) os
  rw [hrun] at htracks
  cases ht : Machine.run (Networking.step lib) (.boot .all) os with
  | none => simp [ht] at htracks
  | some t =>
    rw [ht, Option.rel_some_some] at htracks
    refine ⟨t, rfl, ?_⟩
    have hsound : Sound t := run_move_invariant boot_sound (fun _ _ _ hs hm => hm.sound hs) ht
    cases htracks with
    | faulted f hcontrol' => exact absurd hcontrol' (hworks _)
    | working held hcontrol h _ =>
      obtain ⟨n, hn, hmem⟩ := h.memory
      have hgarbage : Owns (garbage True n : Assertion Block) n := fun f hf => hf trivial
      have hdevice : Owns (deviceAt t'.device t.device) _ := owns_stringAt _ _
      have howns := (hcontrol.owns hsound.array).mul (hgarbage.mul hdevice)
      rw [howns _ hmem, hn trivial, add_comm]

/-- After an edit and a read three blocks are left: the address of the session, written over by that of
the edit, which is held, and the reply to the read. -/
theorem live_blocks_sample :
    ∃ t', Machine.run (step (sampleLibxml2 sampleAddress)) (.boot (.empty, .all)) editThenRead =
      some t' ∧ t'.memory.1.cells.size = 3 := by
  obtain ⟨t', hrun, htracks⟩ :=
    run_tracks_some (@boot_tracks False .empty .all False.elim) editThenRead_run
  have hworks (f : HeapFault Fault) : t'.control ≠ .faulted f := by
    intro hfaulted
    cases htracks with
    | faulted _ _ hcontrol => cases hcontrol
    | working held hcontrol =>
      rw [hfaulted] at hcontrol
      cases hcontrol
  obtain ⟨t, ht, hsize⟩ := live_blocks hrun hworks
  rw [Option.some.inj (ht.symm.trans editThenRead_run)] at hsize
  exact ⟨t', hrun, hsize⟩

end NetconfServer.Networking.Stored
