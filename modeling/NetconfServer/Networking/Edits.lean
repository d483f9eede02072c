import NetconfServer.Library.Register
import NetconfServer.Networking.Literal

/-! # Edits of the address

The setter assigns the copy before it looks at it, and `create_xml_reply` does not look at what the
setter returns. So the device and the replies are what a client expects exactly as long as no call of
the setter fails.
-/

namespace NetconfServer.Networking
open Memory CString Library Parsing

/-- With the allocator at `supply`, `create_xml_reply` calls `set_IP_ADDRESS` with `ip`. -/
structure CallsSetter (array : KeyValuePairArray) (supply : Supply) (ip : Option CString) : Prop where
  requestType : array.requestType.read supply = .ok (some RPC, supply)
  operation : selectOperation array supply = .ok (some .editConfig, supply)
  running : getKey array (lit "running") supply = .ok (SUCCESS, supply)
  argument : (do
    let (value, _) ← getValue array (lit "IP_ADDRESS") none
    readPointer value) supply = .ok (ip, supply)

/-- A call of `set_IP_ADDRESS`, and the reply to the request that made it. -/
structure SetterCall where
  ip : Option CString
  /-- Whether the first request to the allocator is granted. -/
  granted : Bool
  before : Abcc
  ret : ℤ
  after : Abcc
  reply : Reply

/-- The calls of the setter since a successful `init_abcc`, and the device after them. Each request
meets an allocator of its own. -/
inductive Edits (lib : Libxml2) : List SetterCall → Abcc → Prop
  | init {device device' : Abcc} {supply supply' : Supply}
      (hinit : initAbcc device supply = .ok ((device', 0), supply')) : Edits lib [] device'
  | other {calls : List SetterCall} {array : KeyValuePairArray} {device device' : Abcc}
      {messageId : CString} {reply : Reply} {supply supply' : Supply}
      (hedits : Edits lib calls device) (hcall : ∀ ip, ¬ CallsSetter array supply ip)
      (hreply : createXmlReply lib array device messageId supply = .ok ((reply, device'), supply')) :
      Edits lib calls device'
  | call {calls : List SetterCall} {array : KeyValuePairArray} {device device' after : Abcc}
      {messageId : CString} {reply : Reply} {ip : Option CString} {ret : ℤ}
      {supply supply' supply'' : Supply}
      (hedits : Edits lib calls device) (hcall : CallsSetter array supply ip)
      (hset : setIpAddress device ip supply = .ok ((after, ret), supply''))
      (hreply : createXmlReply lib array device messageId supply = .ok ((reply, device'), supply')) :
      Edits lib (calls ++ [⟨ip, supply 0, device, ret, device', reply⟩]) device'

/-! ## The setter -/

variable {lib : Libxml2} {array : KeyValuePairArray} {device device' : Abcc} {messageId : CString}
  {reply : Reply} {ip : Option CString} {ret : ℤ} {supply supply' : Supply}

theorem initAbcc_ok (h : initAbcc device supply = .ok ((device', 0), supply')) :
    device'.ipAddress = some initialAddress := by
  rw [initAbcc, bind_of_ok (strdup_eq _ _)] at h
  cases hgrant : supply 0 <;> rw [hgrant] at h <;> cases h
  rfl

/-- A call of the setter succeeds when it has an argument and a copy of it, and then stores it. -/
theorem setIpAddress_ok (h : setIpAddress device ip supply = .ok ((device', ret), supply')) :
    ip ≠ none ∧ supply 0 = true ∧ ret = 0 ∧ device'.ipAddress = ip ∨
      (ip = none ∨ supply 0 = false) ∧ ret = -1 := by
  cases ip with
  | none =>
    cases h
    exact .inr ⟨.inl rfl, rfl⟩
  | some ip =>
    rw [setIpAddress, bind_of_ok (strdup_eq _ _)] at h
    cases hgrant : supply 0 <;> rw [hgrant] at h <;> cases h
    · exact .inr ⟨.inr rfl, rfl⟩
    · exact .inl ⟨by simp, rfl, rfl, rfl⟩

/-! ## The dispatcher -/

theorem getValue_steady (array : KeyValuePairArray) (key : CString) (value : Option (List UInt8)) :
    Steady (getValue array key value) := by
  apply (Cell.read_steady _).bind
  intro size
  apply (findKey_steady array key size 0).bind
  intro found
  cases found with
  | none => exact .pure _
  | some kv => exact .pure _

theorem readPointer_steady (value : Option (List UInt8)) : Steady (readPointer value) := by
  cases value with
  | none => exact .pure none
  | some block =>
    have hread : Steady (readString block) := .ite (.pure _) (.fault _)
    exact hread.bind fun _ => .pure _

/-- What the edit branch does with the argument that it found. -/
def edit (device : Abcc) (ip : Option CString) : Exec (Reply × Abcc) := do
  let (device, _) ← setIpAddress device ip
  return (.response6, device)

/-- A request that calls the setter keeps what the setter leaves and is answered with `<ok/>`. -/
theorem createXmlReply_of_call (hcall : CallsSetter array supply ip) :
    createXmlReply lib array device messageId supply = edit device ip supply := by
  obtain ⟨⟨value, code⟩, supply₁, hvalue, hpointer⟩ := bind_eq_ok.mp hcall.argument
  obtain rfl := getValue_steady array _ none hvalue
  have hname : deref (some RPC) supply₁ = .ok (RPC, supply₁) := rfl
  have htype : ¬ RPC = HELLO := by decide
  have hsuccess : ¬ SUCCESS ≠ SUCCESS := fun h => h rfl
  calc createXmlReply lib array device messageId supply₁
      = (selectOperation array >>= rpcReply lib array device messageId) supply₁ := by
        rw [createXmlReply, bind_of_ok hcall.requestType, bind_of_ok hname, if_neg htype, if_pos rfl]
    _ = rpcReply lib array device messageId (some .editConfig) supply₁ :=
        bind_of_ok hcall.operation
    _ = edit device ip supply₁ := by
        rw [rpcReply, bind_of_ok hcall.running, if_neg hsuccess, bind_of_ok hvalue]
        exact bind_of_ok hpointer

theorem data_branch_device
    (h : (do
      let text ← createNetconfResponse4 lib device.ipAddress messageId
      return (Reply.data text, device) : Exec (Reply × Abcc)) supply =
        .ok ((reply, device'), supply')) : device' = device := by
  obtain ⟨text, supply₁, -, h⟩ := bind_eq_ok.mp h
  cases h
  rfl

theorem rpcReply_other {op : Option Operation} (hcall : ∀ ip, ¬ CallsSetter array supply ip)
    (htype : array.requestType.read supply = .ok (some RPC, supply))
    (hop : selectOperation array supply = .ok (op, supply))
    (h : rpcReply lib array device messageId op supply = .ok ((reply, device'), supply')) :
    device' = device := by
  cases op with
  | none =>
    cases h
    rfl
  | some op =>
    cases op with
    | get =>
      obtain ⟨state, supply₁, -, h⟩ := bind_eq_ok.mp h
      split_ifs at h
      · cases h
        rfl
      · obtain ⟨modules, supply₂, -, h⟩ := bind_eq_ok.mp h
        split_ifs at h
        · cases h
          rfl
        · exact data_branch_device h
    | getSchema =>
      cases h
      rfl
    | editConfig =>
      obtain ⟨running, supply₁, hrunning, hbranch⟩ := bind_eq_ok.mp h
      obtain rfl := getKey_steady array _ hrunning
      by_cases hsuccess : running = SUCCESS
      · subst hsuccess
        rw [if_neg fun hne => hne rfl] at hbranch
        obtain ⟨⟨value, code⟩, supply₂, hvalue, hpointer⟩ := bind_eq_ok.mp hbranch
        obtain rfl := getValue_steady array _ none hvalue
        obtain ⟨ip, supply₃, hip, -⟩ := bind_eq_ok.mp hpointer
        obtain rfl := readPointer_steady value hip
        exact absurd ⟨htype, hop, hrunning, (bind_of_ok hvalue).trans hip⟩ (hcall ip)
      · rw [if_pos hsuccess] at hbranch
        exact data_branch_device hbranch
    | getConfig =>
      cases h
      rfl

theorem createXmlReply_other (hcall : ∀ ip, ¬ CallsSetter array supply ip)
    (h : createXmlReply lib array device messageId supply = .ok ((reply, device'), supply')) :
    device' = device := by
  obtain ⟨type, supply₁, htype, hrest⟩ := bind_eq_ok.mp h
  obtain rfl := Cell.read_steady _ htype
  obtain ⟨name, supply₂, hname, hbranch⟩ := bind_eq_ok.mp hrest
  obtain rfl := Steady.deref type hname
  by_cases hhello : name = HELLO
  · rw [if_pos hhello] at hbranch
    cases hbranch
    rfl
  by_cases hrpc : name = RPC
  · rw [if_neg hhello, if_pos hrpc] at hbranch
    obtain ⟨op, supply₃, hop, hreply⟩ := bind_eq_ok.mp hbranch
    obtain rfl := selectOperation_steady array hop
    have htypeName : type = some RPC := by
      cases type with
      | none => cases hname
      | some n =>
        cases hname
        rw [hrpc]
    exact rpcReply_other hcall (htypeName ▸ htype) hop hreply
  · rw [if_neg hhello, if_neg hrpc] at hbranch
    cases hbranch
    rfl

/-! ## Runs -/

/-- What a call that returned 0 stores. -/
def SetterCall.stored (c : SetterCall) : Option CString := if c.ret = 0 then c.ip else none

/-- A call that fails changes nothing, and the request is not answered with `<ok/>`. -/
def SetterCall.Atomic (c : SetterCall) : Prop :=
  c.ret = -1 → c.after = c.before ∧ c.reply ≠ .response6

/-- The device holds the argument of the last of the calls that returned 0, and the initial address
when there is none. -/
def HoldsLast (device : Abcc) (calls : List SetterCall) : Prop :=
  device.ipAddress ≠ none ∧
    device.ipAddress = Register.held SetterCall.stored (some initialAddress) calls

/-- A call has an argument and is granted the copy of it. -/
def SetterCall.Granted (c : SetterCall) : Prop := c.ip ≠ none ∧ c.granted = true

variable {calls before rest : List SetterCall} {c : SetterCall}

theorem edit_ok {after : Abcc} {supply'' : Supply}
    (hset : setIpAddress device ip supply = .ok ((after, ret), supply''))
    (h : edit device ip supply = .ok ((reply, device'), supply')) :
    reply = .response6 ∧ device' = after := by
  rw [edit, bind_of_ok hset] at h
  cases h
  exact ⟨rfl, rfl⟩

/-- What every call of a run returns, and how its request is answered. -/
theorem Edits.of_mem (h : Edits lib calls device) (hc : c ∈ calls) :
    (c.Granted ∧ c.ret = 0 ∧ c.after.ipAddress = c.ip ∨ ¬ c.Granted ∧ c.ret = -1) ∧
      c.reply = .response6 := by
  induction h with
  | init hinit => simp at hc
  | other hedits hcall hreply ih => exact ih hc
  | call hedits hcall hset hreply ih =>
    rcases List.mem_append.mp hc with hold | hnew
    · exact ih hold
    · obtain rfl := List.mem_singleton.mp hnew
      rw [createXmlReply_of_call hcall] at hreply
      obtain ⟨rfl, rfl⟩ := edit_ok hset hreply
      refine ⟨?_, rfl⟩
      rcases setIpAddress_ok hset with ⟨hip, hgrant, hret, hafter⟩ | ⟨hfail, hret⟩
      · exact .inl ⟨⟨hip, hgrant⟩, hret, hafter⟩
      · right
        refine ⟨?_, hret⟩
        rintro ⟨hip, hgrant⟩
        rcases hfail with hnone | hrefused
        · exact hip hnone
        · exact absurd (hgrant.symm.trans hrefused) (by decide)

/-- The run up to one of its calls. -/
theorem Edits.at_call (h : Edits lib (before ++ c :: rest) device) : Edits lib before c.before := by
  generalize hcalls : before ++ c :: rest = calls at h
  induction h generalizing rest with
  | init hinit => simp at hcalls
  | other hedits hcall hreply ih => exact ih hcalls
  | call hedits hcall hset hreply ih =>
    rcases rest.eq_nil_or_concat with rfl | ⟨rest, last, rfl⟩
    · obtain ⟨rfl, heq⟩ := List.append_inj' hcalls rfl
      cases heq
      exact hedits
    · rw [List.concat_eq_append, ← List.cons_append, ← List.append_assoc] at hcalls
      exact ih (List.append_inj' hcalls rfl).1

/-- While every call is granted, the device holds the last argument. -/
theorem Edits.holdsLast (h : Edits lib calls device) (hgranted : ∀ c ∈ calls, c.Granted) :
    HoldsLast device calls := by
  induction h with
  | init hinit =>
    have hdevice := initAbcc_ok hinit
    exact ⟨by simp [hdevice], hdevice⟩
  | other hedits hcall hreply ih =>
    obtain rfl := createXmlReply_other hcall hreply
    exact ih hgranted
  | @call calls array device device' after messageId reply ip ret supply supply' supply'' hedits
      hcall hset hreply ih =>
    have hlast := hgranted _ (List.mem_append_right calls List.mem_cons_self)
    have hmem := (Edits.call hedits hcall hset hreply).of_mem
      (List.mem_append_right calls List.mem_cons_self)
    rcases hmem.1 with ⟨-, hret, hafter⟩ | ⟨hfail, -⟩
    · have hstored : SetterCall.stored ⟨ip, supply 0, device, ret, device', reply⟩ = ip := if_pos hret
      obtain ⟨v, hv⟩ := Option.ne_none_iff_exists'.mp hlast.1
      change device'.ipAddress = ip at hafter
      change ip = some v at hv
      refine ⟨by simp [hafter, hv], ?_⟩
      rw [Register.held_append, Register.held_cons, hstored, hafter, hv, Option.some_or]
      rfl
    · exact absurd hlast hfail

/-- When failed edits are atomic, whatever the allocator grants: in every run in which each call of the
setter has an argument and gets its copy, and in no other, the device holds an address throughout,
the last one that was stored, and no failed call leaves a trace or is answered with `<ok/>`. -/
theorem failed_edits_atomic_iff (hruns : Edits lib calls device) :
    (HoldsLast device calls ∧ ∀ before c rest, calls = before ++ c :: rest →
      HoldsLast c.before before ∧ c.Atomic) ↔
    ∀ c ∈ calls, c.ip ≠ none ∧ c.granted = true := by
  constructor
  · rintro ⟨-, hcalls⟩ c hc
    obtain ⟨before, rest, hsplit⟩ := List.append_of_mem hc
    obtain ⟨hresult, hreply⟩ := hruns.of_mem hc
    rcases hresult with ⟨hgranted, -⟩ | ⟨-, hret⟩
    · exact hgranted
    · exact absurd hreply ((hcalls before c rest hsplit).2 hret).2
  · intro hgranted
    refine ⟨hruns.holdsLast hgranted, ?_⟩
    rintro before c rest rfl
    constructor
    · exact hruns.at_call.holdsLast fun c' hc' => hgranted c' (List.mem_append_left _ hc')
    · intro hret
      rcases (hruns.of_mem (List.mem_append_right before List.mem_cons_self)).1 with
        ⟨-, hzero, -⟩ | ⟨hfail, -⟩
      · exact absurd (hret.symm.trans hzero) (by decide)
      · exact absurd (hgranted c (List.mem_append_right before List.mem_cons_self)) hfail

theorem callsSetter_sampleEdit (supply : Supply) :
    CallsSetter (requestArray (sampleEdit sampleAddress)) supply (some sampleAddress) :=
  ⟨rfl, rfl, rfl, rfl⟩

theorem edits_initial (lib : Libxml2) : Edits lib [] ⟨some initialAddress⟩ :=
  .init (initAbcc_yields ⟨none⟩)

/-- The run of one edit, whose copy is granted. -/
theorem edits_sample : Edits (tableLibxml2 [])
    [⟨some sampleAddress, true, ⟨some initialAddress⟩, 0, ⟨some sampleAddress⟩, .response6⟩]
    ⟨some sampleAddress⟩ :=
  .call (edits_initial _) (callsSetter_sampleEdit .all) (setIpAddress_yields _ sampleAddress)
    (@createXmlReply_of_call _ _ _ (lit "0") _ _ (callsSetter_sampleEdit .all))

theorem failed_edits_atomic_iff_sample :
    HoldsLast ⟨some sampleAddress⟩
      [⟨some sampleAddress, true, ⟨some initialAddress⟩, 0, ⟨some sampleAddress⟩, .response6⟩] := by
  refine ((failed_edits_atomic_iff edits_sample).mpr ?_).1
  intro c hc
  obtain rfl := List.mem_singleton.mp hc
  exact ⟨by simp, rfl⟩

/-- An edit whose copy is refused leaves the device without an address and is answered with `<ok/>`. -/
theorem refused_edit_acknowledged :
    Edits (tableLibxml2 [])
      [⟨some sampleAddress, false, ⟨some initialAddress⟩, -1, ⟨none⟩, .response6⟩] ⟨none⟩ := by
  have hcall := callsSetter_sampleEdit fun _ => false
  have hset : setIpAddress ⟨some initialAddress⟩ (some sampleAddress) (fun _ => false) =
      .ok ((⟨none⟩, -1), fun _ => false) := rfl
  have hreply := @createXmlReply_of_call (tableLibxml2 []) _ ⟨some initialAddress⟩ (lit "0") _ _ hcall
  exact .call (edits_initial _) hcall hset hreply

end NetconfServer.Networking
