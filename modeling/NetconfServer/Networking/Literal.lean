import NetconfServer.Networking.Device

/-! # Replies as formats

`write_to_client` passes the reply to `sprintf` as its format. The canned replies have no percent
sign, so only the stored address can bring one in.
-/

namespace NetconfServer.Networking
open Memory CString Library Parsing

/-! ## Which replies are built around the address -/

theorem slot_steady (array : KeyValuePairArray) (i : ℕ) : Steady (array.slot i) := by
  apply (Cell.read_steady _).bind
  intro block
  apply (Steady.deref _).bind
  intro slots
  cases slots[i]? with
  | none => exact .fault _
  | some kv => exact kv.read_steady

theorem findKey_steady (array : KeyValuePairArray) (key : CString) (todo i : ℕ) :
    Steady (findKey array key todo i) := by
  induction todo generalizing i with
  | zero => exact .pure _
  | succ todo ih =>
    apply (slot_steady array i).bind
    intro kv
    apply (Steady.deref _).bind
    intro k
    exact .ite (.pure _) (ih (i + 1))

theorem getKey_steady (array : KeyValuePairArray) (key : CString) : Steady (getKey array key) := by
  apply (Cell.read_steady _).bind
  intro size
  apply (findKey_steady array key size 0).bind
  intro found
  cases found with
  | none => exact .pure _
  | some kv => exact .pure _

theorem selectOperation_steady (array : KeyValuePairArray) : Steady (selectOperation array) := by
  refine (getKey_steady array _).bind fun ret => .ite (.pure _) ?_
  refine (getKey_steady array _).bind fun ret => .ite (.pure _) ?_
  refine (getKey_steady array _).bind fun ret => .ite (.pure _) ?_
  exact (getKey_steady array _).bind fun ret => .ite (.pure _) (.pure _)

/-- Whether `array` has `key`, by the code's own test. -/
def HasKey (array : KeyValuePairArray) (key : CString) : Prop := Yields (getKey array key) SUCCESS

/-- Whether the branch of an operation ends in `create_netconf_response_4`. -/
def EndsInData (array : KeyValuePairArray) : Option Operation → Prop
  | some .get => ¬ HasKey array (lit "netconf-state") ∧ ¬ HasKey array (lit "modules-state")
  | some .editConfig => ¬ HasKey array (lit "running")
  | _ => False

def AsksForData (array : KeyValuePairArray) : Prop :=
  Yields array.requestType.read (some RPC) ∧
    ∃ op, Yields (selectOperation array) op ∧ EndsInData array op

variable {lib : Libxml2} {array : KeyValuePairArray} {device device' : Abcc} {messageId : CString}
  {reply : Reply} {supply : Supply}

theorem getKey_branch_ok {α : Type} {key : CString} {x y : Exec α} {r : α × Supply}
    (h : (do if (← getKey array key) = SUCCESS then x else y) .all = .ok r) :
    HasKey array key ∧ x .all = .ok r ∨ ¬ HasKey array key ∧ y .all = .ok r := by
  obtain ⟨ret, supply, hret, h⟩ := bind_eq_ok.mp h
  have hyields : Yields (getKey array key) ret := (getKey_steady array key).yields hret
  obtain rfl : supply = .all := getKey_steady array key hret
  by_cases hs : ret = SUCCESS
  · subst hs
    rw [if_pos rfl] at h
    exact .inl ⟨hyields, h⟩
  · rw [if_neg hs] at h
    exact .inr ⟨fun hkey => hs (hyields.unique hkey), h⟩

/-- What a reply is when the data branch was taken, and when it was not. -/
def Built (lib : Libxml2) (device : Abcc) (messageId : CString) (asked : Prop) (reply : Reply) :
    Prop :=
  (asked ∧ ∃ text, reply = .data text ∧ dataText lib device.ipAddress messageId = .ok text) ∨
    (¬ asked ∧ ∀ text, reply ≠ .data text)

theorem data_branch_ok
    (h : (do
      let text ← createNetconfResponse4 lib device.ipAddress messageId
      return (Reply.data text, device) : Exec (Reply × Abcc)) .all = .ok ((reply, device'), supply)) :
    ∃ text, reply = .data text ∧ dataText lib device.ipAddress messageId = .ok text := by
  rw [data_branch_eq] at h
  cases hreply : Answer.data.reply lib device messageId with
  | error f =>
    rw [hreply] at h
    cases h
  | ok reply' =>
    rw [hreply] at h
    cases h
    obtain ⟨text, htext, heq⟩ := data_reply_eq_ok.mp hreply
    exact ⟨text, heq, htext⟩

theorem rpcReply_ok {op : Option Operation}
    (h : rpcReply lib array device messageId op .all = .ok ((reply, device'), supply)) :
    Built lib device messageId (EndsInData array op) reply := by
  cases op with
  | none =>
    cases h
    exact .inr ⟨id, by simp⟩
  | some op =>
    cases op with
    | get =>
      rcases getKey_branch_ok h with ⟨hstate, h⟩ | ⟨hstate, h⟩
      · cases h
        exact .inr ⟨fun hdata => hdata.1 hstate, by simp⟩
      · rcases getKey_branch_ok h with ⟨hmodules, h⟩ | ⟨hmodules, h⟩
        · cases h
          exact .inr ⟨fun hdata => hdata.2 hmodules, by simp⟩
        · exact .inl ⟨⟨hstate, hmodules⟩, data_branch_ok h⟩
    | getSchema =>
      cases h
      exact .inr ⟨id, by simp⟩
    | editConfig =>
      simp only [rpcReply, ne_eq, ite_not] at h
      rcases getKey_branch_ok h with ⟨hrunning, h⟩ | ⟨hrunning, h⟩
      · obtain ⟨value, supply₁, -, h⟩ := bind_eq_ok.mp h
        obtain ⟨ip, supply₂, -, h⟩ := bind_eq_ok.mp h
        obtain ⟨device₁, supply₃, -, h⟩ := bind_eq_ok.mp h
        cases h
        exact .inr ⟨fun hdata => hdata hrunning, by simp⟩
      · exact .inl ⟨hrunning, data_branch_ok h⟩
    | getConfig =>
      cases h
      exact .inr ⟨id, by simp⟩

/-- For every array, whatever put it there: the reply is a text around the stored address exactly
when the code's own tests lead to `create_netconf_response_4`. -/
theorem createXmlReply_built
    (h : createXmlReply lib array device messageId .all = .ok ((reply, device'), supply)) :
    Built lib device messageId (AsksForData array) reply := by
  obtain ⟨type, supply₁, htype, hrest⟩ := bind_eq_ok.mp h
  have hread := (Cell.read_steady array.requestType).yields htype
  obtain rfl : supply₁ = .all := Cell.read_steady array.requestType htype
  obtain ⟨name, supply₂, hname, hbranch⟩ := bind_eq_ok.mp hrest
  obtain rfl : supply₂ = .all := Steady.deref type hname
  have htypeName : type = some name := by
    cases type with
    | none => cases hname
    | some n =>
      cases hname
      rfl
  subst htypeName
  have hnot (hne : name ≠ RPC) : ¬ AsksForData array := fun hdata =>
    hne (Option.some.inj (hread.unique hdata.1))
  by_cases hhello : name = HELLO
  · rw [if_pos hhello] at hbranch
    cases hbranch
    exact .inr ⟨hnot (by rw [hhello]; decide), by simp⟩
  by_cases hrpc : name = RPC
  · rw [if_neg hhello, if_pos hrpc] at hbranch
    obtain ⟨op, supply₃, hop, hreply⟩ := bind_eq_ok.mp hbranch
    have hselect := (selectOperation_steady array).yields hop
    obtain rfl : supply₃ = .all := selectOperation_steady array hop
    rcases rpcReply_ok hreply with ⟨hdata, htext⟩ | ⟨hdata, htext⟩
    · exact .inl ⟨⟨hrpc ▸ hread, op, hselect, hdata⟩, htext⟩
    · right
      constructor
      · rintro ⟨-, op', hop', hdata'⟩
        exact hdata (hselect.unique hop' ▸ hdata')
      · exact htext
  · rw [if_neg hhello, if_neg hrpc] at hbranch
    cases hbranch
    exact .inr ⟨hnot hrpc, by simp⟩

/-! ## Percent signs -/

/-- What the serialiser shows of a node below `IP_ADDRESS`. -/
def shownText (node : XmlNode) : CString :=
  match node.label.type with
  | .text => node.label.content
  | .entityRef => node.label.name
  | _ => .empty

/-- The escaping of the texts among the nodes neither hides a percent sign nor makes one. -/
def KeepsPercent (escape : CString → CString) (nodes : List XmlNode) : Prop :=
  ∀ node ∈ nodes, node.label.type = .text →
    (37 ∈ (escape node.label.content).bytes ↔ 37 ∈ node.label.content.bytes)

variable {escape : CString → CString}

theorem percent_mem_serialiseAll {nodes : List XmlNode} (hescape : KeepsPercent escape nodes)
    (hnodes : ∀ node ∈ nodes, node.label.type = .text ∨ node.label.type = .entityRef) :
    37 ∈ (serialiseAll escape nodes).bytes ↔ ∃ node ∈ nodes, 37 ∈ (shownText node).bytes := by
  induction nodes with
  | nil => simp [serialiseAll]
  | cons node nodes ih =>
    have hnode : 37 ∈ (serialise escape node).bytes ↔ 37 ∈ (shownText node).bytes := by
      obtain ⟨⟨type, name, content, properties⟩, children⟩ := node
      rcases hnodes _ List.mem_cons_self with htype | htype
      · have hcontent := hescape _ List.mem_cons_self htype
        obtain rfl : type = .text := htype
        exact hcontent
      · obtain rfl : type = .entityRef := htype
        have hamp : 37 ∉ (lit "&").bytes := by decide
        have hsemicolon : 37 ∉ (lit ";").bytes := by decide
        simp [serialise, shownText, hamp, hsemicolon]
    have hrest := ih (fun node' h => hescape node' (List.mem_cons_of_mem _ h))
      fun node' h => hnodes node' (List.mem_cons_of_mem _ h)
    rw [serialiseAll, bytes_append, List.mem_append, hnode, hrest]
    simp

/-- A data reply has a percent sign exactly when the content of its address has one. -/
theorem percent_mem_data (hwrites : lib.Writes escape) (hreads : lib.ReadsContent)
    {address : Option CString} (hescape : KeepsPercent escape (contentNodes lib address)) {num : ℤ}
    {text : CString} (h : dataText lib address (decimalString num) = .ok text) :
    37 ∈ text.bytes ↔ ∃ node ∈ contentNodes lib address, 37 ∈ (shownText node).bytes := by
  have hnodes : ∀ node ∈ contentNodes lib address,
      node.label.type = .text ∨ node.label.type = .entityRef := by
    cases address with
    | none => simp [contentNodes]
    | some content => exact hreads content
  have hhead : 37 ∉ responseHead.bytes := by decide
  have hopen : 37 ∉ responseOpen.bytes := by decide
  have hclose : 37 ∉ responseClose.bytes := by decide
  have hend : 37 ∉ endOfMessage.bytes := by decide
  have hnum : 37 ∉ (decimalString num).bytes := notMem_decimal (by decide) (by decide) num
  have haddress : 37 ∈ (serialise escape
      (.element (lit "IP_ADDRESS") [] (contentNodes lib address))).bytes ↔
      37 ∈ (serialiseAll escape (contentNodes lib address)).bytes := by
    have htags : 37 ∉ (lit "<" ++ lit "IP_ADDRESS" ++ lit ">").bytes := by decide
    have hclosing : 37 ∉ (lit "</" ++ lit "IP_ADDRESS" ++ lit ">").bytes := by decide
    have hempty : 37 ∉ (lit "<" ++ lit "IP_ADDRESS" ++ lit "/>").bytes := by decide
    cases contentNodes lib address with
    | nil =>
      rw [serialise_element_nil]
      exact iff_of_false hempty List.not_mem_nil
    | cons node nodes =>
      rw [serialise_element_cons, bytes_append, bytes_append, List.mem_append, List.mem_append,
        or_iff_left hclosing, or_iff_right htags]
  rw [dataText_of_writes hwrites] at h
  obtain rfl := Except.ok.inj h
  rw [← percent_mem_serialiseAll hescape hnodes, ← haddress]
  simp [hhead, hopen, hclose, hend, hnum]

/-- Where the output fits, the bytes sent are what `sprintf` writes. -/
theorem formatReply_yields_iff {text : CString} {ciphersuite : Printf.Argument} {buf : List UInt8}
    (hfits : ∀ out, Printf.sprintf text.bytes ciphersuite = some out → out.length < 1024) :
    Yields (formatReply text ciphersuite) buf ↔
      Printf.sprintf text.bytes ciphersuite = some buf := by
  rw [Yields, formatReply_eq_ok]
  constructor
  · exact And.left
  · intro h
    exact ⟨h, hfits buf h, rfl⟩

/-- When a reply is sent as it stands, whatever array it answers: the code does not reach
`create_netconf_response_4`, or libxml2 reads no percent sign out of the stored address. Then no
name of a ciphersuite changes it; otherwise every name without a percent sign does. -/
theorem reply_sent_literally_iff (hwrites : lib.Writes escape) (hreads : lib.ReadsContent)
    (hescape : KeepsPercent escape (contentNodes lib device.ipAddress)) {num : ℤ}
    (hreply : createXmlReply lib array device (decimalString num) .all =
      .ok ((reply, device'), supply))
    {ciphersuite : Printf.Argument}
    (hfits : ∀ out, Printf.sprintf reply.text.bytes ciphersuite = some out → out.length < 1024) :
    ((¬ AsksForData array ∨
        ∀ node ∈ contentNodes lib device.ipAddress, 37 ∉ (shownText node).bytes) →
      Yields (formatReply reply.text ciphersuite) reply.text.bytes) ∧
    (37 ∉ ciphersuite.text → 37 ∉ ciphersuite.pointer →
      Yields (formatReply reply.text ciphersuite) reply.text.bytes →
      ¬ AsksForData array ∨
        ∀ node ∈ contentNodes lib device.ipAddress, 37 ∉ (shownText node).bytes) := by
  have hpercent : 37 ∉ reply.text.bytes ↔ ¬ AsksForData array ∨
      ∀ node ∈ contentNodes lib device.ipAddress, 37 ∉ (shownText node).bytes := by
    rcases createXmlReply_built hreply with ⟨hasked, text, rfl, htext⟩ | ⟨hasked, hcanned⟩
    · rw [Reply.text, percent_mem_data hwrites hreads hescape htext]
      simp [hasked]
    · exact iff_of_true (canned_literal reply hcanned).1 (.inl hasked)
  rw [← hpercent, formatReply_yields_iff hfits]
  constructor
  · exact Printf.render_of_no_percent
  · intro hname hpointer
    exact (Printf.sprintf_eq_self_iff hname hpointer).mp

def ciphersuiteName : Printf.Argument :=
  ⟨(lit "TLS-ECDHE-RSA-WITH-AES-128-GCM-SHA256").bytes, (lit "0x55d0c8a4").bytes⟩

theorem createXmlReply_sampleGet (v address : CString) (num : ℤ) :
    createXmlReply (sampleLibxml2 v) (requestArray sampleGet) ⟨some address⟩ (decimalString num)
      .all = .ok ((.data (sampleData address num), ⟨some address⟩), .all) := by
  have hanswer : answer sampleGet.label.name (recorded sampleGet) = .data := by decide
  rw [requestArray, createXmlReply_eq, hanswer]
  rfl

theorem reply_sent_literally_iff_sample :
    ∃ reply, createXmlReply (sampleLibxml2 sampleAddress) (requestArray sampleGet)
        ⟨some sampleAddress⟩ (decimalString 1) .all = .ok ((reply, ⟨some sampleAddress⟩), .all) ∧
      Yields (formatReply reply.text ciphersuiteName) reply.text.bytes := by
  refine ⟨_, createXmlReply_sampleGet _ _ _, ?_⟩
  have hpercent : 37 ∉ (sampleData sampleAddress 1).bytes := by decide +kernel
  have hlength : (sampleData sampleAddress 1).bytes.length < 1024 := by decide +kernel
  have hfits (out : List UInt8)
      (hout : Printf.sprintf (Reply.data (sampleData sampleAddress 1)).text.bytes ciphersuiteName =
        some out) : out.length < 1024 := by
    rw [Reply.text, Printf.sprintf, Printf.render_of_no_percent hpercent] at hout
    cases hout
    exact hlength
  have hliteral := reply_sent_literally_iff (tableLibxml2_writes _) (tableLibxml2_readsContent _)
    (fun _ _ _ => percent_mem_escapeText _) (createXmlReply_sampleGet sampleAddress _ _) hfits
  apply hliteral.1
  right
  intro node hnode
  obtain rfl : node = .text sampleAddress := List.mem_singleton.mp hnode
  decide

/-- A client that stored `%s` is sent the name of the ciphersuite. -/
def percentText : CString := lit "%s"

theorem percent_address_formatted :
    ∃ s, Machine.run (step (sampleLibxml2 percentText)) (.boot .all)
        (connect ciphersuiteName ++ send (frame (editText percentText) (by decide))) = some s ∧
      createXmlReply (sampleLibxml2 percentText) (requestArray sampleGet) s.device
        (decimalString 1) .all = .ok ((.data (sampleData percentText 1), s.device), .all) ∧
      ∃ out, Printf.sprintf (sampleData percentText 1).bytes ciphersuiteName = some out ∧
        out.length < 1024 ∧ ¬ Yields (formatReply (sampleData percentText 1) ciphersuiteName)
          (sampleData percentText 1).bytes := by
  refine ⟨.ready [.session, .exchange ⟨sampleEdit percentText, ⟨some initialAddress⟩, 0, .response6⟩]
    ⟨some percentText⟩ 1 ciphersuiteName, ?_, createXmlReply_sampleGet _ _ _, ?_⟩
  · rw [Machine.run_append_of_eq (run_connect _ rfl rfl _)]
    exact run_sampleEdit _ (by decide) _ _ _ _
  · have hout : ∃ out, Printf.sprintf (sampleData percentText 1).bytes ciphersuiteName = some out ∧
        out.length < 1024 ∧ out ≠ (sampleData percentText 1).bytes := by
      refine ⟨(Printf.sprintf (sampleData percentText 1).bytes ciphersuiteName).getD [], ?_⟩
      decide +kernel
    obtain ⟨out, hout, hfits, hne⟩ := hout
    refine ⟨out, hout, hfits, fun h => ?_⟩
    have hself := (formatReply_eq_ok.mp h).1
    rw [hout] at hself
    exact hne (Option.some.inj hself)

end NetconfServer.Networking
