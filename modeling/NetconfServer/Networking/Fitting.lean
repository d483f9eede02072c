import NetconfServer.Networking.Availability
import NetconfServer.Networking.Literal

/-! # Whether a reply fits its buffer

`write_to_client` formats every reply into 1024 bytes. The canned replies are shorter. A data reply
has 211 bytes of markup around the message number and the address, and a request that stores an
address leaves room for a longer one than fits there.
-/

namespace NetconfServer.Networking
open Memory CString Library Parsing

/-! ## Lengths -/

/-- The `IP_ADDRESS` element of a reply is 25 bytes longer than its content, or short. -/
theorem addressElement_length (escape : CString → CString) (nodes : List XmlNode) :
    (serialise escape (.element (lit "IP_ADDRESS") [] nodes)).bytes.length =
      if nodes = [] then 13 else 25 + (serialiseAll escape nodes).bytes.length := by
  have hopen : (lit "<" ++ lit "IP_ADDRESS" ++ lit ">").bytes.length = 12 := by decide
  have hclose : (lit "</" ++ lit "IP_ADDRESS" ++ lit ">").bytes.length = 13 := by decide
  cases nodes with
  | nil => rfl
  | cons node next =>
    rw [if_neg (List.cons_ne_nil _ _), serialise_element_cons, bytes_append, bytes_append,
      List.length_append, List.length_append, hopen, hclose]
    omega

/-- The message number of a reply is a `char`. -/
theorem decimal_int8_length (msgNum : Int8) : (decimal msgNum.toInt).length ≤ 4 := by
  have hlow := msgNum.le_toInt
  have hhigh := msgNum.toInt_lt
  have hdigits : (naturalDigits msgNum.toInt.natAbs).length ≤ 3 :=
    naturalDigits_length_le (by decide) (by omega)
  rw [decimal]
  split_ifs
  · rw [List.length_cons]
    omega
  · omega

variable {lib : Libxml2} {escape : CString → CString}

theorem data_fits_iff (ipAdr : Option CString) (msgNum : Int8) :
    (responseHead ++ decimalString msgNum.toInt ++ responseOpen ++
        serialise escape (.element (lit "IP_ADDRESS") [] (contentNodes lib ipAdr)) ++
        responseClose ++ endOfMessage).bytes.length + 1 ≤ 1024 ↔
      (serialiseAll escape (contentNodes lib ipAdr)).bytes.length +
        (decimal msgNum.toInt).length ≤ 812 := by
  have hhead : responseHead.bytes.length = 93 := by decide +kernel
  have hopen : responseOpen.bytes.length = 47 := by decide +kernel
  have hclose : responseClose.bytes.length = 40 := by decide +kernel
  have hend : endOfMessage.bytes.length = 6 := by decide
  have hnum : (decimalString msgNum.toInt).bytes.length = (decimal msgNum.toInt).length := rfl
  simp only [bytes_append, List.length_append, hhead, hopen, hclose, hend, hnum,
    addressElement_length]
  split_ifs with hnil
  · have hdigits := decimal_int8_length msgNum
    have hempty : (serialiseAll escape (contentNodes lib ipAdr)).bytes.length = 0 := by
      rw [hnil]
      rfl
    omega
  · omega

/-! ## Every reply of a run -/

/-- When a reply fits the buffer it is formatted into: it is a canned one, or the address that the
messages before stored leaves room, as it is written, for the markup and the message number. -/
theorem reply_fits_iff (hwrites : lib.Writes escape) {os : List Outcome} {s : Server}
    (hrun : Machine.run (step lib) (.boot .all) os = some s) {before after : List Event}
    {e : Exchange} (hlog : s.log = before ++ .exchange e :: after) :
    e.reply.text.bytes.length + 1 ≤ 1024 ↔
      (NamesData e.root →
        (serialiseAll escape
            (contentNodes lib (Register.held Event.stored none before))).bytes.length +
          (decimal e.msgNum.toInt).length ≤ 812) := by
  have hs := run_history hrun
  rw [hlog] at hs
  obtain ⟨hbefore, -, -, hreply⟩ := hs.at_exchange
  rw [← answerTo_eq_data, ← hbefore.held]
  by_cases hdata : answerTo e.root = .data
  · rw [hdata] at hreply
    obtain ⟨text, htext, hreply⟩ := data_reply_eq_ok.mp hreply
    rw [dataText_of_writes hwrites] at htext
    obtain rfl := Except.ok.inj htext
    rw [hreply, forall_prop_of_true hdata]
    exact data_fits_iff e.before.ipAddress e.msgNum
  · have hcanned : ∀ text, e.reply ≠ .data text := by
      intro text htext
      have hkind := kind_eq_of_reply hreply
      rw [htext] at hkind
      cases ha : answerTo e.root <;> simp_all [kind, kindOfReply]
    have hshort := (canned_literal e.reply hcanned).2
    exact ⟨fun _ h => absurd h hdata, fun _ => hshort⟩

theorem reply_fits_iff_sample :
    ∃ s, Machine.run (step (sampleLibxml2 sampleAddress)) (.boot .all) editThenRead = some s ∧
      s.log = editLog ++ .exchange ⟨sampleGet, ⟨some sampleAddress⟩, 1,
        .data (sampleData sampleAddress 1)⟩ :: [] ∧
      (sampleData sampleAddress 1).bytes.length + 1 ≤ 1024 := by
  have hlog : (Server.ready (editLog ++
      [.exchange ⟨sampleGet, ⟨some sampleAddress⟩, 1, .data (sampleData sampleAddress 1)⟩])
      ⟨some sampleAddress⟩ 2 ⟨[], []⟩).log = editLog ++ .exchange ⟨sampleGet, ⟨some sampleAddress⟩, 1,
        .data (sampleData sampleAddress 1)⟩ :: [] := rfl
  have hfits := reply_fits_iff (tableLibxml2_writes _) editThenRead_run hlog
  exact ⟨_, editThenRead_run, hlog, hfits.mpr fun _ => by decide +kernel⟩

/-! ## A reply that does not fit -/

theorem step_overflow {log : List Event} {device : Abcc} {msgNum : Int8}
    {ciphersuite : Printf.Argument} {chunk : Chunk} {root : XmlNode} {reply : Reply}
    (hdocument : documentOf lib chunk = some (.tree root))
    (hreply : (answerTo root).reply lib device (decimalString msgNum.toInt) = .ok reply)
    (hpercent : 37 ∉ reply.text.bytes) (hlong : ¬ reply.text.bytes.length + 1 ≤ 1024) :
    step lib (.ready log device msgNum ciphersuite) (.read chunk) =
      some { Server.ready (log ++ [.exchange ⟨root, device, msgNum, reply⟩])
          ((answerTo root).update device) msgNum ciphersuite with
        control := .faulted .outOfBounds } := by
  have hformat : formatReply reply.text ciphersuite .all = .error .outOfBounds := by
    rw [formatReply, Printf.sprintf, Printf.render_of_no_percent hpercent]
    exact congrFun (if_neg (mt Nat.succ_le_of_lt hlong)) Supply.all
  rw [step_read hdocument hreply, hformat]

theorem notMem_letters {b : UInt8} (hb : b ≠ 97) (n : ℕ) : b ∉ List.replicate n 97 :=
  fun h => hb (List.eq_of_mem_replicate h)

theorem zero_notMem_letters (n : ℕ) : (0 : UInt8) ∉ List.replicate n 97 :=
  notMem_letters (by decide) n

def letters (n : ℕ) : CString := ⟨List.replicate n 97, zero_notMem_letters n⟩

theorem letters_length (n : ℕ) : (letters n).bytes.length = n := List.length_replicate

def longAddress : CString := letters 900

theorem editText_fits {v : CString} (h : v.bytes.length ≤ 900) :
    (editText v).bytes.length ≤ 1017 := by
  have hopen : (lit "<rpc><edit-config><target><running/></target><config><IP_ADDRESS>").bytes.length =
    65 := by decide
  have hclose : (lit "</IP_ADDRESS></config></edit-config></rpc>").bytes.length = 42 := by decide
  rw [editText, bytes_append, bytes_append, List.length_append, List.length_append, hopen, hclose]
  omega

theorem longAddress_fits : (editText longAddress).bytes.length ≤ 1017 :=
  editText_fits (letters_length 900).le

theorem getText_fits : getText.bytes.length ≤ 1017 := by decide

/-- An edit is read whole when its value has no `]`. -/
theorem editText_cut {v : CString} (h : 93 ∉ v.bytes) :
    before endOfMessage.bytes ((editText v).bytes ++ endOfMessage.bytes) = (editText v).bytes := by
  have hopen :
      93 ∉ (lit "<rpc><edit-config><target><running/></target><config><IP_ADDRESS>").bytes := by decide
  have hclose : 93 ∉ (lit "</IP_ADDRESS></config></edit-config></rpc>").bytes := by decide
  have hnone : 93 ∉ (editText v).bytes := by
    rw [editText, bytes_append, bytes_append, List.mem_append, List.mem_append]
    exact not_or.mpr ⟨not_or.mpr ⟨hopen, h⟩, hclose⟩
  rw [← List.append_nil endOfMessage.bytes]
  exact before_append_cons hnone

theorem dataText_sampleData (v address : CString) (num : ℤ) :
    dataText (sampleLibxml2 v) (some address) (decimalString num) = .ok (sampleData address num) := rfl

theorem percent_notMem_sampleData {address : CString} (h : 37 ∉ address.bytes) (num : ℤ) :
    37 ∉ (sampleData address num).bytes := by
  rw [percent_mem_data (tableLibxml2_writes _) (tableLibxml2_readsContent _)
    (fun _ _ _ => percent_mem_escapeText _)
    (dataText_sampleData address address num)]
  rintro ⟨node, hnode, hmem⟩
  obtain rfl : node = .text address := List.mem_singleton.mp hnode
  exact h hmem

theorem sampleData_overflows {address : CString} (h : 812 < address.bytes.length) (msgNum : Int8) :
    ¬ (sampleData address msgNum.toInt).bytes.length + 1 ≤ 1024 := by
  have hdata := @dataText_of_writes (sampleLibxml2 address) _ (tableLibxml2_writes _) (some address)
    msgNum.toInt
  have htext := dataText_sampleData address address msgNum.toInt
  rw [← Except.ok.inj (hdata.symm.trans htext), data_fits_iff]
  have hescaped := escapeText_length address
  have hcontent : (serialiseAll escapeText
      (contentNodes (sampleLibxml2 address) (some address))).bytes = (escapeText address).bytes :=
    List.append_nil _
  rw [hcontent]
  omega

/-- The address is stored and read. -/
def storeLongAddress : List Outcome :=
  connect ⟨[], []⟩ ++ (send (frame (editText longAddress) longAddress_fits) ++
    [.read (frame getText getText_fits)])

/-- The reply to the read is longer than the buffer, with no percent sign in the address. -/
theorem long_address_overflows :
    ∃ s, Machine.run (step (sampleLibxml2 longAddress)) (.boot .all) storeLongAddress = some s ∧
      s.log = [.session,
        .exchange ⟨sampleEdit longAddress, ⟨some initialAddress⟩, 0, .response6⟩,
        .exchange ⟨sampleGet, ⟨some longAddress⟩, 1, .data (sampleData longAddress 1)⟩] ∧
      37 ∉ longAddress.bytes ∧ s.control = .faulted .outOfBounds ∧
      ¬ (sampleData longAddress 1).bytes.length + 1 ≤ 1024 := by
  have hpercent : 37 ∉ longAddress.bytes := notMem_letters (by decide) 900
  have hliteral := percent_notMem_sampleData hpercent 1
  have hlong : ¬ (sampleData longAddress 1).bytes.length + 1 ≤ 1024 :=
    sampleData_overflows (by rw [longAddress, letters_length]; decide) 1
  have hcut := editText_cut (v := longAddress) (notMem_letters (by decide) 900)
  have hdocument : documentOf (sampleLibxml2 longAddress) (frame getText getText_fits) =
      some (.tree sampleGet) := by
    rw [documentOf_frame _ _ (by decide)]
    rfl
  have hread (log : List Event) := @step_overflow (sampleLibxml2 longAddress) log
    ⟨some longAddress⟩ (0 + 1) ⟨[], []⟩ _ sampleGet (.data (sampleData longAddress 1)) hdocument rfl
    hliteral hlong
  refine ⟨{ Server.ready _ ⟨some longAddress⟩ 1 ⟨[], []⟩ with control := .faulted .outOfBounds }, ?_,
    rfl, hpercent, rfl, hlong⟩
  rw [storeLongAddress, Machine.run_append_of_eq (run_connect _ rfl rfl _),
    Machine.run_append_of_eq (run_sampleEdit longAddress_fits hcut _ _ _ _), Machine.run_cons, hread]
  rfl

end NetconfServer.Networking
