import NetconfServer.Networking.History
import NetconfServer.Networking.Requests

/-! # The device over whole runs

The address is a register: a session stores the initial address in it and some messages store the
value of an `IP_ADDRESS`. Within a session that is what the next message meets; across sessions it
loses what clients stored.
-/

namespace NetconfServer.Networking
open Memory CString Library Parsing

/-- What an event stores in the device. -/
def Event.stored : Event → Option CString
  | .session => some initialAddress
  | .exchange e => writtenAddress e.root

theorem update_ipAddress (root : XmlNode) (device : Abcc) :
    ((answerTo root).update device).ipAddress = (writtenAddress root).or device.ipAddress := by
  rw [update_eq]
  cases writtenAddress root <;> rfl

variable {lib : Libxml2} {log : List Event} {device : Abcc}

theorem History.held (h : History lib log device) :
    device.ipAddress = Register.held Event.stored none log := by
  induction h with
  | boot => rfl
  | session h ih => rw [Register.held_append, Register.held_cons, Event.stored, Option.some_or]; rfl
  | exchange h hsession e hbefore hnum hreply ih =>
    rw [Register.held_append, ← ih, update_ipAddress]
    rfl

/-- The events of a log from the last session on. -/
theorem exists_last_session (h : .session ∈ log) :
    ∃ (older : List Event) (earlier : List Exchange),
      log = older ++ .session :: earlier.map Event.exchange := by
  induction log using List.reverseRecOn with
  | nil => simp at h
  | append_singleton log e ih =>
    cases e with
    | session => exact ⟨log, [], by simp⟩
    | exchange e =>
      obtain ⟨older, earlier, rfl⟩ := ih (by simpa using h)
      exact ⟨older, earlier ++ [e], by simp⟩

theorem held_in_session (older : List Event) (earlier : List Exchange) :
    Register.held Event.stored none (older ++ .session :: earlier.map Event.exchange) =
      Register.held (fun e : Exchange => writtenAddress e.root) (some initialAddress) earlier := by
  rw [Register.held_append, Register.held_cons, Event.stored, Option.some_or, Register.held,
    List.foldl_map, Register.held]
  rfl

theorem writtenAddress_eq_some {root : XmlNode} {v : CString} :
    writtenAddress root = some v ↔ NamesEdit root ∧
      ∃ ip, ((elements root).take 10).find? (·.label.name = lit "IP_ADDRESS") = some ip ∧
        leadingText ip = v := by
  rw [writtenAddress, firstValue, recorded, List.find?_map, Option.map_map]
  split_ifs with h
  · rw [Option.map_eq_some_iff, and_iff_right h]
    rfl
  · simp [h]

/-! ## Within a session -/

/-- What a message meets in the device is what the latest earlier message of its session that
stores an address stored, and the initial address when there is none. -/
theorem session_register {os : List Outcome} {s : Server}
    (hrun : Machine.run (step lib) (.boot .all) os = some s) {before after : List Event}
    {e : Exchange} (hlog : s.log = before ++ .exchange e :: after) :
    ∃ (older : List Event) (earlier : List Exchange),
      before = older ++ .session :: earlier.map Event.exchange ∧
      (∀ earlier₁ m earlier₂ v, earlier = earlier₁ ++ m :: earlier₂ → writtenAddress m.root = some v →
        (∀ m' ∈ earlier₂, writtenAddress m'.root = none) → e.before.ipAddress = some v) ∧
      ((∀ m ∈ earlier, writtenAddress m.root = none) → e.before.ipAddress = some initialAddress) ∧
      (∀ text, e.reply = .data text →
        dataText lib e.before.ipAddress (decimalString e.msgNum.toInt) = .ok text) ∧
      (after = [] → writtenAddress e.root = none → s.device = e.before) := by
  have hs := run_history hrun
  rw [hlog] at hs
  obtain ⟨hbefore, hsession, -, hreply⟩ := hs.at_exchange
  obtain ⟨older, earlier, rfl⟩ := exists_last_session hsession
  have hheld := hbefore.held
  rw [held_in_session] at hheld
  refine ⟨older, earlier, rfl, ?_, ?_, ?_, ?_⟩
  · rintro earlier₁ m earlier₂ v rfl hv hnone
    rw [hheld]
    exact Register.held_of_latest hv hnone
  · intro hnone
    rw [hheld]
    exact Register.held_of_none hnone
  · intro text htext
    rw [htext] at hreply
    exact reply_eq_data hreply
  · rintro rfl hnone
    obtain ⟨-, -, -, -, hdevice⟩ := hs.exchange_inv
    rw [hdevice, update_eq, hnone]

/-- An edit of the running datastore that stores `v`, as a client sends it. -/
def editText (v : CString) : CString :=
  lit "<rpc><edit-config><target><running/></target><config><IP_ADDRESS>" ++ v ++
    lit "</IP_ADDRESS></config></edit-config></rpc>"

def sampleEdit (v : CString) : XmlNode := editRequest (lit "running") [addressElement v]

def getText : CString := lit "<rpc><get/></rpc>"

def sampleGet : XmlNode := .element RPC [] [.element (lit "get") [] []]

/-- A library that knows an edit that stores `v` and a read. -/
def sampleLibxml2 (v : CString) : Libxml2 :=
  tableLibxml2 [(getText, sampleGet), (editText v, sampleEdit v)]

/-- The data reply around an address, with message number `msgNum`. -/
def sampleData (address : CString) (msgNum : ℤ) : CString :=
  documentText escapeText (responseDocument (tableLibxml2 []) (some address) (decimalString msgNum)) ++
    endOfMessage

theorem answerTo_sampleEdit (v : CString) : answerTo (sampleEdit v) = .edit (some v) := rfl

theorem run_sampleEdit {v : CString} (h : (editText v).bytes.length ≤ 1017)
    (hcut : before endOfMessage.bytes ((editText v).bytes ++ endOfMessage.bytes) =
      (editText v).bytes)
    (log : List Event) (device : Abcc) (msgNum : Int8) (ciphersuite : Printf.Argument) :
    Machine.run (step (sampleLibxml2 v)) (.ready log device msgNum ciphersuite)
        (send (frame (editText v) h)) =
      some (.ready (log ++ [.exchange ⟨sampleEdit v, device, msgNum, .response6⟩]) ⟨some v⟩
        (msgNum + 1) ciphersuite) := by
  have hother : getText ≠ editText v := by
    intro he
    have hget : getText.bytes[6]? = some 103 := by decide
    have hedit : (editText v).bytes[6]? = some 101 := rfl
    rw [he, hedit] at hget
    cases hget
  have hdocument : documentOf (sampleLibxml2 v) (frame (editText v) h) =
      some (.tree (sampleEdit v)) := by
    rw [documentOf_frame _ _ hcut]
    simp [sampleLibxml2, tableLibxml2, hother]
  exact run_message log hdocument (by rw [answerTo_sampleEdit]; rfl)
    (formatReply_canned _ (by simp) ciphersuite)

theorem run_sampleGet (v : CString) (log : List Event) (address : CString) (msgNum : Int8)
    (ciphersuite : Printf.Argument)
    (hpercent : 37 ∉ (sampleData address msgNum.toInt).bytes)
    (hfits : (sampleData address msgNum.toInt).bytes.length < 1024) :
    Machine.run (step (sampleLibxml2 v)) (.ready log ⟨some address⟩ msgNum ciphersuite)
        (send (frame getText (by decide))) =
      some (.ready (log ++ [.exchange
        ⟨sampleGet, ⟨some address⟩, msgNum, .data (sampleData address msgNum.toInt)⟩])
        ⟨some address⟩ (msgNum + 1) ciphersuite) := by
  have hdocument : documentOf (sampleLibxml2 v) (frame getText (by decide)) =
      some (.tree sampleGet) := by
    rw [documentOf_frame _ _ (by decide)]
    rfl
  exact run_message log hdocument rfl (formatReply_literal hpercent hfits ciphersuite)

def sampleAddress : CString := lit "10.0.0.7"

theorem sampleAddress_fits : (editText sampleAddress).bytes.length ≤ 1017 := by decide

/-- A session of an edit and a read. -/
def editThenRead : List Outcome :=
  connect ⟨[], []⟩ ++ (send (frame (editText sampleAddress) sampleAddress_fits) ++
    send (frame getText (by decide)))

/-- Its log up to the read. -/
def editLog : List Event :=
  [.session, .exchange ⟨sampleEdit sampleAddress, ⟨some initialAddress⟩, 0, .response6⟩]

theorem editThenRead_run :
    Machine.run (step (sampleLibxml2 sampleAddress)) (.boot .all) editThenRead =
      some (.ready (editLog ++
        [.exchange ⟨sampleGet, ⟨some sampleAddress⟩, 1, .data (sampleData sampleAddress 1)⟩])
        ⟨some sampleAddress⟩ 2 ⟨[], []⟩) := by
  rw [editThenRead, Machine.run_append_of_eq (run_connect _ rfl rfl _),
    Machine.run_append_of_eq (run_sampleEdit _ (by decide) _ _ _ _)]
  exact run_sampleGet _ _ _ _ _ (by decide +kernel) (by decide +kernel)

theorem session_register_sample :
    ∃ s, Machine.run (step (sampleLibxml2 sampleAddress)) (.boot .all) editThenRead = some s ∧
      s.log = editLog ++
        [.exchange ⟨sampleGet, ⟨some sampleAddress⟩, 1, .data (sampleData sampleAddress 1)⟩] ∧
      dataText (sampleLibxml2 sampleAddress) (some sampleAddress) (decimalString 1) =
        .ok (sampleData sampleAddress 1) := by
  refine ⟨_, editThenRead_run, rfl, ?_⟩
  have hlog : (Server.ready (editLog ++
      [.exchange ⟨sampleGet, ⟨some sampleAddress⟩, 1, .data (sampleData sampleAddress 1)⟩])
      ⟨some sampleAddress⟩ 2 ⟨[], []⟩).log = editLog ++ .exchange ⟨sampleGet, ⟨some sampleAddress⟩, 1,
        .data (sampleData sampleAddress 1)⟩ :: [] := rfl
  obtain ⟨-, -, -, -, -, hdata, -⟩ := session_register editThenRead_run hlog
  exact hdata _ rfl

/-! ## Across sessions -/

theorem held_eq_some_iff {between : List Event} {v : CString}
    (hothers : ∀ e, .exchange e ∈ between → ∀ w, writtenAddress e.root = some w → w = v) :
    Register.held Event.stored (some v) between = some v ↔
      v = initialAddress ∨ ∀ between₁ between₂, between = between₁ ++ .session :: between₂ →
        ∃ e, .exchange e ∈ between₂ ∧ writtenAddress e.root = some v := by
  constructor
  · intro h
    by_cases hv : v = initialAddress
    · exact .inl hv
    · right
      rintro between₁ between₂ rfl
      rw [Register.held_append, Register.held_cons, Event.stored, Option.some_or] at h
      -- What is held at the end was stored after the session began, and not by another session.
      rcases Register.eq_or_stored_of_held h with hinit | ⟨e, he, hstored⟩
      · exact absurd (Option.some.inj hinit).symm hv
      · cases e with
        | session => exact absurd (Option.some.inj hstored).symm hv
        | exchange e => exact ⟨e, he, hstored⟩
  · intro h
    rcases Register.exists_latest Event.stored between with
      hnone | ⟨between₁, e, between₂, w, rfl, hw, hnone⟩
    · exact Register.held_of_none hnone
    · rw [Register.held_of_latest hw hnone]
      cases e with
      | exchange e => rw [hothers e (by simp) w hw]
      | session =>
        have hinit : initialAddress = w := Option.some.inj hw
        rcases h with hv | hlater
        · rw [hv, hinit]
        · obtain ⟨e, he, hstored⟩ := hlater between₁ between₂ rfl
          have hstored' : writtenAddress e.root = none := hnone _ he
          rw [hstored'] at hstored
          cases hstored

/-- When an acknowledged edit is what a later data reply shows: every session that began in between
has stored the value again, or the value is the one that a session begins with. -/
theorem acknowledged_edit_kept_iff {os : List Outcome} {s : Server}
    (hrun : Machine.run (step lib) (.boot .all) os = some s) {before between after : List Event}
    {e₁ e₂ : Exchange}
    (hlog : s.log = before ++ .exchange e₁ :: (between ++ .exchange e₂ :: after)) {v : CString}
    (hstored : writtenAddress e₁.root = some v)
    (hothers : ∀ e, .exchange e ∈ between → ∀ w, writtenAddress e.root = some w → w = v)
    {text : CString} (hdata : e₂.reply = .data text) :
    e₁.reply = .response6 ∧
    dataText lib e₂.before.ipAddress (decimalString e₂.msgNum.toInt) = .ok text ∧
    (e₂.before.ipAddress = some v ↔
      v = initialAddress ∨ ∀ between₁ between₂, between = between₁ ++ .session :: between₂ →
        ∃ e, .exchange e ∈ between₂ ∧ writtenAddress e.root = some v) := by
  have hs := run_history hrun
  rw [hlog] at hs
  obtain ⟨-, -, -, hack⟩ := hs.at_exchange
  rw [← List.cons_append, ← List.append_assoc] at hs
  obtain ⟨hbefore, -, -, hreply⟩ := hs.at_exchange
  refine ⟨?_, ?_, ?_⟩
  · have hnames : NamesEdit e₁.root := (writtenAddress_eq_some.mp hstored).1
    rw [answerTo_of_namesEdit hnames] at hack
    exact (Except.ok.inj hack).symm
  · rw [hdata] at hreply
    exact reply_eq_data hreply
  · rw [hbefore.held, Register.held_append, Register.held_cons, Event.stored, hstored,
      Option.some_or]
    exact held_eq_some_iff hothers

/-- The client reconnects between the edit and the read, and stores the value again. -/
def editAgainThenRead : List Outcome :=
  connect ⟨[], []⟩ ++ (send (frame (editText sampleAddress) sampleAddress_fits) ++
    (disconnect ++ (connect ⟨[], []⟩ ++ (send (frame (editText sampleAddress) sampleAddress_fits) ++
      send (frame getText (by decide))))))

/-- What happens between that edit and the read. -/
def secondSession : List Event :=
  [.session, .exchange ⟨sampleEdit sampleAddress, ⟨some initialAddress⟩, 0, .response6⟩]

theorem editAgainThenRead_run :
    Machine.run (step (sampleLibxml2 sampleAddress)) (.boot .all) editAgainThenRead =
      some (.ready ([.session] ++
        .exchange ⟨sampleEdit sampleAddress, ⟨some initialAddress⟩, 0, .response6⟩ ::
          (secondSession ++ .exchange
            ⟨sampleGet, ⟨some sampleAddress⟩, 1, .data (sampleData sampleAddress 1)⟩ :: []))
        ⟨some sampleAddress⟩ 2 ⟨[], []⟩) := by
  rw [editAgainThenRead, Machine.run_append_of_eq (run_connect _ rfl rfl _),
    Machine.run_append_of_eq (run_sampleEdit _ (by decide) _ _ _ _),
    Machine.run_append_of_eq run_disconnect, Machine.run_append_of_eq (run_connect _ rfl rfl _),
    Machine.run_append_of_eq (run_sampleEdit _ (by decide) _ _ _ _)]
  exact run_sampleGet _ _ _ _ _ (by decide +kernel) (by decide +kernel)

theorem acknowledged_edit_kept_iff_sample :
    ∃ s, Machine.run (step (sampleLibxml2 sampleAddress)) (.boot .all) editAgainThenRead = some s ∧
      writtenAddress (sampleEdit sampleAddress) = some sampleAddress ∧
      dataText (sampleLibxml2 sampleAddress) (some sampleAddress) (decimalString 1) =
        .ok (sampleData sampleAddress 1) ∧
      ∀ between₁ between₂, secondSession = between₁ ++ Event.session :: between₂ →
        ∃ e, .exchange e ∈ between₂ ∧ writtenAddress e.root = some sampleAddress := by
  have hstored : writtenAddress (sampleEdit sampleAddress) = some sampleAddress := by decide
  have hothers : ∀ e, .exchange e ∈ secondSession → ∀ w, writtenAddress e.root = some w →
      w = sampleAddress := by
    intro e he w hw
    obtain rfl : e = ⟨sampleEdit sampleAddress, ⟨some initialAddress⟩, 0, .response6⟩ := by
      simpa [secondSession] using he
    exact Option.some.inj (hw.symm.trans hstored)
  obtain ⟨-, hdata, hkept⟩ :=
    acknowledged_edit_kept_iff editAgainThenRead_run rfl hstored hothers rfl
  have hinitial : sampleAddress ≠ initialAddress := by decide
  exact ⟨_, editAgainThenRead_run, hstored, hdata, (hkept.mp rfl).resolve_left hinitial⟩

/-- The client reconnects between the edit and the read. -/
def editReconnectRead : List Outcome :=
  connect ⟨[], []⟩ ++ (send (frame (editText sampleAddress) sampleAddress_fits) ++
    (disconnect ++ (connect ⟨[], []⟩ ++ send (frame getText (by decide)))))

/-- The read after a reconnection shows the initial address, not the acknowledged one. -/
theorem edit_lost_on_reconnect :
    ∃ s, Machine.run (step (sampleLibxml2 sampleAddress)) (.boot .all) editReconnectRead = some s ∧
      s.log = editLog ++ [.session,
        .exchange ⟨sampleGet, ⟨some initialAddress⟩, 0, .data (sampleData initialAddress 0)⟩] ∧
      writtenAddress (sampleEdit sampleAddress) = some sampleAddress ∧
      dataText (sampleLibxml2 sampleAddress) (some sampleAddress) (decimalString 0) ≠
        .ok (sampleData initialAddress 0) := by
  refine ⟨.ready _ ⟨some initialAddress⟩ 1 ⟨[], []⟩, ?_, rfl, by decide, ?_⟩
  · rw [editReconnectRead, Machine.run_append_of_eq (run_connect _ rfl rfl _),
      Machine.run_append_of_eq (run_sampleEdit _ (by decide) _ _ _ _),
      Machine.run_append_of_eq run_disconnect, Machine.run_append_of_eq (run_connect _ rfl rfl _)]
    exact run_sampleGet _ _ _ _ _ (by decide +kernel) (by decide +kernel)
  · intro h
    have hbytes := congrArg CString.bytes (Except.ok.inj h)
    revert hbytes
    decide +kernel

end NetconfServer.Networking
