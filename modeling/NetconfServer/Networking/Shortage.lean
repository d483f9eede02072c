import NetconfServer.Networking.Device
import NetconfServer.Networking.Survival

/-! # Histories of a server short of memory

The abstract server of `History` when the copy of an address may be refused: a session may begin
without an address, and an edit may take the address away. Its replies are the same as before, since
a refusal that would change one is a `NULL` in use.
-/

namespace NetconfServer.Networking
open Memory CString Library Parsing
variable {lib : Libxml2}

/-- The logs of the server under refusals, each with a device it may leave. -/
inductive ShortHistory (lib : Libxml2) : List Event → Abcc → Prop where
  | boot : ShortHistory lib [] ⟨none⟩
  | session {log : List Event} {device : Abcc} (h : ShortHistory lib log device)
      (address : Option CString) (haddress : address = some initialAddress ∨ address = none) :
      ShortHistory lib (log ++ [.session]) ⟨address⟩
  | exchange {log : List Event} {device : Abcc} (h : ShortHistory lib log device)
      (hsession : .session ∈ log) (e : Exchange) (hbefore : e.before = device)
      (hnum : e.msgNum = .ofNat (answeredInSession log))
      (hreply : (answerTo e.root).reply lib device (decimalString e.msgNum.toInt) = .ok e.reply)
      (device' : Abcc) (happlied : (answerTo e.root).Applied device device') :
      ShortHistory lib (log ++ [.exchange e]) device'

theorem initAbcc_at (device : Abcc) (supply : Supply) :
    initAbcc device supply =
      .ok ((⟨if supply 0 then some initialAddress else none⟩, if supply 0 then 0 else -1),
        later supply 1) := by
  rw [initAbcc, bind_of_ok (strdup_eq initialAddress supply)]
  cases supply 0 <;> rfl

/-- What every run keeps. -/
structure Short (lib : Libxml2) (s : Server) : Prop where
  counted : Counted s
  history : ShortHistory lib s.log s.device

variable {s s' : Server} {o : Outcome}

theorem Short.afterHandshake (h : Short lib s) (ret : ℤ) (ciphersuite : Printf.Argument) :
    Short lib (s.afterHandshake ret ciphersuite) := by
  rw [Server.afterHandshake, initAbcc_at]
  split_ifs with h0 hgrant
  · exact ⟨⟨by simp, by rw [answeredInSession_session]; rfl⟩, h.history.session _ (.inl rfl)⟩
  · exact ⟨⟨by simp, by rw [answeredInSession_session]; rfl⟩, h.history.session _ (.inr rfl)⟩
  · exact h
  · exact ⟨trivial, h.history⟩

theorem Short.afterRead (h : Short lib s) (hreading : s.control = .reading) (chunk : Chunk) :
    Short lib (s.afterRead lib chunk) := by
  have hcount := h.counted
  rw [Counted, hreading] at hcount
  have hmessage := handleMessage_at lib chunk s.device s.msgNum s.supply
  rw [Server.afterRead]
  cases hhandle : handleMessage lib (.ofBuffer chunk.bytes) s.device s.msgNum s.supply with
  | error f => exact ⟨trivial, h.history⟩
  | ok r =>
    obtain ⟨m, supply⟩ := r
    rw [hhandle] at hmessage
    cases m with
    | none => exact ⟨trivial, h.history⟩
    | some m =>
      obtain ⟨-, -, -, hhandled⟩ := hmessage
      have hhistory := h.history.exchange hcount.1 ⟨m.root, s.device, s.msgNum, m.reply⟩ rfl hcount.2
        hhandled.reply m.device hhandled.device
      dsimp only
      cases formatReply m.reply.text s.ciphersuite supply with
      | error f => exact ⟨trivial, hhistory⟩
      | ok r =>
        refine ⟨⟨by simp [hcount.1], ?_⟩, hhistory⟩
        rw [answeredInSession_exchange, Int8.ofNat_add]
        exact congrArg (· + 1) hcount.2

theorem Short.afterWrite (h : Short lib s) {buf : List UInt8} {array : KeyValuePairArray}
    (hwriting : s.control = .writing buf array) (ret : ℤ) :
    Short lib (s.afterWrite array ret) := by
  have hcount := h.counted
  rw [Counted, hwriting] at hcount
  rw [Server.afterWrite]
  cases writeTurn ret with
  | none => exact h
  | some result =>
    dsimp only
    cases freeKeyValuePairArray array s.supply with
    | error f => exact ⟨trivial, h.history⟩
    | ok r =>
      refine ⟨?_, h.history⟩
      dsimp only [Counted]
      split_ifs
      · trivial
      · trivial
      · exact hcount

theorem Short.step (h : Short lib s) (hstep : step lib s o = some s') : Short lib s' := by
  unfold Networking.step at hstep
  split at hstep
  · cases hstep
    refine ⟨?_, h.history⟩
    dsimp only [Counted]
    split_ifs <;> trivial
  · cases hstep
    exact h.afterHandshake _ _
  · rename_i hreading
    cases hstep
    exact h.afterRead hreading _
  · cases hstep
    rw [Server.afterReadError]
    split_ifs
    · exact h
    · exact ⟨trivial, h.history⟩
  · rename_i hwriting
    cases hstep
    exact h.afterWrite hwriting _
  · cases hstep
    rw [Server.afterCloseNotify]
    split_ifs
    · exact h
    · exact ⟨trivial, h.history⟩
  · cases hstep

/-- Whatever is refused, the log and the device of the server are those of a history of a server short
of memory: every reply that was made is the reply of a server with all memory, to the document that
came, around the address then stored and with the number of messages of the session. -/
theorem log_under_refusals (lib : Libxml2) {supply : Supply} {os : List Outcome} {s : Server}
    (hrun : Machine.run (step lib) (.boot supply) os = some s) : ShortHistory lib s.log s.device :=
  (Machine.run_invariant (P := Short lib) (fun _ _ _ h => h.step) hrun ⟨trivial, .boot⟩).history

/-- The copy of an edited address is refused: the edit is acknowledged and no address is left. -/
theorem log_under_refusals_sample :
    ∃ log, ShortHistory (sampleLibxml2 sampleAddress) log ⟨none⟩ ∧ log.length = 2 := by
  have hrun : (Machine.run (step (sampleLibxml2 sampleAddress)) (.boot fun n => n ≠ 15)
      (connect ⟨[], []⟩ ++ send (frame (editText sampleAddress) sampleAddress_fits))).map
        (fun s => (s.log.length, s.device)) = some (2, ⟨none⟩) := by
    decide +kernel
  obtain ⟨s, hs, heq⟩ := Option.map_eq_some_iff.mp hrun
  obtain ⟨hlength, hdevice⟩ := Prod.mk.inj heq
  have hlog := log_under_refusals _ hs
  rw [hdevice] at hlog
  exact ⟨s.log, hlog, hlength⟩

end NetconfServer.Networking
