import NetconfServer.Networking.Server

/-! # What a step does

With all memory granted every run keeps `Sound`, and each of its steps is one of the moves of
`Move`. Everything said about whole runs is proved one move at a time.
-/

namespace NetconfServer.Networking
open Memory CString Library Parsing

/-- Memory is granted and the array being written about is that of some request. -/
structure Sound (s : Server) : Prop where
  supply : s.supply = .all
  array : ∀ buf array, s.control = .writing buf array → ∃ root, array = requestArray root

/-- Outcomes that neither deliver a message nor end a reply. -/
def Outcome.Transport : Outcome → Prop
  | .read _ => False
  | .write ret => writeTurn ret = none
  | _ => True

/-- What one step does. -/
inductive Move (lib : Libxml2) (s : Server) : Outcome → Server → Prop where
  | stay (o : Outcome) (ho : o.Transport) : Move lib s o s
  /-- On to a handshake, a close or the next client. -/
  | wait (o : Outcome) (c : Control) (ho : o.Transport)
      (hc : c = .handshaking ∨ c = .closing ∨ c = .accepting) :
      Move lib s o { s with control := c }
  | refused (ret : ℤ) (hret : ret ≠ 0) : Move lib s (.accept ret) { s with control := .exited }
  | session (ciphersuite : Printf.Argument) :
      Move lib s (.handshake 0 ciphersuite)
        { s with
          control := .reading, msgNum := 0, device := ⟨some initialAddress⟩, ciphersuite
          log := s.log ++ [.session] }
  | unparsed (chunk : Chunk) (hdocument : documentOf lib chunk = none) :
      Move lib s (.read chunk) { s with control := .returned }
  | crashed (chunk : Chunk) (f : Fault)
      (hcrash : documentOf lib chunk = some .endless ∨
        ∃ root, documentOf lib chunk = some (.tree root) ∧
          (answerTo root).reply lib s.device (decimalString s.msgNum.toInt) = .error f) :
      Move lib s (.read chunk) { s with control := .faulted f }
  | message (chunk : Chunk) (root : XmlNode) (reply : Reply) (c : Control)
      (hreading : s.control = .reading)
      (hdocument : documentOf lib chunk = some (.tree root))
      (hreply : (answerTo root).reply lib s.device (decimalString s.msgNum.toInt) = .ok reply)
      (hc : (∃ f, c = .faulted f ∧ formatReply reply.text s.ciphersuite .all = .error f) ∨
        ∃ buf, c = .writing buf (requestArray root) ∧
          formatReply reply.text s.ciphersuite .all = .ok (buf, .all)) :
      Move lib s (.read chunk)
        { s with
          control := c, device := (answerTo root).update s.device
          log := s.log ++ [.exchange ⟨root, s.device, s.msgNum, reply⟩] }
  | sent (ret result : ℤ) (buf : List UInt8) (array : KeyValuePairArray)
      (hwriting : s.control = .writing buf array) (hturn : writeTurn ret = some result) :
      Move lib s (.write ret)
        { s with
          msgNum := s.msgNum + 1
          control := if result = RESET then .accepting else if result = EXIT then .exited
            else .reading }

theorem formatReply_eq_ok {reply : CString} {ciphersuite : Printf.Argument}
    {supply supply' : Supply} {buf : List UInt8} :
    formatReply reply ciphersuite supply = .ok (buf, supply') ↔
      Printf.sprintf reply.bytes ciphersuite = some buf ∧ buf.length < 1024 ∧ supply' = supply := by
  rw [formatReply]
  cases Printf.sprintf reply.bytes ciphersuite with
  | none =>
    constructor
    · intro h
      cases h
    · rintro ⟨h, -⟩
      cases h
  | some out =>
    dsimp only
    split_ifs with hfits
    · constructor
      · intro h
        cases h
        exact ⟨rfl, hfits, rfl⟩
      · rintro ⟨h, -, rfl⟩
        cases h
        rfl
    · constructor
      · intro h
        cases h
      · rintro ⟨h, hlength, -⟩
        cases h
        exact absurd hlength hfits

theorem afterHandshake_move (lib : Libxml2) {s : Server} (hs : Sound s) (ret : ℤ)
    (ciphersuite : Printf.Argument) :
    Move lib s (.handshake ret ciphersuite) (s.afterHandshake ret ciphersuite) := by
  obtain ⟨control, msgNum, device, ciphersuite', supply, log⟩ := s
  obtain rfl : supply = .all := hs.supply
  rw [Server.afterHandshake]
  split_ifs with h0 hagain
  · subst h0
    have hinit : initAbcc ⟨none⟩ Supply.all = .ok ((⟨some initialAddress⟩, 0), .all) :=
      initAbcc_yields ⟨none⟩
    rw [hinit]
    exact .session ciphersuite
  · exact .stay _ trivial
  · exact .wait _ _ trivial (.inr (.inr rfl))

theorem afterRead_move (lib : Libxml2) {s : Server} (hs : Sound s) (hreading : s.control = .reading)
    (chunk : Chunk) : Move lib s (.read chunk) (s.afterRead lib chunk) := by
  obtain ⟨control, msgNum, device, ciphersuite, supply, log⟩ := s
  obtain rfl : supply = .all := hs.supply
  rw [Server.afterRead, handleMessage_eq]
  dsimp only
  cases hdoc : documentOf lib chunk with
  | none => exact .unparsed chunk hdoc
  | some document =>
    cases document with
    | endless => exact .crashed chunk .endlessRecursion (.inl hdoc)
    | tree root =>
      dsimp only
      cases hreply : (answerTo root).reply lib device (decimalString msgNum.toInt) with
      | error f => exact .crashed chunk f (.inr ⟨root, hdoc, hreply⟩)
      | ok reply =>
        simp only [Except.map]
        cases hformat : formatReply reply.text ciphersuite Supply.all with
        | error f => exact .message chunk root reply _ hreading hdoc hreply (.inl ⟨f, rfl, hformat⟩)
        | ok result =>
          obtain ⟨buf, supply⟩ := result
          obtain ⟨-, -, rfl⟩ := formatReply_eq_ok.mp hformat
          exact .message chunk root reply _ hreading hdoc hreply (.inr ⟨buf, rfl, hformat⟩)

theorem afterWrite_move (lib : Libxml2) {s : Server} (hs : Sound s) {buf : List UInt8}
    {array : KeyValuePairArray} (hwriting : s.control = .writing buf array) (ret : ℤ) :
    Move lib s (.write ret) (s.afterWrite array ret) := by
  obtain ⟨root, rfl⟩ := hs.array buf array hwriting
  obtain ⟨control, msgNum, device, ciphersuite, supply, log⟩ := s
  obtain rfl : supply = .all := hs.supply
  rw [Server.afterWrite]
  cases hturn : writeTurn ret with
  | none => exact .stay _ hturn
  | some result =>
    have hfree : freeKeyValuePairArray (requestArray root) Supply.all = .ok (SUCCESS, .all) :=
      freeKeyValuePairArray_yields _
    dsimp only
    rw [hfree]
    exact .sent ret result buf _ hwriting hturn

theorem step_move {lib : Libxml2} {s s' : Server} {o : Outcome} (hs : Sound s)
    (h : step lib s o = some s') : Move lib s o s' := by
  unfold step at h
  split at h
  · rename_i ret hcontrol
    cases h
    split_ifs with h0
    · exact .wait _ _ trivial (.inl rfl)
    · exact .refused ret h0
  · cases h
    exact afterHandshake_move lib hs _ _
  · rename_i hreading
    cases h
    exact afterRead_move lib hs hreading _
  · cases h
    rw [Server.afterReadError]
    split_ifs
    · exact .stay _ trivial
    · exact .wait _ _ trivial (.inr (.inl rfl))
  · rename_i hwriting
    cases h
    exact afterWrite_move lib hs hwriting _
  · cases h
    rw [Server.afterCloseNotify]
    split_ifs
    · exact .stay _ trivial
    · exact .wait _ _ trivial (.inr (.inr rfl))
  · cases h

theorem Move.sound {lib : Libxml2} {s s' : Server} {o : Outcome} (h : Move lib s o s')
    (hs : Sound s) : Sound s' := by
  cases h with
  | stay => exact hs
  | wait o c ho hc =>
    constructor
    · exact hs.supply
    · intro buf array h
      rcases hc with rfl | rfl | rfl <;> cases h
  | refused ret hret => exact ⟨hs.supply, fun buf array h => by cases h⟩
  | session ciphersuite => exact ⟨hs.supply, fun buf array h => by cases h⟩
  | unparsed chunk hdocument => exact ⟨hs.supply, fun buf array h => by cases h⟩
  | crashed chunk f hcrash => exact ⟨hs.supply, fun buf array h => by cases h⟩
  | message chunk root reply c hreading hdocument hreply hc =>
    constructor
    · exact hs.supply
    · intro buf array h
      rcases hc with ⟨f, rfl, -⟩ | ⟨buf', rfl, -⟩
      · cases h
      · cases h
        exact ⟨root, rfl⟩
  | sent ret result buf array hwriting hturn =>
    constructor
    · exact hs.supply
    · intro buf array h
      dsimp only at h
      split_ifs at h

theorem boot_sound : Sound (.boot .all) := ⟨rfl, fun buf array h => by cases h⟩

/-- What every move of a sound server preserves holds at the end of every run from the start. -/
theorem run_move_invariant {lib : Libxml2} {P : Server → Prop} (hboot : P (.boot .all))
    (hmove : ∀ s o s', P s → Move lib s o s' → P s') {os : List Outcome} {s : Server}
    (hrun : Machine.run (step lib) (.boot .all) os = some s) : P s := by
  refine (Machine.run_invariant (P := fun s => Sound s ∧ P s) ?_ hrun ⟨boot_sound, hboot⟩).2
  intro s o s' ⟨hs, hP⟩ hstep
  have hm := step_move hs hstep
  exact ⟨hm.sound hs, hmove s o s' hP hm⟩

end NetconfServer.Networking
