import NetconfServer.Networking.StoredServer
import NetconfServer.Networking.Survival

/-! # Where the server leaves what C defines

Whatever is refused and whatever is on the heap, the server runs into undefined behaviour only over a
message: over a document that has no end, over a `NULL` that a refused request or a failed dump left,
and over a data reply that is a broken format or too long for `buf`. What a library makes of it, a
crash or not, is left open.
-/

namespace NetconfServer.Networking
open Memory CString Library Parsing
variable {lib : Libxml2} {chunk : Chunk} {device : Abcc} {msgNum : Int8}

/-- Where the message in `chunk` leads out of what C defines: into a recursion without an end, into the
use of a `NULL`, for a message that is not lived through, and into a conversion without its argument
or a write beyond `buf`. -/
inductive Undefined (lib : Libxml2) (device : Abcc) (msgNum : Int8) (ciphersuite : Printf.Argument)
    (supply : Supply) (chunk : Chunk) : Fault → Prop where
  | endless (hcopied : supply 0 = true) (hdocument : documentOf lib chunk = some .endless) :
      Undefined lib device msgNum ciphersuite supply chunk .endlessRecursion
  | null (hcopied : supply 0 = true) (root : XmlNode)
      (hdocument : documentOf lib chunk = some (.tree root))
      (hdies : ¬ Lives lib root device msgNum (later supply 1)) :
      Undefined lib device msgNum ciphersuite supply chunk .nullPointer
  | unformatted (hcopied : supply 0 = true) (root : XmlNode) (text : CString) (f : Fault)
      (hdocument : documentOf lib chunk = some (.tree root))
      (hlives : Lives lib root device msgNum (later supply 1)) (hanswer : answerTo root = .data)
      (htext : dataText lib device.ipAddress (decimalString msgNum.toInt) = .ok text)
      (hformat : formatReply text ciphersuite .all = .error f) :
      Undefined lib device msgNum ciphersuite supply chunk f

theorem formatReply_error {reply : CString} {ciphersuite : Printf.Argument} {f : Fault}
    (supply : Supply) : formatReply reply ciphersuite supply = .error f ↔
      formatReply reply ciphersuite .all = .error f := by
  rw [formatReply]
  cases Printf.sprintf reply.bytes ciphersuite with
  | none => exact Iff.rfl
  | some out =>
    dsimp only
    split_ifs
    · exact iff_of_false (fun h => by cases h) fun h => by cases h
    · exact Iff.rfl

theorem reply_of_error {root : XmlNode} {array : KeyValuePairArray} {reply : Reply}
    {device' : Abcc} {ciphersuite : Printf.Argument} {f : Fault}
    (h : Handled lib root device msgNum array reply device')
    (hformat : formatReply reply.text ciphersuite .all = .error f) :
    ∃ text, answerTo root = .data ∧ reply = .data text ∧
      dataText lib device.ipAddress (decimalString msgNum.toInt) = .ok text := by
  have hreply := h.reply
  cases hanswer : answerTo root with
  | data =>
    rw [hanswer] at hreply
    obtain ⟨text, htext, rfl⟩ := data_reply_eq_ok.mp hreply
    exact ⟨text, rfl, rfl, htext⟩
  | _ =>
    rw [hanswer] at hreply
    cases hreply
    rw [formatReply_canned _ (by simp)] at hformat
    cases hformat

theorem Undefined.parsed {ciphersuite : Printf.Argument} {supply : Supply} {f : Fault}
    (h : Undefined lib device msgNum ciphersuite supply chunk f) :
    supply 0 = true ∧ documentOf lib chunk ≠ none := by
  cases h with
  | endless hcopied hdocument => simp [hcopied, hdocument]
  | null hcopied root hdocument => simp [hcopied, hdocument]
  | unformatted hcopied root text f hdocument => simp [hcopied, hdocument]

/-- Over a message that is lived through nothing but the formatting of its reply can be undefined. -/
theorem undefined_of_handled {ciphersuite : Printf.Argument} {supply : Supply} {f : Fault}
    {root : XmlNode} {array : KeyValuePairArray} {reply : Reply} {device' : Abcc}
    (hcopied : supply 0 = true) (hdocument : documentOf lib chunk = some (.tree root))
    (hlives : Lives lib root device msgNum (later supply 1))
    (hhandled : Handled lib root device msgNum array reply device') :
    Undefined lib device msgNum ciphersuite supply chunk f ↔
      formatReply reply.text ciphersuite .all = .error f := by
  constructor
  · intro hundefined
    cases hundefined with
    | endless _ h => simp [hdocument] at h
    | null _ root' h hdies =>
      obtain rfl : root = root' := by simpa [hdocument] using h
      exact absurd hlives hdies
    | unformatted _ root' text _ h _ hanswer htext hformat =>
      obtain rfl : root = root' := by simpa [hdocument] using h
      have hreply := hhandled.reply
      rw [hanswer, Answer.reply, htext] at hreply
      cases hreply
      exact hformat
  · intro hformat
    obtain ⟨text, hanswer, rfl, htext⟩ := reply_of_error hhandled hformat
    exact .unformatted hcopied root text f hdocument hlives hanswer htext hformat

/-- The array that a write is followed by can be released. -/
def Releasable (s : Server) : Prop :=
  ∀ buf array, s.control = .writing buf array →
    ∃ (c : Contents 10) (copy : Option CString), array = c.toArray (.set copy)

theorem afterRead_releasable {s : Server} : Releasable (s.afterRead lib chunk) := by
  intro buf array h
  have hmessage := handleMessage_at lib chunk s.device s.msgNum s.supply
  rw [Server.afterRead] at h
  cases hhandle : handleMessage lib (.ofBuffer chunk.bytes) s.device s.msgNum s.supply with
  | error f =>
    rw [hhandle] at h
    cases h
  | ok r =>
    obtain ⟨m, supply⟩ := r
    rw [hhandle] at h hmessage
    cases m with
    | none => cases h
    | some m =>
      dsimp only at h
      cases hformat : formatReply m.reply.text s.ciphersuite supply with
      | error f =>
        rw [hformat] at h
        cases h
      | ok r =>
        rw [hformat] at h
        cases h
        exact hmessage.2.2.2.array

/-- When the read of a message ends in a fault, and in which. -/
theorem afterRead_faulted_iff {s : Server} {f : Fault} :
    (s.afterRead lib chunk).control = .faulted f ↔
      Undefined lib s.device s.msgNum s.ciphersuite s.supply chunk f := by
  have hmessage := handleMessage_at lib chunk s.device s.msgNum s.supply
  rw [Server.afterRead]
  cases hhandle : handleMessage lib (.ofBuffer chunk.bytes) s.device s.msgNum s.supply with
  | error f' =>
    rw [hhandle] at hmessage
    obtain ⟨hcopied, hmessage⟩ := hmessage
    dsimp only
    constructor
    · rintro ⟨⟩
      rcases hmessage with ⟨hdocument, rfl⟩ | ⟨root, hdocument, rfl, hdies⟩
      · exact .endless hcopied hdocument
      · exact .null hcopied root hdocument hdies
    · intro hundefined
      rcases hmessage with ⟨hdocument, rfl⟩ | ⟨root, hdocument, rfl, hdies⟩
      · cases hundefined with
        | endless => rfl
        | null _ root h => simp [hdocument] at h
        | unformatted _ root _ _ h => simp [hdocument] at h
      · cases hundefined with
        | endless _ h => simp [hdocument] at h
        | null => rfl
        | unformatted _ root' _ _ h hlives =>
          obtain rfl : root = root' := by simpa [hdocument] using h
          exact absurd hlives hdies
  | ok r =>
    obtain ⟨m, supply⟩ := r
    rw [hhandle] at hmessage
    cases m with
    | none =>
      refine iff_of_false (fun h => by cases h) fun hundefined => ?_
      obtain ⟨hcopied, hdocument⟩ := hundefined.parsed
      rcases hmessage with hrefused | hnone
      · simp [hcopied] at hrefused
      · exact hdocument hnone
    | some m =>
      obtain ⟨hcopied, hdocument, hlives, hhandled⟩ := hmessage
      rw [undefined_of_handled hcopied hdocument hlives hhandled, ← formatReply_error supply]
      dsimp only
      cases formatReply m.reply.text s.ciphersuite supply with
      | error f' => simp
      | ok r => exact iff_of_false (fun h => by cases h) fun h => by cases h

/-- Neither a reply to write nor a fault. -/
def Control.Idle : Control → Prop
  | .writing _ _ | .faulted _ => False
  | _ => True

theorem afterHandshake_idle {s : Server} (ret : ℤ) (ciphersuite : Printf.Argument)
    (hcontrol : s.control = .handshaking) : (s.afterHandshake ret ciphersuite).control.Idle := by
  have hinit : Ends (initAbcc ⟨none⟩) (fun _ => True) (fun _ => False) := by
    apply (strdup_ends initialAddress).bind
    intro copy _
    exact Ends.ite (fun _ => .pure trivial) fun _ => .pure trivial
  rw [Server.afterHandshake]
  split_ifs
  · cases hresult : initAbcc ⟨none⟩ s.supply with
    | error f => exact (hinit.of_error hresult).elim
    | ok r => trivial
  · rw [hcontrol]
    trivial
  · trivial

theorem afterWrite_idle {s : Server} {buf : List UInt8} {array : KeyValuePairArray} (ret : ℤ)
    (hcontrol : s.control = .writing buf array) (hs : Releasable s) :
    s.afterWrite array ret = s ∨ (s.afterWrite array ret).control.Idle := by
  obtain ⟨c, copy, rfl⟩ := hs buf array hcontrol
  rw [Server.afterWrite]
  cases writeTurn ret with
  | none => exact .inl rfl
  | some result =>
    right
    rw [freeKeyValuePairArray_eq]
    change (if result = RESET then Control.accepting else if result = EXIT then .exited
      else .reading).Idle
    split_ifs <;> trivial

/-- A step into a fault is the read of a message, and every step leaves what can be released. -/
structure Accounted (lib : Libxml2) (s : Server) (o : Outcome) (s' : Server) : Prop where
  releasable : Releasable s'
  undefined : ∀ f, s'.control = .faulted f → ∃ chunk, o = .read chunk ∧ s.control = .reading ∧
    Undefined lib s.device s.msgNum s.ciphersuite s.supply chunk f

theorem Accounted.of_idle {s s' : Server} {o : Outcome} (h : s'.control.Idle) :
    Accounted lib s o s' := by
  constructor
  · intro buf array hcontrol
    rw [hcontrol] at h
    exact h.elim
  · intro f hcontrol
    rw [hcontrol] at h
    exact h.elim

theorem step_accounted {s s' : Server} {o : Outcome} (hs : Releasable s)
    (h : step lib s o = some s') : Accounted lib s o s' := by
  unfold step at h
  split at h
  · cases h
    apply Accounted.of_idle
    dsimp only
    split_ifs <;> trivial
  · rename_i ret ciphersuite hcontrol
    cases h
    exact .of_idle (afterHandshake_idle ret ciphersuite hcontrol)
  · rename_i chunk hcontrol
    cases h
    refine ⟨afterRead_releasable, fun f hfault => ?_⟩
    exact ⟨chunk, rfl, hcontrol, afterRead_faulted_iff.mp hfault⟩
  · rename_i ret hcontrol
    cases h
    apply Accounted.of_idle
    rw [Server.afterReadError]
    split_ifs
    · rw [hcontrol]
      trivial
    · trivial
  · rename_i buf array ret hcontrol
    cases h
    rcases afterWrite_idle ret hcontrol hs with hstay | hidle
    · rw [hstay]
      exact ⟨hs, fun f hfault => by rw [hcontrol] at hfault; cases hfault⟩
    · exact .of_idle hidle
  · rename_i ret hcontrol
    cases h
    apply Accounted.of_idle
    rw [Server.afterCloseNotify]
    split_ifs
    · rw [hcontrol]
      trivial
    · trivial
  · cases h

theorem run_releasable {supply : Supply} {os : List Outcome} {s : Server}
    (hrun : Machine.run (step lib) (.boot supply) os = some s) : Releasable s :=
  Machine.run_invariant (fun _ _ _ hs h => (step_accounted hs h).releasable) hrun
    fun buf array h => by cases h

namespace Stored
open Parsing.Stored (Block)
variable {s' : Server} {s : Networking.Server}

/-- At a read the two servers leave what C defines over the same messages. -/
theorem Tracks.undefined_at_iff (h : Tracks False s' s) (hreading : s.control = .reading) {f : Fault} :
    Undefined lib ⟨s'.address⟩ s'.msgNum s'.ciphersuite s'.memory.2 chunk f ↔
      Undefined lib s.device s.msgNum s.ciphersuite s.supply chunk f := by
  cases h with
  | faulted f' _ hcontrol =>
    rw [hreading] at hcontrol
    cases hcontrol
  | working held _ hworking =>
    rw [hworking.address, hworking.msgNum, hworking.ciphersuite, hworking.supply]

/-- Under any heap and any refusals, a run leaves what C defines exactly over the message of its last
read: the copy of the message was granted, and its document is endless, or a request for memory was
refused that the message does not live through or the dump for its data reply failed, or that reply
is a broken format or does not fit in `buf`. No run misuses the heap. -/
theorem runs_undefined_iff (lib : Libxml2) (heap : Heap Block) (supply : Supply) (os : List Outcome)
    (f : HeapFault Fault) :
    (∃ t', Machine.run (step lib) (.boot (heap, supply)) os = some t' ∧ t'.control = .faulted f) ↔
      ∃ os' chunk s' f', os = os' ++ [.read chunk] ∧
        Machine.run (step lib) (.boot (heap, supply)) os' = some s' ∧ s'.control = .reading ∧
        f = .code f' ∧ Undefined lib ⟨s'.address⟩ s'.msgNum s'.ciphersuite s'.memory.2 chunk f' := by
  have hboot := @boot_tracks False heap supply False.elim
  have hstep := fun t' t o (h : Tracks False t' t) => step_tracks lib h o
  constructor
  · rintro ⟨t', hrun, hundefined⟩
    rcases List.eq_nil_or_concat' os with rfl | ⟨os', o, rfl⟩
    · cases hrun
      cases hundefined
    · obtain ⟨s', s, t, hs', -, hs, htracks, ht, hnext⟩ := Machine.lockstep_last hstep hboot hrun
      obtain ⟨f', rfl, hfault⟩ := hnext.faulted_iff.mp hundefined
      obtain ⟨chunk, rfl, hreading, h⟩ := (step_accounted (run_releasable hs) ht).undefined f' hfault
      exact ⟨os', chunk, s', f', rfl, hs', htracks.reading_iff.mpr hreading, rfl,
        (htracks.undefined_at_iff hreading).mpr h⟩
  · rintro ⟨os', chunk, s', f', rfl, hs', hreading', rfl, hundefined⟩
    have hread : step lib s' (.read chunk) = some (s'.afterRead lib chunk) := by
      unfold step
      rw [hreading']
    have hrun : Machine.run (step lib) (.boot (heap, supply)) (os' ++ [.read chunk]) =
        some (s'.afterRead lib chunk) := by
      rw [Machine.run_concat, hs', Option.bind_some, hread]
    refine ⟨_, hrun, ?_⟩
    obtain ⟨_, s, t, hu', -, -, htracks, ht, hnext⟩ := Machine.lockstep_last hstep hboot hrun
    obtain rfl := Option.some.inj (hs'.symm.trans hu')
    have hreading := htracks.reading_iff.mp hreading'
    have hread' : Networking.step lib s (.read chunk) = some (s.afterRead lib chunk) := by
      unfold Networking.step
      rw [hreading]
    obtain rfl := Option.some.inj (hread'.symm.trans ht)
    have hfault := afterRead_faulted_iff.mpr ((htracks.undefined_at_iff hreading).mp hundefined)
    exact hnext.faulted_iff.mpr ⟨f', rfl, hfault⟩

end Stored

end NetconfServer.Networking
