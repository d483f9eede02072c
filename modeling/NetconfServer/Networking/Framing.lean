import NetconfServer.Library.Framed
import NetconfServer.Networking.Availability
import NetconfServer.Networking.Device

/-! # Reads and messages

The loop takes every read for one message. `answering` is the loop without the texts: it meets the
answers that the reads ask for. So the stream is served like its messages when it is cut into as many
reads as messages, each with what is left of one message, its delimiter and perhaps a head of the
next one that makes no difference to it.
-/

namespace NetconfServer.Networking
open Memory CString Library Parsing

/-! ## The loop over a list of reads -/

/-- A read, and a write that takes the whole reply. A server that no longer reads stays as it is. -/
def deliver (lib : Libxml2) (s : Server) (chunk : Chunk) : Server :=
  match step lib s (.read chunk) with
  | none => s
  | some t =>
    match t.control with
    | .writing buf _ => (step lib t (.write buf.length)).getD t
    | _ => t

def serve (lib : Libxml2) (s : Server) (reads : List Chunk) : Server := reads.foldl (deliver lib) s

def repliesIn (log : List Event) : List Reply :=
  log.filterMap fun e => match e with | .session => none | .exchange e => some e.reply

/-- The answer to a document; `none` when the text is none or has no end. -/
def answerOf (lib : Libxml2) (text : CString) : Option Answer :=
  match lib.xmlReadMemory text with
  | some (.tree root) => some (answerTo root)
  | _ => none

/-- The answer that a read asks for. -/
def answerIn (lib : Libxml2) (chunk : Chunk) : Option Answer :=
  answerOf lib (cutAtDelimiter (.ofBuffer chunk.bytes))

/-- The replies to a list of answers, the device they leave, and whether the server reads on. -/
def answering (lib : Libxml2) (ciphersuite : Printf.Argument) :
    Abcc → Int8 → List (Option Answer) → List Reply × Abcc × Bool
  | device, _, [] => ([], device, true)
  | device, _, none :: _ => ([], device, false)
  | device, msgNum, some a :: as =>
    match a.reply lib device (decimalString msgNum.toInt) with
    | .error _ => ([], device, false)
    | .ok reply =>
      match formatReply reply.text ciphersuite .all with
      | .error _ => ([reply], a.update device, false)
      | .ok (buf, _) =>
        if buf = [] then ([reply], a.update device, false)
        else
          let (replies, device, reading) :=
            answering lib ciphersuite (a.update device) (msgNum + 1) as
          (reply :: replies, device, reading)

variable {lib : Libxml2} {ciphersuite : Printf.Argument}

/-- Serving a list of reads is a run of the machine. -/
theorem serve_run (s : Server) (reads : List Chunk) :
    ∃ os, Machine.run (step lib) s os = some (serve lib s reads) := by
  induction reads generalizing s with
  | nil => exact ⟨[], rfl⟩
  | cons chunk reads ih =>
    have hone : ∃ os, Machine.run (step lib) s os = some (deliver lib s chunk) := by
      rw [deliver]
      cases hread : step lib s (.read chunk) with
      | none => exact ⟨[], rfl⟩
      | some t =>
        have hrun : Machine.run (step lib) s [.read chunk] = some t := by
          rw [Machine.run_cons, hread]
          rfl
        dsimp only
        split
        · rename_i buf array hcontrol
          cases hwrite : step lib t (.write buf.length) with
          | none => exact ⟨_, hrun⟩
          | some u =>
            refine ⟨[.read chunk] ++ [.write buf.length], ?_⟩
            rw [Machine.run_append_of_eq hrun, Machine.run_cons, hwrite]
            rfl
        · exact ⟨_, hrun⟩
    obtain ⟨os₁, h₁⟩ := hone
    obtain ⟨os₂, h₂⟩ := ih (deliver lib s chunk)
    exact ⟨os₁ ++ os₂, by rw [Machine.run_append_of_eq h₁, h₂]; rfl⟩

theorem serve_of_not_reading {s : Server} (h : s.control ≠ .reading) (reads : List Chunk) :
    serve lib s reads = s := by
  induction reads with
  | nil => rfl
  | cons chunk reads ih =>
    have hstep : step lib s (.read chunk) = none := by
      unfold step
      split
      all_goals simp_all
    have hdeliver : deliver lib s chunk = s := by
      rw [deliver, hstep]
    rw [serve, List.foldl_cons, hdeliver]
    exact ih

theorem repliesIn_exchange (log : List Event) (e : Exchange) :
    repliesIn (log ++ [.exchange e]) = repliesIn log ++ [e.reply] := by
  rw [repliesIn, List.filterMap_append]
  rfl

/-- The server no longer reads, and its log and device are these. -/
def Ended (t : Server) (log : List Event) (device : Abcc) : Prop :=
  t.control ≠ .reading ∧ t.log = log ∧ t.device = device

/-- What becomes of a read that asks for an answer. -/
inductive Delivery (lib : Libxml2) (log : List Event) (device : Abcc) (msgNum : Int8)
    (ciphersuite : Printf.Argument) : Option Answer → Server → Prop where
  | nothing (t : Server) (hended : Ended t log device) :
      Delivery lib log device msgNum ciphersuite none t
  | unbuilt (t : Server) (a : Answer) (f : Fault)
      (hreply : a.reply lib device (decimalString msgNum.toInt) = .error f)
      (hended : Ended t log device) : Delivery lib log device msgNum ciphersuite (some a) t
  | last (t : Server) (a : Answer) (e : Exchange)
      (hreply : a.reply lib device (decimalString msgNum.toInt) = .ok e.reply)
      (hformat : (∃ f, formatReply e.reply.text ciphersuite .all = .error f) ∨
        formatReply e.reply.text ciphersuite .all = .ok ([], .all))
      (hended : Ended t (log ++ [.exchange e]) (a.update device)) :
      Delivery lib log device msgNum ciphersuite (some a) t
  | answered (a : Answer) (e : Exchange) (buf : List UInt8)
      (hreply : a.reply lib device (decimalString msgNum.toInt) = .ok e.reply)
      (hformat : formatReply e.reply.text ciphersuite .all = .ok (buf, .all)) (hbuf : buf ≠ []) :
      Delivery lib log device msgNum ciphersuite (some a)
        (.ready (log ++ [.exchange e]) (a.update device) (msgNum + 1) ciphersuite)

/-- The write of an empty reply ends the process. -/
theorem step_write_empty (log : List Event) (device : Abcc) (msgNum : Int8) (root : XmlNode) :
    step lib { Server.ready log device msgNum ciphersuite with
        control := .writing [] (requestArray root) } (.write 0) =
      some { Server.ready log device (msgNum + 1) ciphersuite with control := .exited } := by
  have hturn : writeTurn 0 = some EXIT := by decide
  rw [step_written hturn]
  rfl

theorem deliver_ready (lib : Libxml2) (ciphersuite : Printf.Argument) (log : List Event)
    (device : Abcc) (msgNum : Int8) (chunk : Chunk) :
    Delivery lib log device msgNum ciphersuite (answerIn lib chunk)
      (deliver lib (.ready log device msgNum ciphersuite) chunk) := by
  have hstep : step lib (.ready log device msgNum ciphersuite) (.read chunk) =
      some ((Server.ready log device msgNum ciphersuite).afterRead lib chunk) := rfl
  have hmove := step_move ⟨rfl, fun buf array h => by cases h⟩ hstep
  have hanswer : answerIn lib chunk = match documentOf lib chunk with
    | some (.tree root) => some (answerTo root)
    | _ => none := rfl
  rw [deliver, hstep, hanswer]
  generalize (Server.ready log device msgNum ciphersuite).afterRead lib chunk = t at hmove
  cases hmove with
  | stay o ho => exact absurd ho id
  | wait o c ho hc => exact absurd ho id
  | unparsed chunk hdocument =>
    rw [hdocument]
    exact .nothing _ ⟨by simp, rfl, rfl⟩
  | crashed chunk f hcrash =>
    rcases hcrash with hdocument | ⟨root, hdocument, hreply⟩
    · rw [hdocument]
      exact .nothing _ ⟨by simp, rfl, rfl⟩
    · rw [hdocument]
      exact .unbuilt _ _ f hreply ⟨by simp, rfl, rfl⟩
  | message chunk root reply c hreading hdocument hreply hc =>
    rw [hdocument]
    rcases hc with ⟨f, rfl, hformat⟩ | ⟨buf, rfl, hformat⟩
    · exact .last _ _ ⟨root, device, msgNum, reply⟩ hreply (.inl ⟨f, hformat⟩) ⟨by simp, rfl, rfl⟩
    · change Delivery lib log device msgNum ciphersuite (some (answerTo root)) (Option.getD (step lib
        { Server.ready (log ++ [.exchange ⟨root, device, msgNum, reply⟩])
          ((answerTo root).update device) msgNum ciphersuite with
          control := .writing buf (requestArray root) } (.write buf.length)) _)
      by_cases hbuf : buf = []
      · subst hbuf
        change Delivery lib log device msgNum ciphersuite _ (Option.getD (step lib _ (.write 0)) _)
        rw [step_write_empty]
        exact .last _ _ ⟨root, device, msgNum, reply⟩ hreply (.inr hformat) ⟨by simp, rfl, rfl⟩
      · have hpos : (0 : ℤ) < buf.length := by exact_mod_cast List.length_pos_of_ne_nil hbuf
        rw [step_write buf.length hpos]
        exact .answered _ ⟨root, device, msgNum, reply⟩ buf hreply hformat hbuf

/-- What a server has come to: the replies it gave, its device, and whether it reads on. -/
def ComesTo (t : Server) (replies : List Reply) (service : List Reply × Abcc × Bool) : Prop :=
  repliesIn t.log = replies ++ service.1 ∧ t.device = service.2.1 ∧
    (t.control = .reading ↔ service.2.2 = true)

theorem Ended.comesTo {t : Server} {log : List Event} {device : Abcc} (h : Ended t log device)
    {replies added : List Reply} (hlog : repliesIn log = replies ++ added) :
    ComesTo t replies (added, device, false) := by
  obtain ⟨hcontrol, rfl, rfl⟩ := h
  exact ⟨hlog, rfl, by simp [hcontrol]⟩

/-- The loop over the reads is the answering of what they ask for. -/
theorem serve_eq_answering (lib : Libxml2) (ciphersuite : Printf.Argument) (reads : List Chunk)
    (log : List Event) (device : Abcc) (msgNum : Int8) :
    ComesTo (serve lib (.ready log device msgNum ciphersuite) reads) (repliesIn log)
      (answering lib ciphersuite device msgNum (reads.map (answerIn lib))) := by
  induction reads generalizing log device msgNum with
  | nil => exact ⟨(List.append_nil _).symm, rfl, by simp [serve, Server.ready, answering]⟩
  | cons chunk reads ih =>
    rw [serve, List.foldl_cons, ← serve, List.map_cons]
    have hdelivery := deliver_ready lib ciphersuite log device msgNum chunk
    generalize deliver lib (.ready log device msgNum ciphersuite) chunk = t, answerIn lib chunk = asked
      at hdelivery
    cases hdelivery with
    | nothing t hended =>
      rw [serve_of_not_reading hended.1]
      exact hended.comesTo (List.append_nil _).symm
    | unbuilt t a f hreply hended =>
      rw [serve_of_not_reading hended.1, answering, hreply]
      exact hended.comesTo (List.append_nil _).symm
    | last t a e hreply hformat hended =>
      rw [serve_of_not_reading hended.1, answering, hreply]
      dsimp only
      rcases hformat with ⟨f, hformat⟩ | hformat
      · rw [hformat]
        exact hended.comesTo (repliesIn_exchange log e)
      · rw [hformat]
        dsimp only
        rw [if_pos rfl]
        exact hended.comesTo (repliesIn_exchange log e)
    | answered a e buf hreply hformat hbuf =>
      obtain ⟨hlog, hdevice, hcontrol⟩ := ih (log ++ [.exchange e]) (a.update device) (msgNum + 1)
      rw [answering, hreply]
      dsimp only
      rw [hformat]
      dsimp only
      rw [if_neg hbuf]
      refine ⟨?_, hdevice, hcontrol⟩
      rw [hlog, repliesIn_exchange, List.append_assoc]
      rfl

/-- A server that reads on has answered everything it was asked. -/
theorem answering_reading {as : List (Option Answer)} {device : Abcc} {msgNum : Int8}
    (h : (answering lib ciphersuite device msgNum as).2.2 = true) :
    (answering lib ciphersuite device msgNum as).1.length = as.length ∧ ∀ a ∈ as, a.isSome := by
  induction as generalizing device msgNum with
  | nil => exact ⟨rfl, by simp⟩
  | cons a as ih =>
    cases a with
    | none => cases h
    | some a =>
      rw [answering] at h ⊢
      cases hreply : a.reply lib device (decimalString msgNum.toInt) with
      | error f =>
        rw [hreply] at h
        cases h
      | ok reply =>
        rw [hreply] at h
        dsimp only at h ⊢
        cases hformat : formatReply reply.text ciphersuite .all with
        | error f =>
          rw [hformat] at h
          cases h
        | ok result =>
          rw [hformat] at h
          dsimp only at h ⊢
          by_cases hbuf : result.1 = []
          · rw [if_pos hbuf] at h
            cases h
          · rw [if_neg hbuf] at h ⊢
            obtain ⟨hlength, hall⟩ := ih h
            exact ⟨congrArg (· + 1) hlength, List.forall_mem_cons.mpr ⟨rfl, hall⟩⟩

/-! ## A stream in whole messages and in reads -/

/-- A message of a size that one read holds with its delimiter. -/
abbrev Message := {text : CString // text.bytes.length ≤ 1017}

/-- One read for each message. -/
def wholeReads (messages : List Message) : List Chunk := messages.map fun d => frame d.1 d.2

/-- The same replies, the same device at the end, and a server that reads on or not in both cases. -/
def SameService (lib : Libxml2) (s : Server) (reads reads' : List Chunk) : Prop :=
  repliesIn (serve lib s reads).log = repliesIn (serve lib s reads').log ∧
    (serve lib s reads).device = (serve lib s reads').device ∧
    ((serve lib s reads).control = .reading ↔ (serve lib s reads').control = .reading)

theorem sameService_of_answers {reads reads' : List Chunk} (log : List Event) (device : Abcc)
    (msgNum : Int8) (h : reads.map (answerIn lib) = reads'.map (answerIn lib)) :
    SameService lib (.ready log device msgNum ciphersuite) reads reads' := by
  obtain ⟨hlog, hdevice, hcontrol⟩ := serve_eq_answering lib ciphersuite reads log device msgNum
  obtain ⟨hlog', hdevice', hcontrol'⟩ := serve_eq_answering lib ciphersuite reads' log device msgNum
  rw [h] at hlog hdevice hcontrol
  exact ⟨hlog.trans hlog'.symm, hdevice.trans hdevice'.symm, hcontrol.trans hcontrol'.symm⟩

/-- A server that read on has given a reply to each read. -/
theorem answers_of_reading {reads : List Chunk} {log : List Event} {device : Abcc} {msgNum : Int8}
    (h : (serve lib (.ready log device msgNum ciphersuite) reads).control = .reading) :
    (repliesIn (serve lib (.ready log device msgNum ciphersuite) reads).log).length =
        (repliesIn log).length + reads.length ∧
      ∀ chunk ∈ reads, (answerIn lib chunk).isSome := by
  obtain ⟨hlog, -, hcontrol⟩ := serve_eq_answering lib ciphersuite reads log device msgNum
  obtain ⟨hlength, hall⟩ := answering_reading (hcontrol.mp h)
  rw [hlog, List.length_append, hlength, List.length_map]
  exact ⟨rfl, fun chunk hchunk => hall _ (List.mem_map_of_mem hchunk)⟩

/-- A text that libxml2 takes for a document. -/
def Accepts (lib : Libxml2) (text : List UInt8) : Prop :=
  0 ∉ text ∧ (lib.xmlReadMemory (.ofBuffer text)).isSome

/-- No well-formed document is empty, begins with `]` or `>`, or ends with `]` or `]]>`. -/
structure ReadsXml (lib : Libxml2) : Prop where
  nonempty : lib.xmlReadMemory .empty = none
  start : ∀ text, (lib.xmlReadMemory text).isSome → 93 ∉ text.bytes.head? ∧ 62 ∉ text.bytes.head?
  finish : ∀ text, (lib.xmlReadMemory text).isSome →
    ¬ (lit "]").bytes <:+ text.bytes ∧ ¬ (lit "]]>").bytes <:+ text.bytes

/-- The reads hold the messages one each: what is left of it after the read before, its delimiter and
a head of the next. The messages after the first are cut into heads and tails. -/
def CutAs (reads : List Chunk) (cuts : List (List UInt8 × List UInt8)) : List Message → Prop
  | [] => reads = []
  | first :: later => later.map (fun d => d.1.bytes) = cuts.map (fun cut => cut.1 ++ cut.2) ∧
      reads.map Chunk.bytes = Framed.readsOf endOfMessage.bytes first.1.bytes cuts

/-- Each message is answered in the same way without the head that came before. -/
def HeardAlike (lib : Libxml2) (cuts : List (List UInt8 × List UInt8)) : Prop :=
  ∀ cut ∈ cuts, answerOf lib (.ofBuffer cut.2) = answerOf lib (.ofBuffer (cut.1 ++ cut.2))

/-- No two documents stand side by side at the end of the message, and a document that ends it is
answered as it is. It is so unless a comment or a processing instruction hides markup. -/
structure Plain (lib : Libxml2) (d : CString) : Prop where
  undivided : Framed.Undivided (Accepts lib) d.bytes
  tails : ∀ head tail, d.bytes = head ++ tail → Accepts lib tail →
    answerOf lib (.ofBuffer tail) = answerOf lib d

/-- A beginning of the delimiter ends with `]` or is `]]>`. -/
theorem delimiter_beginning {part rest : List UInt8} (hpart : part ≠ []) (hrest : rest ≠ [])
    (h : endOfMessage.bytes = part ++ rest) :
    (lit "]").bytes <:+ part ∨ (lit "]]>").bytes <:+ part := by
  have htake : part = endOfMessage.bytes.take part.length :=
    List.prefix_iff_eq_take.mp ⟨rest, h.symm⟩
  have hlength := congrArg List.length h
  have hpos := List.length_pos_of_ne_nil hpart
  have hpos' := List.length_pos_of_ne_nil hrest
  have hend : endOfMessage.bytes.length = 6 := by decide
  rw [List.length_append, hend] at hlength
  have hshort : part.length < 6 := by omega
  generalize part.length = n at *
  subst htake
  interval_cases n <;> decide

theorem ReadsXml.separate (hxml : ReadsXml lib) :
    Framed.Separate endOfMessage.bytes (Accepts lib) := by
  constructor
  · rintro ⟨-, haccepts⟩
    rw [show CString.ofBuffer [] = .empty from rfl, hxml.nonempty] at haccepts
    cases haccepts
  · rintro a text ⟨hnul, haccepts⟩ hmem
    obtain ⟨hbracket, hgreater⟩ := hxml.start _ haccepts
    rw [ofBuffer_of_noNul hnul] at hbracket hgreater
    have hbytes : ∀ b ∈ endOfMessage.bytes, b = 93 ∨ b = 62 := by decide +kernel
    rcases hbytes a hmem with rfl | rfl
    · exact hbracket rfl
    · exact hgreater rfl
  · rintro text part rest hpart hrest hdelimiter ⟨hnul, haccepts⟩
    obtain ⟨hbracket, hborder⟩ := hxml.finish _ haccepts
    rw [ofBuffer_of_noNul hnul] at hbracket hborder
    rcases delimiter_beginning hpart hrest hdelimiter with hends | hends
    · exact hbracket (hends.trans (List.suffix_append text part))
    · exact hborder (hends.trans (List.suffix_append text part))

/-- A message without a delimiter in it is clear of it, whatever follows. -/
theorem ReadsXml.clear (hxml : ReadsXml lib) {d : CString}
    (h : ¬ endOfMessage.bytes <:+: d.bytes ∧ (lib.xmlReadMemory d).isSome) :
    Framed.Clear endOfMessage.bytes d.bytes := by
  have haccepts : Accepts lib d.bytes := ⟨d.noNul, by simpa using h.2⟩
  exact hxml.separate.clear haccepts h.1

/-- What is read of a chunk without NUL bytes. -/
theorem cutAtDelimiter_chunk {chunk : Chunk} (h : 0 ∉ chunk.bytes) :
    cutAtDelimiter (.ofBuffer chunk.bytes) = .ofBuffer (before endOfMessage.bytes chunk.bytes) := by
  have hbefore : 0 ∉ before endOfMessage.bytes chunk.bytes := fun hmem =>
    h ((before_isPrefix _ _).subset hmem)
  apply CString.ext
  rw [ofBuffer_of_noNul hbefore, cutAtDelimiter]
  dsimp only
  rw [ofBuffer_of_noNul h]

theorem answerIn_frame {d : Message} (h : Framed.Clear endOfMessage.bytes d.1.bytes) :
    answerIn lib (frame d.1 d.2) = answerOf lib d.1 := by
  have hcut := h.before_eq []
  rw [List.append_nil] at hcut
  have hdocument := documentOf_frame lib d.2 hcut
  rw [documentOf] at hdocument
  rw [answerIn, answerOf, hdocument, answerOf]

section Stream
variable {messages : List Message} {reads : List Chunk} {cuts : List (List UInt8 × List UInt8)}

theorem noNul_of_stream
    (hstream : reads.flatMap Chunk.bytes = messages.flatMap fun d => (d.1 ++ endOfMessage).bytes) :
    ∀ chunk ∈ reads, 0 ∉ chunk.bytes := by
  intro chunk hchunk hnul
  have hmem : 0 ∈ reads.flatMap Chunk.bytes := List.mem_flatMap.mpr ⟨chunk, hchunk, hnul⟩
  rw [hstream] at hmem
  obtain ⟨d, -, hd⟩ := List.mem_flatMap.mp hmem
  exact (d.1 ++ endOfMessage).noNul hd

/-- The reads ask for the answers of the messages that they are cut from. -/
theorem answers_of_cut (hclear : ∀ d ∈ messages, Framed.Clear endOfMessage.bytes d.1.bytes)
    (hnul : ∀ chunk ∈ reads, 0 ∉ chunk.bytes) (hcut : CutAs reads cuts messages)
    (halike : HeardAlike lib cuts) :
    reads.map (answerIn lib) = (wholeReads messages).map (answerIn lib) := by
  have hwhole : (wholeReads messages).map (answerIn lib) =
      messages.map fun d => answerOf lib d.1 := by
    rw [wholeReads, List.map_map]
    exact List.map_congr_left fun d hd => answerIn_frame (hclear d hd)
  rw [hwhole]
  cases messages with
  | nil =>
    obtain rfl : reads = [] := hcut
    rfl
  | cons first later =>
    obtain ⟨hlater, hreads⟩ := hcut
    obtain ⟨hfirst, hclear⟩ := List.forall_mem_cons.mp hclear
    have hread : reads.map (answerIn lib) =
        ((reads.map Chunk.bytes).map (before endOfMessage.bytes)).map
          fun text => answerOf lib (.ofBuffer text) := by
      rw [List.map_map, List.map_map]
      apply List.map_congr_left
      intro chunk hchunk
      rw [answerIn, cutAtDelimiter_chunk (hnul chunk hchunk)]
      rfl
    have htails : ∀ cut ∈ cuts, Framed.Clear endOfMessage.bytes cut.2 := by
      intro cut hcut
      have hmem : cut.1 ++ cut.2 ∈ later.map fun d => d.1.bytes := by
        rw [hlater]
        exact List.mem_map_of_mem hcut
      obtain ⟨d, hd, hbytes⟩ := List.mem_map.mp hmem
      have hwhole := hclear d hd
      rw [hbytes] at hwhole
      exact hwhole.tail
    have hmessages : later.map (fun d => answerOf lib d.1) =
        (later.map fun d => d.1.bytes).map fun text => answerOf lib (.ofBuffer text) := by
      rw [List.map_map]
      apply List.map_congr_left
      intro d _
      simp
    rw [hread, hreads, Framed.before_readsOf hfirst htails, List.map_cons, ofBuffer_bytes,
      List.map_cons, hmessages, hlater, List.map_map, List.map_map]
    exact congrArg _ (List.map_congr_left fun cut hcut => halike cut hcut)

/-- Reads that are all answered, one for each message, hold the messages one each. -/
theorem cut_of_answers (hxml : ReadsXml lib)
    (hclear : ∀ d ∈ messages, Framed.Clear endOfMessage.bytes d.1.bytes)
    (hplain : ∀ d ∈ messages, Plain lib d.1)
    (hstream : reads.flatMap Chunk.bytes = messages.flatMap fun d => (d.1 ++ endOfMessage).bytes)
    (hanswered : ∀ chunk ∈ reads, (answerIn lib chunk).isSome)
    (hlength : reads.length = messages.length) :
    ∃ cuts, CutAs reads cuts messages ∧ ∀ cut ∈ cuts, Accepts lib cut.2 := by
  cases messages with
  | nil => exact ⟨[], List.length_eq_zero_iff.mp hlength, by simp⟩
  | cons first later =>
    have hnul := noNul_of_stream hstream
    have hreads : Framed.AllAccepted endOfMessage.bytes (Accepts lib) (reads.map Chunk.bytes) := by
      intro bytes hbytes
      obtain ⟨chunk, hchunk, rfl⟩ := List.mem_map.mp hbytes
      refine ⟨chunk.nonempty, fun hmem => hnul chunk hchunk ((before_isPrefix _ _).subset hmem), ?_⟩
      have hsome := hanswered chunk hchunk
      rw [answerIn, cutAtDelimiter_chunk (hnul chunk hchunk), answerOf] at hsome
      cases hdocument : lib.xmlReadMemory (.ofBuffer (before endOfMessage.bytes chunk.bytes)) with
      | none =>
        rw [hdocument] at hsome
        cases hsome
      | some document => rfl
    have hflatten : (reads.map Chunk.bytes).flatten = first.1.bytes ++ (endOfMessage.bytes ++
        Framed.frames endOfMessage.bytes (later.map fun d => d.1.bytes)) := by
      rw [← List.flatMap_def, hstream, List.flatMap_cons, bytes_append, List.append_assoc,
        Framed.frames, List.flatMap_map]
      simp only [bytes_append]
    obtain ⟨hfirst, hlater⟩ := List.forall_mem_cons.mp hclear
    obtain ⟨hplainFirst, hplain⟩ := List.forall_mem_cons.mp hplain
    have hmessages : ∀ m ∈ later.map fun d => d.1.bytes, Framed.Clear endOfMessage.bytes m ∧
        Framed.Undivided (Accepts lib) m := by
      intro m hm
      obtain ⟨d, hd, rfl⟩ := List.mem_map.mp hm
      exact ⟨hlater d hd, (hplain d hd).undivided⟩
    obtain ⟨cuts, hcuts, hreads, -, haccepts⟩ := (Framed.reads_of_stream hxml.separate hreads
      ⟨[], hfirst, hplainFirst.undivided⟩ hmessages hflatten).2 (by simpa using hlength)
    exact ⟨cuts, ⟨hcuts, hreads⟩, haccepts⟩

theorem heardAlike_of_plain (hplain : ∀ d ∈ messages, Plain lib d.1)
    (hcut : CutAs reads cuts messages) (haccepts : ∀ cut ∈ cuts, Accepts lib cut.2)
    (hne : messages ≠ []) : HeardAlike lib cuts := by
  cases messages with
  | nil => exact absurd rfl hne
  | cons first later =>
    intro cut hmem
    have hbytes : cut.1 ++ cut.2 ∈ later.map fun d => d.1.bytes := by
      rw [hcut.1]
      exact List.mem_map_of_mem hmem
    obtain ⟨d, hd, hbytes⟩ := List.mem_map.mp hbytes
    rw [(hplain d (List.mem_cons_of_mem _ hd)).tails cut.1 cut.2 hbytes (haccepts cut hmem), ← hbytes,
      ofBuffer_bytes]

end Stream

/-- A stream of well-formed messages is served like the messages when its reads hold them one each and
a head that comes early makes no difference. Where the messages are plain and the server that gets
them whole reads on, it is so for no other reads. -/
theorem served_as_messages (hxml : ReadsXml lib) (ciphersuite : Printf.Argument) (log : List Event)
    (device : Abcc) (msgNum : Int8) (messages : List Message) (reads : List Chunk)
    (hmessages : ∀ d ∈ messages, ¬ endOfMessage.bytes <:+: d.1.bytes ∧
      (lib.xmlReadMemory d.1).isSome)
    (hstream : reads.flatMap Chunk.bytes = messages.flatMap fun d => (d.1 ++ endOfMessage).bytes) :
    (∀ cuts, CutAs reads cuts messages → HeardAlike lib cuts →
      SameService lib (.ready log device msgNum ciphersuite) reads (wholeReads messages)) ∧
    ((∀ d ∈ messages, Plain lib d.1) →
      (serve lib (.ready log device msgNum ciphersuite) (wholeReads messages)).control = .reading →
      (SameService lib (.ready log device msgNum ciphersuite) reads (wholeReads messages) ↔
        ∃ cuts, CutAs reads cuts messages ∧ ∀ cut ∈ cuts, Accepts lib cut.2)) := by
  have hclear : ∀ d ∈ messages, Framed.Clear endOfMessage.bytes d.1.bytes := fun d hd =>
    hxml.clear (hmessages d hd)
  have henough : ∀ cuts, CutAs reads cuts messages → HeardAlike lib cuts →
      SameService lib (.ready log device msgNum ciphersuite) reads (wholeReads messages) :=
    fun cuts hcut halike => sameService_of_answers log device msgNum
      (answers_of_cut hclear (noNul_of_stream hstream) hcut halike)
  refine ⟨henough, fun hplain hreading => ⟨?_, ?_⟩⟩
  · rintro ⟨hreplies, -, hcontrol⟩
    obtain ⟨hlength, -⟩ := answers_of_reading hreading
    obtain ⟨hlength', hanswered⟩ := answers_of_reading (hcontrol.mpr hreading)
    rw [hreplies, hlength, wholeReads, List.length_map] at hlength'
    exact cut_of_answers hxml hclear hplain hstream hanswered (by omega)
  · rintro ⟨cuts, hcut, haccepts⟩
    by_cases hne : messages = []
    · subst hne
      obtain rfl : reads = [] := hcut
      exact ⟨rfl, rfl, Iff.rfl⟩
    · exact henough cuts hcut (heardAlike_of_plain hplain hcut haccepts hne)

/-- What a read holds after the first delimiter is dropped. -/
theorem documentOf_first (lib : Libxml2) {chunk : Chunk} (text rest : CString)
    (hbytes : chunk.bytes = (text ++ endOfMessage ++ rest).bytes)
    (hcut : before endOfMessage.bytes (text.bytes ++ endOfMessage.bytes) = text.bytes) :
    documentOf lib chunk = lib.xmlReadMemory text := by
  have htext : cutAtDelimiter (.ofBuffer chunk.bytes) = text := by
    apply CString.ext
    rw [hbytes, ofBuffer_bytes, cutAtDelimiter]
    dsimp only
    rw [bytes_append, bytes_append, List.append_assoc]
    exact before_append_right hcut
  rw [documentOf, htext]

theorem deliver_edit {v : CString} {chunk : Chunk} (log : List Event) (device : Abcc)
    (msgNum : Int8) (hdocument : documentOf lib chunk = some (.tree (sampleEdit v))) :
    deliver lib (.ready log device msgNum ciphersuite) chunk =
      .ready (log ++ [.exchange ⟨sampleEdit v, device, msgNum, .response6⟩]) ⟨some v⟩ (msgNum + 1)
        ciphersuite := by
  have hbuf : Reply.response6.text.bytes ≠ [] := by decide
  have hpos : (0 : ℤ) < Reply.response6.text.bytes.length := by
    exact_mod_cast List.length_pos_of_ne_nil hbuf
  have hreply : (answerTo (sampleEdit v)).reply lib device (decimalString msgNum.toInt) =
      .ok .response6 := by
    rw [answerTo_sampleEdit]
    rfl
  rw [deliver, step_message hdocument hreply (formatReply_canned .response6 (by simp) ciphersuite)]
  dsimp only
  rw [step_write _ hpos, answerTo_sampleEdit]
  rfl

/-! ## Samples -/

def otherAddress : CString := lit "10.0.0.8"

/-- An edit behind an XML declaration. -/
def declaration : CString := lit "<?xml version=\"1.0\"?>"

def declaredEdit : CString := declaration ++ editText otherAddress

/-- The texts of two edits of the running datastore, the second with its declaration and without. -/
def editDocuments : List (CString × XmlNode) :=
  [(editText sampleAddress, sampleEdit sampleAddress), (editText otherAddress, sampleEdit otherAddress),
    (declaredEdit, sampleEdit otherAddress)]

def editsLibxml2 : Libxml2 := tableLibxml2 editDocuments

theorem editsLibxml2_readsXml : ReadsXml editsLibxml2 := by
  have hstart : ∀ text ∈ editDocuments.map Prod.fst,
      93 ∉ text.bytes.head? ∧ 62 ∉ text.bytes.head? := by decide
  have hfinish : ∀ text ∈ editDocuments.map Prod.fst,
      ¬ (lit "]").bytes <:+ text.bytes ∧ ¬ (lit "]]>").bytes <:+ text.bytes := by decide +kernel
  exact ⟨rfl, fun text h => hstart text (tableLibxml2_accepts h), fun text h =>
    hfinish text (tableLibxml2_accepts h)⟩

theorem edit_of_accepts {text : List UInt8} (h : Accepts editsLibxml2 text) :
    CString.ofBuffer text ∈ editDocuments.map Prod.fst ∧ 109 ≤ text.length := by
  have hmem := tableLibxml2_accepts h.2
  have hlong : ∀ text ∈ editDocuments.map Prod.fst, 109 ≤ text.bytes.length := by decide
  have hlength := hlong _ hmem
  rw [ofBuffer_of_noNul h.1] at hlength
  exact ⟨hmem, hlength⟩

theorem plain_edit {d : CString} (hshort : d.bytes.length < 218)
    (htails : ∀ text ∈ editDocuments.map Prod.fst, text.bytes <:+ d.bytes →
      answerOf editsLibxml2 text = answerOf editsLibxml2 d) : Plain editsLibxml2 d := by
  constructor
  · intro head text tail hd htext htail
    have hlength := congrArg List.length hd
    have htextLength := (edit_of_accepts htext).2
    have htailLength := (edit_of_accepts htail).2
    rw [List.length_append, List.length_append] at hlength
    omega
  · intro head tail hd htail
    apply htails _ (edit_of_accepts htail).1
    rw [ofBuffer_of_noNul htail.1, hd]
    exact List.suffix_append head tail

def declaredEdits : List Message :=
  [⟨editText sampleAddress, sampleAddress_fits⟩, ⟨declaredEdit, by decide +kernel⟩]

/-- The declaration of the second message comes with the first one. -/
def headedReads : List Chunk :=
  [⟨(editText sampleAddress ++ endOfMessage ++ declaration).bytes, by decide, by decide +kernel⟩,
    ⟨(editText otherAddress ++ endOfMessage).bytes, by decide, by decide +kernel⟩]

theorem declaredEdits_reading :
    (serve editsLibxml2 (.ready [.session] ⟨some initialAddress⟩ 0 ⟨[], []⟩)
      (wholeReads declaredEdits)).control = .reading := by
  have hfirst : documentOf editsLibxml2 (frame (editText sampleAddress) sampleAddress_fits) =
      some (.tree (sampleEdit sampleAddress)) := by
    rw [documentOf_frame _ _ (by decide)]
    rfl
  have hsecond : documentOf editsLibxml2 (frame declaredEdit (by decide +kernel)) =
      some (.tree (sampleEdit otherAddress)) := by
    rw [documentOf_frame _ _ (by decide +kernel)]
    rfl
  rw [wholeReads, declaredEdits, List.map_cons, List.map_cons, serve, List.foldl_cons,
    deliver_edit _ _ _ hfirst, List.foldl_cons, deliver_edit _ _ _ hsecond]
  rfl

theorem served_as_messages_sample :
    (∃ cuts, CutAs headedReads cuts declaredEdits ∧ ∀ cut ∈ cuts, Accepts editsLibxml2 cut.2) ∧
      SameService editsLibxml2 (.ready [.session] ⟨some initialAddress⟩ 0 ⟨[], []⟩) headedReads
        (wholeReads declaredEdits) := by
  have hmessages : ∀ d ∈ declaredEdits, ¬ endOfMessage.bytes <:+: d.1.bytes ∧
      (editsLibxml2.xmlReadMemory d.1).isSome := by decide +kernel
  obtain ⟨henough, hiff⟩ := served_as_messages editsLibxml2_readsXml ⟨[], []⟩ [.session]
    ⟨some initialAddress⟩ 0 declaredEdits headedReads hmessages (by decide +kernel)
  have hservice := henough [(declaration.bytes, (editText otherAddress).bytes)]
    ⟨by decide +kernel, by decide +kernel⟩ (by rw [HeardAlike]; decide +kernel)
  have hplain : ∀ d ∈ declaredEdits, Plain editsLibxml2 d.1 := by
    intro d hd
    rcases List.mem_cons.mp hd with rfl | hd
    · exact plain_edit (by decide +kernel) (by decide +kernel)
    · obtain rfl := List.mem_singleton.mp hd
      exact plain_edit (by decide +kernel) (by decide +kernel)
  exact ⟨(hiff hplain declaredEdits_reading).mp hservice, hservice⟩

/-- Two edits of the running datastore. -/
def twoEdits : List Message :=
  [⟨editText sampleAddress, sampleAddress_fits⟩, ⟨editText otherAddress, by decide⟩]

/-- Both messages arrive in one read. -/
def coalescedRead : Chunk where
  bytes := (editText sampleAddress ++ endOfMessage ++ (editText otherAddress ++ endOfMessage)).bytes
  nonempty := by decide
  fits := by decide +kernel

/-- The second of two requests in one read is lost. -/
theorem coalesced_request_lost :
    [coalescedRead].flatMap Chunk.bytes =
      twoEdits.flatMap (fun d => (d.1 ++ endOfMessage).bytes) ∧
    (∀ d ∈ twoEdits, ¬ endOfMessage.bytes <:+: d.1.bytes ∧
      (editsLibxml2.xmlReadMemory d.1).isSome) ∧
    ¬ SameService editsLibxml2 (.ready [.session] ⟨some initialAddress⟩ 0 ⟨[], []⟩)
      [coalescedRead] (wholeReads twoEdits) := by
  refine ⟨by simp [twoEdits, coalescedRead], by decide +kernel, ?_⟩
  have hread : documentOf editsLibxml2 coalescedRead = some (.tree (sampleEdit sampleAddress)) := by
    rw [documentOf_first _ (editText sampleAddress) _ rfl (by decide)]
    rfl
  have hfirst : documentOf editsLibxml2 (frame (editText sampleAddress) sampleAddress_fits) =
      some (.tree (sampleEdit sampleAddress)) := by
    rw [documentOf_frame _ _ (by decide)]
    rfl
  have hsecond : documentOf editsLibxml2 (frame (editText otherAddress) (by decide)) =
      some (.tree (sampleEdit otherAddress)) := by
    rw [documentOf_frame _ _ (by decide)]
    rfl
  rintro ⟨-, hdevice, -⟩
  rw [wholeReads, twoEdits, List.map_cons, List.map_cons, serve, List.foldl_cons,
    deliver_edit _ _ _ hread, serve, List.foldl_cons, deliver_edit _ _ _ hfirst, List.foldl_cons,
    deliver_edit _ _ _ hsecond] at hdevice
  exact absurd (congrArg Abcc.ipAddress hdevice) (by decide)

end NetconfServer.Networking
