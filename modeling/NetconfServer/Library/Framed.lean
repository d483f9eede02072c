import NetconfServer.Library.Search

/-! # A framed stream that is read piece by piece

A stream holds messages, each ended by a delimiter, and arrives in reads. The reader takes every read
for one message, up to its first delimiter. It makes as many reads as there are messages only when
each read holds what is left of one message, the delimiter, and at most a head of the next message.
-/

namespace NetconfServer.Library.Framed
variable {α : Type}

def frames (delimiter : List α) (messages : List (List α)) : List α :=
  messages.flatMap (· ++ delimiter)

/-- One read for each message, when `rest` is left of the first: a cut is the head of a message that
comes in the read before its own, and the tail that comes in its own. -/
def readsOf (delimiter rest : List α) : List (List α × List α) → List (List α)
  | [] => [rest ++ delimiter]
  | (head, tail) :: cuts => (rest ++ delimiter ++ head) :: readsOf delimiter tail cuts

/-- The texts of a format that takes no part in the delimiter: none is empty, begins with an element
of the delimiter or ends with a beginning of it. -/
structure Separate (delimiter : List α) (Accepts : List α → Prop) : Prop where
  nonempty : ¬ Accepts []
  start : ∀ a text, Accepts (a :: text) → a ∉ delimiter
  finish : ∀ text part rest, part ≠ [] → rest ≠ [] → delimiter = part ++ rest →
    ¬ Accepts (text ++ part)

/-- No delimiter is in the text, and none begins in it. -/
structure Clear (delimiter text : List α) : Prop where
  free : ¬ delimiter <:+: text
  finish : ∀ part rest, part ≠ [] → rest ≠ [] → delimiter = part ++ rest → ¬ part <:+ text

/-- No two accepted texts stand side by side at the end of the message. -/
def Undivided (Accepts : List α → Prop) (message : List α) : Prop :=
  ∀ head text tail, message = head ++ text ++ tail → Accepts text → ¬ Accepts tail

variable {delimiter : List α} {Accepts : List α → Prop}

theorem Separate.clear (h : Separate delimiter Accepts) {message : List α} (haccepts : Accepts message)
    (hfree : ¬ delimiter <:+: message) : Clear delimiter message := by
  refine ⟨hfree, ?_⟩
  rintro part rest hpart hrest hdelimiter ⟨text, rfl⟩
  exact h.finish text part rest hpart hrest hdelimiter haccepts

namespace Clear
variable {text : List α}

theorem tail {head : List α} (h : Clear delimiter (head ++ text)) : Clear delimiter text := by
  constructor
  · intro hinside
    exact h.free (hinside.trans (List.suffix_append head text).isInfix)
  · intro part rest hpart hrest hdelimiter hsuffix
    exact h.finish part rest hpart hrest hdelimiter (hsuffix.trans (List.suffix_append head text))

theorem delimiter_ne_nil (h : Clear delimiter text) : delimiter ≠ [] := by
  rintro rfl
  exact h.free (List.nil_infix)

variable [DecidableEq α]

/-- The first delimiter after a clear text is the one that follows it. -/
theorem before_eq (h : Clear delimiter text) (later : List α) :
    before delimiter (text ++ (delimiter ++ later)) = text := by
  apply before_append h.delimiter_ne_nil
  rintro k hk ⟨after, hafter⟩
  rw [List.drop_append_of_le_length (by omega)] at hafter
  have hdrop : text.drop k ≠ [] := by
    simp only [ne_eq, List.drop_eq_nil_iff]
    omega
  rcases List.append_eq_append_iff.mp hafter with ⟨past, hpast, -⟩ | ⟨rest, hdelimiter, -⟩
  · have hinside : delimiter <:+: text.drop k := ⟨[], past, hpast.symm⟩
    exact h.free (hinside.trans (List.drop_suffix k text).isInfix)
  · by_cases hrest : rest = []
    · subst hrest
      rw [List.append_nil] at hdelimiter
      exact h.free (hdelimiter ▸ (List.drop_suffix k text).isInfix)
    · exact h.finish (text.drop k) rest hdrop hrest hdelimiter (List.drop_suffix k text)

end Clear

variable [DecidableEq α]

/-- What the reader takes from each read. -/
theorem before_readsOf {rest : List α} {cuts : List (List α × List α)} (hrest : Clear delimiter rest)
    (hcuts : ∀ cut ∈ cuts, Clear delimiter cut.2) :
    (readsOf delimiter rest cuts).map (before delimiter) = rest :: cuts.map Prod.snd := by
  induction cuts generalizing rest with
  | nil =>
    have hlast := hrest.before_eq []
    rw [List.append_nil] at hlast
    rw [readsOf, List.map_singleton, hlast, List.map_nil]
  | cons cut cuts ih =>
    obtain ⟨hcut, hnext⟩ := List.forall_mem_cons.mp hcuts
    rw [readsOf, List.map_cons, List.append_assoc, hrest.before_eq, ih hcut hnext, List.map_cons]

/-! ## Reads that are all accepted -/

/-- Every read holds something, and what the reader takes from it is accepted. -/
def AllAccepted (delimiter : List α) (Accepts : List α → Prop) (reads : List (List α)) : Prop :=
  ∀ read ∈ reads, read ≠ [] ∧ Accepts (before delimiter read)

section Reads
variable {read rest later head text tail : List α} {reads messages : List (List α)}

/-- An accepted read does not begin inside a delimiter. -/
theorem not_inside_delimiter (h : Separate delimiter Accepts)
    (hreads : AllAccepted delimiter Accepts reads) (hrest : rest ≠ []) (hdelimiter : rest ⊆ delimiter)
    (hstream : reads.flatten = rest ++ later) : False := by
  obtain ⟨a, rest, rfl⟩ := List.exists_cons_of_ne_nil hrest
  cases reads with
  | nil => simp at hstream
  | cons read reads =>
    obtain ⟨hread, haccepts⟩ := hreads read List.mem_cons_self
    obtain ⟨b, read, rfl⟩ := List.exists_cons_of_ne_nil hread
    rw [List.flatten_cons, List.cons_append, List.cons_append] at hstream
    obtain ⟨rfl, -⟩ := List.cons_eq_cons.mp hstream
    rw [before] at haccepts
    split_ifs at haccepts
    · exact h.nonempty haccepts
    · exact h.start _ _ haccepts (hdelimiter List.mem_cons_self)

/-- An accepted read stays inside the message it begins in, or takes its rest and the delimiter. -/
theorem read_cases (h : Separate delimiter Accepts) (hrest : Clear delimiter rest)
    (haccepts : Accepts (before delimiter read))
    (hstream : read ++ reads.flatten = rest ++ (delimiter ++ later)) :
    (∃ rest', rest = read ++ rest' ∧ Accepts read ∧ reads.flatten = rest' ++ (delimiter ++ later)) ∨
      ∃ head, read = rest ++ delimiter ++ head ∧ Accepts rest ∧ later = head ++ reads.flatten := by
  have hwhole : ∀ head, read = rest ++ delimiter ++ head → Accepts rest := by
    rintro head rfl
    rwa [List.append_assoc, hrest.before_eq] at haccepts
  rcases List.append_eq_append_iff.mp hstream with ⟨rest', rfl, hflatten⟩ | ⟨past, rfl, hpast⟩
  · left
    have hfree : ¬ delimiter <:+: read := fun hinside =>
      hrest.free (hinside.trans (List.prefix_append read rest').isInfix)
    rw [before_eq_self hfree] at haccepts
    exact ⟨rest', rfl, haccepts, hflatten⟩
  · rcases List.append_eq_append_iff.mp hpast with ⟨head, rfl, rfl⟩ | ⟨left, hdelimiter, hflatten⟩
    · rw [← List.append_assoc] at hwhole ⊢
      exact .inr ⟨head, rfl, hwhole head rfl, rfl⟩
    · by_cases hleft : left = []
      · subst hleft
        rw [List.append_nil] at hdelimiter
        subst hdelimiter
        exact .inr ⟨[], (List.append_nil _).symm, hwhole [] (List.append_nil _).symm, hflatten.symm⟩
      by_cases hpart : past = []
      · subst hpart
        left
        rw [List.append_nil] at haccepts ⊢
        rw [before_eq_self hrest.free] at haccepts
        exact ⟨[], (List.append_nil _).symm, haccepts, by rw [hflatten, hdelimiter]; rfl⟩
      · -- The read ends inside the delimiter, and what is taken from it with it.
        exfalso
        have hprefix : rest ++ past <+: rest ++ (delimiter ++ later) := ⟨_, hstream⟩
        have hshort : (rest ++ past).length <
            (before delimiter (rest ++ (delimiter ++ later))).length + delimiter.length := by
          have hpos := List.length_pos_of_ne_nil hleft
          rw [hrest.before_eq, hdelimiter, List.length_append, List.length_append]
          omega
        rw [before_of_isPrefix hprefix hshort] at haccepts
        exact h.finish rest past left hpart hleft hdelimiter haccepts

/-- After an accepted part of a message the rest of it is not read in accepted parts. -/
theorem not_divided (h : Separate delimiter Accepts) (hreads : AllAccepted delimiter Accepts reads)
    (hrest : Clear delimiter rest) (hundivided : Undivided Accepts (head ++ text ++ rest))
    (htext : Accepts text) (hstream : reads.flatten = rest ++ (delimiter ++ later)) : False := by
  induction reads generalizing head text rest with
  | nil =>
    have hnil : delimiter = [] := by simp_all
    exact hrest.delimiter_ne_nil hnil
  | cons read reads ih =>
    obtain ⟨⟨hread, haccepts⟩, hnext⟩ := List.forall_mem_cons.mp hreads
    rcases read_cases h hrest haccepts hstream with ⟨rest', rfl, haccepts, hflatten⟩ | ⟨_, -, haccepts, -⟩
    · rw [← List.append_assoc] at hundivided
      exact ih hnext hrest.tail hundivided haccepts hflatten
    · exact hundivided head text rest rfl htext haccepts

/-- What the reads that follow can still hold, when the one before took a beginning of `messages`. -/
theorem reads_after (h : Separate delimiter Accepts) (hreads : AllAccepted delimiter Accepts reads)
    (hcount : ∀ rest later, (∃ head, head ++ rest ∈ messages) → (∀ m ∈ later, m ∈ messages) →
      reads.flatten = rest ++ (delimiter ++ frames delimiter later) → reads.length ≤ later.length + 1)
    (hstream : frames delimiter messages = head ++ reads.flatten) :
    reads.length ≤ messages.length ∧
      (reads.length = messages.length →
        messages = [] ∧ head = [] ∧ reads = [] ∨
        ∃ tail later, messages = (head ++ tail) :: later ∧
          reads.flatten = tail ++ (delimiter ++ frames delimiter later)) := by
  induction messages generalizing head with
  | nil =>
    obtain ⟨rfl, hflatten⟩ := List.append_eq_nil_iff.mp hstream.symm
    have hnil : reads = [] := by
      cases reads with
      | nil => rfl
      | cons read reads =>
        rw [List.flatten_cons] at hflatten
        exact absurd (List.append_eq_nil_iff.mp hflatten).1 (hreads read List.mem_cons_self).1
    subst hnil
    exact ⟨le_refl 0, fun _ => .inl ⟨rfl, rfl, rfl⟩⟩
  | cons message messages ih =>
    have hskip : ∀ head, frames delimiter messages = head ++ reads.flatten →
        reads.length ≤ messages.length := by
      intro head hlater
      refine (ih ?_ hlater).1
      rintro rest later ⟨head, hmem⟩ hsub
      exact hcount rest later ⟨head, List.mem_cons_of_mem _ hmem⟩ fun m hm =>
        List.mem_cons_of_mem _ (hsub m hm)
    have hfewer (hle : reads.length ≤ messages.length) :
        reads.length ≤ (message :: messages).length ∧
          (reads.length = (message :: messages).length →
            message :: messages = [] ∧ head = [] ∧ reads = [] ∨
            ∃ tail later, message :: messages = (head ++ tail) :: later ∧
              reads.flatten = tail ++ (delimiter ++ frames delimiter later)) := by
      rw [List.length_cons]
      constructor
      · omega
      · intro heq
        omega
    rw [frames, List.flatMap_cons, ← frames] at hstream
    rcases List.append_eq_append_iff.mp hstream with ⟨head', rfl, hlater⟩ | ⟨left, hleft, hflatten⟩
    · exact hfewer (hskip head' hlater)
    · rcases List.append_eq_append_iff.mp hleft with ⟨past, rfl, hdelimiter⟩ | ⟨tail, rfl, rfl⟩
      · by_cases hnil : left = []
        · subst hnil
          exact hfewer (hskip [] (by rw [hflatten]; rfl))
        · exfalso
          refine not_inside_delimiter h hreads hnil ?_ hflatten
          rw [hdelimiter]
          exact List.subset_append_right past left
      · rw [List.append_assoc] at hflatten
        constructor
        · exact hcount tail messages ⟨head, List.mem_cons_self⟩
            (fun m hm => List.mem_cons_of_mem _ hm) hflatten
        · exact fun _ => .inr ⟨tail, messages, rfl, hflatten⟩

/-- Accepted reads are no more than the messages they come from. With one for each message, each holds
what is left of that message, which is accepted, and a head of the next. -/
theorem reads_of_stream (h : Separate delimiter Accepts)
    (hreads : AllAccepted delimiter Accepts reads) (hrest : ∃ head, Clear delimiter (head ++ rest) ∧
      Undivided Accepts (head ++ rest))
    (hmessages : ∀ m ∈ messages, Clear delimiter m ∧ Undivided Accepts m)
    (hstream : reads.flatten = rest ++ (delimiter ++ frames delimiter messages)) :
    reads.length ≤ messages.length + 1 ∧
      (reads.length = messages.length + 1 →
        ∃ cuts, messages = cuts.map (fun cut => cut.1 ++ cut.2) ∧
          reads = readsOf delimiter rest cuts ∧ Accepts rest ∧ ∀ cut ∈ cuts, Accepts cut.2) := by
  induction reads generalizing rest messages with
  | nil =>
    obtain ⟨head, hclear, -⟩ := hrest
    have hnil : delimiter = [] := by simp_all
    exact absurd hnil hclear.delimiter_ne_nil
  | cons read reads ih =>
    obtain ⟨⟨hread, haccepts⟩, hnext⟩ := List.forall_mem_cons.mp hreads
    obtain ⟨before', hclear, hundivided⟩ := hrest
    rw [List.flatten_cons] at hstream
    rcases read_cases h hclear.tail haccepts hstream with
      ⟨rest', rfl, haccepts, hflatten⟩ | ⟨head, rfl, hrest, hlater⟩
    · rw [← List.append_assoc] at hundivided hclear
      exact (not_divided h hnext hclear.tail hundivided haccepts hflatten).elim
    · have hmem (tail : List α) (hm : ∃ head, head ++ tail ∈ messages) :
          ∃ head, Clear delimiter (head ++ tail) ∧ Undivided Accepts (head ++ tail) := by
        obtain ⟨head, hmem⟩ := hm
        exact ⟨head, hmessages _ hmem⟩
      obtain ⟨hle, heq⟩ := reads_after h hnext (fun tail later hm hsub hflatten =>
        (ih hnext (hmem tail hm) (fun m hm' => hmessages m (hsub m hm')) hflatten).1) hlater
      rw [List.length_cons]
      refine ⟨by omega, fun hlength => ?_⟩
      rcases heq (by omega) with ⟨rfl, rfl, rfl⟩ | ⟨tail, later, rfl, hflatten⟩
      · exact ⟨[], rfl, by rw [readsOf, List.append_nil], hrest, by simp⟩
      · rw [List.length_cons] at hlength
        obtain ⟨cuts, rfl, rfl, htail, hcuts⟩ := (ih hnext (hmem tail ⟨head, List.mem_cons_self⟩)
          (fun m hm => hmessages m (List.mem_cons_of_mem _ hm)) hflatten).2 (by omega)
        refine ⟨(head, tail) :: cuts, rfl, rfl, hrest, ?_⟩
        exact List.forall_mem_cons.mpr ⟨htail, hcuts⟩

end Reads

end NetconfServer.Library.Framed
