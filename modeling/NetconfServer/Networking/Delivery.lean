import NetconfServer.Networking.History

/-! # How much of a reply is delivered

`write_to_client` calls `mbedtls_ssl_write` until it returns a positive count, and returns 0 whatever
the count is. The bytes taken are the whole reply only when the count says so.
-/

namespace NetconfServer.Networking
open Memory CString Library Parsing

/-- What the TLS layer takes of a buffer when `mbedtls_ssl_write` returns `ret`. -/
def taken (buf : List UInt8) (ret : ℤ) : List UInt8 := buf.take ret.toNat

/-- The loop of `write_to_client` while the calls return `rets`: the return code and the bytes
taken so far, or `none` when it is still waiting. -/
def writeLoop (buf : List UInt8) : List ℤ → Option (ℤ × List UInt8)
  | [] => none
  | ret :: rets =>
    match writeTurn ret with
    | some result => some (result, taken buf ret)
    | none => (writeLoop buf rets).map fun (result, bytes) => (result, taken buf ret ++ bytes)

def writeToClient (reply : CString) (ciphersuite : Printf.Argument) (rets : List ℤ) :
    Exec (Option (ℤ × List UInt8)) := do
  let buf ← formatReply reply ciphersuite
  return writeLoop buf rets

/-- The results that ask for another call. -/
def Wants (ret : ℤ) : Prop := ret = MBEDTLS_ERR_SSL_WANT_READ ∨ ret = MBEDTLS_ERR_SSL_WANT_WRITE

theorem writeTurn_eq_none {ret : ℤ} : writeTurn ret = none ↔ Wants ret := by
  have hcodes : MBEDTLS_ERR_SSL_WANT_READ = -0x6900 ∧ MBEDTLS_ERR_SSL_WANT_WRITE = -0x6880 ∧
      MBEDTLS_ERR_NET_CONN_RESET = -0x0050 := ⟨rfl, rfl, rfl⟩
  rw [writeTurn, Wants]
  split_ifs with hle hreset hfatal
  · simp only [false_iff]
    omega
  · simp only [false_iff]
    omega
  · simp only [true_iff]
    omega
  · simp only [false_iff]
    omega

theorem writeTurn_eq_zero {ret : ℤ} : writeTurn ret = some 0 ↔ 0 < ret := by
  rw [writeTurn]
  split_ifs with hle hreset hfatal
  · simp only [RESET, Option.some.injEq, Int.neg_eq_zero, one_ne_zero, false_iff]
    omega
  · simp only [EXIT, Option.some.injEq, Int.neg_eq_zero, OfNat.ofNat_ne_zero, false_iff]
    omega
  · simp only [false_iff]
    omega
  · simp only [true_iff]
    omega

theorem taken_of_wants {ret : ℤ} (h : Wants ret) (buf : List UInt8) : taken buf ret = [] := by
  rcases h with rfl | rfl <;> rfl

variable {buf bytes : List UInt8} {rets tries : List ℤ} {ret result : ℤ}

/-- The calls that ask for another one take nothing, and the first other one ends the loop. -/
theorem writeLoop_append (htries : ∀ ret ∈ tries, Wants ret) (hturn : writeTurn ret = some result)
    (rest : List ℤ) : writeLoop buf (tries ++ ret :: rest) = some (result, taken buf ret) := by
  induction tries with
  | nil => rw [List.nil_append, writeLoop, hturn]
  | cons try₁ tries ih =>
    obtain ⟨htry, htries⟩ := List.forall_mem_cons.mp htries
    rw [List.cons_append, writeLoop, writeTurn_eq_none.mpr htry, ih htries, taken_of_wants htry]
    rfl

/-- The loop returns 0 exactly at the first positive count. -/
theorem writeLoop_eq_zero :
    writeLoop buf rets = some (0, bytes) ↔ ∃ tries count rest, rets = tries ++ count :: rest ∧
      (∀ ret ∈ tries, Wants ret) ∧ 0 < count ∧ bytes = taken buf count := by
  constructor
  · intro h
    induction rets generalizing bytes with
    | nil => cases h
    | cons ret rets ih =>
      rw [writeLoop] at h
      cases hturn : writeTurn ret with
      | some result =>
        rw [hturn] at h
        cases h
        exact ⟨[], ret, rets, rfl, by simp, writeTurn_eq_zero.mp hturn, rfl⟩
      | none =>
        have hwants := writeTurn_eq_none.mp hturn
        rw [hturn, taken_of_wants hwants] at h
        obtain ⟨⟨result, later⟩, hloop, heq⟩ := Option.map_eq_some_iff.mp h
        cases heq
        obtain ⟨tries, count, rest, rfl, htries, hcount, rfl⟩ := ih hloop
        exact ⟨ret :: tries, count, rest, rfl, List.forall_mem_cons.mpr ⟨hwants, htries⟩, hcount, rfl⟩
  · rintro ⟨tries, count, rest, rfl, htries, hcount, rfl⟩
    exact writeLoop_append htries (writeTurn_eq_zero.mpr hcount) rest

/-- In the machine the same calls lead from the reply being written to the state that the return
code selects. -/
theorem run_writes {lib : Libxml2} {s : Server} (hs : Sound s) {array : KeyValuePairArray}
    (hwriting : s.control = .writing buf array) (htries : ∀ ret ∈ tries, Wants ret)
    (hturn : writeTurn ret = some result) :
    Machine.run (step lib) s ((tries ++ [ret]).map .write) =
      some { s with
        msgNum := s.msgNum + 1
        control := if result = RESET then .accepting else if result = EXIT then .exited
          else .reading } := by
  have hstep (ret : ℤ) : step lib s (.write ret) = some (s.afterWrite array ret) := by
    unfold step
    rw [hwriting]
  induction tries with
  | nil =>
    obtain ⟨root, rfl⟩ := hs.array buf array hwriting
    have hfree : freeKeyValuePairArray (requestArray root) s.supply = .ok (SUCCESS, .all) := by
      rw [hs.supply]
      exact freeKeyValuePairArray_yields _
    change (step lib s (.write ret)).bind _ = _
    rw [hstep, Server.afterWrite, hturn]
    dsimp only
    rw [hfree, ← hs.supply]
    rfl
  | cons try₁ tries ih =>
    obtain ⟨htry, htries⟩ := List.forall_mem_cons.mp htries
    have hstay : s.afterWrite array try₁ = s := by
      rw [Server.afterWrite, writeTurn_eq_none.mpr htry]
    rw [List.cons_append, List.map_cons, Machine.run_cons, hstep, hstay]
    exact ih htries

/-- When a write reported as successful has delivered the whole reply: the first count is its
length. -/
theorem whole_reply_delivered_iff {reply : CString} (hpercent : 37 ∉ reply.bytes)
    (hfits : reply.bytes.length + 1 ≤ 1024) (ciphersuite : Printf.Argument)
    (hlegal : ∀ ret ∈ rets, ret < 0 ∨ 0 < ret ∧ ret ≤ reply.bytes.length) :
    ∃ outcome, Yields (writeToClient reply ciphersuite rets) outcome ∧
      ((∀ bytes, outcome = some (0, bytes) → bytes = reply.bytes) ↔
        ∀ (tries : List ℤ) (count : ℤ) (rest : List ℤ), rets = tries ++ count :: rest →
          (∀ ret ∈ tries, Wants ret) → 0 < count → count = reply.bytes.length) := by
  have hformat : Yields (formatReply reply ciphersuite) reply.bytes :=
    formatReply_literal hpercent hfits ciphersuite
  refine ⟨writeLoop reply.bytes rets, hformat.bind Yields.pure, ?_⟩
  constructor
  · rintro h tries count rest rfl htries hcount
    have hwhole := h _ (writeLoop_eq_zero.mpr ⟨tries, count, rest, rfl, htries, hcount, rfl⟩)
    have hlength := congrArg List.length hwhole
    rw [taken, List.length_take] at hlength
    rcases hlegal count (by simp) with hneg | ⟨-, hle⟩
    · omega
    · omega
  · intro h bytes hzero
    obtain ⟨tries, count, rest, hrets, htries, hcount, rfl⟩ := writeLoop_eq_zero.mp hzero
    rw [taken, h tries count rest hrets htries hcount, Int.toNat_natCast, List.take_length]

/-- Two calls that have to wait, and one that takes all 97 bytes. -/
theorem whole_reply_delivered_iff_sample :
    ∃ outcome, Yields (writeToClient NETCONF_RESPONSE_6 ⟨[], []⟩
        [MBEDTLS_ERR_SSL_WANT_WRITE, MBEDTLS_ERR_SSL_WANT_READ, 97]) outcome ∧
      ∀ bytes, outcome = some (0, bytes) → bytes = NETCONF_RESPONSE_6.bytes := by
  have hliteral : 37 ∉ NETCONF_RESPONSE_6.bytes := (canned_literal .response6 (by simp)).1
  obtain ⟨outcome, houtcome, hiff⟩ := @whole_reply_delivered_iff
    [MBEDTLS_ERR_SSL_WANT_WRITE, MBEDTLS_ERR_SSL_WANT_READ, 97] NETCONF_RESPONSE_6 hliteral
    (by decide) ⟨[], []⟩ (by decide)
  refine ⟨outcome, houtcome, hiff.mpr ?_⟩
  intro tries count rest hrets _ hcount
  have hmem : count ∈ [MBEDTLS_ERR_SSL_WANT_WRITE, MBEDTLS_ERR_SSL_WANT_READ, 97] := by
    rw [hrets]
    simp
  simp only [List.mem_cons, List.not_mem_nil, or_false] at hmem
  rcases hmem with rfl | rfl | rfl
  · exact absurd hcount (by decide)
  · exact absurd hcount (by decide)
  · decide

/-- A count of one byte is reported as a success. -/
theorem partial_write_succeeds :
    37 ∉ NETCONF_RESPONSE_6.bytes ∧ NETCONF_RESPONSE_6.bytes.length + 1 ≤ 1024 ∧
    (1 : ℤ) ≤ NETCONF_RESPONSE_6.bytes.length ∧
    Yields (writeToClient NETCONF_RESPONSE_6 ⟨[], []⟩ [1]) (some (0, [60])) ∧
    [60] ≠ NETCONF_RESPONSE_6.bytes := by
  obtain ⟨hpercent, hfits⟩ := canned_literal .response6 (by simp)
  refine ⟨hpercent, hfits, by decide, ?_, by decide⟩
  have hformat : Yields (formatReply NETCONF_RESPONSE_6 ⟨[], []⟩) NETCONF_RESPONSE_6.bytes :=
    formatReply_literal hpercent hfits _
  exact hformat.bind Yields.pure

end NetconfServer.Networking
