import ExternalTrusty.Bytes
import ExternalTrusty.World

namespace ExternalTrusty.TestRunner

open CMemory

/-! `test-runner-comm-port.c` -/

def testrunner0BufSize : Nat := 64
def sizeofMsg : Nat := 2
def msgLog : UInt8 := 0
def msgExit : UInt8 := 1

/-- `msg_buf`, which is sent to the host as a whole -/
structure MsgBuf where
  bytes : List UInt8
  size : bytes.length = testrunner0BufSize

namespace MsgBuf

def setType (b : MsgBuf) (type : UInt8) : MsgBuf where
  bytes := b.bytes.set 0 type
  size := by rw [List.length_set, b.size]

/-- `log.size` and `exit.status` -/
def setSecond (b : MsgBuf) (v : UInt8) : MsgBuf where
  bytes := b.bytes.set 1 v
  size := by rw [List.length_set, b.size]

/-- `log.data` -/
def setData (b : MsgBuf) (src : List UInt8) (h : src.length ≤ testrunner0BufSize - sizeofMsg) :
    MsgBuf where
  bytes := b.bytes.take sizeofMsg ++ overlay src (b.bytes.drop sizeofMsg)
  size := by
    rw [List.length_append, overlay_length, List.length_take, List.length_drop, b.size]
    unfold testrunner0BufSize sizeofMsg at *
    omega

end MsgBuf

/-- `msg_buf`, and the buffers that were sent. -/
structure CommPort where
  msgBuf : MsgBuf
  sent : List MsgBuf

def CommPort.sendVq (c : CommPort) : CommPort := { c with sent := c.sent ++ [c.msgBuf] }

/-- The loop of `log_buf` -/
def logChunks (c : CommPort) (buf : List UInt8) (remain offset : Nat) : CommPort :=
  if remain = 0 then c
  else
    let copied := min (testrunner0BufSize - sizeofMsg) remain
    let b := c.msgBuf.setSecond (UInt8.ofNat copied)
    let b := b.setData ((buf.drop offset).take copied) (Nat.le_trans (List.length_take_le _ _)
      (Nat.min_le_left _ _))
    logChunks { c with msgBuf := b }.sendVq buf (remain - copied) (offset + copied)
termination_by remain
decreasing_by
  have hroom : 0 < testrunner0BufSize - sizeofMsg := by decide
  omega

def logBuf (c : CommPort) (buf : List UInt8) (size : Nat) : CommPort :=
  logChunks { c with msgBuf := c.msgBuf.setType msgLog } buf size 0

def hostExit (c : CommPort) (code : UInt32) : CommPort :=
  { c with msgBuf := (c.msgBuf.setType msgExit).setSecond code.toUInt8 }.sendVq

/-! `test-runner.c` -/

def testPassed : UInt8 := 0
def testFailed : UInt8 := 1
def testMessage : UInt8 := 2
def sizeofTestResult : Nat := 256

/-- What `trusty_ipc_recv` returns, and what `test_result` holds then. -/
structure RecvResult where
  ret : Int
  testResult : List UInt8
  size : testResult.length = sizeofTestResult

/-- `test_result[0]` -/
def RecvResult.first (r : RecvResult) : UInt8 := r.testResult.headD 0

/-- Where `boot` is: it waits for a result that has not come, it has returned, or it has called
`host_exit`. -/
inductive Ending
  | waiting
  | returned
  | exited (status : UInt32)
  deriving DecidableEq

/-- `boot` after the loop, with the verdict in `test_result`. -/
def awaitClose (c : CommPort) (verdict : RecvResult) : List RecvResult → CommPort × Ending
  | [] => (c, .waiting)
  | r :: _ =>
    let status : UInt32 := if verdict.first ≠ testPassed then 1 else 0
    if r.ret ≠ trustyErrChannelClosed then (c, .returned)
    else (hostExit c status, .exited status)

/-- The loop of `boot` and what follows it, with these results of `trusty_ipc_recv`. -/
def readVerdict (c : CommPort) : List RecvResult → CommPort × Ending
  | [] => (c, .waiting)
  | r :: rs =>
    if r.ret ≤ 0 ∨ sizeofTestResult ≤ r.ret then (c, .returned)
    else if r.first = testPassed then awaitClose c r rs
    else if r.first = testFailed then awaitClose c r rs
    else if r.first = testMessage then
      readVerdict (logBuf c (r.testResult.drop 1) (r.ret - 1).toNat) rs
    else (c, .returned)

/-! What the host is told. -/

/-- The bytes that a buffer logs. -/
def MsgBuf.logged (b : MsgBuf) : List UInt8 :=
  if b.bytes[0]? = some msgLog then (b.bytes.drop sizeofMsg).take ((b.bytes[1]?).getD 0).toNat
  else []

def hostLog (sent : List MsgBuf) : List UInt8 := sent.flatMap MsgBuf.logged

theorem MsgBuf.bytes_eq (b : MsgBuf) : ∃ type second data, b.bytes = type :: second :: data := by
  have hlen := b.size
  cases hb : b.bytes with
  | nil =>
    rw [hb] at hlen
    exact absurd hlen (by decide)
  | cons type rest =>
    cases rest with
    | nil =>
      rw [hb, List.length_singleton] at hlen
      exact absurd hlen (by decide)
    | cons second data => exact ⟨type, second, data, rfl⟩

/-- A buffer that is filled with a chunk logs it. -/
theorem logged_setData {b : MsgBuf} {src : List UInt8} {n : Nat}
    (htype : b.bytes[0]? = some msgLog) (hlen : src.length = n)
    (h : src.length ≤ testrunner0BufSize - sizeofMsg) :
    ((b.setSecond (UInt8.ofNat n)).setData src h).bytes[0]? = some msgLog ∧
      ((b.setSecond (UInt8.ofNat n)).setData src h).logged = src := by
  subst hlen
  obtain ⟨type, second, data, hb⟩ := b.bytes_eq
  have hbytes : ((b.setSecond (UInt8.ofNat src.length)).setData src h).bytes =
      type :: UInt8.ofNat src.length :: overlay src data := by
    simp [MsgBuf.setData, MsgBuf.setSecond, hb, sizeofMsg]
  have hfirst : type = msgLog := by simpa [hb] using htype
  have hcount : (UInt8.ofNat src.length).toNat = src.length := by
    change src.length ≤ 62 at h
    rw [UInt8.toNat_ofNat']
    exact Nat.mod_eq_of_lt (by omega)
  constructor
  · rw [hbytes, hfirst]
    rfl
  · rw [MsgBuf.logged, hbytes, hfirst]
    show (overlay src data).take (UInt8.ofNat src.length).toNat = src
    rw [hcount, overlay, List.take_left]

theorem logChunk_length {buf : List UInt8} {remain offset : Nat}
    (hroom : offset + remain ≤ buf.length) :
    ((buf.drop offset).take (min (testrunner0BufSize - sizeofMsg) remain)).length =
      min (testrunner0BufSize - sizeofMsg) remain := by
  rw [List.length_take, List.length_drop]
  omega

/-- The chunks make up what is left of the buffer. -/
theorem logChunks_logged {c : CommPort} {buf : List UInt8} {remain offset : Nat}
    (htype : c.msgBuf.bytes[0]? = some msgLog) (hroom : offset + remain ≤ buf.length) :
    hostLog (logChunks c buf remain offset).sent =
      hostLog c.sent ++ (buf.drop offset).take remain := by
  induction remain using Nat.strongRecOn generalizing c offset with
  | ind remain ih =>
    rw [logChunks]
    by_cases hdone : remain = 0
    · rw [if_pos hdone, hdone, List.take_zero, List.append_nil]
    · rw [if_neg hdone]
      have hpositive : 0 < testrunner0BufSize - sizeofMsg := by decide
      have hchunk := logChunk_length hroom
      obtain ⟨htype', hlogged⟩ := logged_setData htype hchunk (Nat.le_trans
        (Nat.le_of_eq hchunk) (Nat.min_le_left _ _))
      rw [ih _ (by omega) htype' (by omega)]
      show hostLog (c.sent ++ [_]) ++ _ = _
      rw [hostLog, List.flatMap_append, List.flatMap_singleton, hlogged, List.append_assoc,
        ← List.drop_drop, ← List.take_add]
      congr 2
      omega

theorem setType_first (b : MsgBuf) (type : UInt8) : (b.setType type).bytes[0]? = some type := by
  obtain ⟨old, second, data, hb⟩ := b.bytes_eq
  show (b.bytes.set 0 type)[0]? = some type
  rw [hb]
  rfl

theorem logBuf_logged (c : CommPort) {buf : List UInt8} {size : Nat} (h : size ≤ buf.length) :
    hostLog (logBuf c buf size).sent = hostLog c.sent ++ buf.take size := by
  rw [logBuf, logChunks_logged (setType_first c.msgBuf msgLog) (by omega), List.drop_zero]

/-- The status that a buffer reports. -/
def MsgBuf.exitStatus (b : MsgBuf) : Option UInt8 :=
  if b.bytes[0]? = some msgExit then b.bytes[1]? else none

theorem hostExit_sent (c : CommPort) (code : UInt32) : ∃ b, (hostExit c code).sent = c.sent ++ [b] ∧
    b.logged = [] ∧ b.exitStatus = some code.toUInt8 := by
  obtain ⟨old, second, data, hb⟩ := c.msgBuf.bytes_eq
  have hbytes : ((c.msgBuf.setType msgExit).setSecond code.toUInt8).bytes =
      msgExit :: code.toUInt8 :: data := by
    simp [MsgBuf.setType, MsgBuf.setSecond, hb]
  refine ⟨(c.msgBuf.setType msgExit).setSecond code.toUInt8, rfl, ?_, ?_⟩
  · rw [MsgBuf.logged, hbytes, List.getElem?_cons_zero]
    exact if_neg (by decide)
  · rw [MsgBuf.exitStatus, hbytes]
    exact if_pos rfl

/-! The loop. -/

/-- A message of a length that the loop takes, with this first byte. -/
def RecvResult.Carries (r : RecvResult) (v : UInt8) : Prop :=
  1 ≤ r.ret ∧ r.ret ≤ 255 ∧ r.first = v

instance (r : RecvResult) (v : UInt8) : Decidable (r.Carries v) :=
  inferInstanceAs (Decidable (_ ∧ _ ∧ _))

/-- What follows the first byte of a message. -/
def RecvResult.body (r : RecvResult) : List UInt8 := (r.testResult.drop 1).take (r.ret - 1).toNat

theorem not_message {r : RecvResult} (h : r.Carries testPassed ∨ r.Carries testFailed) :
    ¬r.Carries testMessage := by
  rintro ⟨_, _, hmessage⟩
  rcases h with ⟨_, _, hv⟩ | ⟨_, _, hv⟩
  · exact absurd (hmessage.symm.trans hv) (by decide)
  · exact absurd (hmessage.symm.trans hv) (by decide)

/-- A turn of the loop. -/
theorem readVerdict_cons (c : CommPort) (r : RecvResult) (rs : List RecvResult) :
    (r.Carries testMessage ∧ readVerdict c (r :: rs) =
        readVerdict (logBuf c (r.testResult.drop 1) (r.ret - 1).toNat) rs) ∨
      ((r.Carries testPassed ∨ r.Carries testFailed) ∧
        readVerdict c (r :: rs) = awaitClose c r rs) ∨
      ((∀ v, r.Carries v → v ≠ testMessage ∧ v ≠ testPassed ∧ v ≠ testFailed) ∧
        readVerdict c (r :: rs) = (c, .returned)) := by
  rw [readVerdict]
  by_cases hlen : r.ret ≤ 0 ∨ (sizeofTestResult : Int) ≤ r.ret
  · refine Or.inr (Or.inr ⟨?_, if_pos hlen⟩)
    rintro v ⟨hlow, hhigh, _⟩
    change r.ret ≤ 0 ∨ 256 ≤ r.ret at hlen
    omega
  · rw [if_neg hlen]
    change ¬(r.ret ≤ 0 ∨ 256 ≤ r.ret) at hlen
    have hbounds : 1 ≤ r.ret ∧ r.ret ≤ 255 := by omega
    split_ifs with hpassed hfailed hmessage
    · exact Or.inr (Or.inl ⟨Or.inl ⟨hbounds.1, hbounds.2, hpassed⟩, rfl⟩)
    · exact Or.inr (Or.inl ⟨Or.inr ⟨hbounds.1, hbounds.2, hfailed⟩, rfl⟩)
    · exact Or.inl ⟨⟨hbounds.1, hbounds.2, hmessage⟩, rfl⟩
    · refine Or.inr (Or.inr ⟨?_, rfl⟩)
      rintro v ⟨_, _, rfl⟩
      exact ⟨hmessage, hpassed, hfailed⟩

theorem awaitClose_exited (c : CommPort) (p : RecvResult) (rs : List RecvResult) (code : UInt32) :
    (awaitClose c p rs).2 = .exited code ↔ ∃ r rest, rs = r :: rest ∧
      r.ret = trustyErrChannelClosed ∧ (if p.first ≠ testPassed then 1 else 0) = code := by
  cases rs with
  | nil => exact iff_of_false nofun nofun
  | cons r rest =>
    rw [awaitClose]
    by_cases hclosed : r.ret = trustyErrChannelClosed
    · rw [if_neg (not_not.mpr hclosed)]
      constructor
      · intro h
        exact ⟨r, rest, rfl, hclosed, Ending.exited.inj h⟩
      · rintro ⟨_, _, heq, _, hcode⟩
        exact congrArg Ending.exited hcode
    · rw [if_pos hclosed]
      refine iff_of_false nofun ?_
      rintro ⟨_, _, heq, hother, _⟩
      cases heq
      exact hclosed hother

/-- The status is 0 after `TEST_PASSED`, and 1 after `TEST_FAILED`. -/
theorem status_iff {p : RecvResult} (h : p.Carries testPassed ∨ p.Carries testFailed)
    (code : UInt32) : (if p.first ≠ testPassed then 1 else 0) = code ↔
      p.Carries testPassed ∧ code = 0 ∨ p.Carries testFailed ∧ code = 1 := by
  have hdiffer : testFailed ≠ testPassed := by decide
  rcases h with hp | hp
  · have hnot : ¬p.Carries testFailed := fun hf => hdiffer (hf.2.2.symm.trans hp.2.2)
    rw [if_neg (not_not.mpr hp.2.2)]
    simp [hp, hnot, eq_comm]
  · have hnot : ¬p.Carries testPassed := fun hf => hdiffer (hp.2.2.symm.trans hf.2.2)
    rw [if_pos (fun hf => hdiffer (hp.2.2.symm.trans hf))]
    simp [hp, hnot, eq_comm]

/-- The results with which `boot` calls `host_exit`. -/
def Exits (rs : List RecvResult) (code : UInt32) : Prop :=
  ∃ before p r rest, rs = before ++ p :: r :: rest ∧
    (∀ m ∈ before, m.Carries testMessage) ∧
    (p.Carries testPassed ∧ code = 0 ∨ p.Carries testFailed ∧ code = 1) ∧
    r.ret = trustyErrChannelClosed

theorem exits_message {m : RecvResult} (h : m.Carries testMessage) (rs : List RecvResult)
    (code : UInt32) : Exits (m :: rs) code ↔ Exits rs code := by
  constructor
  · rintro ⟨before, p, r, rest, heq, hbefore, hverdict, hclosed⟩
    cases before with
    | nil =>
      cases heq
      rcases hverdict with ⟨hp, _⟩ | ⟨hp, _⟩
      · exact absurd (h.2.2.symm.trans hp.2.2) (by decide)
      · exact absurd (h.2.2.symm.trans hp.2.2) (by decide)
    | cons x before =>
      cases heq
      exact ⟨before, p, r, rest, rfl, (List.forall_mem_cons.mp hbefore).2, hverdict, hclosed⟩
  · rintro ⟨before, p, r, rest, rfl, hbefore, hverdict, hclosed⟩
    exact ⟨m :: before, p, r, rest, rfl, List.forall_mem_cons.mpr ⟨h, hbefore⟩, hverdict, hclosed⟩

theorem exits_other {x : RecvResult} (h : ¬x.Carries testMessage) (rs : List RecvResult)
    (code : UInt32) : Exits (x :: rs) code ↔
      (x.Carries testPassed ∧ code = 0 ∨ x.Carries testFailed ∧ code = 1) ∧
        ∃ r rest, rs = r :: rest ∧ r.ret = trustyErrChannelClosed := by
  constructor
  · rintro ⟨before, p, r, rest, heq, hbefore, hverdict, hclosed⟩
    cases before with
    | nil =>
      cases heq
      exact ⟨hverdict, r, rest, rfl, hclosed⟩
    | cons y before =>
      cases heq
      exact absurd (List.forall_mem_cons.mp hbefore).1 h
  · rintro ⟨hverdict, r, rest, rfl, hclosed⟩
    exact ⟨[], x, r, rest, rfl, List.forall_mem_nil _, hverdict, hclosed⟩

theorem readVerdict_exited (c : CommPort) (rs : List RecvResult) (code : UInt32) :
    (readVerdict c rs).2 = .exited code ↔ Exits rs code := by
  induction rs generalizing c with
  | nil =>
    refine iff_of_false nofun ?_
    rintro ⟨before, p, r, rest, heq, _⟩
    cases before with
    | nil => cases heq
    | cons => cases heq
  | cons x rs ih =>
    rcases readVerdict_cons c x rs with ⟨hmessage, hrun⟩ | ⟨hverdict, hrun⟩ | ⟨hother, hrun⟩
    · rw [hrun, ih, exits_message hmessage]
    · rw [hrun, awaitClose_exited, exits_other (not_message hverdict)]
      constructor
      · rintro ⟨r, rest, hrs, hclosed, hcode⟩
        exact ⟨(status_iff hverdict code).mp hcode, r, rest, hrs, hclosed⟩
      · rintro ⟨hcode, r, rest, hrs, hclosed⟩
        exact ⟨r, rest, hrs, hclosed, (status_iff hverdict code).mpr hcode⟩
    · rw [hrun, exits_other fun h => (hother _ h).1 rfl]
      refine iff_of_false nofun ?_
      rintro ⟨⟨hv, _⟩ | ⟨hv, _⟩, _⟩
      · exact (hother _ hv).2.1 rfl
      · exact (hother _ hv).2.2 rfl

theorem awaitClose_logged (c : CommPort) (p : RecvResult) (rs : List RecvResult) :
    hostLog (awaitClose c p rs).1.sent = hostLog c.sent := by
  cases rs with
  | nil => rfl
  | cons r rest =>
    rw [awaitClose]
    split
    next => rfl
    next =>
      obtain ⟨b, hsent, hlogged, _⟩ := hostExit_sent c (if p.first ≠ testPassed then 1 else 0)
      show hostLog (hostExit c (if p.first ≠ testPassed then 1 else 0)).sent = _
      rw [hsent, hostLog, List.flatMap_append, List.flatMap_singleton, hlogged, List.append_nil]
      rfl

/-- The host's log gets the bodies of the messages, up to the first result that is none. -/
theorem readVerdict_logged (c : CommPort) (rs : List RecvResult) :
    hostLog (readVerdict c rs).1.sent = hostLog c.sent ++
      (rs.takeWhile fun r => r.Carries testMessage).flatMap RecvResult.body := by
  induction rs generalizing c with
  | nil => exact (List.append_nil _).symm
  | cons x rs ih =>
    rcases readVerdict_cons c x rs with ⟨hmessage, hrun⟩ | ⟨hverdict, hrun⟩ | ⟨hother, hrun⟩
    · have hsize : (x.ret - 1).toNat ≤ (x.testResult.drop 1).length := by
        have hhigh := hmessage.2.1
        rw [List.length_drop, x.size]
        unfold sizeofTestResult
        omega
      rw [hrun, ih, logBuf_logged c hsize, List.takeWhile_cons_of_pos (by simpa using hmessage),
        List.flatMap_cons, List.append_assoc]
      rfl
    · have hnot : ¬x.Carries testMessage := not_message hverdict
      rw [hrun, awaitClose_logged, List.takeWhile_cons_of_neg (by simpa using hnot)]
      exact (List.append_nil _).symm
    · have hnot : ¬x.Carries testMessage := fun h => (hother _ h).1 rfl
      rw [hrun, List.takeWhile_cons_of_neg (by simpa using hnot)]
      exact (List.append_nil _).symm

/-- After a call of `host_exit`, its status is the last thing that the host was told. -/
theorem exited_reported {c : CommPort} {rs : List RecvResult} {code : UInt32}
    (h : (readVerdict c rs).2 = .exited code) : ∃ b, (readVerdict c rs).1.sent.getLast? = some b ∧
      b.exitStatus = some code.toUInt8 := by
  induction rs generalizing c with
  | nil => cases h
  | cons x rs ih =>
    rcases readVerdict_cons c x rs with ⟨_, hrun⟩ | ⟨_, hrun⟩ | ⟨_, hrun⟩
    · rw [hrun] at h ⊢
      exact ih h
    · rw [hrun] at h ⊢
      obtain ⟨r, rest, rfl, hclosed, hcode⟩ := (awaitClose_exited c x rs code).mp h
      obtain ⟨b, hsent, _, hstatus⟩ := hostExit_sent c code
      refine ⟨b, ?_, hstatus⟩
      rw [awaitClose, if_neg (not_not.mpr hclosed), hcode, hsent, List.getLast?_append]
      rfl
    · rw [hrun] at h
      cases h

/-! Any sequence of results: `results k` is what the `k`-th receive returns, if it returns. -/

/-- The results of the first `n` receives, up to one that does not return. -/
def taken (results : Nat → Option RecvResult) : Nat → List RecvResult
  | 0 => []
  | n + 1 =>
    match results 0 with
    | none => []
    | some r => r :: taken (fun k => results (k + 1)) n

section Taken

variable {results : Nat → Option RecvResult} {n : Nat}

theorem taken_cons {r : RecvResult} (h : results 0 = some r) (n : Nat) :
    taken results (n + 1) = r :: taken (fun k => results (k + 1)) n := by
  rw [taken, h]

theorem taken_nil (h : results 0 = none) : taken results n = [] := by
  cases n with
  | zero => rfl
  | succ n => rw [taken, h]

theorem taken_getElem? {j : Nat} {r : RecvResult} (h : (taken results n)[j]? = some r) :
    results j = some r := by
  induction n generalizing results j with
  | zero => cases h
  | succ n ih =>
    cases hfirst : results 0 with
    | none =>
      rw [taken_nil hfirst] at h
      cases h
    | some x =>
      rw [taken_cons hfirst] at h
      cases j with
      | zero => exact hfirst.trans h
      | succ j => exact @ih (fun k => results (k + 1)) j h

theorem taken_length : (taken results n).length ≤ n := by
  induction n generalizing results with
  | zero => exact Nat.le_refl 0
  | succ n ih =>
    cases hfirst : results 0 with
    | none =>
      rw [taken_nil hfirst]
      exact Nat.zero_le _
    | some x =>
      rw [taken_cons hfirst]
      exact Nat.succ_le_succ ih

theorem taken_succ {r : RecvResult} (h : ∀ j < n, ∃ x, results j = some x)
    (hr : results n = some r) : taken results (n + 1) = taken results n ++ [r] := by
  induction n generalizing results with
  | zero => exact taken_cons hr 0
  | succ n ih =>
    obtain ⟨x, hfirst⟩ := h 0 (Nat.succ_pos n)
    have hrest : ∀ j < n, ∃ y, results (j + 1) = some y := fun j hj => h (j + 1) (by omega)
    rw [taken_cons hfirst, taken_cons hfirst, @ih (fun k => results (k + 1)) hrest hr]
    rfl

theorem mem_taken {r : RecvResult} (h : r ∈ taken results n) : ∃ j < n, results j = some r := by
  obtain ⟨j, hj⟩ := List.mem_iff_getElem?.mp h
  have hbound := (List.getElem?_eq_some_iff.mp hj).1
  exact ⟨j, Nat.lt_of_lt_of_le hbound taken_length, taken_getElem? hj⟩

end Taken

/-- At some point of the run with these results, `host_exit` is called. -/
def CallsExit (c : CommPort) (results : Nat → Option RecvResult) (code : UInt32) : Prop :=
  ∃ n, (readVerdict c (taken results n)).2 = .exited code

/-- After `k` messages there is a verdict, and then the channel is closed. -/
structure Decides (results : Nat → Option RecvResult) (verdict : UInt8) (k : Nat) : Prop where
  messages : ∀ j < k, ∃ r, results j = some r ∧ r.Carries testMessage
  decided : ∃ r, results k = some r ∧ r.Carries verdict
  closed : ∃ r, results (k + 1) = some r ∧ r.ret = trustyErrChannelClosed

theorem exits_taken {results : Nat → Option RecvResult} {n : Nat} {code : UInt32}
    (h : Exits (taken results n) code) :
    ∃ k, Decides results testPassed k ∧ code = 0 ∨ Decides results testFailed k ∧ code = 1 := by
  obtain ⟨before, p, r, rest, heq, hbefore, hverdict, hclosed⟩ := h
  have hmessages : ∀ j < before.length, ∃ m, results j = some m ∧ m.Carries testMessage := by
    intro j hj
    refine ⟨before[j], taken_getElem? (n := n) ?_, hbefore _ (List.getElem_mem hj)⟩
    rw [heq, List.getElem?_append_left hj, List.getElem?_eq_getElem hj]
  have hp : results before.length = some p := by
    refine taken_getElem? (n := n) ?_
    rw [heq, List.getElem?_append_right (Nat.le_refl _), Nat.sub_self]
    rfl
  have hr : results (before.length + 1) = some r := by
    refine taken_getElem? (n := n) ?_
    rw [heq, List.getElem?_append_right (Nat.le_add_right _ 1), Nat.add_sub_cancel_left]
    rfl
  rcases hverdict with ⟨hpassed, hcode⟩ | ⟨hfailed, hcode⟩
  · exact ⟨before.length, Or.inl ⟨⟨hmessages, ⟨p, hp, hpassed⟩, r, hr, hclosed⟩, hcode⟩⟩
  · exact ⟨before.length, Or.inr ⟨⟨hmessages, ⟨p, hp, hfailed⟩, r, hr, hclosed⟩, hcode⟩⟩

theorem Decides.exits {results : Nat → Option RecvResult} {verdict : UInt8} {k : Nat}
    (h : Decides results verdict k) {code : UInt32}
    (hcode : verdict = testPassed ∧ code = 0 ∨ verdict = testFailed ∧ code = 1) :
    Exits (taken results (k + 2)) code := by
  obtain ⟨p, hp, hcarries⟩ := h.decided
  obtain ⟨r, hr, hclosed⟩ := h.closed
  have hsome : ∀ j < k, ∃ x, results j = some x := by
    intro j hj
    obtain ⟨m, hm, _⟩ := h.messages j hj
    exact ⟨m, hm⟩
  have hsome' : ∀ j < k + 1, ∃ x, results j = some x := by
    intro j hj
    rcases Nat.lt_succ_iff_lt_or_eq.mp hj with hbefore | rfl
    · exact hsome j hbefore
    · exact ⟨p, hp⟩
  refine ⟨taken results k, p, r, [], ?_, ?_, ?_, hclosed⟩
  · rw [taken_succ hsome' hr, taken_succ hsome hp, List.append_assoc]
    rfl
  · intro m hm
    obtain ⟨j, hj, hresult⟩ := mem_taken hm
    obtain ⟨m', hm', hmessage⟩ := h.messages j hj
    obtain rfl := Option.some.inj (hresult.symm.trans hm')
    exact hmessage
  · rcases hcode with ⟨rfl, hzero⟩ | ⟨rfl, hone⟩
    · exact Or.inl ⟨hcarries, hzero⟩
    · exact Or.inr ⟨hcarries, hone⟩

theorem callsExit_iff (c : CommPort) (results : Nat → Option RecvResult) (code : UInt32) :
    CallsExit c results code ↔
      ∃ k, Decides results testPassed k ∧ code = 0 ∨ Decides results testFailed k ∧ code = 1 := by
  constructor
  · rintro ⟨n, h⟩
    exact exits_taken ((readVerdict_exited c _ code).mp h)
  · rintro ⟨k, ⟨h, rfl⟩ | ⟨h, rfl⟩⟩
    · exact ⟨k + 2, (readVerdict_exited c _ 0).mpr (h.exits (Or.inl ⟨rfl, rfl⟩))⟩
    · exact ⟨k + 2, (readVerdict_exited c _ 1).mpr (h.exits (Or.inr ⟨rfl, rfl⟩))⟩

theorem readVerdict_sound (c : CommPort) (results : Nat → Option RecvResult) :
    (CallsExit c results 0 ↔ ∃ k, Decides results testPassed k) ∧
      (CallsExit c results 1 ↔ ∃ k, Decides results testFailed k) ∧
      (∀ code, CallsExit c results code → code = 0 ∨ code = 1) ∧
      ∀ n, hostLog (readVerdict c (taken results n)).1.sent = hostLog c.sent ++
        ((taken results n).takeWhile fun r => r.Carries testMessage).flatMap RecvResult.body := by
  refine ⟨?_, ?_, ?_, fun n => readVerdict_logged c (taken results n)⟩
  · rw [callsExit_iff]
    simp
  · rw [callsExit_iff]
    simp
  · intro code h
    obtain ⟨_, ⟨_, hzero⟩ | ⟨_, hone⟩⟩ := (callsExit_iff c results code).mp h
    · exact Or.inl hzero
    · exact Or.inr hone

end ExternalTrusty.TestRunner
