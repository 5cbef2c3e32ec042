import ExternalTrusty.Verdict
import ExternalTrusty.VirtqCalls

namespace ExternalTrusty.TestRunner

open CMemory

/-! How the host reads a message of 64 bytes: a type, a size, and that many bytes of data. -/

def MsgBuf.type (b : MsgBuf) : UInt8 := b.bytes.getD 0 0

def MsgBuf.dataSize (b : MsgBuf) : Nat := (b.bytes.getD 1 0).toNat

def MsgBuf.data (b : MsgBuf) : List UInt8 := (b.bytes.drop sizeofMsg).take b.dataSize

/-- Messages that log this buffer, and nothing else. -/
structure LogsBuffer (buf : List UInt8) (msgs : List MsgBuf) : Prop where
  type : ∀ m ∈ msgs, m.type = msgLog
  size : ∀ m ∈ msgs, 1 ≤ m.dataSize ∧ m.dataSize ≤ 62
  data : msgs.flatMap MsgBuf.data = buf
  empty : buf = [] → msgs = []

theorem type_eq_iff (b : MsgBuf) (v : UInt8) : b.type = v ↔ b.bytes[0]? = some v := by
  obtain ⟨type, second, data, hb⟩ := b.bytes_eq
  rw [MsgBuf.type, hb]
  exact ⟨congrArg some, Option.some.inj⟩

theorem logged_eq_data {b : MsgBuf} (h : b.type = msgLog) : b.logged = b.data := by
  rw [MsgBuf.logged, if_pos ((type_eq_iff b msgLog).mp h), MsgBuf.data, MsgBuf.dataSize,
    List.getD_eq_getElem?_getD]

/-- The size that is put into a message stays there when the data is put behind it. -/
theorem setData_dataSize {b : MsgBuf} {src : List UInt8} {n : Nat} (hn : n < 256)
    (h : src.length ≤ testrunner0BufSize - sizeofMsg) :
    ((b.setSecond (UInt8.ofNat n)).setData src h).dataSize = n := by
  obtain ⟨type, second, data, hb⟩ := b.bytes_eq
  have hbytes : ((b.setSecond (UInt8.ofNat n)).setData src h).bytes =
      type :: UInt8.ofNat n :: overlay src data := by
    simp [MsgBuf.setData, MsgBuf.setSecond, hb, sizeofMsg]
  rw [MsgBuf.dataSize, hbytes]
  show (UInt8.ofNat n).toNat = n
  rw [UInt8.toNat_ofNat', Nat.mod_eq_of_lt hn]

/-- Every turn of the loop sends one message, with as much as is left and fits. -/
theorem logChunks_sent {c : CommPort} {buf : List UInt8} {remain offset : Nat}
    (htype : c.msgBuf.bytes[0]? = some msgLog) (hroom : offset + remain ≤ buf.length) :
    ∃ msgs, (logChunks c buf remain offset).sent = c.sent ++ msgs ∧
      (∀ m ∈ msgs, m.type = msgLog ∧ 1 ≤ m.dataSize ∧ m.dataSize ≤ 62) ∧
      (remain = 0 → msgs = []) := by
  induction remain using Nat.strongRecOn generalizing c offset with
  | ind remain ih =>
    rw [logChunks]
    by_cases hdone : remain = 0
    · rw [if_pos hdone]
      exact ⟨[], (List.append_nil _).symm, List.forall_mem_nil _, fun _ => rfl⟩
    · rw [if_neg hdone]
      have hcopied : min (testrunner0BufSize - sizeofMsg) remain ≤ 62 ∧
          1 ≤ min (testrunner0BufSize - sizeofMsg) remain := by
        unfold testrunner0BufSize sizeofMsg
        omega
      have hchunk := logChunk_length hroom
      have hfits : ((buf.drop offset).take
          (min (testrunner0BufSize - sizeofMsg) remain)).length ≤
            testrunner0BufSize - sizeofMsg :=
        Nat.le_trans (Nat.le_of_eq hchunk) (Nat.min_le_left _ _)
      obtain ⟨htype', _⟩ := logged_setData htype hchunk hfits
      have hsize := @setData_dataSize c.msgBuf _ (min (testrunner0BufSize - sizeofMsg) remain)
        (by omega) hfits
      let b := (c.msgBuf.setSecond
        (UInt8.ofNat (min (testrunner0BufSize - sizeofMsg) remain))).setData
        ((buf.drop offset).take (min (testrunner0BufSize - sizeofMsg) remain)) hfits
      have hrest : offset + min (testrunner0BufSize - sizeofMsg) remain +
          (remain - min (testrunner0BufSize - sizeofMsg) remain) ≤ buf.length := by omega
      obtain ⟨msgs, hsent, hmsgs, _⟩ :=
        @ih _ (by omega) (CommPort.sendVq { c with msgBuf := b }) _ htype' hrest
      refine ⟨b :: msgs, ?_, ?_, fun hzero => absurd hzero hdone⟩
      · rw [hsent]
        exact List.append_assoc c.sent [b] msgs
      · refine List.forall_mem_cons.mpr ⟨⟨(type_eq_iff _ _).mpr htype', ?_, ?_⟩, hmsgs⟩
        · rw [hsize]
          exact hcopied.2
        · rw [hsize]
          exact hcopied.1

/-- The device is shown the whole of the buffer, once for each message. -/
theorem delivered_messages (sent : List MsgBuf) (msgBuf : UInt64) :
    Delivered (sent.map fun m => (msgBuf, m.bytes)) := by
  apply delivered
  intro b hb
  obtain ⟨m, _, rfl⟩ := List.mem_map.mp hb
  show m.bytes.length < 2 ^ 32
  rw [m.size]
  decide

theorem logBuf_sends (c : CommPort) (buf : List UInt8) (msgBuf : UInt64) :
    Delivered ((logBuf c buf buf.length).sent.map fun m => (msgBuf, m.bytes)) ∧
      ∃ msgs, (logBuf c buf buf.length).sent = c.sent ++ msgs ∧ LogsBuffer buf msgs := by
  refine ⟨delivered_messages _ _, ?_⟩
  have hroom : 0 + buf.length ≤ buf.length := by omega
  have htype : (c.msgBuf.setType msgLog).bytes[0]? = some msgLog := setType_first c.msgBuf msgLog
  obtain ⟨msgs, hsent, hmsgs, hempty⟩ :=
    @logChunks_sent { c with msgBuf := c.msgBuf.setType msgLog } _ _ _ htype hroom
  refine ⟨msgs, hsent, fun m hm => (hmsgs m hm).1, fun m hm => (hmsgs m hm).2, ?_, ?_⟩
  · have hlog := logBuf_logged c (Nat.le_refl buf.length)
    rw [logBuf, hsent, hostLog, hostLog, List.flatMap_append, List.take_length] at hlog
    rw [← List.append_cancel_left hlog]
    exact List.flatMap_congr fun m hm => (logged_eq_data (hmsgs m hm).1).symm
  · intro hbuf
    rw [hbuf] at hempty
    exact hempty rfl

end ExternalTrusty.TestRunner
