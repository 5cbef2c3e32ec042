import ExternalTrusty.Attempts
import ExternalTrusty.RpmbRequest
import ExternalTrusty.VirtqCalls

namespace ExternalTrusty.TestRunner

open CMemory CProgram

/-! `test-runner-storage.c` -/

/-- What the host puts into an input buffer, and the length that it reports. -/
structure HostReply where
  bytes : List UInt8
  len : UInt32

/-- The port of the RPMB device: the buffers that were sent, what the host has for the input buffers
to come, and whether an assertion has failed. -/
structure RpmbPort where
  sent : List (List UInt8)
  replies : List HostReply
  aborted : Bool

def nextReply (w : World RpmbPort) : HostReply := w.env.replies.headD ⟨[], 0⟩

/-- `assert`, whose `abort_msg` tells the host on another port and returns -/
def check (ok : Bool) (w : World RpmbPort) : World RpmbPort :=
  if ok then w else { w with env := { w.env with aborted := true } }

/-- `send_vq` on the port: the descriptor keeps 32 bits of the length. -/
def sendVirtioRpmb (data : Nat → List UInt8) (len : Nat) (w : World RpmbPort) :
    Int × World RpmbPort :=
  if len = 0 then (0, w)
  else (ssize (UInt64.ofNat len),
    { w with env := { w.env with sent := w.env.sent ++ [data (u32 len)] } })

/-- `recv_vq` on the port: the host writes to the buffer only. -/
def recvVirtioRpmb (data : Ptr Obj) (len : Nat) (w : World RpmbPort) : Int × World RpmbPort :=
  if len = 0 then (0, w)
  else ((nextReply w).len.toNat,
    { w with
      mem := w.mem.put data ((nextReply w).bytes.take (u32 len))
      env := { w.env with replies := w.env.replies.tail } })

/-- What follows each transfer: its result is put into an `int`, and checked. -/
def checkRet (r : Int × World RpmbPort) (size : Nat)
    (next : World RpmbPort → Int × World RpmbPort) : Int × World RpmbPort :=
  let ret := toInt (intToUsize r.1)
  if ret < 0 then (trustyErrGeneric, r.2) else next (check (intToUsize ret = size) r.2)

/-- A null pointer comes with a size of 0 only. -/
def rpmbStorageSend (relWriteData : Option (Ptr Obj)) (relWriteSize : Nat)
    (writeData : Option (Ptr Obj)) (writeSize : Nat) (readBuf : Ptr Obj) (readSize : Nat)
    (w : World RpmbPort) : Int × World RpmbPort :=
  let readCount := readSize / mmcBlockSize % 2 ^ 16
  let cmdCount := usize (relWriteSize + writeSize) / mmcBlockSize % 2 ^ 16
  let w := check (relWriteSize % mmcBlockSize = 0) w
  let w := check (writeSize % mmcBlockSize = 0) w
  checkRet (sendVirtioRpmb (leBytes · readCount) 2 w) 2 fun w =>
  checkRet (sendVirtioRpmb (leBytes · cmdCount) 2 w) 2 fun w =>
  checkRet (sendVirtioRpmb (fun n => (readIf w.mem relWriteData n).getD []) relWriteSize w)
    relWriteSize fun w =>
  checkRet (sendVirtioRpmb (fun n => (readIf w.mem writeData n).getD []) writeSize w)
    writeSize fun w =>
  checkRet (recvVirtioRpmb readBuf readSize w) readSize fun w => (0, w)

def rpmb0 : RpmbDevice RpmbPort := ⟨rpmbStorageSend⟩

/-! The other end of the port. -/

/-- What a host reads that takes two counts, and then as many blocks as the second of them says. -/
def hostReads (stream : List UInt8) : Option (Nat × List (List UInt8) × List UInt8) :=
  let cmdCount := leNat ((stream.drop 2).take 2)
  let body := stream.drop 4
  if stream.length < 4 + mmcBlockSize * cmdCount then none
  else some (leNat (stream.take 2), chunks mmcBlockSize (body.take (mmcBlockSize * cmdCount)),
    body.drop (mmcBlockSize * cmdCount))

/-- A host that reads one command after the other. -/
def hostReadsAll : Nat → List UInt8 → Option (List (Nat × List (List UInt8)) × List UInt8)
  | 0, stream => some ([], stream)
  | n + 1, stream => do
    let (readCount, blocks, stream) ← hostReads stream
    let (commands, stream) ← hostReadsAll n stream
    some ((readCount, blocks) :: commands, stream)

/-- A command of whole blocks, as many as two counts of 16 bits can tell. -/
structure RpmbCommand where
  rel : List UInt8
  wr : List UInt8
  readSize : Nat
  relBlocks : mmcBlockSize ∣ rel.length
  wrBlocks : mmcBlockSize ∣ wr.length
  count : (rel.length + wr.length) / mmcBlockSize < 256 ^ 2
  readCount : readSize / mmcBlockSize < 256 ^ 2

namespace RpmbCommand

def parts (c : RpmbCommand) : List (List UInt8) :=
  [leBytes 2 (c.readSize / mmcBlockSize), leBytes 2 ((c.rel.length + c.wr.length) / mmcBlockSize),
    c.rel, c.wr]

/-- The bytes that the host gets for a command. -/
def stream (c : RpmbCommand) : List UInt8 := c.parts.flatten

def blocks (c : RpmbCommand) : List (List UInt8) :=
  chunks mmcBlockSize c.rel ++ chunks mmcBlockSize c.wr

end RpmbCommand

/-- The host reads all of a command and nothing behind it, and finds the blocks of both regions. -/
theorem hostReads_stream (c : RpmbCommand) (rest : List UInt8) :
    hostReads (c.stream ++ rest) = some (c.readSize / mmcBlockSize, c.blocks, rest) := by
  have hblock : 0 < mmcBlockSize := by decide
  have hstream : c.stream ++ rest = leBytes 2 (c.readSize / mmcBlockSize) ++
      (leBytes 2 ((c.rel.length + c.wr.length) / mmcBlockSize) ++ (c.rel ++ c.wr ++ rest)) := by
    simp only [RpmbCommand.stream, RpmbCommand.parts, List.flatten_cons, List.flatten_nil,
      List.append_nil, List.append_assoc]
  have hfirst : leNat ((c.stream ++ rest).take 2) = c.readSize / mmcBlockSize := by
    rw [hstream, List.take_left' (leBytes_length 2 _), leNat_leBytes, Nat.mod_eq_of_lt c.readCount]
  have hskip : (c.stream ++ rest).drop 2 =
      leBytes 2 ((c.rel.length + c.wr.length) / mmcBlockSize) ++ (c.rel ++ c.wr ++ rest) := by
    rw [hstream, List.drop_left' (leBytes_length 2 _)]
  have hsecond : leNat (((c.stream ++ rest).drop 2).take 2) =
      (c.rel.length + c.wr.length) / mmcBlockSize := by
    rw [hskip, List.take_left' (leBytes_length 2 _), leNat_leBytes, Nat.mod_eq_of_lt c.count]
  have hbody : (c.stream ++ rest).drop 4 = c.rel ++ c.wr ++ rest := by
    rw [show 4 = 2 + 2 from rfl, ← List.drop_drop, hskip, List.drop_left' (leBytes_length 2 _)]
  have hsize : mmcBlockSize * ((c.rel.length + c.wr.length) / mmcBlockSize) =
      (c.rel ++ c.wr).length := by
    rw [List.length_append]
    exact Nat.mul_div_cancel' (Nat.dvd_add c.relBlocks c.wrBlocks)
  have hlong : ¬(c.stream ++ rest).length < 4 + (c.rel ++ c.wr).length := by
    rw [hstream]
    simp only [List.length_append, leBytes_length]
    omega
  rw [hostReads, hfirst, hsecond, hsize, if_neg hlong, hbody, List.take_left, List.drop_left,
    chunks_append hblock c.relBlocks, RpmbCommand.blocks]

/-- The two ends stay in step over any number of commands. -/
theorem hostReadsAll_streams (cs : List RpmbCommand) (rest : List UInt8) :
    hostReadsAll cs.length (cs.flatMap RpmbCommand.stream ++ rest) =
      some (cs.map fun c => (c.readSize / mmcBlockSize, c.blocks), rest) := by
  induction cs with
  | nil => rfl
  | cons c cs ih =>
    rw [List.length_cons, hostReadsAll, List.flatMap_cons, List.append_assoc, hostReads_stream]
    simp only [Option.bind_eq_bind, Option.bind_some, ih, List.map_cons]

theorem part_length {p : List UInt8} {off n : Nat} (h : off + n ≤ p.length) :
    ((p.drop off).take n).length = n := by
  rw [List.length_take, List.length_drop]
  omega

/-- The command of a request. -/
def RpmbCommand.ofRequest (p : List UInt8) (valid : RpmbValid p)
    (room : p.length ≤ sizeofReqBuf) : RpmbCommand where
  rel := (p.drop 16).take (rpmbReliableSize p)
  wr := (p.drop (16 + rpmbReliableSize p)).take (rpmbWriteSize p)
  readSize := rpmbReadSize p
  relBlocks := by
    obtain ⟨_, hlen, hrel, _⟩ := valid
    rw [part_length (by omega)]
    exact Nat.dvd_of_mod_eq_zero hrel
  wrBlocks := by
    obtain ⟨_, hlen, _, hwr, _⟩ := valid
    rw [part_length (by omega)]
    exact Nat.dvd_of_mod_eq_zero hwr
  count := by
    have hlen := valid.2.1
    unfold sizeofReqBuf at room
    rw [part_length (by omega), part_length (by omega), mmcBlockSize]
    omega
  readCount := by
    have hread := valid.2.2.2.2.2
    unfold mmcBlockSize
    omega

/-! What the test runner sends. -/

/-- What the queue shows the device of some buffers: nothing of an empty one -/
def shown (bufs : List (List UInt8)) : List (List UInt8) := bufs.filter fun b => b ≠ []

/-- Some buffers were sent, and nothing else happened. -/
structure Sends (w w' : World RpmbPort) (bufs : List (List UInt8)) : Prop where
  sent : w'.env.sent = w.env.sent ++ shown bufs
  mem : w'.mem = w.mem
  replies : w'.env.replies = w.env.replies
  aborted : w'.env.aborted = w.env.aborted

theorem Sends.trans {w w₁ w₂ : World RpmbPort} {bufs more : List (List UInt8)}
    (h : Sends w w₁ bufs) (h' : Sends w₁ w₂ more) : Sends w w₂ (bufs ++ more) where
  sent := by rw [h'.sent, h.sent, shown, shown, shown, List.filter_append, List.append_assoc]
  mem := h'.mem.trans h.mem
  replies := h'.replies.trans h.replies
  aborted := h'.aborted.trans h.aborted

/-- A transfer that returns the size it was asked for passes both checks. -/
theorem checkRet_size {r : Int × World RpmbPort} {size : Nat} (small : size < 2 ^ 31)
    (ret : r.1 = size) (next : World RpmbPort → Int × World RpmbPort) :
    checkRet r size next = next r.2 := by
  have hcast : intToUsize (size : Int) = size := by
    rw [intToUsize_of_nonneg (by omega) (by omega), Int.toNat_natCast]
  have hret : toInt (intToUsize r.1) = size := by
    rw [ret, hcast, toInt_of_lt small]
  have hsame : decide (intToUsize (size : Int) = size) = true := decide_eq_true hcast
  simp only [checkRet, hret]
  rw [if_neg (by omega), hsame]
  rfl

theorem sendVirtioRpmb_then {data : Nat → List UInt8} {len : Nat} {w : World RpmbPort}
    (small : len < 2 ^ 31) (size : (data len).length = len)
    (next : World RpmbPort → Int × World RpmbPort) :
    ∃ w', checkRet (sendVirtioRpmb data len w) len next = next w' ∧ Sends w w' [data len] := by
  by_cases hlen : len = 0
  · have hnone : shown [data len] = [] := by
      rw [List.eq_nil_of_length_eq_zero (size.trans hlen)]
      rfl
    refine ⟨w, ?_, ?_, rfl, rfl, rfl⟩
    · rw [sendVirtioRpmb, if_pos hlen, checkRet_size small (congrArg Int.ofNat hlen.symm)]
    · rw [hnone, List.append_nil]
  · have hu32 : u32 len = len := Nat.mod_eq_of_lt (by omega)
    have hssize : ssize (UInt64.ofNat len) = len := by
      have hlen64 : (UInt64.ofNat len).toNat = len := by
        rw [UInt64.toNat_ofNat', Nat.mod_eq_of_lt (by omega)]
      rw [ssize, hlen64, if_pos (by omega)]
    have hall : shown [data len] = [data len] := by
      refine List.filter_cons_of_pos ?_
      rw [decide_eq_true_iff]
      exact List.ne_nil_of_length_pos (by omega)
    refine ⟨{ w with env := { w.env with sent := w.env.sent ++ [data len] } }, ?_, ?_, rfl, rfl,
      rfl⟩
    · rw [sendVirtioRpmb, if_neg hlen, checkRet_size small hssize, hu32]
    · rw [hall]

theorem RpmbCommand.size_lt (c : RpmbCommand) : c.rel.length + c.wr.length < 2 ^ 25 := by
  have hcount := c.count
  unfold mmcBlockSize at hcount
  omega

/-- A command's four parts are sent in this order, whatever their sizes; then comes the reply. -/
theorem rpmbStorageSend_sends (c : RpmbCommand) {rel wr : Option (Ptr Obj)} {w : World RpmbPort}
    (hrel : (readIf w.mem rel c.rel.length).getD [] = c.rel)
    (hwr : (readIf w.mem wr c.wr.length).getD [] = c.wr) :
    ∃ w', rpmbStorageSend rel c.rel.length wr c.wr.length readBuf c.readSize w =
        checkRet (recvVirtioRpmb readBuf c.readSize w') c.readSize (fun w => (0, w)) ∧
      Sends w w' c.parts := by
  have hlt := c.size_lt
  have hreadCount : c.readSize / mmcBlockSize % 2 ^ 16 = c.readSize / mmcBlockSize :=
    Nat.mod_eq_of_lt c.readCount
  have hsum : usize (c.rel.length + c.wr.length) = c.rel.length + c.wr.length :=
    Nat.mod_eq_of_lt (by omega)
  have hcmdCount : usize (c.rel.length + c.wr.length) / mmcBlockSize % 2 ^ 16 =
      (c.rel.length + c.wr.length) / mmcBlockSize := by
    rw [hsum]
    exact Nat.mod_eq_of_lt c.count
  have hrelBlocks : decide (c.rel.length % mmcBlockSize = 0) = true :=
    decide_eq_true (Nat.mod_eq_zero_of_dvd c.relBlocks)
  have hwrBlocks : decide (c.wr.length % mmcBlockSize = 0) = true :=
    decide_eq_true (Nat.mod_eq_zero_of_dvd c.wrBlocks)
  simp only [rpmbStorageSend, hreadCount, hcmdCount, hrelBlocks, hwrBlocks, check, ↓reduceIte]
  obtain ⟨w₁, hrun₁, h₁⟩ := @sendVirtioRpmb_then (leBytes · (c.readSize / mmcBlockSize)) 2 w
    (by omega) (leBytes_length 2 _) _
  rw [hrun₁]
  obtain ⟨w₂, hrun₂, h₂⟩ := @sendVirtioRpmb_then
    (leBytes · ((c.rel.length + c.wr.length) / mmcBlockSize)) 2 w₁ (by omega)
    (leBytes_length 2 _) _
  rw [hrun₂]
  have hmem₂ : w₂.mem = w.mem := (h₁.trans h₂).mem
  obtain ⟨w₃, hrun₃, h₃⟩ := @sendVirtioRpmb_then (fun n => (readIf w₂.mem rel n).getD [])
    c.rel.length w₂ (by omega) (by rw [hmem₂, hrel]) _
  rw [hrun₃]
  have hmem₃ : w₃.mem = w.mem := h₃.mem.trans hmem₂
  obtain ⟨w₄, hrun₄, h₄⟩ := @sendVirtioRpmb_then (fun n => (readIf w₃.mem wr n).getD [])
    c.wr.length w₃ (by omega) (by rw [hmem₃, hwr]) _
  rw [hrun₄]
  refine ⟨w₄, rfl, ?_⟩
  simp only [hmem₂, hrel] at h₃
  simp only [hmem₃, hwr] at h₄
  exact ((h₁.trans h₂).trans h₃).trans h₄

/-- What the host puts into the buffer is what is there, and it is put nowhere else. -/
theorem recvVirtioRpmb_done {size : Nat} (small : size < 2 ^ 31) (w : World RpmbPort) :
    ∃ rc w', checkRet (recvVirtioRpmb readBuf size w) size (fun w => (0, w)) = (rc, w') ∧
      w'.env.sent = w.env.sent ∧
      (size = 0 ∨ (nextReply w).len.toNat = size → rc = 0 ∧ w'.env.aborted = w.env.aborted) ∧
      (0 < size → w'.mem.read readBuf size =
        overlay ((nextReply w).bytes.take size) (w.mem.read readBuf size)) ∧
      ∀ q n, Apart readBuf size q n → w'.mem.read q n = w.mem.read q n := by
  by_cases hsize : size = 0
  · refine ⟨0, w, ?_, rfl, fun _ => ⟨rfl, rfl⟩, fun hpos => absurd hsize (Nat.ne_of_gt hpos),
      fun _ _ _ => rfl⟩
    rw [recvVirtioRpmb, if_pos hsize, checkRet_size small (congrArg Int.ofNat hsize.symm)]
  · have hu32 : u32 size = size := Nat.mod_eq_of_lt (by omega)
    have hbytes : ((nextReply w).bytes.take size).length ≤ size := List.length_take_le _ _
    let w₁ : World RpmbPort := { w with
      mem := w.mem.put readBuf ((nextReply w).bytes.take size)
      env := { w.env with replies := w.env.replies.tail } }
    have hrecv : recvVirtioRpmb readBuf size w = (((nextReply w).len.toNat : Int), w₁) := by
      rw [recvVirtioRpmb, if_neg hsize, hu32]
    have hread : w₁.mem.read readBuf size =
        overlay ((nextReply w).bytes.take size) (w.mem.read readBuf size) :=
      Mem.read_put_over w.mem readBuf hbytes
    have hkept : ∀ q n, Apart readBuf size q n → w₁.mem.read q n = w.mem.read q n :=
      fun q n hapart => Mem.read_put_apart w.mem hbytes hapart
    rw [hrecv]
    by_cases hlen : (nextReply w).len.toNat = size
    · rw [checkRet_size small (congrArg Int.ofNat hlen)]
      exact ⟨0, w₁, rfl, rfl, fun _ => ⟨rfl, rfl⟩, fun _ => hread, hkept⟩
    · have hnot : ¬(size = 0 ∨ (nextReply w).len.toNat = size) := by
        rintro (h | h)
        · exact hsize h
        · exact hlen h
      obtain ⟨rc, w₂, hrun, hsent, hmem⟩ : ∃ rc w₂,
          checkRet (((nextReply w).len.toNat : Int), w₁) size (fun w => (0, w)) = (rc, w₂) ∧
            w₂.env.sent = w₁.env.sent ∧ w₂.mem = w₁.mem := by
        simp only [checkRet]
        split
        next => exact ⟨_, _, rfl, rfl, rfl⟩
        next =>
          refine ⟨_, _, rfl, ?_⟩
          unfold check
          split
          next => exact ⟨rfl, rfl⟩
          next => exact ⟨rfl, rfl⟩
      refine ⟨rc, w₂, hrun, hsent, fun h => absurd h hnot, fun _ => ?_, fun q n hapart => ?_⟩
      · rw [hmem, hread]
      · rw [hmem, hkept q n hapart]

/-- A command was put onto the port, and the host's answer into the buffer. -/
structure RpmbCommand.Served (c : RpmbCommand) (w : World RpmbPort) (rc : Int)
    (w₁ : World RpmbPort) : Prop where
  sent : w₁.env.sent = w.env.sent ++ shown c.parts
  stream : w₁.env.sent.flatten = w.env.sent.flatten ++ c.stream
  returns : c.readSize = 0 ∨ (nextReply w).len.toNat = c.readSize →
    rc = 0 ∧ w₁.env.aborted = w.env.aborted
  read : 0 < c.readSize → (nextReply w).bytes.length = c.readSize →
    w₁.mem.read readBuf c.readSize = (nextReply w).bytes
  kept : ∀ q n, Apart readBuf c.readSize q n → w₁.mem.read q n = w.mem.read q n

theorem rpmbStorageSend_served (c : RpmbCommand) {rel wr : Option (Ptr Obj)} {w : World RpmbPort}
    (hrel : (readIf w.mem rel c.rel.length).getD [] = c.rel)
    (hwr : (readIf w.mem wr c.wr.length).getD [] = c.wr) :
    ∃ rc w₁, rpmb0.storageSend rel c.rel.length wr c.wr.length readBuf c.readSize w = (rc, w₁) ∧
      c.Served w rc w₁ := by
  have hsmall : c.readSize < 2 ^ 31 := by
    have hcount := c.readCount
    unfold mmcBlockSize at hcount
    omega
  obtain ⟨w', hrun, hsends⟩ := rpmbStorageSend_sends c hrel hwr
  obtain ⟨rc, w₁, hdone, hsent, hreturns, hread, hkept⟩ := recvVirtioRpmb_done hsmall w'
  have hnext : nextReply w' = nextReply w := by rw [nextReply, nextReply, hsends.replies]
  rw [hnext] at hreturns hread
  rw [hsends.aborted] at hreturns
  have hall : w₁.env.sent = w.env.sent ++ shown c.parts := hsent.trans hsends.sent
  refine ⟨rc, w₁, hrun.trans hdone, hall, ?_, hreturns, ?_, ?_⟩
  · rw [hall, List.flatten_append, shown, List.flatten_filter_ne_nil, RpmbCommand.stream]
  · intro hpos hfull
    have htake : (nextReply w).bytes.take c.readSize = (nextReply w).bytes :=
      List.take_of_length_le (Nat.le_of_eq hfull)
    rw [hread hpos, htake]
    apply overlay_full
    rw [Mem.read_length, hfull]
  · intro q n hapart
    rw [hkept q n hapart, hsends.mem]

/-- A host at the other end of the queue gets this command whole, whatever was sent before it and
whatever comes after it. -/
structure RpmbCommand.Framed (c : RpmbCommand) : Prop where
  queue : ∀ (before : List (UInt64 × List UInt8)) (addrs : List UInt64),
    (∀ b ∈ before, b.2.length < 2 ^ 32) → Delivered (before ++ addrs.zip c.parts)
  host : ∀ rest, hostReads (c.stream ++ rest) = some (c.readSize / mmcBlockSize, c.blocks, rest)
  regions : c.blocks.flatten = c.rel ++ c.wr

theorem RpmbCommand.framed (c : RpmbCommand) : c.Framed where
  queue := by
    intro before addrs hbefore
    have hparts : ∀ b ∈ c.parts, b.length < 2 ^ 32 := by
      have hlt := c.size_lt
      intro b hb
      simp only [parts, List.mem_cons, List.not_mem_nil, or_false] at hb
      rcases hb with rfl | rfl | rfl | rfl
      · rw [leBytes_length]
        decide
      · rw [leBytes_length]
        decide
      · omega
      · omega
    apply delivered
    intro b hb
    rcases List.mem_append.mp hb with h | h
    · exact hbefore b h
    · exact hparts b.2 (List.of_mem_zip h).2
  host := hostReads_stream c
  regions := by
    have hblock : 0 < mmcBlockSize := by decide
    rw [blocks, List.flatten_append, chunks_flatten hblock, chunks_flatten hblock]

/-- Commands that were served one after the other. What happens between them is not on the port. -/
inductive ServedAll : World RpmbPort → List RpmbCommand → World RpmbPort → Prop
  | nil {w : World RpmbPort} : ServedAll w [] w
  | cons {w w₁ w₂ w₃ : World RpmbPort} {c : RpmbCommand} {cs : List RpmbCommand} {rc : Int}
    (first : c.Served w rc w₁) (between : w₂.env.sent = w₁.env.sent) (rest : ServedAll w₂ cs w₃) :
    ServedAll w (c :: cs) w₃

/-- A host that has read all there was before reads these commands, and then all there is. -/
theorem ServedAll.inStep {w w' : World RpmbPort} {cs : List RpmbCommand} (h : ServedAll w cs w') :
    ∃ stream, w'.env.sent.flatten = w.env.sent.flatten ++ stream ∧
      hostReadsAll cs.length stream =
        some (cs.map fun c => (c.readSize / mmcBlockSize, c.blocks), []) := by
  have hsent : w'.env.sent.flatten = w.env.sent.flatten ++ cs.flatMap RpmbCommand.stream := by
    induction h with
    | nil => exact (List.append_nil _).symm
    | cons first between _ ih =>
      rw [ih, between, first.stream, List.flatMap_cons, List.append_assoc]
  have hread := hostReadsAll_streams cs []
  rw [List.append_nil] at hread
  exact ⟨_, hsent, hread⟩

/-- A request is refused, or it is the command that is put onto the port. -/
theorem rpmbStorageSend_frames {t : Transport RpmbPort} {w : World RpmbPort} {p : List UInt8}
    (held : w.mem.read reqBuf p.length = p) (room : p.length ≤ sizeofReqBuf) :
    (¬RpmbValid p → proxyHandleRpmb .bits64 t rpmb0 .proxy reqMsg reqBuf p.length w =
      errResponse t .proxy reqMsg storageErrNotValid w) ∧
    (RpmbValid p → ∃ (c : RpmbCommand) (rel wr : Option (Ptr Obj)) (rc : Int)
      (w₁ : World RpmbPort),
      c.rel = (p.drop 16).take (rpmbReliableSize p) ∧ c.rel.length = rpmbReliableSize p ∧
      c.wr = (p.drop (16 + rpmbReliableSize p)).take (rpmbWriteSize p) ∧
      c.wr.length = rpmbWriteSize p ∧ c.readSize = rpmbReadSize p ∧
      proxyHandleRpmb .bits64 t rpmb0 .proxy reqMsg reqBuf p.length w =
        proxyExecute t rpmb0 .proxy reqMsg reqBuf rel c.rel.length wr c.wr.length c.readSize w ∧
      rpmb0.storageSend rel c.rel.length wr c.wr.length readBuf c.readSize w = (rc, w₁) ∧
      c.Served w rc w₁ ∧ c.Framed) := by
  refine ⟨proxyHandleRpmb_refused held, ?_⟩
  intro valid
  have hlen := valid.2.1
  let c := RpmbCommand.ofRequest p valid room
  have hrel : c.rel.length = rpmbReliableSize p := part_length (by omega)
  have hwr : c.wr.length = rpmbWriteSize p := part_length (by omega)
  obtain ⟨rc, w₁, hrun, hserved⟩ := @rpmbStorageSend_served c
    (if rpmbReliableSize p ≠ 0 then some (reqBuf.add 16) else none)
    (if rpmbWriteSize p ≠ 0 then some ((reqBuf.add 16).add (rpmbReliableSize p)) else none) w
    (by rw [hrel, readIf_payload held (by omega), rpmbData_bytes]; rfl)
    (by rw [hwr, ← Ptr.add_assoc, readIf_payload held (by omega), rpmbData_bytes]; rfl)
  refine ⟨c, _, _, rc, w₁, rfl, hrel, rfl, hwr, rfl, ?_, hrun, hserved, c.framed⟩
  rw [hrel, hwr]
  exact proxyHandleRpmb_valid held valid

/-- A request that writes a block and reads one. -/
def oneBlockRequest : List UInt8 :=
  [0, 0, 0, 0, 0, 2, 0, 0, 0, 2, 0, 0, 0, 0, 0, 0] ++ List.replicate 512 7

/-- The request has been received, and the host has a block of nines for it. -/
def oneBlockWorld : World RpmbPort where
  mem := ⟨fun b i => if b = .reqBuf then oneBlockRequest.getD i 0 else 0, []⟩
  chans := fun _ => ⟨1, 0, .proxy⟩
  initialized := fun _ => true
  env := ⟨[], [⟨List.replicate 512 9, 512⟩], false⟩

theorem oneBlockWorld_held :
    oneBlockWorld.mem.read reqBuf oneBlockRequest.length = oneBlockRequest :=
  read_reqBuf fun _ => rfl

theorem oneBlock_answered : ∃ (c : RpmbCommand) (w₁ : World RpmbPort),
    c.wr = List.replicate 512 7 ∧ c.Served oneBlockWorld 0 w₁ ∧ c.Framed ∧
      w₁.mem.read readBuf 512 = List.replicate 512 9 := by
  have hlen : oneBlockRequest.length = 528 := by
    rw [oneBlockRequest, List.length_append, List.length_replicate]
    rfl
  have hvalid : RpmbValid oneBlockRequest := by
    refine ⟨by omega, ?_, by decide, by decide, by decide, by decide⟩
    rw [hlen]
    decide
  have hroom : oneBlockRequest.length ≤ sizeofReqBuf := by
    rw [hlen]
    decide
  let t : Transport RpmbPort :=
    ⟨fun _ _ _ => none, fun _ w => (0, w), fun _ _ _ _ => none, fun _ _ _ _ => none⟩
  obtain ⟨c, _, _, rc, w₁, _, _, hwr, _, hread, _, _, hserved, hframed⟩ :=
    (@rpmbStorageSend_frames t _ _ oneBlockWorld_held hroom).2 hvalid
  have hsize : c.readSize = 512 := hread
  have hzero : rc = 0 := (hserved.returns (Or.inr (by rw [hsize]; rfl))).1
  subst hzero
  refine ⟨c, w₁, ?_, hserved, hframed, ?_⟩
  · rw [hwr]
    exact List.take_of_length_le (by rw [List.length_drop, hlen]; decide)
  · have hbytes : (nextReply oneBlockWorld).bytes = List.replicate 512 9 := rfl
    rw [← hbytes, ← hsize]
    apply hserved.read
    · rw [hsize]
      decide
    · rw [hbytes, hsize, List.length_replicate]

end ExternalTrusty.TestRunner
