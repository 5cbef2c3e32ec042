import ExternalTrusty.RpmbProxy

namespace ExternalTrusty

open CMemory

def rpmbReliableSize (p : List UInt8) : Nat := leNat (p.take 4)
def rpmbWriteSize (p : List UInt8) : Nat := leNat ((p.drop 4).take 4)
def rpmbReadSize (p : List UInt8) : Nat := leNat ((p.drop 8).take 4)

/-- An RPMB request that makes sense: its length is the one its sizes add up to, and the sizes
are whole blocks, as many as the buffers hold. -/
def RpmbValid (p : List UInt8) : Prop :=
  16 ≤ p.length ∧ p.length = 16 + rpmbReliableSize p + rpmbWriteSize p ∧
    rpmbReliableSize p % 512 = 0 ∧ rpmbWriteSize p % 512 = 0 ∧ rpmbReadSize p % 512 = 0 ∧
    rpmbReadSize p ≤ 4096

/-- `n` bytes of a request from an offset on, or a null pointer for none. -/
def rpmbData (p : List UInt8) (off n : Nat) : Option (List UInt8) :=
  if n = 0 then none else some ((p.drop off).take n)

/-- The request's header, with the response bit and the result set. -/
def replyHeader (msg : List UInt8) (result : Nat) : List UInt8 :=
  leBytes 4 (leNat (msg.take 4) ||| storageRespBit) ++
    ((msg.drop 4).take 12 ++ (leBytes 4 result ++ (msg.drop 20).take 4))

/-- The next receive brings a message with a whole header that fits the buffers. -/
def NextMessage (w : World Script) (msg : List UInt8) : Prop :=
  ∃ f, w.env.recvs.headD .closed = .frame f ∧ f.bytes = msg ∧ 24 ≤ msg.length ∧
    msg.length ≤ 24 + 4096

/-- What reading a message leaves: the message in its two buffers, and the rest as it was. -/
structure RequestRead (w w' : World Script) (msg : List UInt8) : Prop where
  header : w'.mem.read reqMsg 24 = msg.take 24
  payload : w'.mem.read reqBuf (msg.length - 24) = msg.drop 24
  kept : ∀ n, w'.mem.read readBuf n = w.mem.read readBuf n
  trace : w'.env.trace = w.env.trace ++ [.received .proxy]
  sends : w'.env.sends = w.env.sends
  rpmb : w'.env.rpmb = w.env.rpmb

def proxySegs : List (Seg Obj) := [⟨reqMsg, 24⟩, ⟨reqBuf, 4096⟩]

theorem proxyReadRequest_message {w : World Script} {msg : List UInt8} (h : NextMessage w msg) :
    ∃ w', proxyReadRequest scriptTransport .proxy reqMsg reqBuf sizeofReqBuf w =
      some (((msg.length - 24 : Nat) : Int), w') ∧ RequestRead w w' msg := by
  obtain ⟨f, hf, rfl, hlo, hhi⟩ := h
  have hrun := @scriptRecv_frame .proxy [⟨reqMsg, 24⟩, ⟨reqBuf, UInt64.ofNat sizeofReqBuf⟩] false _
    _ hf
  have hsegs : segs [⟨reqMsg, 24⟩, ⟨reqBuf, UInt64.ofNat sizeofReqBuf⟩] = proxySegs := rfl
  have htotal : total proxySegs = 4120 := rfl
  have hapart : SegsApart proxySegs := by decide
  rw [hsegs, htotal, if_neg (by omega), toInt_of_lt (by omega)] at hrun
  have hcast : intToUsize (f.bytes.length : Int) = f.bytes.length := by
    rw [intToUsize_of_nonneg (by omega) (by omega), Int.toNat_natCast]
  have hsub : usizeSub f.bytes.length sizeofStorageMsg = f.bytes.length - 24 := by
    unfold usizeSub sizeofStorageMsg
    omega
  refine ⟨w.received .proxy (scatter w.mem proxySegs f.bytes), ?_, ?_, ?_, ?_, rfl, rfl, rfl⟩
  · simp only [proxyReadRequest, scriptTransport, hrun, Option.bind_eq_bind, Option.bind_some]
    rw [if_neg (by omega), if_neg (by rw [hcast, sizeofStorageMsg]; omega), hcast, hsub,
      toInt_of_lt (by omega)]
  · have hread := @read_scatter_seg _ _ [] _ ⟨reqMsg, 24⟩ hapart w.mem f.bytes
    rw [overlay_full (by simp; omega)] at hread
    exact hread
  · have hread : (scatter w.mem proxySegs f.bytes).read reqBuf 4096 =
        overlay ((f.bytes.drop 24).take 4096) (w.mem.read reqBuf 4096) :=
      @read_scatter_seg _ _ [⟨reqMsg, 24⟩] _ ⟨reqBuf, 4096⟩ hapart w.mem f.bytes
    have hlen : (f.bytes.drop 24).length = f.bytes.length - 24 := List.length_drop
    have htake : (f.bytes.drop 24).take 4096 = f.bytes.drop 24 :=
      List.take_of_length_le (by omega)
    rw [World.received_mem, ← Mem.read_take _ _ (by omega : f.bytes.length - 24 ≤ 4096), hread,
      htake, overlay, List.take_left' hlen]
  · intro n
    apply read_scatter_apart
    intro v hv
    have hblock : v.base.block = .reqMsg ∨ v.base.block = .reqBuf := by
      simp only [proxySegs, List.mem_cons, List.not_mem_nil, or_false] at hv
      rcases hv with rfl | rfl
      · exact Or.inl rfl
      · exact Or.inr rfl
    rcases hblock with hb | hb
    · exact Or.inl (by rw [hb]; decide)
    · exact Or.inl (by rw [hb]; decide)

theorem proxyReadRequest_none {w : World Script} (h : ∀ msg, ¬NextMessage w msg) :
    ∃ rc w', proxyReadRequest scriptTransport .proxy reqMsg reqBuf sizeofReqBuf w =
      some (rc, w') ∧ rc < 0 ∧ w'.env.trace = w.env.trace ++ [.received .proxy] := by
  have hgeneric : trustyErrGeneric < 0 := by decide
  have hbig : trustyErrMsgTooBig < 0 := by decide
  cases hd : w.env.recvs.headD .closed with
  | failed rc neg =>
    have hrun := @scriptRecv_failed .proxy [⟨reqMsg, 24⟩, ⟨reqBuf, UInt64.ofNat sizeofReqBuf⟩] false
      _ _ _ hd
    refine ⟨rc, w.received .proxy w.mem, ?_, neg, rfl⟩
    simp only [proxyReadRequest, scriptTransport, hrun, Option.bind_eq_bind, Option.bind_some,
      if_pos neg]
  | frame f =>
    have hrun := @scriptRecv_frame .proxy [⟨reqMsg, 24⟩, ⟨reqBuf, UInt64.ofNat sizeofReqBuf⟩] false
      _ _ hd
    have hsegs : segs [⟨reqMsg, 24⟩, ⟨reqBuf, UInt64.ofNat sizeofReqBuf⟩] = proxySegs := rfl
    have htotal : total proxySegs = 4120 := rfl
    rw [hsegs, htotal] at hrun
    by_cases hlong : 4120 < f.bytes.length
    · rw [if_pos hlong] at hrun
      refine ⟨trustyErrMsgTooBig, w.received .proxy (scatter w.mem proxySegs f.bytes), ?_, hbig,
        rfl⟩
      simp only [proxyReadRequest, scriptTransport, hrun, Option.bind_eq_bind, Option.bind_some,
        if_pos hbig]
    · rw [if_neg hlong, toInt_of_lt (by omega)] at hrun
      have hshort : f.bytes.length < 24 := by
        by_contra hge
        exact h f.bytes ⟨f, hd, rfl, by omega, by omega⟩
      have hcast : intToUsize (f.bytes.length : Int) = f.bytes.length := by
        rw [intToUsize_of_nonneg (by omega) (by omega), Int.toNat_natCast]
      refine ⟨trustyErrGeneric, w.received .proxy (scatter w.mem proxySegs f.bytes), ?_, hgeneric,
        rfl⟩
      simp only [proxyReadRequest, scriptTransport, hrun, Option.bind_eq_bind, Option.bind_some]
      rw [if_neg (by omega), if_pos (by rw [hcast, sizeofStorageMsg]; exact hshort)]

/-- Setting the result and the response bit changes these two words of the header. -/
theorem replyHeader_stored {m : Mem Obj} {msg : List UInt8} {result : Nat}
    (h : m.read reqMsg 24 = msg.take 24) :
    let m₁ := m.store (storageMsgResult reqMsg) 4 result
    let m₂ := m₁.store reqMsg 4 (m₁.load reqMsg 4 ||| storageRespBit)
    m₂.read reqMsg 24 = replyHeader msg result ∧
      ∀ q n, q.block ≠ .reqMsg → m₂.read q n = m.read q n := by
  intro m₁ m₂
  have hpart : ∀ k n, k + n ≤ 24 → m.read (reqMsg.add k) n = (msg.drop k).take n := by
    intro k n hk
    rw [← Mem.read_take m (reqMsg.add k) (by omega : n ≤ 24 - k),
      ← Mem.read_drop m reqMsg (by omega : k ≤ 24), h, List.drop_take, List.take_take,
      Nat.min_eq_left (by omega)]
  have hkeep : ∀ k n, k + n ≤ 16 ∨ 20 ≤ k → m₁.read (reqMsg.add k) n = m.read (reqMsg.add k) n := by
    intro k n hk
    apply Mem.read_write_apart
    refine Or.inr ?_
    simp only [storageMsgResult, reqMsg, Ptr.add_off, leBytes_length]
    omega
  have hkeep' : ∀ k n, 4 ≤ k → m₂.read (reqMsg.add k) n = m₁.read (reqMsg.add k) n := by
    intro k n hk
    apply Mem.read_write_apart
    refine Or.inr ?_
    simp only [reqMsg, Ptr.add_off, leBytes_length]
    omega
  have hcmd : m₁.load reqMsg 4 = leNat (msg.take 4) := by
    have hsame := (hkeep 0 4 (Or.inl (by omega))).trans (hpart 0 4 (by omega))
    rw [Ptr.add_zero, List.drop_zero] at hsame
    rw [Mem.load, hsame]
  have hfirst : m₂.read reqMsg 4 = leBytes 4 (leNat (msg.take 4) ||| storageRespBit) := by
    have hself := Mem.read_write_self m₁ reqMsg (leBytes 4 (m₁.load reqMsg 4 ||| storageRespBit))
    rw [leBytes_length, hcmd] at hself
    rw [← hself, ← hcmd]
    rfl
  have hresult : m₂.read (reqMsg.add 16) 4 = leBytes 4 result := by
    have hself := Mem.read_write_self m (storageMsgResult reqMsg) (leBytes 4 result)
    rw [leBytes_length] at hself
    rw [hkeep' 16 4 (by omega)]
    exact hself
  constructor
  · have hsplit : m₂.read reqMsg 24 = m₂.read reqMsg 4 ++ (m₂.read (reqMsg.add 4) 12 ++
        (m₂.read (reqMsg.add 16) 4 ++ m₂.read (reqMsg.add 20) 4)) := by
      rw [show 24 = 4 + (12 + (4 + 4)) from rfl, Mem.read_add, Mem.read_add, Mem.read_add]
      rfl
    rw [hsplit, hfirst, hresult, hkeep' 4 12 (by omega), hkeep 4 12 (by omega),
      hkeep' 20 4 (by omega), hkeep 20 4 (by omega), hpart 4 12 (by omega), hpart 20 4 (by omega),
      replyHeader]
  · intro q n hq
    have hresult : m₁.read q n = m.read q n := Mem.read_write_apart m (Or.inl (Ne.symm hq))
    rw [← hresult]
    exact Mem.read_write_apart m₁ (Or.inl (Ne.symm hq))

/-- Answering with an error sends the header alone. -/
theorem errResponse_sent {w : World Script} {msg : List UInt8} {result : Nat}
    (h : w.mem.read reqMsg 24 = msg.take 24) :
    ∃ w', errResponse scriptTransport .proxy reqMsg result w =
        some (w.env.sends.headD trustyErrNone, w') ∧
      w'.env.trace = w.env.trace ++ [.sent .proxy (replyHeader msg result)] := by
  refine ⟨_, rfl, ?_⟩
  have hmsg := (@replyHeader_stored _ _ result h).1
  change w.env.trace ++ [.sent .proxy (gather _ [⟨reqMsg, 24⟩])] = _
  rw [gather_cons, ← hmsg]
  simp only [gather, List.flatMap_nil, List.append_nil]
  rfl

/-- The reply to an executed request: the outcome, and on success what was read, over what the
buffer held. -/
def rpmbReply (msg : List UInt8) (outcome : Int × List UInt8) (old : List UInt8) : List UInt8 :=
  if outcome.1 = 0 then
    replyHeader msg storageNoError ++
      overlay (outcome.2.take (rpmbReadSize (msg.drop 24))) old
  else replyHeader msg storageErrGeneric

/-- A request that the buffer begins with is read from it. -/
theorem read_reqBuf {m : Mem Obj} {p : List UInt8} (h : ∀ i, m.bytes .reqBuf i = p.getD i 0) :
    m.read reqBuf p.length = p := by
  apply List.ext_getElem (Mem.read_length ..)
  intro i hi hp
  rw [Mem.read_getElem]
  show m.bytes .reqBuf (0 + i) = p[i]
  rw [Nat.zero_add, h, List.getD_eq_getElem?_getD, List.getElem?_eq_getElem hp, Option.getD_some]

theorem rpmbSizes_read {ε : Type} {w : World ε} {p : List UInt8}
    (h : w.mem.read reqBuf p.length = p) (hlen : 16 ≤ p.length) :
    w.mem.load reqBuf 4 = rpmbReliableSize p ∧ w.mem.load (reqBuf.add 4) 4 = rpmbWriteSize p ∧
      w.mem.load (reqBuf.add 8) 4 = rpmbReadSize p := by
  have hpart : ∀ k, k + 4 ≤ 16 → w.mem.read (reqBuf.add k) 4 = (p.drop k).take 4 := by
    intro k hk
    rw [← Mem.read_take w.mem (reqBuf.add k) (by omega : 4 ≤ p.length - k),
      ← Mem.read_drop w.mem reqBuf (by omega : k ≤ p.length), h]
  exact ⟨congrArg leNat (hpart 0 (by omega)), congrArg leNat (hpart 4 (by omega)),
    congrArg leNat (hpart 8 (by omega))⟩

theorem Target.size_bits32 (n : Nat) : Target.bits32.size n = n % 2 ^ 32 := rfl

theorem Target.sizeofPtr_bits32 : Target.bits32.sizeofPtr = 4 := rfl

/-- The checks of `proxy_handle_rpmb`, with their sums taken as on the target. -/
structure RpmbPasses (target : Target) (reqLen reliable write read : Nat) : Prop where
  long : target.sizeofPtr ≤ reqLen
  sum : reqLen = target.size (target.size (16 + reliable) + write)
  reliableBlocks : reliable % 512 = 0
  writeBlocks : write % 512 = 0
  readBlocks : read % 512 = 0
  readFits : read ≤ 4096

/-- Whole blocks take no room in a header: what passes has one. -/
theorem RpmbPasses.header {target : Target} {reqLen reliable write read : Nat}
    (h : RpmbPasses target reqLen reliable write read) : 16 ≤ reqLen := by
  have sum := h.sum
  have rel := h.reliableBlocks
  have wr := h.writeBlocks
  cases target with
  | bits32 =>
    rw [Target.size_bits32, Target.size_bits32] at sum
    omega
  | bits64 =>
    rw [Target.size_bits64, Target.size_bits64] at sum
    omega

section Checks

variable {ε : Type} {target : Target} {t : Transport ε} {dev : RpmbDevice ε} {w : World ε}
  {reqLen : Nat}

/-- A request that passes is executed. -/
theorem proxyHandleRpmb_passes (h : RpmbPasses target reqLen (w.mem.load reqBuf 4)
      (w.mem.load (reqBuf.add 4) 4) (w.mem.load (reqBuf.add 8) 4)) :
    proxyHandleRpmb target t dev .proxy reqMsg reqBuf reqLen w =
      proxyExecute t dev .proxy reqMsg reqBuf
        (if w.mem.load reqBuf 4 ≠ 0 then some (reqBuf.add 16) else none) (w.mem.load reqBuf 4)
        (if w.mem.load (reqBuf.add 4) 4 ≠ 0 then
          some ((reqBuf.add 16).add (w.mem.load reqBuf 4)) else none)
        (w.mem.load (reqBuf.add 4) 4) (w.mem.load (reqBuf.add 8) 4) w := by
  have block : mmcBlockSize = 512 := rfl
  have buffer : sizeofReadBuf = 4096 := rfl
  have header : sizeofStorageRpmbSendReq = 16 := rfl
  obtain ⟨long, sum, rel, wr, rd, fits⟩ := h
  rw [proxyHandleRpmb, if_neg (Nat.not_lt.mpr long), header, if_neg (not_not_intro sum),
    if_neg fun h => h.2 (block ▸ rel), if_neg fun h => h.2 (block ▸ wr)]
  apply if_neg
  rw [block, buffer]
  omega

/-- A request that does not pass is answered so, whichever check finds it out. -/
theorem proxyHandleRpmb_fails (h : ¬RpmbPasses target reqLen (w.mem.load reqBuf 4)
      (w.mem.load (reqBuf.add 4) 4) (w.mem.load (reqBuf.add 8) 4)) :
    proxyHandleRpmb target t dev .proxy reqMsg reqBuf reqLen w =
      errResponse t .proxy reqMsg storageErrNotValid w := by
  have block : mmcBlockSize = 512 := rfl
  have buffer : sizeofReadBuf = 4096 := rfl
  have header : sizeofStorageRpmbSendReq = 16 := rfl
  unfold proxyHandleRpmb
  simp only [header, block, buffer]
  split
  next => rfl
  next long =>
    split
    next => rfl
    next sum =>
      split
      next => rfl
      next rel =>
        split
        next => rfl
        next wr =>
          apply if_pos
          by_contra rd
          exact h ⟨by omega, by omega, by omega, by omega, by omega, by omega⟩

end Checks

/-- What passes is the request that was received, not what a buffer held before. -/
theorem rpmbPasses_received {ε : Type} {target : Target} {w : World ε} {p : List UInt8}
    (h : w.mem.read reqBuf p.length = p) :
    RpmbPasses target p.length (w.mem.load reqBuf 4) (w.mem.load (reqBuf.add 4) 4)
      (w.mem.load (reqBuf.add 8) 4) ↔
      RpmbPasses target p.length (rpmbReliableSize p) (rpmbWriteSize p) (rpmbReadSize p) := by
  constructor
  · intro passes
    obtain ⟨rel, wr, rd⟩ := rpmbSizes_read h passes.header
    rwa [rel, wr, rd] at passes
  · intro passes
    obtain ⟨rel, wr, rd⟩ := rpmbSizes_read h passes.header
    rwa [rel, wr, rd]

theorem rpmbPasses_bits64_iff {p : List UInt8} :
    RpmbPasses .bits64 p.length (rpmbReliableSize p) (rpmbWriteSize p) (rpmbReadSize p) ↔
      RpmbValid p := by
  have rel : rpmbReliableSize p < 2 ^ 32 := leNat_take_lt 4 p
  have wr : rpmbWriteSize p < 2 ^ 32 := leNat_take_lt 4 (p.drop 4)
  constructor
  · intro passes
    have sum := passes.sum
    rw [Target.size_bits64, Target.size_bits64] at sum
    exact ⟨passes.header, by omega, passes.reliableBlocks, passes.writeBlocks, passes.readBlocks,
      passes.readFits⟩
  · rintro ⟨long, sum, relBlocks, wrBlocks, rdBlocks, fits⟩
    refine ⟨?_, ?_, relBlocks, wrBlocks, rdBlocks, fits⟩
    · rw [Target.sizeofPtr_bits64]
      omega
    · rw [Target.size_bits64, Target.size_bits64]
      omega

/-- A request that is not valid is answered so. -/
theorem proxyHandleRpmb_refused {ε : Type} {t : Transport ε} {dev : RpmbDevice ε}
    {w : World ε} {p : List UInt8} (h : w.mem.read reqBuf p.length = p)
    (hinvalid : ¬RpmbValid p) :
    proxyHandleRpmb .bits64 t dev .proxy reqMsg reqBuf p.length w =
      errResponse t .proxy reqMsg storageErrNotValid w :=
  proxyHandleRpmb_fails fun passes =>
    hinvalid (rpmbPasses_bits64_iff.mp ((rpmbPasses_received h).mp passes))

theorem readIf_payload {ε : Type} {w : World ε} {p : List UInt8} {off n : Nat}
    (h : w.mem.read reqBuf p.length = p) (hfit : off + n ≤ p.length) :
    readIf w.mem (if n ≠ 0 then some (reqBuf.add off) else none) n = rpmbData p off n := by
  by_cases hn : n = 0
  · rw [if_neg (not_not_intro hn), rpmbData, if_pos hn]
    rfl
  · rw [if_pos hn, rpmbData, if_neg hn, readIf, Option.map_some,
      ← Mem.read_take w.mem (reqBuf.add off) (by omega : n ≤ p.length - off),
      ← Mem.read_drop w.mem reqBuf (by omega : off ≤ p.length), h]

theorem rpmbData_bytes (p : List UInt8) (off n : Nat) :
    (rpmbData p off n).getD [] = (p.drop off).take n := by
  unfold rpmbData
  split
  next hn => rw [hn, List.take_zero, Option.getD_none]
  next => rfl

/-- An RPMB command, and what it leaves. -/
theorem scriptRpmb_sent (w : World Script) (rel : Option (Ptr Obj)) (relSize : Nat)
    (wr : Option (Ptr Obj)) (wrSize n : Nat) :
    ∃ w', scriptRpmb.storageSend rel relSize wr wrSize readBuf n w =
        ((w.env.rpmb.headD (trustyErrGeneric, [])).1, w') ∧
      w'.env.trace = w.env.trace ++ [.rpmb (readIf w.mem rel relSize) (readIf w.mem wr wrSize) n] ∧
      w'.env.sends = w.env.sends ∧
      (∀ q k, q.block ≠ .readBuf → w'.mem.read q k = w.mem.read q k) ∧
      w'.mem.read readBuf n = overlay ((w.env.rpmb.headD (trustyErrGeneric, [])).2.take n)
        (w.mem.read readBuf n) := by
  refine ⟨_, rfl, rfl, rfl, ?_, ?_⟩
  · intro q k hq
    exact Mem.read_put_apart w.mem le_rfl (Or.inl (Ne.symm hq))
  · exact Mem.read_put_over w.mem readBuf (by simp)

/-- A valid request passes every check. -/
theorem proxyHandleRpmb_valid {ε : Type} {t : Transport ε} {dev : RpmbDevice ε}
    {w : World ε} {p : List UInt8} (h : w.mem.read reqBuf p.length = p)
    (hvalid : RpmbValid p) :
    proxyHandleRpmb .bits64 t dev .proxy reqMsg reqBuf p.length w =
      proxyExecute t dev .proxy reqMsg reqBuf
        (if rpmbReliableSize p ≠ 0 then some (reqBuf.add 16) else none) (rpmbReliableSize p)
        (if rpmbWriteSize p ≠ 0 then some ((reqBuf.add 16).add (rpmbReliableSize p)) else none)
        (rpmbWriteSize p) (rpmbReadSize p) w := by
  obtain ⟨hr, hw, hn⟩ := rpmbSizes_read h hvalid.1
  have hrun := @proxyHandleRpmb_passes _ _ t dev _ _
    ((rpmbPasses_received h).mpr (rpmbPasses_bits64_iff.mpr hvalid))
  rwa [hr, hw, hn] at hrun

/-- A command is executed once, and answered by what came of it. -/
theorem proxyExecute_reply {w : World Script} {msg : List UInt8}
    (hmsg : w.mem.read reqMsg 24 = msg.take 24)
    (hp : w.mem.read reqBuf (msg.drop 24).length = msg.drop 24)
    (hlo : 16 ≤ (msg.drop 24).length) (hmax : rpmbReadSize (msg.drop 24) ≤ 4096)
    (rel : Option (Ptr Obj)) (relSize : Nat) (wr : Option (Ptr Obj)) (wrSize : Nat) :
    ∃ w', proxyExecute scriptTransport scriptRpmb .proxy reqMsg reqBuf rel relSize wr wrSize
        (rpmbReadSize (msg.drop 24)) w = some (w.env.sends.headD trustyErrNone, w') ∧
      w'.env.trace = w.env.trace ++
        [.rpmb (readIf w.mem rel relSize) (readIf w.mem wr wrSize) (rpmbReadSize (msg.drop 24)),
          .sent .proxy (rpmbReply msg (w.env.rpmb.headD (trustyErrGeneric, []))
            (w.mem.read readBuf (rpmbReadSize (msg.drop 24))))] := by
  obtain ⟨w₁, hsend, htrace, hsends, hkeep, hread⟩ :=
    scriptRpmb_sent w rel relSize wr wrSize (rpmbReadSize (msg.drop 24))
  have hmsg₁ : w₁.mem.read reqMsg 24 = msg.take 24 := by
    rw [hkeep reqMsg 24 (by decide), hmsg]
  rw [proxyExecute, hsend]
  by_cases hrc : (w.env.rpmb.headD (trustyErrGeneric, [])).1 = 0
  · obtain ⟨hheader, hother⟩ := replyHeader_stored hmsg₁
    have hresult : ∀ q n, q.block ≠ .reqMsg →
        (setResult reqMsg storageNoError w₁).mem.read q n = w₁.mem.read q n :=
      fun q n hq => Mem.read_write_apart w₁.mem (Or.inl (Ne.symm hq))
    have hagain : (setResult reqMsg storageNoError w₁).mem.load (reqBuf.add 8) 4 =
        rpmbReadSize (msg.drop 24) := by
      rw [← (rpmbSizes_read hp hlo).2.2, Mem.load, Mem.load, hresult _ _ (by decide),
        hkeep (reqBuf.add 8) 4 (by decide)]
    have hlen : (UInt64.ofNat (rpmbReadSize (msg.drop 24))).toNat = rpmbReadSize (msg.drop 24) := by
      rw [UInt64.toNat_ofNat', Nat.mod_eq_of_lt (by omega)]
    simp only [if_neg (not_not_intro hrc), hagain]
    refine ⟨_, by rw [← hsends]; rfl, ?_⟩
    rw [rpmbReply, if_pos hrc, ← hread, ← hheader, ← hother readBuf _ (by decide)]
    change w₁.env.trace ++ [.sent .proxy (gather _ (segs (twoIovs _ _ _ _)))] = _
    simp only [twoIovs, segs_cons, segs_nil, gather_cons, Iovec.seg_base, Iovec.seg_len, hlen]
    rw [htrace, List.append_assoc]
    simp only [gather, List.flatMap_nil, List.append_nil]
    rfl
  · obtain ⟨w₂, hrun, htrace₂⟩ := errResponse_sent hmsg₁
    simp only [if_pos hrc]
    refine ⟨w₂, by rw [hrun, hsends], ?_⟩
    rw [htrace₂, htrace, rpmbReply, if_neg hrc, List.append_assoc]
    rfl

/-- A valid request is executed by the command it describes. -/
theorem proxyHandleRpmb_executed {w : World Script} {msg : List UInt8}
    (hmsg : w.mem.read reqMsg 24 = msg.take 24)
    (hp : w.mem.read reqBuf (msg.drop 24).length = msg.drop 24)
    (hvalid : RpmbValid (msg.drop 24)) :
    ∃ w', proxyHandleRpmb .bits64 scriptTransport scriptRpmb .proxy reqMsg reqBuf
        (msg.drop 24).length w = some (w.env.sends.headD trustyErrNone, w') ∧
      w'.env.trace = w.env.trace ++
        [.rpmb (rpmbData (msg.drop 24) 16 (rpmbReliableSize (msg.drop 24)))
          (rpmbData (msg.drop 24) (16 + rpmbReliableSize (msg.drop 24))
            (rpmbWriteSize (msg.drop 24))) (rpmbReadSize (msg.drop 24)),
          .sent .proxy (rpmbReply msg (w.env.rpmb.headD (trustyErrGeneric, []))
            (w.mem.read readBuf (rpmbReadSize (msg.drop 24))))] := by
  have hlen := hvalid.2.1
  obtain ⟨w', hrun, htrace⟩ := proxyExecute_reply hmsg hp hvalid.1 hvalid.2.2.2.2.2
    (if rpmbReliableSize (msg.drop 24) ≠ 0 then some (reqBuf.add 16) else none)
    (rpmbReliableSize (msg.drop 24))
    (if rpmbWriteSize (msg.drop 24) ≠ 0 then
      some ((reqBuf.add 16).add (rpmbReliableSize (msg.drop 24))) else none)
    (rpmbWriteSize (msg.drop 24))
  rw [← Ptr.add_assoc, readIf_payload hp (by omega), readIf_payload hp (by omega)] at htrace
  exact ⟨w', by rw [proxyHandleRpmb_valid hp hvalid, hrun], htrace⟩

/-- The channel is closed after a reply that fails. -/
def closing (w : World Script) : List Effect :=
  if w.env.sends.headD trustyErrNone < 0 then [.closed .proxy] else []

/-- What one message event on the proxy's channel comes to, and in which order. -/
structure ProxyReacts (w : World Script) (rc : Int) (w' : World Script) : Prop where
  unread : (∀ msg, ¬NextMessage w msg) →
    rc < 0 ∧ w'.env.trace = w.env.trace ++ [.received .proxy, .closed .proxy]
  unknown : ∀ msg, NextMessage w msg → leNat (msg.take 4) ≠ storageRpmbSend →
    w'.env.trace = w.env.trace ++ .received .proxy ::
      .sent .proxy (replyHeader msg storageErrUnimplemented) :: closing w
  refused : ∀ msg, NextMessage w msg → leNat (msg.take 4) = storageRpmbSend →
    ¬RpmbValid (msg.drop 24) → w'.env.trace = w.env.trace ++ .received .proxy ::
      .sent .proxy (replyHeader msg storageErrNotValid) :: closing w
  executed : ∀ msg, NextMessage w msg → leNat (msg.take 4) = storageRpmbSend →
    RpmbValid (msg.drop 24) → w'.env.trace = w.env.trace ++ .received .proxy ::
      .rpmb (rpmbData (msg.drop 24) 16 (rpmbReliableSize (msg.drop 24)))
        (rpmbData (msg.drop 24) (16 + rpmbReliableSize (msg.drop 24)) (rpmbWriteSize (msg.drop 24)))
        (rpmbReadSize (msg.drop 24)) ::
      .sent .proxy (rpmbReply msg (w.env.rpmb.headD (trustyErrGeneric, []))
        (w.mem.read readBuf (rpmbReadSize (msg.drop 24)))) :: closing w
  result : ∀ msg, NextMessage w msg → rc =
    if w.env.sends.headD trustyErrNone < 0 then w.env.sends.headD trustyErrNone
    else trustyEventHandled

/-- The reply and the closing, once the request is in. -/
theorem proxyHandleReq_reacts {w w₁ : World Script} {msg : List UInt8}
    (h : RequestRead w w₁ msg) :
    ∃ w₂ es, proxyHandleReq .bits64 scriptTransport scriptRpmb .proxy reqMsg reqBuf
        (msg.drop 24).length w₁ = some (w.env.sends.headD trustyErrNone, w₂) ∧
      w₂.env.trace = w.env.trace ++ .received .proxy :: es ∧
      (leNat (msg.take 4) ≠ storageRpmbSend →
        es = [.sent .proxy (replyHeader msg storageErrUnimplemented)]) ∧
      (leNat (msg.take 4) = storageRpmbSend → ¬RpmbValid (msg.drop 24) →
        es = [.sent .proxy (replyHeader msg storageErrNotValid)]) ∧
      (leNat (msg.take 4) = storageRpmbSend → RpmbValid (msg.drop 24) →
        es = [.rpmb (rpmbData (msg.drop 24) 16 (rpmbReliableSize (msg.drop 24)))
          (rpmbData (msg.drop 24) (16 + rpmbReliableSize (msg.drop 24))
            (rpmbWriteSize (msg.drop 24))) (rpmbReadSize (msg.drop 24)),
          .sent .proxy (rpmbReply msg (w.env.rpmb.headD (trustyErrGeneric, []))
            (w.mem.read readBuf (rpmbReadSize (msg.drop 24))))]) := by
  have hpayload : w₁.mem.read reqBuf (msg.drop 24).length = msg.drop 24 := by
    rw [List.length_drop]
    exact h.payload
  have hcmd : w₁.mem.load reqMsg 4 = leNat (msg.take 4) := by
    rw [Mem.load, ← Mem.read_take w₁.mem reqMsg (by omega : 4 ≤ 24), h.header, List.take_take]
    rfl
  rw [proxyHandleReq, hcmd]
  by_cases hop : leNat (msg.take 4) = storageRpmbSend
  · rw [if_pos hop]
    by_cases hvalid : RpmbValid (msg.drop 24)
    · obtain ⟨w₂, hrun, htrace⟩ := proxyHandleRpmb_executed h.header hpayload hvalid
      rw [h.trace, h.rpmb, h.kept, List.append_assoc] at htrace
      refine ⟨w₂, _, by rw [hrun, h.sends], htrace, ?_, ?_, fun _ _ => rfl⟩
      · exact fun hno => absurd hop hno
      · exact fun _ hno => absurd hvalid hno
    · obtain ⟨w₂, hrun, htrace⟩ := errResponse_sent h.header
      rw [h.trace, List.append_assoc] at htrace
      rw [proxyHandleRpmb_refused hpayload hvalid]
      refine ⟨w₂, _, by rw [hrun, h.sends], htrace, ?_, fun _ _ => rfl, ?_⟩
      · exact fun hno => absurd hop hno
      · exact fun _ hyes => absurd hyes hvalid
  · obtain ⟨w₂, hrun, htrace⟩ := errResponse_sent h.header
    rw [h.trace, List.append_assoc] at htrace
    rw [if_neg hop]
    refine ⟨w₂, _, by rw [hrun, h.sends], htrace, fun _ => rfl, ?_, ?_⟩
    · exact fun hyes => absurd hyes hop
    · exact fun hyes => absurd hyes hop

/-- Every message event is handled this way, whatever the buffers held and whatever the receive,
the RPMB device and the reply come to. -/
theorem proxyOnMessage_reacts (w : World Script) :
    ∃ rc w', proxyOnMessage .bits64 scriptTransport scriptRpmb .proxy w = some (rc, w') ∧
      ProxyReacts w rc w' := by
  by_cases hnext : ∃ msg, NextMessage w msg
  · obtain ⟨msg, hmsg⟩ := hnext
    have hsame : ∀ msg', NextMessage w msg' → msg' = msg := by
      rintro msg' ⟨f', hf', rfl, _⟩
      obtain ⟨f, hf, rfl, _⟩ := hmsg
      rw [hf] at hf'
      exact congrArg Frame.bytes (Delivery.frame.inj hf').symm
    obtain ⟨w₁, hread, hin⟩ := proxyReadRequest_message hmsg
    obtain ⟨w₂, es, hrun, htrace, hunknown, hrefused, hexecuted⟩ := proxyHandleReq_reacts hin
    have hlen : intToUsize ((msg.length - 24 : Nat) : Int) = (msg.drop 24).length := by
      obtain ⟨_, _, _, _, hhi⟩ := hmsg
      rw [intToUsize_of_nonneg (by omega) (by omega), Int.toNat_natCast, List.length_drop]
    have hend : ∃ w', proxyOnMessage .bits64 scriptTransport scriptRpmb .proxy w =
        some (if w.env.sends.headD trustyErrNone < 0 then w.env.sends.headD trustyErrNone
          else trustyEventHandled, w') ∧ w'.env.trace = w₂.env.trace ++ closing w := by
      simp only [proxyOnMessage, hread, Option.bind_eq_bind, Option.bind_some, hlen, hrun]
      rw [if_neg (by omega), closing]
      by_cases hrc : w.env.sends.headD trustyErrNone < 0
      · simp only [if_pos hrc]
        exact ⟨_, rfl, rfl⟩
      · simp only [if_neg hrc]
        exact ⟨w₂, rfl, (List.append_nil _).symm⟩
    obtain ⟨w', hall, hclosed⟩ := hend
    rw [htrace, List.append_assoc] at hclosed
    refine ⟨_, w', hall, ?_, ?_, ?_, ?_, fun _ _ => rfl⟩
    · exact fun hno => absurd hmsg (hno msg)
    · intro msg' hmsg' hop
      rw [hsame msg' hmsg'] at hop ⊢
      rw [hclosed, hunknown hop]
      rfl
    · intro msg' hmsg' hop hvalid
      rw [hsame msg' hmsg'] at hop hvalid ⊢
      rw [hclosed, hrefused hop hvalid]
      rfl
    · intro msg' hmsg' hop hvalid
      rw [hsame msg' hmsg'] at hop hvalid ⊢
      rw [hclosed, hexecuted hop hvalid]
      rfl
  · have hnone : ∀ msg, ¬NextMessage w msg := fun msg hmsg => hnext ⟨msg, hmsg⟩
    obtain ⟨rc, w₁, hread, hneg, htrace⟩ := proxyReadRequest_none hnone
    refine ⟨rc, (scriptClose .proxy w₁).2, ?_, ?_, ?_, ?_, ?_, ?_⟩
    · simp only [proxyOnMessage, hread, Option.bind_eq_bind, Option.bind_some]
      exact if_pos hneg
    · intro _
      refine ⟨hneg, ?_⟩
      change w₁.env.trace ++ [.closed .proxy] = _
      rw [htrace, List.append_assoc]
      rfl
    all_goals exact fun msg hmsg => absurd hmsg (hnone msg)

end ExternalTrusty
