import ExternalTrusty.RpmbRequest
import ExternalTrusty.RoundTrip
import ExternalTrusty.Ipc

namespace ExternalTrusty

open CMemory

variable {ε σ : Type}

/-- An RPMB device that executes every command, and touches nothing but the read buffer. -/
def RpmbDevice.Executes (rpmb : RpmbDevice ε) : Prop :=
  ∀ relData relSize data size n w,
    (rpmb.storageSend relData relSize data size readBuf n w).1 = trustyErrNone ∧
    ∀ q k, q.block ≠ .readBuf →
      (rpmb.storageSend relData relSize data size readBuf n w).2.mem.read q k = w.mem.read q k

/-- The proxy has read the request `p`, an RPMB command, on this device. -/
def TakesRequest (dev : Device ε) (w : World ε) (p : List UInt8) : Prop :=
  ∃ w₁, proxyReadRequest (callbackTransport dev) .proxy reqMsg reqBuf sizeofReqBuf w =
      some ((p.length : Int), w₁) ∧
    w₁.mem.load reqMsg 4 = storageRpmbSend ∧ w₁.mem.read reqBuf p.length = p

/-- Handling the request ends with a reply that is too big, and with that in closing the channel. -/
def ClosesTooBig (r : Option (Int × World ε)) : Prop :=
  ∃ w', r = some (trustyErrMsgTooBig, w') ∧ (w'.chans .proxy).handle = 0

/-- The buffers of a reply with data: the header, and what was read. -/
def replyIovs (p : List UInt8) : List Iovec :=
  [⟨reqMsg, 24⟩, ⟨readBuf, UInt64.ofNat (rpmbReadSize p)⟩]

theorem proxyExecute_replies {dev : Device ε} {rpmb : RpmbDevice ε} (hrpmb : rpmb.Executes)
    {relData data : Option (Ptr Obj)} {relSize size : Nat} {p : List UInt8} {w : World ε}
    (hp : w.mem.read reqBuf p.length = p) (hlo : 16 ≤ p.length) :
    ∃ h w₁, proxyExecute (callbackTransport dev) rpmb .proxy reqMsg reqBuf relData relSize data
      size (rpmbReadSize p) w = some (dev.send h (replyIovs p) w₁) := by
  obtain ⟨hrc, hkeep⟩ := hrpmb relData relSize data size (rpmbReadSize p) w
  obtain ⟨rc, w₁, hsend⟩ : ∃ rc w₁,
      rpmb.storageSend relData relSize data size readBuf (rpmbReadSize p) w = (rc, w₁) :=
    ⟨_, _, rfl⟩
  rw [hsend] at hrc hkeep
  have hagain : (setResult reqMsg storageNoError w₁).mem.load (reqBuf.add 8) 4 =
      rpmbReadSize p := by
    rw [← (rpmbSizes_read hp hlo).2.2, Mem.load, Mem.load, ← hkeep (reqBuf.add 8) 4 (by decide)]
    exact congrArg leNat (Mem.read_write_apart _ (Or.inl (by decide)))
  have hzero : ¬rc ≠ 0 := not_not_intro hrc
  rw [proxyExecute, hsend]
  simp only [hagain, if_neg hzero]
  exact ⟨_, _, rfl⟩

/-- After an executed request the reply is sent, and the channel closed exactly when that fails. -/
theorem proxyOnMessage_executed {dev : Device ε} {rpmb : RpmbDevice ε} (hrpmb : rpmb.Executes)
    {w : World ε} {p : List UInt8} (htake : TakesRequest dev w p) (hvalid : RpmbValid p)
    (hlen : p.length < 2 ^ 62) :
    ∃ h w₁, proxyOnMessage .bits64 (callbackTransport dev) rpmb .proxy w =
      if (dev.send h (replyIovs p) w₁).1 < 0 then
        some ((dev.send h (replyIovs p) w₁).1,
          (trustyIpcClose dev .proxy (dev.send h (replyIovs p) w₁).2).2)
      else some (trustyEventHandled, (dev.send h (replyIovs p) w₁).2) := by
  obtain ⟨w₁, hread, hcmd, hp⟩ := htake
  have hcast : intToUsize (p.length : Int) = p.length := by
    rw [intToUsize_of_nonneg (by omega) (by omega), Int.toNat_natCast]
  obtain ⟨h, w₂, hrun⟩ := proxyExecute_replies hrpmb
    hp hvalid.1
  have hreq : proxyHandleReq .bits64 (callbackTransport dev) rpmb .proxy reqMsg reqBuf p.length
      w₁ = some (dev.send h (replyIovs p) w₂) := by
    rw [proxyHandleReq, if_pos hcmd, proxyHandleRpmb_valid hp hvalid, hrun]
  have hpos : ¬(p.length : Int) < 0 := by omega
  refine ⟨h, w₂, ?_⟩
  simp only [proxyOnMessage, hread, Option.bind_eq_bind, Option.bind_some, if_neg hpos, hcast,
    hreq]
  rfl

theorem replyIovs_total {p : List UInt8} (h : rpmbReadSize p ≤ 4096) :
    total (segs (replyIovs p)) = 24 + rpmbReadSize p := by
  have hlen : (UInt64.ofNat (rpmbReadSize p)).toNat = rpmbReadSize p := by
    rw [UInt64.toNat_ofNat', Nat.mod_eq_of_lt (by omega)]
  rw [replyIovs, segs_cons, segs_cons, segs_nil, total_cons, total_cons, total_nil,
    Iovec.seg_len, Iovec.seg_len, hlen]
  rfl

theorem RpmbValid.length_lt {p : List UInt8} (h : RpmbValid p) : p.length < 2 ^ 62 := by
  obtain ⟨_, hlen, _⟩ := h
  have hrel : rpmbReliableSize p < 256 ^ 4 := leNat_take_lt 4 p
  have hwr : rpmbWriteSize p < 256 ^ 4 := leNat_take_lt 4 _
  omega

theorem trustyIpcDevice_send (os : SecureOs σ) (dev : IpcDev) (h : UInt32) (iovs : List Iovec)
    (w : World (DevEnv σ)) :
    (trustyIpcDevice os dev).send h iovs w = trustyIpcDevSend os dev h iovs w := rfl

/-- On a device of one page, the reply to an executed request is never too big exactly when the
request reads at most seven blocks. -/
theorem rpmbReply_fits_iff (os : SecureOs σ) (dev : IpcDev) (hpage : dev.bufSize.toNat = pageSize)
    (rpmb : RpmbDevice (DevEnv σ)) (hrpmb : rpmb.Executes) (w : World (DevEnv σ))
    (p : List UInt8) (htake : TakesRequest (trustyIpcDevice os dev) w p) (hvalid : RpmbValid p) :
    ¬ClosesTooBig (proxyOnMessage .bits64 (callbackTransport (trustyIpcDevice os dev)) rpmb
        .proxy w) ↔ rpmbReadSize p ≤ 3584 := by
  obtain ⟨h, w₁, hrun⟩ := proxyOnMessage_executed hrpmb htake hvalid hvalid.length_lt
  have hmax := hvalid.2.2.2.2.2
  have hblock := hvalid.2.2.2.2.1
  have htotal := replyIovs_total hmax
  have hbig : trustyErrMsgTooBig < 0 := by decide
  unfold pageSize at hpage
  rw [trustyIpcDevice_send] at hrun
  rw [hrun]
  by_cases hfits : rpmbReadSize p ≤ 3584
  · refine iff_of_true ?_ hfits
    have hne := (@send_presents _ os dev h (replyIovs p) w₁ (by omega) (by omega)).1
    have hhandled : trustyEventHandled ≠ trustyErrMsgTooBig := by decide
    rintro ⟨w', heq, _⟩
    split at heq
    next => exact hne (Prod.mk.inj (Option.some.inj heq)).1
    next => exact hhandled (Prod.mk.inj (Option.some.inj heq)).1
  · refine iff_of_false (not_not_intro ?_) hfits
    rw [send_refused (by omega) (by omega), if_pos hbig]
    refine ⟨_, rfl, ?_⟩
    simp only [trustyIpcClose, World.setHandle, Function.update_self]

/-- An RPMB device that fills the read buffer with sevens. -/
def sevensRpmb : RpmbDevice ε where
  storageSend _ _ _ _ p n w := (trustyErrNone, w.setMem (w.mem.write p (List.replicate n 7)))

theorem sevensRpmb_executes : (sevensRpmb : RpmbDevice ε).Executes := by
  intro _ _ _ _ n w
  refine ⟨rfl, ?_⟩
  intro q k hq
  exact Mem.read_write_apart w.mem (Or.inl (Ne.symm hq))

/-- A request to read `n` bytes. -/
def readRequest (n : Nat) : List UInt8 := leBytes 8 0 ++ leBytes 4 n ++ leBytes 4 0

/-- A secure OS that grants every command, with this RPMB request as the message to receive. -/
def requestOs (p : List UInt8) : SecureOs Unit where
  exec smc s := (0, fun i => (leBytes 2 (smc.page.load cmdOpcode 2 ||| qlTipcDevResp) ++
    leBytes 10 0 ++ leBytes 4 (24 + p.length) ++ leBytes 4 storageRpmbSend ++ leBytes 20 0 ++
    p).getD i 0, s)

theorem takesRequest_of_reads {dev : Device ε} {w : World ε} {p : List UInt8}
    (h : (proxyReadRequest (callbackTransport dev) .proxy reqMsg reqBuf sizeofReqBuf w).map
      (fun r => (r.1, r.2.mem.load reqMsg 4, r.2.mem.read reqBuf p.length)) =
      some ((p.length : Int), storageRpmbSend, p)) : TakesRequest dev w p := by
  obtain ⟨⟨rc, w₁⟩, hread, heq⟩ := Option.map_eq_some_iff.mp h
  simp only [Prod.mk.injEq] at heq
  obtain ⟨rfl, hcmd, hp⟩ := heq
  exact ⟨w₁, hread, hcmd, hp⟩

theorem rpmbReply_oneBlock_fits :
    ¬ClosesTooBig (proxyOnMessage .bits64
      (callbackTransport (trustyIpcDevice (requestOs (readRequest 512)) onePageDev)) sevensRpmb
      .proxy quietWorld) := by
  have htake : TakesRequest (trustyIpcDevice (requestOs (readRequest 512)) onePageDev) quietWorld
      (readRequest 512) := takesRequest_of_reads (by decide)
  exact (rpmbReply_fits_iff _ onePageDev rfl sevensRpmb sevensRpmb_executes quietWorld
    (readRequest 512) htake ⟨by decide, by decide, by decide, by decide, by decide, by decide⟩).mpr
    (by decide)

/-- A request for as much as the read buffer holds. -/
theorem rpmbReply_fullBuffer_closes :
    ClosesTooBig (proxyOnMessage .bits64
      (callbackTransport (trustyIpcDevice (requestOs (readRequest 4096)) onePageDev)) sevensRpmb
      .proxy quietWorld) := by
  have htake : TakesRequest (trustyIpcDevice (requestOs (readRequest 4096)) onePageDev) quietWorld
      (readRequest 4096) := takesRequest_of_reads (by decide)
  have hvalid : RpmbValid (readRequest 4096) :=
    ⟨by decide, by decide, by decide, by decide, by decide, by decide⟩
  obtain ⟨h, w₁, hrun⟩ := proxyOnMessage_executed sevensRpmb_executes htake hvalid (by decide)
  have htotal := replyIovs_total (p := readRequest 4096) (by decide)
  have hread : rpmbReadSize (readRequest 4096) = 4096 := by decide
  have hbuf : onePageDev.bufSize.toNat = 4096 := rfl
  have hbig : trustyErrMsgTooBig < 0 := by decide
  rw [trustyIpcDevice_send, send_refused (by omega) (by omega), if_pos hbig] at hrun
  rw [hrun]
  refine ⟨_, rfl, ?_⟩
  simp only [trustyIpcClose, World.setHandle, Function.update_self]

end ExternalTrusty
