import ExternalTrusty.CommandBounds

namespace ExternalTrusty

open CMemory

variable {σ : Type}

/-- The calls that compose a command in the shared buffer. -/
inductive DevCall
  | connect (port : CString) (cookie : UInt64)
  | close (handle : UInt32)
  | hasEvent (chan : UInt32)
  | getEvent (chan : UInt32)
  | send (chan : UInt32) (iovs : List Iovec) (nowrap : total (segs iovs) < 2 ^ 64)
  | recv (chan : UInt32) (iovs : List Iovec)

def DevCall.run (os : SecureOs σ) (dev : IpcDev) (w : World (DevEnv σ)) :
    DevCall → Int × World (DevEnv σ)
  | connect port cookie => trustyIpcDevConnect os dev port cookie w
  | close handle => trustyIpcDevClose os dev handle w
  | hasEvent chan =>
    let r := trustyIpcDevHasEvent os dev chan w
    (if r.1 then 1 else 0, r.2)
  | getEvent chan =>
    match trustyIpcDevGetEvent os dev chan w with
    | (.ok _, w') => (trustyErrNone, w')
    | (.error rc, w') => (rc, w')
  | send chan iovs _ => trustyIpcDevSend os dev chan iovs w
  | recv chan iovs => trustyIpcDevRecv os dev chan iovs w

/-- The call fails before it touches the buffer or enters the secure OS, or the one command it
issues lies inside the buffer and is announced with its exact size. -/
def CallContained (dev : IpcDev) (w : World (DevEnv σ)) (r : Int × World (DevEnv σ)) : Prop :=
  (r.1 < 0 ∧ r.2.env.smcs = w.env.smcs ∧ r.2.env.page = w.env.page) ∨
  ∃ smc, r.2.env.smcs = w.env.smcs ++ [smc] ∧
    (∀ i, Covers .store (smc.page.since w.env.page) .shared i → i < dev.bufSize.toNat) ∧
    smc.size = sizeofCmdHdr + smc.page.load cmdPayloadLen 4 ∧ smc.size ≤ dev.bufSize.toNat

theorem callContained_iff_of_issued {dev : IpcDev} {w : World (DevEnv σ)}
    {r : Int × World (DevEnv σ)} {nr : UInt32} {page : Mem Page} {n len : Nat}
    (hs : r.2.env.smcs = w.env.smcs ++ [⟨nr, dev.bufId, u32 (cmdSize page), page⟩])
    (hf : Footprint .store w.env.page page fun b i => b = .shared ∧ i < n)
    (hl : page.load cmdPayloadLen 4 = len) :
    CallContained dev w r ↔ n ≤ dev.bufSize.toNat ∧ 16 + len < 2 ^ 32 ∧
      16 + len ≤ dev.bufSize.toNat := by
  have hlen : len < 256 ^ 4 := by
    rw [← hl]; exact Mem.load_lt page cmdPayloadLen 4
  have hsize : cmdSize page = 16 + len := by
    rw [cmdSize, hl, usize, sizeofCmdHdr, Nat.mod_eq_of_lt (by omega)]
  have hcov : ∀ i, Covers .store (page.since w.env.page) .shared i ↔ i < n := by
    intro i
    rw [hf.since]
    simp
  constructor
  · rintro (⟨_, hnone, _⟩ | ⟨smc, hsmc, hstores, heq, hle⟩)
    · have hc := congrArg List.length (hnone.symm.trans hs)
      simp at hc
    · have hthis : smc = ⟨nr, dev.bufId, u32 (cmdSize page), page⟩ := by
        have := List.append_cancel_left (hsmc.symm.trans hs)
        simpa using this
      subst hthis
      simp only [hsize, hl, sizeofCmdHdr, hcov] at hstores heq hle
      have hmod : (16 + len) % 2 ^ 32 = 16 + len := heq
      refine ⟨?_, by omega, by omega⟩
      by_contra hn
      have := hstores dev.bufSize.toNat (by omega)
      omega
  · rintro ⟨hn, hlt, hle⟩
    have hu : u32 (cmdSize page) = 16 + len := by
      rw [hsize, u32, Nat.mod_eq_of_lt hlt]
    refine Or.inr ⟨_, hs, ?_, ?_, ?_⟩
    · intro i hi
      have := (hcov i).mp hi
      omega
    · change u32 (cmdSize page) = 16 + page.load cmdPayloadLen 4
      rw [hu, hl]
    · change u32 (cmdSize page) ≤ _
      omega

theorem portLen_rejected_iff (dev : IpcDev) (n : Nat) (h : n < 2 ^ 64) :
    n > usize (usizeSub dev.bufSize.toNat sizeofCmdHdr + sizeofConnectReq) ↔
      dev.bufSize.toNat < n := by
  have hb := dev.bufSize.toNat_lt
  have hp := dev.pageSize_le
  unfold usize usizeSub sizeofCmdHdr sizeofConnectReq
  omega

theorem msgSize_room (dev : IpcDev) :
    usizeSub dev.bufSize.toNat sizeofCmdHdr = dev.bufSize.toNat - 16 := by
  have hb := dev.bufSize.toNat_lt
  have hp := dev.pageSize_le
  unfold usizeSub sizeofCmdHdr
  omega

/-- A connect composes its command inside the buffer unless its name ends in the last 32 bytes
that the length check lets through, or its length wraps 32 bits. -/
theorem connect_contained_iff (os : SecureOs σ) (dev : IpcDev) (port : CString) (cookie : UInt64)
    (w : World (DevEnv σ)) :
    CallContained dev w (trustyIpcDevConnect os dev port cookie w) ↔
      dev.bufSize.toNat < port.chars.length + 1 ∨
      (32 + (port.chars.length + 1) ≤ dev.bufSize.toNat ∧
        16 + (16 + (port.chars.length + 1)) % 2 ^ 32 < 2 ^ 32) := by
  have hrej := portLen_rejected_iff dev (port.chars.length + 1) port.fits
  by_cases hlong : dev.bufSize.toNat < port.chars.length + 1
  · have hrun : trustyIpcDevConnect os dev port cookie w = (trustyErrInvalidArgs, w) := by
      simp only [trustyIpcDevConnect, if_pos (hrej.mpr hlong)]
    have hneg : trustyErrInvalidArgs < 0 := by decide
    rw [hrun]
    exact iff_of_true (Or.inl ⟨hneg, rfl, rfl⟩) (Or.inl hlong)
  · have hs : (trustyIpcDevConnect os dev port cookie w).2.env.smcs = w.env.smcs ++
        [⟨smcScTrustyIpcHandleQlDevCmd, dev.bufId,
          u32 (cmdSize (prepareConnect w.env.page port cookie)),
          prepareConnect w.env.page port cookie⟩] := by
      simp only [trustyIpcDevConnect, if_neg (fun h => hlong (hrej.mp h))]
      split
      next => rfl
      next => split <;> rfl
    rw [callContained_iff_of_issued hs (prepareConnect_footprint _ port cookie)
      (prepareConnect_payloadLen _ port cookie)]
    unfold u32
    omega

theorem trustyIpcDevClose_smcs (os : SecureOs σ) (dev : IpcDev) (handle : UInt32)
    (w : World (DevEnv σ)) : (trustyIpcDevClose os dev handle w).2.env.smcs = w.env.smcs ++
      [⟨smcScTrustyIpcHandleQlDevCmd, dev.bufId, u32 (cmdSize (prepareClose w.env.page handle)),
        prepareClose w.env.page handle⟩] := by
  simp only [trustyIpcDevClose]
  split
  next => rfl
  next => split <;> rfl

theorem close_contained (os : SecureOs σ) (dev : IpcDev) (handle : UInt32)
    (w : World (DevEnv σ)) : CallContained dev w (trustyIpcDevClose os dev handle w) := by
  have hp := dev.pageSize_le
  have hs := trustyIpcDevClose_smcs os dev handle w
  have hl : (prepareClose w.env.page handle).load cmdPayloadLen 4 = 0 := by
    rw [prepareClose, Mem.load_store_apart _ (by decide)]
    exact prepareHdr_payloadLen _ _
  exact (callContained_iff_of_issued hs (prepareClose_footprint _ handle) hl).mpr (by omega)

theorem hasEvent_contained (os : SecureOs σ) (dev : IpcDev) (chan : UInt32)
    (w : World (DevEnv σ)) :
    CallContained dev w ((DevCall.hasEvent chan).run os dev w) := by
  have hp := dev.pageSize_le
  have hs : ((DevCall.hasEvent chan).run os dev w).2.env.smcs = w.env.smcs ++
      [⟨smcFcHandleQlTipcDevCmd, dev.bufId, u32 (cmdSize (prepareHasEvent w.env.page chan)),
        prepareHasEvent w.env.page chan⟩] := by
    simp only [DevCall.run, trustyIpcDevHasEvent]
    split
    next => rfl
    next =>
      split
      next => rfl
      next => split <;> rfl
  have hl : (prepareHasEvent w.env.page chan).load cmdPayloadLen 4 = 0 :=
    Mem.load_store_self _ _ (by decide)
  exact (callContained_iff_of_issued hs (prepareHasEvent_footprint _ chan) hl).mpr (by omega)

theorem getEvent_contained (os : SecureOs σ) (dev : IpcDev) (chan : UInt32)
    (w : World (DevEnv σ)) :
    CallContained dev w ((DevCall.getEvent chan).run os dev w) := by
  have hp := dev.pageSize_le
  have hissued : (trustyIpcDevGetEvent os dev chan w).2.env.smcs = w.env.smcs ++
      [⟨smcScTrustyIpcHandleQlDevCmd, dev.bufId, u32 (cmdSize (prepareGetEvent w.env.page chan)),
        prepareGetEvent w.env.page chan⟩] := by
    simp only [trustyIpcDevGetEvent]
    split
    next => rfl
    next =>
      split
      next => rfl
      next => split <;> rfl
  have hs : ((DevCall.getEvent chan).run os dev w).2.env.smcs = w.env.smcs ++
      [⟨smcScTrustyIpcHandleQlDevCmd, dev.bufId, u32 (cmdSize (prepareGetEvent w.env.page chan)),
        prepareGetEvent w.env.page chan⟩] := by
    rw [← hissued]
    simp only [DevCall.run]
    split <;> simp_all only
  have hl : (prepareGetEvent w.env.page chan).load cmdPayloadLen 4 = 8 :=
    Mem.load_store_self _ _ (by decide)
  exact (callContained_iff_of_issued hs (prepareGetEvent_footprint _ chan) hl).mpr (by omega)

theorem send_contained_iff (os : SecureOs σ) (dev : IpcDev) (chan : UInt32) (iovs : List Iovec)
    (nowrap : total (segs iovs) < 2 ^ 64) (w : World (DevEnv σ)) :
    CallContained dev w (trustyIpcDevSend os dev chan iovs w) ↔
      dev.bufSize.toNat - 16 < total (segs iovs) ∨ 16 + total (segs iovs) % 2 ^ 32 < 2 ^ 32 := by
  have hp := dev.pageSize_le
  have hsize : iovecSize iovs = total (segs iovs) := by
    rw [iovecSize_eq, usize, Nat.mod_eq_of_lt nowrap]
  by_cases hlong : dev.bufSize.toNat - 16 < total (segs iovs)
  · have hrun : trustyIpcDevSend os dev chan iovs w = (trustyErrMsgTooBig, w) := by
      simp only [trustyIpcDevSend, msgSize_room, hsize, if_pos hlong]
    have hneg : trustyErrMsgTooBig < 0 := by decide
    rw [hrun]
    exact iff_of_true (Or.inl ⟨hneg, rfl, rfl⟩) (Or.inl hlong)
  · obtain ⟨hfoot, hl, _⟩ := @sendPage_spec w.mem _ _ iovs (dev.bufSize.toNat - 16) (by omega)
    have hs : (trustyIpcDevSend os dev chan iovs w).2.env.smcs = w.env.smcs ++
        [⟨smcScTrustyIpcHandleQlDevCmd, dev.bufId, u32 (cmdSize (iovecToBuf w.mem
            (prepareSend w.env.page chan (iovecSize iovs)) (cmdHdr.add sizeofCmdHdr) 0
            (dev.bufSize.toNat - 16) iovs).2.2),
          (iovecToBuf w.mem (prepareSend w.env.page chan (iovecSize iovs))
            (cmdHdr.add sizeofCmdHdr) 0 (dev.bufSize.toNat - 16) iovs).2.2⟩] := by
      simp only [trustyIpcDevSend, msgSize_room, hsize, if_neg hlong]
      split <;> rfl
    rw [callContained_iff_of_issued hs hfoot hl, hsize]
    unfold u32
    omega

theorem recv_contained (os : SecureOs σ) (dev : IpcDev) (chan : UInt32) (iovs : List Iovec)
    (w : World (DevEnv σ)) : CallContained dev w (trustyIpcDevRecv os dev chan iovs w) := by
  have hp := dev.pageSize_le
  have hs : (trustyIpcDevRecv os dev chan iovs w).2.env.smcs = w.env.smcs ++
      [⟨smcScTrustyIpcHandleQlDevCmd, dev.bufId, u32 (cmdSize (prepareRecv w.env.page chan)),
        prepareRecv w.env.page chan⟩] := by
    simp only [trustyIpcDevRecv, finishRecv]
    split
    next => rfl
    next =>
      split
      next => rfl
      next => split <;> rfl
  have hl : (prepareRecv w.env.page chan).load cmdPayloadLen 4 = 0 := by
    rw [prepareRecv, Mem.load_store_apart _ (by decide)]
    exact prepareHdr_payloadLen _ _
  exact (callContained_iff_of_issued hs (prepareRecv_footprint _ chan) hl).mpr (by omega)

/-- What keeps a call's command inside the buffer. The check on a port name counts the connect
request's 16 bytes the wrong way, and 32-bit lengths wrap on buffers past 4 GiB. -/
def DevCall.Fits (dev : IpcDev) : DevCall → Prop
  | connect port _ =>
    dev.bufSize.toNat < port.chars.length + 1 ∨
    (32 + (port.chars.length + 1) ≤ dev.bufSize.toNat ∧
      16 + (16 + (port.chars.length + 1)) % 2 ^ 32 < 2 ^ 32)
  | send _ iovs _ =>
    dev.bufSize.toNat - 16 < total (segs iovs) ∨ 16 + total (segs iovs) % 2 ^ 32 < 2 ^ 32
  | _ => True

theorem devCall_contained_iff (os : SecureOs σ) (dev : IpcDev) (call : DevCall)
    (w : World (DevEnv σ)) : CallContained dev w (call.run os dev w) ↔ call.Fits dev := by
  cases call with
  | connect port cookie => exact connect_contained_iff os dev port cookie w
  | close handle => exact iff_of_true (close_contained os dev handle w) trivial
  | hasEvent chan => exact iff_of_true (hasEvent_contained os dev chan w) trivial
  | getEvent chan => exact iff_of_true (getEvent_contained os dev chan w) trivial
  | send chan iovs nowrap => exact send_contained_iff os dev chan iovs nowrap w
  | recv chan iovs => exact iff_of_true (recv_contained os dev chan iovs w) trivial

/-- A secure OS that leaves the buffer all zero, a one-page device, and a program at rest. -/
def quietOs : SecureOs Unit := ⟨fun _ s => (0, fun _ => 0, s)⟩

def onePageDev : IpcDev := ⟨4096, 0, by decide, by decide⟩

def quietWorld : World (DevEnv Unit) where
  mem := ⟨fun _ _ => 0, []⟩
  chans := fun _ => ⟨0, 0, .sync⟩
  initialized := fun _ => false
  env := ⟨⟨fun _ _ => 0, []⟩, [], ()⟩

def longName : CString where
  chars := List.replicate 4095 97
  nonzero := fun h => absurd (List.eq_of_mem_replicate h) (by decide)
  fits := by rw [List.length_replicate]; omega

/-- The longest name the check accepts on a one-page device runs 32 bytes past its end. -/
theorem devCall_longName_escapes :
    ¬CallContained onePageDev quietWorld
      ((DevCall.connect longName 0).run quietOs onePageDev quietWorld) := by
  have hlen : longName.chars.length = 4095 := List.length_replicate
  have hbuf : onePageDev.bufSize.toNat = 4096 := rfl
  intro h
  rcases (connect_contained_iff quietOs onePageDev longName 0 quietWorld).mp h with hlt | ⟨hle, _⟩
  · omega
  · omega

end ExternalTrusty
