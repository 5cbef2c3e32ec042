import ExternalTrusty.RecvBounds

namespace ExternalTrusty

open CMemory

variable {σ : Type}

/-- A send refuses exactly what does not fit after the header, and otherwise presents the
concatenation of the caller's buffers under its exact length. -/
def SendsGathered (dev : IpcDev) (chan : UInt32) (iovs : List Iovec) (w : World (DevEnv σ))
    (r : Int × World (DevEnv σ)) : Prop :=
  ((r.1 = trustyErrMsgTooBig ∧ r.2.env.smcs = w.env.smcs ∧ r.2.env.page = w.env.page) ↔
    dev.bufSize.toNat - 16 < total (segs iovs)) ∧
  (total (segs iovs) ≤ dev.bufSize.toNat - 16 →
    ∃ smc, r.2.env.smcs = w.env.smcs ++ [smc] ∧
      smc.page.load cmdOpcode 2 = qlTipcDevSend ∧ smc.page.load cmdHandle 4 = chan.toNat ∧
      smc.page.load cmdPayloadLen 4 = total (segs iovs) ∧
      smc.page.read cmdPayload (total (segs iovs)) = gather w.mem (segs iovs))

/-- The secure OS answers a RECV command with the payload `p`, which fits the buffer. -/
def Delivers (os : SecureOs σ) (dev : IpcDev) (chan : UInt32) (w : World (DevEnv σ))
    (p : List UInt8) : Prop :=
  RecvAnswered (execRecv os dev chan w) ∧
  (execRecv os dev chan w).2.env.page.load cmdPayloadLen 4 = p.length ∧
  (execRecv os dev chan w).2.env.page.read cmdPayload p.length = p ∧
  p.length ≤ dev.bufSize.toNat - 16

/-- A receive of `p` reports its length exactly when it all fits, and lays what fits over the
caller's buffers in order. -/
def FillsFrom (p : List UInt8) (iovs : List Iovec) (w : World (DevEnv σ))
    (r : Int × World (DevEnv σ)) : Prop :=
  (r.1 = p.length ↔ p.length ≤ total (segs iovs)) ∧
  (p.length ≤ total (segs iovs) →
    gather r.2.mem (segs iovs) = p ++ (gather w.mem (segs iovs)).drop p.length) ∧
  (total (segs iovs) < p.length →
    r.1 = trustyErrMsgTooBig ∧ gather r.2.mem (segs iovs) = p.take (total (segs iovs)))

theorem checkResponse_ne_tooBig (page : Mem Page) (cmd : Nat) :
    checkResponse page cmd ≠ trustyErrMsgTooBig := by
  unfold checkResponse
  split
  next => decide
  next => split <;> decide

theorem send_refused {os : SecureOs σ} {dev : IpcDev} {chan : UInt32} {iovs : List Iovec}
    {w : World (DevEnv σ)} (nowrap : total (segs iovs) < 2 ^ 64)
    (h : dev.bufSize.toNat - 16 < total (segs iovs)) :
    trustyIpcDevSend os dev chan iovs w = (trustyErrMsgTooBig, w) := by
  have hsize : iovecSize iovs = total (segs iovs) := by
    rw [iovecSize_eq, usize, Nat.mod_eq_of_lt nowrap]
  have hroom := msgSize_room dev
  rw [trustyIpcDevSend]
  exact if_pos (by omega)

theorem send_presents {os : SecureOs σ} {dev : IpcDev} {chan : UInt32} {iovs : List Iovec}
    {w : World (DevEnv σ)} (hB : dev.bufSize.toNat < 2 ^ 31)
    (h : total (segs iovs) ≤ dev.bufSize.toNat - 16) :
    (trustyIpcDevSend os dev chan iovs w).1 ≠ trustyErrMsgTooBig ∧
    ∃ smc, (trustyIpcDevSend os dev chan iovs w).2.env.smcs = w.env.smcs ++ [smc] ∧
      smc.page.load cmdOpcode 2 = qlTipcDevSend ∧ smc.page.load cmdHandle 4 = chan.toNat ∧
      smc.page.load cmdPayloadLen 4 = total (segs iovs) ∧
      smc.page.read cmdPayload (total (segs iovs)) = gather w.mem (segs iovs) := by
  have hsize : iovecSize iovs = total (segs iovs) := by
    rw [iovecSize_eq, usize, Nat.mod_eq_of_lt (by omega)]
  have hroom := msgSize_room dev
  have hfits : ¬iovecSize iovs > usizeSub dev.bufSize.toNat sizeofCmdHdr := by omega
  obtain ⟨hop, hhandle⟩ := @sendPage_header w.mem _ _ iovs (usizeSub dev.bufSize.toNat sizeofCmdHdr)
    (by omega)
  obtain ⟨_, hlen, hread⟩ := @sendPage_spec w.mem _ _ iovs (usizeSub dev.bufSize.toNat sizeofCmdHdr)
    (by omega)
  have hu : u32 (iovecSize iovs) = total (segs iovs) := by
    rw [hsize, u32, Nat.mod_eq_of_lt (by omega)]
  simp only [trustyIpcDevSend, if_neg hfits]
  constructor
  · have hsecos : trustyErrSecosErr ≠ trustyErrMsgTooBig := by decide
    split
    next => exact hsecos
    next => exact checkResponse_ne_tooBig _ _
  · let page := (iovecToBuf w.mem (prepareSend w.env.page chan (iovecSize iovs))
      (cmdHdr.add sizeofCmdHdr) 0 (usizeSub dev.bufSize.toNat sizeofCmdHdr) iovs).2.2
    refine ⟨⟨smcScTrustyIpcHandleQlDevCmd, dev.bufId, u32 (cmdSize page), page⟩, ?_, hop, hhandle,
      hlen.trans hu, hread⟩
    split <;> rfl

theorem send_sendsGathered {os : SecureOs σ} {dev : IpcDev} {chan : UInt32} {iovs : List Iovec}
    {w : World (DevEnv σ)} (hB : dev.bufSize.toNat < 2 ^ 31)
    (nowrap : total (segs iovs) < 2 ^ 64) :
    SendsGathered dev chan iovs w (trustyIpcDevSend os dev chan iovs w) := by
  refine ⟨⟨?_, ?_⟩, fun h => (send_presents hB h).2⟩
  · rintro ⟨hrc, _⟩
    by_contra hfits
    exact (send_presents hB (by omega)).1 hrc
  · intro h
    rw [send_refused nowrap h]
    exact ⟨rfl, rfl, rfl⟩

theorem recv_fillsFrom {os : SecureOs σ} {dev : IpcDev} {chan : UInt32} {iovs : List Iovec}
    {w : World (DevEnv σ)} {p : List UInt8} (hB : dev.bufSize.toNat < 2 ^ 31)
    (hR : SegsApart (segs iovs)) (h : Delivers os dev chan w p) :
    FillsFrom p iovs w (trustyIpcDevRecv os dev chan iovs w) := by
  obtain ⟨hans, hlen, hread, hfits⟩ := h
  obtain ⟨_, page, hrun, _⟩ := recv_answered hans
  have hfill : gather (trustyIpcDevRecv os dev chan iovs w).2.mem (segs iovs) =
      overlay (p.take (total (segs iovs))) (gather w.mem (segs iovs)) := by
    rw [hrun, hlen, hread]
    exact gather_scatter hR w.mem p
  have hrc : (trustyIpcDevRecv os dev chan iovs w).1 =
      if total (segs iovs) < p.length then trustyErrMsgTooBig else (p.length : Int) := by
    rw [hrun, hlen, toInt_of_lt (by omega)]
  refine ⟨?_, ?_, ?_⟩
  · rw [hrc]
    constructor
    · intro heq
      by_contra hbig
      rw [if_pos (by omega)] at heq
      unfold trustyErrMsgTooBig at heq
      omega
    · intro hle
      exact if_neg (by omega)
  · intro hle
    rw [hfill, List.take_of_length_le hle, overlay]
  · intro hbig
    refine ⟨by rw [hrc, if_pos hbig], ?_⟩
    rw [hfill, overlay_full (by simp; omega)]

/-- Sending a list of buffers and receiving into any disjoint buffers that hold as much moves
their concatenation, whatever the two ways of cutting it up. -/
theorem sendRecv_roundTrip (os os' : SecureOs σ) (dev : IpcDev)
    (hB : dev.bufSize.toNat < 2 ^ 31) (sent room : List Iovec)
    (nowrap : total (segs sent) < 2 ^ 64) (hR : SegsApart (segs room)) (chan chan' : UInt32)
    (w w' : World (DevEnv σ)) :
    SendsGathered dev chan sent w (trustyIpcDevSend os dev chan sent w) ∧
    (∀ p, Delivers os' dev chan' w' p →
      FillsFrom p room w' (trustyIpcDevRecv os' dev chan' room w')) ∧
    ∀ smc, (trustyIpcDevSend os dev chan sent w).2.env.smcs = w.env.smcs ++ [smc] →
      Delivers os' dev chan' w' (smc.page.read cmdPayload (smc.page.load cmdPayloadLen 4)) →
      total (segs sent) ≤ total (segs room) →
      (trustyIpcDevRecv os' dev chan' room w').1 = total (segs sent) ∧
      (gather (trustyIpcDevRecv os' dev chan' room w').2.mem (segs room)).take
        (total (segs sent)) = gather w.mem (segs sent) := by
  have hsend := @send_sendsGathered _ os _ chan _ w hB nowrap
  have hrecv : ∀ p, Delivers os' dev chan' w' p →
      FillsFrom p room w' (trustyIpcDevRecv os' dev chan' room w') :=
    fun p hp => recv_fillsFrom hB hR hp
  refine ⟨hsend, hrecv, ?_⟩
  intro smc hsmc hdel hle
  have hfits : total (segs sent) ≤ dev.bufSize.toNat - 16 := by
    by_contra hbig
    obtain ⟨_, hnone, _⟩ := hsend.1.mpr (by omega)
    have hc := congrArg List.length (hnone.symm.trans hsmc)
    simp at hc
  obtain ⟨smc', hsmc', _, _, hlen, hread⟩ := hsend.2 hfits
  have hsame : smc' = smc := by
    have := List.append_cancel_left (hsmc'.symm.trans hsmc)
    simpa using this
  subst hsame
  rw [hlen, hread] at hdel
  obtain ⟨hrc, hfill, _⟩ := hrecv _ hdel
  rw [gather_length] at hrc hfill
  refine ⟨hrc.mpr hle, ?_⟩
  rw [hfill hle, List.take_left' (gather_length _ _)]

/-- A secure OS that hands the last payload sent to it back to whoever receives next. -/
def echoOs : SecureOs (List UInt8) where
  exec smc held :=
    if smc.page.load cmdOpcode 2 = qlTipcDevSend then
      (0, fun i => (leBytes 2 (qlTipcDevSend ||| qlTipcDevResp)).getD i 0,
        smc.page.read cmdPayload (smc.page.load cmdPayloadLen 4))
    else
      (0, fun i => (leBytes 2 (qlTipcDevRecv ||| qlTipcDevResp) ++ leBytes 10 0 ++
        leBytes 4 held.length ++ held).getD i 0, held)

def threeBytes : World (DevEnv (List UInt8)) where
  mem := ⟨fun _ i => [1, 2, 3].getD i 0, []⟩
  chans := fun _ => ⟨1, 0, .sync⟩
  initialized := fun _ => true
  env := ⟨⟨fun _ _ => 0, []⟩, [], []⟩

def threeSent : List Iovec := [⟨⟨.caller 0, 0⟩, 2⟩, ⟨⟨.caller 0, 2⟩, 0⟩, ⟨⟨.caller 0, 2⟩, 1⟩]

def fourRoom : List Iovec := [⟨⟨.caller 1, 8⟩, 1⟩, ⟨⟨.caller 1, 9⟩, 0⟩, ⟨⟨.caller 2, 8⟩, 3⟩]

theorem sendRecv_threeBytes :
    let w := (trustyIpcDevSend echoOs onePageDev 1 threeSent threeBytes).2
    (trustyIpcDevRecv echoOs onePageDev 1 fourRoom w).1 = 3 ∧
      gather (trustyIpcDevRecv echoOs onePageDev 1 fourRoom w).2.mem (segs fourRoom) =
        [1, 2, 3, 0] := by
  intro w
  have hB : onePageDev.bufSize.toNat < 2 ^ 31 := by decide
  have hdel : Delivers echoOs onePageDev 1 w [1, 2, 3] :=
    ⟨⟨by decide, by decide⟩, by decide, by decide, by decide⟩
  obtain ⟨hrc, hfill, _⟩ := (sendRecv_roundTrip echoOs echoOs onePageDev hB threeSent fourRoom
    (by decide) (by decide) 1 1 threeBytes w).2.1 _ hdel
  exact ⟨hrc.mpr (by decide), hfill (by decide)⟩

end ExternalTrusty
