import ExternalTrusty.CommandContained

namespace ExternalTrusty

open CMemory

variable {σ : Type}

/-- The secure OS answered a RECV command, and the answer is well formed. -/
def RecvAnswered (r : Int × World (DevEnv σ)) : Prop :=
  0 ≤ r.1 ∧ checkResponse r.2.env.page qlTipcDevRecv = trustyErrNone

/-- Everything copied out of the shared buffer is payload, and a count that is returned is the
number of bytes copied. -/
def CopiesInside (dev : IpcDev) (w : World (DevEnv σ)) (r : Int × World (DevEnv σ)) : Prop :=
  (∀ i, Covers .load (r.2.env.page.since w.env.page) .shared i →
    sizeofCmdHdr ≤ i ∧ i < dev.bufSize.toNat) ∧
  (0 ≤ r.1 → r.1 = moved .load (r.2.env.page.since w.env.page))

theorem checkResponse_ne_none {page : Mem Page} {cmd : Nat}
    (h : checkResponse page cmd ≠ trustyErrNone) : checkResponse page cmd = trustyErrSecosErr := by
  unfold checkResponse at *
  split
  next => rfl
  next ho =>
    rw [if_neg ho] at h
    split
    next => rfl
    next hs => exact absurd (if_neg hs) h

theorem execRecv_log (os : SecureOs σ) (dev : IpcDev) (chan : UInt32) (w : World (DevEnv σ)) :
    ∃ new, (execRecv os dev chan w).2.env.page.log = new ++ w.env.page.log ∧
      moved .load new = 0 ∧ ∀ b i, ¬Covers .load new b i := by
  refine ⟨[⟨.store, .shared, 8, 4⟩, ⟨.store, .shared, 0, 2⟩, ⟨.store, .shared, 0, 16⟩], ?_, rfl, ?_⟩
  · simp [execRecv, trustyDevExecIpc, trustyDevCall, IpcDev.respond, World.withPage, prepareRecv,
      prepareHdr, Mem.store, Mem.memset, cmdHandle, cmdOpcode, cmdHdr, sizeofCmdHdr]
  · intro b i
    simp [covers_cons]

/-- A rejected answer copies nothing. -/
theorem recv_unanswered {os : SecureOs σ} {dev : IpcDev} {chan : UInt32} {iovs : List Iovec}
    {w : World (DevEnv σ)} (h : ¬RecvAnswered (execRecv os dev chan w)) :
    trustyIpcDevRecv os dev chan iovs w = (trustyErrSecosErr, (execRecv os dev chan w).2) := by
  rw [trustyIpcDevRecv, finishRecv]
  by_cases hrc : (execRecv os dev chan w).1 < 0
  · rw [if_pos hrc]
  · have hbad : checkResponse (execRecv os dev chan w).2.env.page qlTipcDevRecv ≠ 0 :=
      fun hc => h ⟨by omega, hc⟩
    simp only [if_neg hrc, if_pos hbad]
    rw [checkResponse_ne_none hbad]

/-- The result of an accepted answer, in terms of the library's scatter. -/
theorem recv_answered {os : SecureOs σ} {dev : IpcDev} {chan : UInt32} {iovs : List Iovec}
    {w : World (DevEnv σ)} (h : RecvAnswered (execRecv os dev chan w)) :
    ∃ new page, trustyIpcDevRecv os dev chan iovs w =
      (if total (segs iovs) < (execRecv os dev chan w).2.env.page.load cmdPayloadLen 4
        then trustyErrMsgTooBig
        else toInt ((execRecv os dev chan w).2.env.page.load cmdPayloadLen 4),
       { (execRecv os dev chan w).2.withPage page with
         mem := scatter w.mem (segs iovs) ((execRecv os dev chan w).2.env.page.read cmdPayload
           ((execRecv os dev chan w).2.env.page.load cmdPayloadLen 4)) }) ∧
      page.log = new ++ (execRecv os dev chan w).2.env.page.log ∧
      moved .load new = min (total (segs iovs))
        ((execRecv os dev chan w).2.env.page.load cmdPayloadLen 4) ∧
      ∀ b i, Covers .load new b i ↔ Page.shared = b ∧ 16 ≤ i ∧
        i < 16 + min (total (segs iovs))
          ((execRecv os dev chan w).2.env.page.load cmdPayloadLen 4) := by
  have hmem : (execRecv os dev chan w).2.mem = w.mem := rfl
  generalize hr : execRecv os dev chan w = r at *
  obtain ⟨hcount, hscatter, hbytes, new, hlog, hmoved, hcov⟩ := bufToIovec_spec
    (m := w.mem)
  refine ⟨new, (bufToIovec r.2.env.page w.mem iovs cmdPayload
    (r.2.env.page.load cmdPayloadLen 4)).2.1, ?_, hlog, hmoved, hcov⟩
  have hrc : ¬r.1 < 0 := by
    have := h.1
    omega
  have hok : ¬checkResponse r.2.env.page qlTipcDevRecv ≠ 0 := fun hne => hne h.2
  -- the length is read again after the copy, which left the page's bytes alone
  have hagain : (r.2.withPage (bufToIovec r.2.env.page w.mem iovs cmdPayload
      (r.2.env.page.load cmdPayloadLen 4)).2.1).env.page.load cmdPayloadLen 4 =
      r.2.env.page.load cmdPayloadLen 4 := Mem.load_congr hbytes _ _
  rw [trustyIpcDevRecv, hr, finishRecv]
  simp only [if_neg hrc, if_neg hok, hmem, hagain, hcount, hscatter]
  by_cases hbig : total (segs iovs) < r.2.env.page.load cmdPayloadLen 4
  · rw [if_pos hbig, if_pos (by omega)]
  · rw [if_neg hbig, if_neg (by omega), Nat.min_eq_right (by omega)]

theorem recv_since {os : SecureOs σ} {dev : IpcDev} {chan : UInt32} {w : World (DevEnv σ)}
    {page : Mem Page} {new : List (Access Page)}
    (h : page.log = new ++ (execRecv os dev chan w).2.env.page.log) :
    moved .load (page.since w.env.page) = moved .load new ∧
      ∀ b i, Covers .load (page.since w.env.page) b i ↔ Covers .load new b i := by
  obtain ⟨hdr, hhdr, hnone, hcov⟩ := execRecv_log os dev chan w
  have hlog : page.log = (new ++ hdr) ++ w.env.page.log := by
    rw [h, hhdr, List.append_assoc]
  rw [Mem.since_eq hlog]
  constructor
  · rw [moved_append, hnone, Nat.add_zero]
  · intro b i
    rw [covers_append]
    exact or_iff_left (hcov b i)

/-- How much an accepted answer makes the copy loop read past the header: no more than the
caller's buffers hold, and no more than the answer announces. The size of the shared buffer is
not among the bounds. -/
def recvLen (iovs : List Iovec) (page : Mem Page) : Nat :=
  min (total (segs iovs)) (page.load cmdPayloadLen 4)

theorem copiesInside_unanswered {os : SecureOs σ} {dev : IpcDev} {chan : UInt32}
    {iovs : List Iovec} {w : World (DevEnv σ)} (h : ¬RecvAnswered (execRecv os dev chan w)) :
    CopiesInside dev w (trustyIpcDevRecv os dev chan iovs w) := by
  have hneg : trustyErrSecosErr < 0 := by decide
  obtain ⟨hmoved, hcov⟩ := @recv_since _ _ _ _ w _ [] rfl
  rw [recv_unanswered h]
  constructor
  · intro i hi
    exact absurd ((hcov _ i).mp hi) covers_nil
  · intro hpos
    change 0 ≤ trustyErrSecosErr at hpos
    omega

theorem copiesInside_answered_iff {os : SecureOs σ} {dev : IpcDev} {chan : UInt32}
    {iovs : List Iovec} {w : World (DevEnv σ)} (h : RecvAnswered (execRecv os dev chan w)) :
    CopiesInside dev w (trustyIpcDevRecv os dev chan iovs w) ↔
      sizeofCmdHdr + recvLen iovs (execRecv os dev chan w).2.env.page ≤ dev.bufSize.toNat := by
  obtain ⟨new, page, hrun, hlog, hmoved, hcov⟩ := @recv_answered _ _ _ _ iovs _ h
  obtain ⟨hmoved', hcov'⟩ := recv_since hlog
  have hp := dev.pageSize_le
  have hload : ∀ i, Covers .load (page.since w.env.page) .shared i ↔
      16 ≤ i ∧ i < 16 + recvLen iovs (execRecv os dev chan w).2.env.page := by
    intro i
    rw [hcov', hcov, recvLen]
    simp only [true_and]
  have hlt : (execRecv os dev chan w).2.env.page.load cmdPayloadLen 4 < 256 ^ 4 :=
    Mem.load_lt _ _ _
  have hcount : ∀ rc : Int, 0 ≤ rc → rc = (if total (segs iovs) <
        (execRecv os dev chan w).2.env.page.load cmdPayloadLen 4 then trustyErrMsgTooBig
        else toInt ((execRecv os dev chan w).2.env.page.load cmdPayloadLen 4)) →
      rc = moved .load (page.since w.env.page) := by
    intro rc hpos hrc
    have hneg : trustyErrMsgTooBig < 0 := by decide
    rw [hmoved', hmoved]
    split at hrc
    next => omega
    next hle =>
      by_cases hbig : 2 ^ 31 ≤ (execRecv os dev chan w).2.env.page.load cmdPayloadLen 4
      · have := toInt_neg hbig (by omega)
        omega
      · rw [hrc, toInt_of_lt (by omega), Nat.min_eq_right (by omega)]
  rw [hrun]
  constructor
  · rintro ⟨hin, _⟩
    unfold sizeofCmdHdr
    by_contra hout
    obtain ⟨_, hlast⟩ := hin dev.bufSize.toNat ((hload _).mpr (by omega))
    omega
  · intro hle
    refine ⟨?_, fun hpos => hcount _ hpos rfl⟩
    intro i hi
    obtain ⟨h1, h2⟩ := (hload i).mp hi
    unfold sizeofCmdHdr at *
    omega

/-- A receive copies out of the buffer only, exactly when its answer is rejected or the shorter
of the announced payload and the caller's room ends inside the buffer. -/
theorem recv_copiesInside_iff (os : SecureOs σ) (dev : IpcDev) (chan : UInt32)
    (iovs : List Iovec) (w : World (DevEnv σ)) :
    CopiesInside dev w (trustyIpcDevRecv os dev chan iovs w) ↔
      ¬RecvAnswered (execRecv os dev chan w) ∨
      sizeofCmdHdr + recvLen iovs (execRecv os dev chan w).2.env.page ≤ dev.bufSize.toNat := by
  by_cases h : RecvAnswered (execRecv os dev chan w)
  · rw [copiesInside_answered_iff h]
    exact (or_iff_right (not_not_intro h)).symm
  · exact iff_of_true (copiesInside_unanswered h) (Or.inl h)

/-- What a secure OS leaves behind that announces `len` bytes of payload, all zero. -/
def answerPage (len : Nat) : Nat → UInt8 := fun i =>
  (leBytes 2 (qlTipcDevRecv ||| qlTipcDevResp) ++ leBytes 10 0 ++ leBytes 4 len).getD i 0

def answeringOs (len : Nat) : SecureOs Unit := ⟨fun _ s => (0, answerPage len, s)⟩

/-- The buffers of a Keymaster read: the message header, and up to 4096 bytes of payload. -/
def kmRawIovs : List Iovec := [⟨⟨.kmRawHeader, 0⟩, 4⟩, ⟨⟨.heap 0, 0⟩, 4096⟩]

/-- A Keymaster read on a one-page device offers more room than the page has after its header,
so an answer that claims 4100 bytes is read 20 bytes past the page. -/
theorem kmRaw_copies_outside :
    ¬CopiesInside onePageDev quietWorld
      (trustyIpcDevRecv (answeringOs 4100) onePageDev 1 kmRawIovs quietWorld) := by
  have hanswered : RecvAnswered (execRecv (answeringOs 4100) onePageDev 1 quietWorld) :=
    ⟨by decide, by decide⟩
  have hlen : recvLen kmRawIovs (execRecv (answeringOs 4100) onePageDev 1 quietWorld).2.env.page =
      4100 := by decide
  have hbuf : onePageDev.bufSize.toNat = 4096 := rfl
  rw [copiesInside_answered_iff hanswered, hlen, hbuf, sizeofCmdHdr]
  omega

end ExternalTrusty
