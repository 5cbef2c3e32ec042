import ExternalTrusty.Hwbcc
import ExternalTrusty.AvbResponse

namespace ExternalTrusty

open CMemory

variable {w : World Script} {f : Frame}

/-- A header that fits its command, is whole and reports success. -/
def HwbccHeader (cmd : Nat) (m : List UInt8) : Prop :=
  12 ≤ m.length ∧ leNat (m.take 4) = cmd ||| hwbccCmdRespBit ∧
    leNat ((m.drop 4).take 4) = noError

/-- A response whose header accounts for all that follows it, which fits the room for it. -/
def HwbccFull (cmd room : Nat) (m : List UInt8) : Prop :=
  HwbccHeader cmd m ∧ leNat ((m.drop 8).take 4) = m.length - 12 ∧ m.length - 12 ≤ room

/-- The words of the header, after a receive that fills it. -/
theorem hwbccHeader_scatter {m : Mem Obj} {rest : List (Seg Obj)} {bs : List UInt8}
    (hrest : ∀ v ∈ rest, v.base.block ≠ .hwbccResp) (h : 12 ≤ bs.length) {i : Nat}
    (hi : i + 4 ≤ 12) :
    (scatter m (⟨hwbccResp, 12⟩ :: rest) bs).load (hwbccResp.add i) 4 =
      leNat ((bs.drop i).take 4) := by
  have hread : (scatter m (⟨hwbccResp, 12⟩ :: rest) bs).read hwbccResp 12 = bs.take 12 := by
    rw [scatter, read_scatter_apart fun v hv => Or.inl (hrest v hv),
      Mem.read_put_over _ _ (by simp)]
    exact overlay_full (by simp; omega)
  have hword : (scatter m (⟨hwbccResp, 12⟩ :: rest) bs).read (hwbccResp.add i) 4 =
      ((bs.take 12).drop i).take 4 := by
    rw [← hread, Mem.read_drop _ _ (by omega : i ≤ 12), Mem.read_take _ _ (by omega)]
  rw [Mem.load, hword, List.drop_take, List.take_take, Nat.min_eq_left (by omega)]

/-- The buffer starts with what follows the header, as far as it has room. -/
theorem hwbccPayload_scatter {m : Mem Obj} {buf : Ptr Obj} {bufSize : UInt64} {bs : List UInt8}
    (hbuf : buf.block ≠ .hwbccResp) (hfits : bs.length - 12 ≤ bufSize.toNat) :
    (scatter m (⟨hwbccResp, 12⟩ :: segs [⟨buf, bufSize⟩]) bs).read buf (bs.length - 12) =
      bs.drop 12 := by
  have hapart : SegsApart ([(⟨hwbccResp, 12⟩ : Seg Obj)] ++ ⟨buf, bufSize.toNat⟩ :: []) := by
    simp [SegsApart, Apart, hwbccResp, Ne.symm hbuf]
  have hseg : (scatter m (⟨hwbccResp, 12⟩ :: segs [⟨buf, bufSize⟩]) bs).read buf bufSize.toNat =
      overlay ((bs.drop 12).take bufSize.toNat) (m.read buf bufSize.toNat) :=
    read_scatter_seg hapart m bs
  have hdrop : (bs.drop 12).length = bs.length - 12 := List.length_drop
  have hwhole : (bs.drop 12).take bufSize.toNat = bs.drop 12 :=
    List.take_of_length_le (by omega)
  rw [← Mem.read_take _ _ hfits, hseg, hwhole, overlay, ← hdrop, List.take_left]

/-- What belongs to the caller is written by the receive alone, and in the buffer alone. -/
theorem hwbccReceive_kept {buf q : Ptr Obj} {bufSize : UInt64} {bs : List UInt8} {k j : Nat}
    (hq : q.block = .caller j) (hfar : Apart buf bufSize.toNat q k) :
    (scatter (zeroHwbccResp w).mem (⟨hwbccResp, 12⟩ :: segs [⟨buf, bufSize⟩]) bs).read q k =
      w.mem.read q k := by
  have hne : hwbccResp.block ≠ q.block := hq ▸ Obj.noConfusion
  have hseg : ∀ v ∈ (⟨hwbccResp, 12⟩ : Seg Obj) :: segs [⟨buf, bufSize⟩],
      Apart v.base v.len q k := by
    intro v hv
    rcases List.mem_cons.mp hv with rfl | hv
    · exact Or.inl hne
    · rw [List.mem_singleton.mp hv]
      exact hfar
  rw [read_scatter_apart hseg]
  exact Mem.read_write_apart w.mem (Or.inl hne)

/-- A receive into the header and whatever is to follow it, and the checks of the header. -/
theorem checkHwbccResponse_frame {cmd : Nat} {rest : List Iovec}
    (hrecv : w.env.recvs.headD .closed = .frame f) (hlen : f.bytes.length < 2 ^ 31)
    (hreq : w.mem.load hwbccReq 4 = cmd)
    (hrest : ∀ v ∈ rest, v.base.block ≠ .hwbccResp ∧ v.base.block ≠ .hwbccReq) :
    ∃ rc w', scriptRecv .hwbcc (⟨hwbccResp, 12⟩ :: rest) true (zeroHwbccResp w) = some (rc, w') ∧
      w'.mem = scatter (zeroHwbccResp w).mem (⟨hwbccResp, 12⟩ :: segs rest) f.bytes ∧
      (0 ≤ checkHwbccResponse rc w' ↔
        HwbccHeader cmd f.bytes ∧ f.bytes.length ≤ 12 + total (segs rest)) ∧
      (0 ≤ checkHwbccResponse rc w' → checkHwbccResponse rc w' = f.bytes.length) := by
  have hgeneric : ¬0 ≤ trustyErrGeneric := by decide
  have hbig : trustyErrMsgTooBig < 0 := by decide
  have hsize : sizeofHwbccRespHdr = 12 := rfl
  have hsegs : ∀ v ∈ segs rest, v.base.block ≠ .hwbccResp ∧ v.base.block ≠ .hwbccReq := by
    intro v hv
    obtain ⟨u, hu, rfl⟩ := List.mem_map.mp hv
    exact hrest u hu
  let w' := (zeroHwbccResp w).received .hwbcc
    (scatter (zeroHwbccResp w).mem (⟨hwbccResp, 12⟩ :: segs rest) f.bytes)
  have hrun : scriptRecv .hwbcc (⟨hwbccResp, 12⟩ :: rest) true (zeroHwbccResp w) =
      some (if 12 + total (segs rest) < f.bytes.length then trustyErrMsgTooBig
        else toInt f.bytes.length, w') := by
    have hshape : segs (⟨hwbccResp, 12⟩ :: rest) = ⟨hwbccResp, 12⟩ :: segs rest := rfl
    rw [scriptRecv_frame (show (zeroHwbccResp w).env.recvs.headD .closed = .frame f from hrecv),
      hshape, total_cons]
  refine ⟨_, w', hrun, rfl, ?_⟩
  by_cases hlong : 12 + total (segs rest) < f.bytes.length
  · rw [if_pos hlong, checkHwbccResponse, if_pos hbig]
    constructor
    · constructor
      · intro h
        omega
      · rintro ⟨_, h⟩
        omega
    · intro h
      omega
  · have hrc : intToUsize (f.bytes.length : Int) = f.bytes.length := by
      rw [intToUsize_of_nonneg (by omega) (by omega), Int.toNat_natCast]
    rw [if_neg hlong, toInt_of_lt hlen, checkHwbccResponse, if_neg (by omega), hrc]
    by_cases hshort : f.bytes.length < 12
    · rw [if_pos (by omega)]
      constructor
      · constructor
        · exact fun h => absurd h hgeneric
        · rintro ⟨⟨h, _⟩, _⟩
          omega
      · exact fun h => absurd h hgeneric
    · have hsent : w'.mem.load hwbccReq 4 = cmd := by
        have happly : w'.mem.read hwbccReq 4 = w.mem.read hwbccReq 4 := by
          have hseg : ∀ v ∈ (⟨hwbccResp, 12⟩ : Seg Obj) :: segs rest,
              Apart v.base v.len hwbccReq 4 := by
            intro v hv
            rcases List.mem_cons.mp hv with rfl | hv
            · exact Or.inl (by decide)
            · exact Or.inl (hsegs v hv).2
          exact (read_scatter_apart hseg f.bytes).trans
            (Mem.read_write_apart w.mem (Or.inl (by decide)))
        rw [Mem.load, happly, ← Mem.load, hreq]
      have hword := @hwbccHeader_scatter (zeroHwbccResp w).mem (segs rest) f.bytes
        (fun v hv => (hsegs v hv).1) (by omega)
      have hcmd : w'.mem.load hwbccResp 4 = leNat (f.bytes.take 4) := @hword 0 (by omega)
      have hstatus : w'.mem.load hwbccRespStatus 4 = leNat ((f.bytes.drop 4).take 4) :=
        @hword 4 (by omega)
      rw [if_neg (by omega), hcmd, hstatus, hsent]
      by_cases hc : leNat (f.bytes.take 4) = cmd ||| hwbccCmdRespBit
      · by_cases hs : leNat ((f.bytes.drop 4).take 4) = noError
        · rw [if_neg (not_not_intro hc), if_neg (not_not_intro hs)]
          exact ⟨⟨fun _ => ⟨⟨by omega, hc, hs⟩, by omega⟩, fun _ => by omega⟩, fun _ => rfl⟩
        · rw [if_neg (not_not_intro hc), if_pos hs]
          exact ⟨⟨fun h => absurd h hgeneric, fun h => absurd h.1.2.2 hs⟩,
            fun h => absurd h hgeneric⟩
      · rw [if_pos hc]
        exact ⟨⟨fun h => absurd h hgeneric, fun h => absurd h.1.2.1 hc⟩,
          fun h => absurd h hgeneric⟩

/-- The answer to a request for artifacts: success exactly on a full response, whose payload the
buffer then starts with; otherwise an error, and the caller's size as it was. -/
def ReadsArtifacts (buf : Ptr Obj) (bufSize : UInt64) (outSize : Ptr Obj) (f : Frame)
    (w : World Script) (r : Option (Int × World Script)) : Prop :=
  ∃ rc w', r = some (rc, w') ∧
    (rc = trustyErrNone ↔ HwbccFull hwbccCmdGetDiceArtifacts bufSize.toNat f.bytes) ∧
    (rc = trustyErrNone → w'.mem.load outSize 8 = f.bytes.length - 12 ∧
      w'.mem.read buf (f.bytes.length - 12) = f.bytes.drop 12) ∧
    (rc ≠ trustyErrNone → rc < 0 ∧ w'.mem.read outSize 8 = w.mem.read outSize 8) ∧
    ∀ q k m, q.block = .caller m → Apart buf bufSize.toNat q k → Apart outSize 8 q k →
      w'.mem.read q k = w.mem.read q k

theorem ReadsArtifacts.failed {buf outSize : Ptr Obj} {bufSize : UInt64} {rc : Int}
    {w' : World Script} {m : Nat} (hneg : rc < 0)
    (hno : ¬HwbccFull hwbccCmdGetDiceArtifacts bufSize.toNat f.bytes)
    (hout : outSize.block = .caller m) (hapart : Apart buf bufSize.toNat outSize 8)
    (hkept : ∀ q k m, q.block = .caller m → Apart buf bufSize.toNat q k →
      w'.mem.read q k = w.mem.read q k) :
    ReadsArtifacts buf bufSize outSize f w (some (rc, w')) := by
  have hrc : rc ≠ trustyErrNone := Int.ne_of_lt hneg
  exact ⟨rc, w', rfl, ⟨fun h => absurd h hrc, fun h => absurd h hno⟩, fun h => absurd h hrc,
    fun _ => ⟨hneg, hkept outSize 8 m hout hapart⟩, fun q k j hq hfar _ => hkept q k j hq hfar⟩

/-- The answer to a request to deprivilege: success exactly on a bare header. -/
def Deprivileges (f : Frame) (r : Option (Int × World Script)) : Prop :=
  ∃ rc w', r = some (rc, w') ∧
    (rc = trustyErrNone ↔ HwbccHeader hwbccCmdNsDeprivilege f.bytes ∧ f.bytes.length = 12) ∧
    (rc ≠ trustyErrNone → rc < 0)

/-- The request leaves memory as it is, and what arrives next is the answer. -/
theorem hwbccRequest_answered (ha : Answers w f) (m : Mem Obj) :
    ∃ w₁, sendHeaderOnlyRequest scriptTransport (w.setMem m) =
        some (w.env.sends.headD trustyErrNone, w₁) ∧
      w₁.mem = m ∧ w₁.env.recvs.headD .closed = .frame f := by
  refine ⟨_, rfl, rfl, ?_⟩
  have hrecvs : w.env.recvs.headD .closed = .frame f := by
    rw [List.headD_eq_head?_getD, ha.2]
    rfl
  exact hrecvs

theorem hwbccNsDeprivilege_answered (ha : Answers w f) (hlen : f.bytes.length < 2 ^ 31) :
    Deprivileges f (hwbccNsDeprivilege scriptTransport w) := by
  obtain ⟨w₁, hsent, hmem₁, hhead⟩ := hwbccRequest_answered ha
    ((w.mem.memset hwbccReq 0 sizeofHwbccReqHdr).store hwbccReq 4 hwbccCmdNsDeprivilege)
  have hreq : w₁.mem.load hwbccReq 4 = hwbccCmdNsDeprivilege := by
    rw [hmem₁]
    exact Mem.load_store_self _ _ (by decide)
  have hnone : ∀ v ∈ ([] : List Iovec), v.base.block ≠ .hwbccResp ∧ v.base.block ≠ .hwbccReq :=
    List.forall_mem_nil _
  obtain ⟨rc, w₂, hrun, _, hok, hrc⟩ := checkHwbccResponse_frame hhead hlen hreq hnone
  have hread : readHeaderOnlyResponse scriptTransport w₁ =
      some (checkHwbccResponse rc w₂, w₂) := by
    simp only [readHeaderOnlyResponse, scriptTransport, hrun, Option.bind_eq_bind, Option.bind_some]
  have hbare : 0 ≤ checkHwbccResponse rc w₂ ↔
      HwbccHeader hwbccCmdNsDeprivilege f.bytes ∧ f.bytes.length = 12 := by
    rw [hok]
    simp only [segs_nil, total_nil]
    constructor
    · rintro ⟨hh, hle⟩
      have := hh.1
      exact ⟨hh, by omega⟩
    · rintro ⟨hh, heq⟩
      exact ⟨hh, by omega⟩
  simp only [hwbccNsDeprivilege, Option.bind_eq_bind]
  rw [hsent, Option.bind_some, if_neg (Int.not_lt.mpr ha.1), hread, Option.bind_some]
  by_cases hneg : checkHwbccResponse rc w₂ < 0
  · rw [if_pos hneg]
    refine ⟨_, w₂, rfl, ?_, fun _ => hneg⟩
    rw [← hbare]
    unfold trustyErrNone
    omega
  · rw [if_neg hneg]
    exact ⟨_, w₂, rfl, ⟨fun _ => hbare.mp (by omega), fun _ => rfl⟩, fun h => absurd rfl h⟩

theorem hwbccGetDiceArtifacts_answered {context bufSize : UInt64} {buf outSize : Ptr Obj}
    {n m : Nat} (ha : Answers w f) (hlen : f.bytes.length < 2 ^ 31) (hbuf : buf.block = .caller n)
    (hout : outSize.block = .caller m) (hapart : Apart buf bufSize.toNat outSize 8) :
    ReadsArtifacts buf bufSize outSize f w
      (hwbccGetDiceArtifacts scriptTransport context buf bufSize outSize w) := by
  have hgeneric : trustyErrGeneric < 0 := by decide
  obtain ⟨w₁, hsent, hmem₁, hhead⟩ := hwbccRequest_answered ha
    ((w.mem.store hwbccReq 4 hwbccCmdGetDiceArtifacts).store hwbccReqContext 8 context.toNat)
  have hreq : w₁.mem.load hwbccReq 4 = hwbccCmdGetDiceArtifacts := by
    rw [hmem₁]
    exact (Mem.load_store_apart _ (by decide)).trans (Mem.load_store_self _ _ (by decide))
  have hblock : buf.block ≠ .hwbccResp ∧ buf.block ≠ .hwbccReq := by
    rw [hbuf]
    exact ⟨Obj.noConfusion, Obj.noConfusion⟩
  have hone : ∀ v ∈ [(⟨buf, bufSize⟩ : Iovec)],
      v.base.block ≠ .hwbccResp ∧ v.base.block ≠ .hwbccReq := by
    intro v hv
    rw [List.mem_singleton.mp hv]
    exact hblock
  obtain ⟨rc, w₂, hrun, hmem₂, hok, hrc⟩ := checkHwbccResponse_frame hhead hlen hreq hone
  have hroom : total (segs [⟨buf, bufSize⟩]) = bufSize.toNat := by simp
  rw [hroom] at hok
  have hcaller : ∀ q k j, q.block = .caller j → Apart buf bufSize.toNat q k →
      w₂.mem.read q k = w.mem.read q k := by
    intro q k j hq hfar
    have hne : Obj.hwbccReq ≠ q.block := hq ▸ Obj.noConfusion
    have h0 := @Mem.read_write_apart _ _ w.mem hwbccReq q (leBytes 4 hwbccCmdGetDiceArtifacts) k
      (Or.inl hne)
    have h1 := @Mem.read_write_apart _ _ (w.mem.store hwbccReq 4 hwbccCmdGetDiceArtifacts)
      hwbccReqContext q (leBytes 8 context.toNat) k (Or.inl hne)
    rw [hmem₂, hwbccReceive_kept hq hfar, hmem₁]
    exact h1.trans h0
  simp only [hwbccGetDiceArtifacts, Option.bind_eq_bind]
  rw [hsent, Option.bind_some, if_neg (Int.not_lt.mpr ha.1)]
  simp only [readResponseWithData, scriptTransport, hrun, Option.bind_eq_bind, Option.bind_some]
  by_cases hneg : checkHwbccResponse rc w₂ < 0
  · rw [if_pos hneg, Option.bind_some, if_pos hneg]
    apply ReadsArtifacts.failed hneg _ hout hapart hcaller
    rintro ⟨hh, _, hfits⟩
    have := hok.mpr ⟨hh, by omega⟩
    omega
  · obtain ⟨hh, hfits⟩ := hok.mp (Int.not_lt.mp hneg)
    have hlong : 12 ≤ f.bytes.length := hh.1
    have hword : w₂.mem.load hwbccRespPayloadSize 4 = leNat ((f.bytes.drop 8).take 4) := by
      rw [hmem₂]
      exact hwbccHeader_scatter (i := 8) (by simpa using hblock.1) hlong (by omega)
    have hsub : usizeSub (intToUsize (checkHwbccResponse rc w₂)) sizeofHwbccRespHdr =
        f.bytes.length - 12 := by
      rw [hrc (Int.not_lt.mp hneg), intToUsize_of_nonneg (by omega) (by omega), Int.toNat_natCast]
      unfold usizeSub sizeofHwbccRespHdr
      omega
    rw [if_neg hneg, hword, hsub]
    by_cases hsize : leNat ((f.bytes.drop 8).take 4) = f.bytes.length - 12
    · rw [if_neg (not_not_intro hsize), Option.bind_some, if_neg hneg, hsize]
      have hfull : HwbccFull hwbccCmdGetDiceArtifacts bufSize.toNat f.bytes :=
        ⟨hh, hsize, by omega⟩
      refine ⟨trustyErrNone, _, rfl, ⟨fun _ => hfull, fun _ => rfl⟩, fun _ => ⟨?_, ?_⟩,
        fun h => absurd rfl h, ?_⟩
      · exact Mem.load_store_self _ _ (by omega)
      · have hfar : Apart outSize 8 buf (f.bytes.length - 12) :=
          (hapart.mono (by omega)).symm
        have hread : w₂.mem.read buf (f.bytes.length - 12) = f.bytes.drop 12 := by
          rw [hmem₂]
          exact hwbccPayload_scatter hblock.1 (by omega)
        have hlast := @Mem.read_write_apart _ _ w₂.mem outSize buf
          (leBytes 8 (f.bytes.length - 12)) (f.bytes.length - 12) (by rwa [leBytes_length])
        exact hlast.trans hread
      · intro q k j hq hfar hfar'
        have hlast := @Mem.read_write_apart _ _ w₂.mem outSize q (leBytes 8 (f.bytes.length - 12)) k
          (by rwa [leBytes_length])
        exact hlast.trans (hcaller q k j hq hfar)
    · rw [if_pos hsize, Option.bind_some, if_pos hgeneric]
      exact ReadsArtifacts.failed hgeneric (fun h => hsize h.2.1) hout hapart hcaller

/-- Both requests, answered by any message that a device's page can carry. -/
theorem hwbcc_answered_exactly (w : World Script) (f : Frame) (context bufSize : UInt64)
    (buf outSize : Ptr Obj) (n m : Nat) (ha : Answers w f) (hlen : f.bytes.length ≤ 4080)
    (hbuf : buf.block = .caller n) (hout : outSize.block = .caller m)
    (hapart : Apart buf bufSize.toNat outSize 8) :
    ReadsArtifacts buf bufSize outSize f w
        (hwbccGetDiceArtifacts scriptTransport context buf bufSize outSize w) ∧
      Deprivileges f (hwbccNsDeprivilege scriptTransport w) :=
  ⟨hwbccGetDiceArtifacts_answered ha (by omega) hbuf hout hapart,
    hwbccNsDeprivilege_answered ha (by omega)⟩

def artifactsFrame : Frame := ⟨[7, 0, 0, 0, 0, 0, 0, 0, 2, 0, 0, 0, 5, 6], by decide⟩

theorem hwbcc_artifactsFrame_answered :
    ReadsArtifacts ⟨.caller 0, 0⟩ 16 ⟨.caller 1, 0⟩ artifactsFrame (answeredBy artifactsFrame)
        (hwbccGetDiceArtifacts scriptTransport 9 ⟨.caller 0, 0⟩ 16 ⟨.caller 1, 0⟩
          (answeredBy artifactsFrame)) ∧
      Deprivileges artifactsFrame
        (hwbccNsDeprivilege scriptTransport (answeredBy artifactsFrame)) :=
  hwbcc_answered_exactly (answeredBy artifactsFrame) artifactsFrame 9 16 ⟨.caller 0, 0⟩
    ⟨.caller 1, 0⟩ 0 1 ⟨by decide, rfl⟩ (by decide) rfl rfl (Or.inl (by decide))

end ExternalTrusty
