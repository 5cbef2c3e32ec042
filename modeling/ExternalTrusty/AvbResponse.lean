import ExternalTrusty.Avb

namespace ExternalTrusty

open CMemory

/-- The request goes out, and the next thing to arrive is this message. -/
def Answers (w : World Script) (f : Frame) : Prop :=
  0 ≤ w.env.sends.headD trustyErrNone ∧ w.env.recvs.head? = some (.frame f)

/-- What `avb_do_tipc` takes for success: any payload up to the room offered for it. -/
def AvbAccepts (cmd room : Nat) (m : List UInt8) : Prop :=
  8 ≤ m.length ∧ m.length ≤ 8 + room ∧ leNat (m.take 4) = cmd ||| avbRespBit ∧
    leNat ((m.drop 4).take 4) = avbErrorNone

/-- The response that answers the request in full. -/
def AvbFull (cmd size : Nat) (m : List UInt8) : Prop :=
  m.length = 8 + size ∧ leNat (m.take 4) = cmd ||| avbRespBit ∧
    leNat ((m.drop 4).take 4) = avbErrorNone

theorem AvbFull.accepts {cmd size : Nat} {m : List UInt8} (h : AvbFull cmd size m) :
    AvbAccepts cmd size m := by
  obtain ⟨hlen, hcmd, hres⟩ := h
  exact ⟨by omega, by omega, hcmd, hres⟩

theorem payloadLen_short {k : Nat} (h : k < 8) :
    toInt (usizeSub (intToUsize k) sizeofAvbMessage) < 0 := by
  have hk : intToUsize k = k := by
    rw [intToUsize_of_nonneg (by omega) (by omega), Int.toNat_natCast]
  have hmod : usizeSub k sizeofAvbMessage % 2 ^ 32 = k + 2 ^ 32 - 8 := by
    unfold usizeSub sizeofAvbMessage
    omega
  rw [hk, toInt, hmod, if_neg (by omega)]
  omega

theorem payloadLen_full {k : Nat} (h : 8 ≤ k) (hk : k < 2 ^ 31) :
    toInt (usizeSub (intToUsize k) sizeofAvbMessage) = (k - 8 : Nat) := by
  have hcast : intToUsize k = k := by
    rw [intToUsize_of_nonneg (by omega) (by omega), Int.toNat_natCast]
  have hsub : usizeSub k sizeofAvbMessage = k - 8 := by
    unfold usizeSub sizeofAvbMessage
    omega
  rw [hcast, hsub, toInt_of_lt (by omega)]

/-- The message header after a receive of at least eight bytes. -/
theorem avbHeader_scatter {m : Mem Obj} {r : Ptr Obj} {n : UInt32} {bs : List UInt8}
    (hr : r.block ≠ .avbMsg) (h : 8 ≤ bs.length) :
    let m' := scatter m (segs (twoIovs avbMsg 8 (some r) n.toUInt64)) bs
    m'.load avbMsg 4 = leNat (bs.take 4) ∧ m'.load avbMsgResult 4 = leNat ((bs.drop 4).take 4) := by
  intro m'
  have hapart : SegsApart ([] ++ (⟨avbMsg, 8⟩ : Seg Obj) :: [⟨r, n.toUInt64.toNat⟩]) := by
    simp [SegsApart, Apart, avbMsg, Ne.symm hr]
  have hread : m'.read avbMsg 8 = bs.take 8 := by
    have hseg := read_scatter_seg hapart m bs
    rw [overlay_full (by simp; omega)] at hseg
    exact hseg
  constructor
  · rw [Mem.load, ← Mem.read_take m' avbMsg (by omega : 4 ≤ 8), hread, List.take_take]
    rfl
  · have hdrop : m'.read avbMsgResult 4 = (m'.read avbMsg 8).drop 4 :=
      (Mem.read_drop m' avbMsg (by omega : 4 ≤ 8)).symm
    rw [Mem.load, hdrop, hread, List.drop_take]

theorem avbPayload_scatter {m : Mem Obj} {r : Ptr Obj} {n : UInt32} {bs : List UInt8}
    (hr : r.block ≠ .avbMsg) :
    (scatter m (segs (twoIovs avbMsg 8 (some r) n.toUInt64)) bs).read r n.toNat =
      overlay ((bs.drop 8).take n.toNat) (m.read r n.toNat) := by
  have hapart : SegsApart ([(⟨avbMsg, 8⟩ : Seg Obj)] ++ ⟨r, n.toUInt64.toNat⟩ :: []) := by
    simp [SegsApart, Apart, avbMsg, Ne.symm hr]
  exact read_scatter_seg hapart m bs

theorem avbFinish_spec {rc : Int} {w : World Script} :
    ∃ w', avbFinish (some avbRespSize) rc w =
      (if w.mem.load avbMsgResult 4 ≠ avbErrorNone then trustyErrGeneric else trustyErrNone, w') ∧
      (∀ q n, q.block ≠ .avbRespSize → w'.mem.read q n = w.mem.read q n) ∧
      w'.mem.load avbRespSize 4 = (rc % 2 ^ 32).toNat := by
  have happly : ∀ w' : World Script,
      (∀ q n, q.block ≠ .avbRespSize → w'.mem.read q n = w.mem.read q n) →
      w'.mem.load avbRespSize 4 = (rc % 2 ^ 32).toNat →
      ∃ w'', (if w'.mem.load avbMsgResult 4 ≠ avbErrorNone then (trustyErrGeneric, w')
          else (trustyErrNone, w')) =
        (if w.mem.load avbMsgResult 4 ≠ avbErrorNone then trustyErrGeneric else trustyErrNone,
          w'') ∧ (∀ q n, q.block ≠ .avbRespSize → w''.mem.read q n = w.mem.read q n) ∧
        w''.mem.load avbRespSize 4 = (rc % 2 ^ 32).toNat := by
    intro w' hframe hsize
    have hres : w'.mem.load avbMsgResult 4 = w.mem.load avbMsgResult 4 := by
      rw [Mem.load, hframe avbMsgResult 4 (by decide), Mem.load]
    refine ⟨w', ?_, hframe, hsize⟩
    rw [hres]
    split <;> rfl
  simp only [avbFinish]
  split
  next =>
    apply happly
    · intro q n hq
      exact Mem.read_write_apart _ (Or.inl (Ne.symm hq))
    · have hlt : (rc % 2 ^ 32).toNat < 256 ^ 4 := by omega
      exact Mem.load_store_self _ _ hlt
  next hsame => exact happly w (fun _ _ _ => rfl) (not_not.mp hsame).symm

theorem avbReadResponse_frame {cmd : Nat} {r : Ptr Obj} {n : UInt32} {w : World Script}
    {f : Frame} (hrecv : w.env.recvs.headD .closed = .frame f) (hr : r.block ≠ .avbMsg)
    (hn : n.toNat < 2 ^ 30) :
    ∃ rc w', avbReadResponse scriptTransport avbMsg cmd (some r) n w = some (rc, w') ∧
      w'.mem = scatter w.mem (segs (twoIovs avbMsg 8 (some r) n.toUInt64)) f.bytes ∧
      (0 ≤ rc ↔ 8 ≤ f.bytes.length ∧ f.bytes.length ≤ 8 + n.toNat ∧
        leNat (f.bytes.take 4) = cmd ||| avbRespBit) ∧
      (0 ≤ rc → rc = (f.bytes.length - 8 : Nat)) := by
  have hgeneric : trustyErrGeneric < 0 := by decide
  have hbig : trustyErrMsgTooBig < 0 := by decide
  have htotal : total (segs (twoIovs avbMsg 8 (some r) n.toUInt64)) = 8 + n.toNat := by
    simp [twoIovs]
  let w' := w.received .avb (scatter w.mem (segs (twoIovs avbMsg 8 (some r) n.toUInt64)) f.bytes)
  have hrun := @scriptRecv_frame .avb (twoIovs avbMsg 8 (some r) n.toUInt64) true _ _ hrecv
  rw [htotal] at hrun
  simp only [avbReadResponse, scriptTransport, hrun, Option.bind_eq_bind, Option.bind_some]
  by_cases hlong : 8 + n.toNat < f.bytes.length
  · rw [if_pos hlong, if_pos hbig]
    refine ⟨_, w', rfl, rfl, ?_, fun _ => ?_⟩ <;> omega
  · have hrc : toInt f.bytes.length = f.bytes.length := toInt_of_lt (by omega)
    rw [if_neg hlong, hrc, if_neg (by omega)]
    by_cases hshort : f.bytes.length < 8
    · have hneg := payloadLen_short hshort
      by_cases hcmd : w'.mem.load avbMsg 4 ≠ cmd ||| avbRespBit
      · rw [if_pos hcmd]
        refine ⟨_, w', rfl, rfl, ?_, fun _ => ?_⟩ <;> omega
      · rw [if_neg hcmd]
        refine ⟨_, w', rfl, rfl, ?_, fun _ => ?_⟩ <;> omega
    · have hlen := payloadLen_full (k := f.bytes.length) (by omega) (by omega)
      have hload : w'.mem.load avbMsg 4 = leNat (f.bytes.take 4) :=
        (avbHeader_scatter hr (by omega)).1
      by_cases hcmd : leNat (f.bytes.take 4) = cmd ||| avbRespBit
      · rw [hload, if_neg (not_not_intro hcmd)]
        refine ⟨_, w', rfl, rfl, ?_, fun _ => ?_⟩ <;> omega
      · rw [hload, if_pos hcmd]
        refine ⟨_, w', rfl, rfl, ?_, fun _ => ?_⟩ <;> omega

/-- Writing the header of a request changes nothing else. -/
theorem avbRequest_elsewhere (m : Mem Obj) (cmd : Nat) {q : Ptr Obj} (k : Nat)
    (hq : q.block ≠ .avbMsg) :
    ((m.store avbMsg 4 cmd).store avbMsgResult 4 0).read q k = m.read q k := by
  have hcmd := @Mem.read_write_apart _ _ m avbMsg q (leBytes 4 cmd) k (Or.inl (Ne.symm hq))
  have hresult := @Mem.read_write_apart _ _ (m.store avbMsg 4 cmd) avbMsgResult q (leBytes 4 0) k
    (Or.inl (Ne.symm hq))
  exact hresult.trans hcmd

/-- The one round trip of `avb_do_tipc`, over every message that can answer it. -/
theorem avbDoTipc_answered {cmd : Nat} {req : Option (Ptr Obj)} {reqSize : UInt32} {r : Ptr Obj}
    {n : UInt32} {w : World Script} {f : Frame} (hinit : w.initialized .avb = true)
    (ha : Answers w f) (hmsg : r.block ≠ .avbMsg) (hblock : r.block ≠ .avbRespSize)
    (hroom : w.mem.load avbRespSize 4 = n.toNat) (hn : n.toNat < 2 ^ 30) :
    ∃ rc w', avbDoTipc scriptTransport cmd req reqSize (some r) (some avbRespSize) w =
        some (rc, w') ∧
      (AvbAccepts cmd n.toNat f.bytes → rc = trustyErrNone) ∧
      (¬AvbAccepts cmd n.toNat f.bytes → rc < 0) ∧
      w'.mem.read r n.toNat = overlay ((f.bytes.drop 8).take n.toNat) (w.mem.read r n.toNat) ∧
      (AvbAccepts cmd n.toNat f.bytes → w'.mem.load avbRespSize 4 = f.bytes.length - 8) := by
  obtain ⟨hsend, hrecv⟩ := ha
  have hgeneric : trustyErrGeneric < 0 := by decide
  have hbig : trustyErrMsgTooBig < 0 := by decide
  let w₀ := w.setMem ((w.mem.store avbMsg 4 cmd).store avbMsgResult 4 0)
  have hframe : ∀ q k, q.block ≠ .avbMsg → w₀.mem.read q k = w.mem.read q k :=
    fun q k hq => avbRequest_elsewhere w.mem cmd k hq
  obtain ⟨w₁, hsent, hmem₁, hrecvs₁⟩ : ∃ w₁, avbSendRequest scriptTransport avbMsg req reqSize w₀ =
      some (w.env.sends.headD trustyErrNone, w₁) ∧ w₁.mem = w₀.mem ∧
      w₁.env.recvs = w.env.recvs := ⟨_, rfl, rfl, rfl⟩
  have hroom₁ : UInt32.ofNat (w₁.mem.load avbRespSize 4) = n := by
    rw [Mem.load, hmem₁, hframe avbRespSize 4 (by decide), ← Mem.load, hroom, UInt32.ofNat_toNat]
  have hhead : w₁.env.recvs.headD .closed = .frame f := by
    rw [hrecvs₁, List.headD_eq_head?_getD, hrecv]
    rfl
  obtain ⟨rc, w₂, hread, hmem₂, hrc, hlen⟩ := @avbReadResponse_frame cmd _ _ _ _ hhead hmsg hn
  have hpayload : w₂.mem.read r n.toNat =
      overlay ((f.bytes.drop 8).take n.toNat) (w.mem.read r n.toNat) := by
    rw [hmem₂, avbPayload_scatter hmsg, hmem₁, hframe r n.toNat hmsg]
  have hguard : ¬(w₀.initialized .avb = false ∧ cmd ≠ avbGetVersionCmd) := by
    rintro ⟨hno, _⟩
    exact absurd (hinit.symm.trans hno) (by decide)
  simp only [avbDoTipc, Option.bind_eq_bind]
  rw [if_neg hguard, hsent, Option.bind_some]
  simp only [if_neg (by omega : ¬w.env.sends.headD trustyErrNone < 0), Option.map_some,
    Option.getD_some, hroom₁, hread, Option.bind_some]
  by_cases hneg : rc < 0
  · rw [if_pos hneg]
    have hno : ¬AvbAccepts cmd n.toNat f.bytes := by
      rintro ⟨h1, h2, h3, _⟩
      have := hrc.mpr ⟨h1, h2, h3⟩
      omega
    exact ⟨rc, w₂, rfl, fun h => absurd h hno, fun _ => hneg, hpayload, fun h => absurd h hno⟩
  · obtain ⟨hfull, hfits, hcmd⟩ := hrc.mp (by omega)
    have hsize := hlen (by omega)
    have hres : w₂.mem.load avbMsgResult 4 = leNat ((f.bytes.drop 4).take 4) := by
      rw [hmem₂]
      exact (avbHeader_scatter hmsg hfull).2
    obtain ⟨w₃, hfin, hframe₃, hsize₃⟩ := avbFinish_spec (w := w₂)
    rw [if_neg hneg, hfin, hres]
    refine ⟨_, w₃, rfl, ?_, ?_, ?_, ?_⟩
    · rintro ⟨_, _, _, hok⟩
      exact if_neg (not_not_intro hok)
    · intro hno
      have hbad : leNat ((f.bytes.drop 4).take 4) ≠ avbErrorNone :=
        fun hok => hno ⟨hfull, hfits, hcmd, hok⟩
      rw [if_pos hbad]
      exact hgeneric
    · rw [hframe₃ r n.toNat hblock, hpayload]
    · intro _
      rw [hsize₃, hsize]
      omega

/-- Success exactly on a full response, whose payload is then the output; on any other message an
error, and the output as it was. -/
def ReadsExactly (cmd size : Nat) (out : Ptr Obj) (f : Frame) (w : World Script)
    (r : Option (Int × World Script)) : Prop :=
  ∃ rc w', r = some (rc, w') ∧ (rc = trustyErrNone ↔ AvbFull cmd size f.bytes) ∧
    (AvbFull cmd size f.bytes → w'.mem.read out size = f.bytes.drop 8) ∧
    (¬AvbFull cmd size f.bytes → rc < 0 ∧ w'.mem.read out size = w.mem.read out size)

theorem readsExactly_iff {cmd size : Nat} {out : Ptr Obj} {f : Frame} {w w' : World Script}
    {rc : Int} {left : List UInt8} (hacc : AvbAccepts cmd size f.bytes → rc = trustyErrNone)
    (hrej : ¬AvbAccepts cmd size f.bytes → rc < 0) (hlen : left.length = size)
    (hout : w'.mem.read out size = overlay ((f.bytes.drop 8).take size) left) :
    ReadsExactly cmd size out f w (some (rc, w')) ↔
      AvbFull cmd size f.bytes ∨ (¬AvbAccepts cmd size f.bytes ∧
        overlay ((f.bytes.drop 8).take size) left = w.mem.read out size) := by
  constructor
  · rintro ⟨_, _, heq, hnone, _, hother⟩
    obtain ⟨rfl, rfl⟩ := Prod.mk.inj (Option.some.inj heq)
    by_cases hfull : AvbFull cmd size f.bytes
    · exact Or.inl hfull
    · obtain ⟨hneg, hsame⟩ := hother hfull
      refine Or.inr ⟨fun ha => ?_, hout ▸ hsame⟩
      exact hfull (hnone.mp (hacc ha))
  · intro h
    refine ⟨rc, w', rfl, ?_, ?_, ?_⟩
    · constructor
      · intro hrc
        rcases h with hfull | ⟨hno, _⟩
        · exact hfull
        · have hneg := hrej hno
          unfold trustyErrNone at hrc
          omega
      · exact fun hfull => hacc hfull.accepts
    · intro hfull
      have hdrop : (f.bytes.drop 8).length = size := by
        rw [List.length_drop, hfull.1]
        omega
      rw [hout, List.take_of_length_le hdrop.le, overlay_full (by omega)]
    · intro hno
      rcases h with hfull | ⟨hrejected, hsame⟩
      · exact absurd hfull hno
      · exact ⟨hrej hrejected, by rw [hout, hsame]⟩

/-- The two reads that verified boot rests on. -/
inductive AvbRead
  | rollbackIndex (slot : UInt32)
  | lockState

def AvbRead.cmd : AvbRead → Nat
  | rollbackIndex _ => readRollbackIndex
  | lockState => readLockState

def AvbRead.size : AvbRead → Nat
  | rollbackIndex _ => 8
  | lockState => 1

/-- Where the payload arrives: a local that is copied out, or the caller's variable itself. -/
def AvbRead.buffer (out : Ptr Obj) : AvbRead → Ptr Obj
  | rollbackIndex _ => avbResp
  | lockState => out

def AvbRead.run {ε : Type} (t : Transport ε) (out : Ptr Obj) (w : World ε) :
    AvbRead → Option (Int × World ε)
  | rollbackIndex slot => trustyReadRollbackIndex t slot out w
  | lockState => trustyReadLockState t out w

theorem readRollbackIndex_iff {w : World Script} {f : Frame} {out : Ptr Obj}
    (hinit : w.initialized .avb = true) (ha : Answers w f) (slot : UInt32) :
    ReadsExactly readRollbackIndex 8 out f w
        (trustyReadRollbackIndex scriptTransport slot out w) ↔
      AvbFull readRollbackIndex 8 f.bytes ∨ (¬AvbAccepts readRollbackIndex 8 f.bytes ∧
        overlay ((f.bytes.drop 8).take 8) (w.mem.read avbResp 8) = w.mem.read out 8) := by
  have hroom : (setRollbackReq w slot 0).mem.load avbRespSize 4 = (8 : UInt32).toNat :=
    Mem.load_store_self _ _ (by decide)
  have hleft : (setRollbackReq w slot 0).mem.read avbResp 8 = w.mem.read avbResp 8 := by
    have h1 := @Mem.read_write_apart _ _ w.mem avbReq avbResp (leBytes 8 (0 : UInt64).toNat) 8
      (Or.inl (by decide))
    have h2 := @Mem.read_write_apart _ _ (w.mem.store avbReq 8 (0 : UInt64).toNat) avbReqSlot
      avbResp (leBytes 4 slot.toNat) 8 (Or.inl (by decide))
    have h3 := @Mem.read_write_apart _ _
      ((w.mem.store avbReq 8 (0 : UInt64).toNat).store avbReqSlot 4 slot.toNat) avbRespSize avbResp
      (leBytes 4 8) 8 (Or.inl (by decide))
    exact h3.trans (h2.trans h1)
  obtain ⟨rc, w₁, hrun, hacc, hrej, hread, _⟩ := @avbDoTipc_answered readRollbackIndex
    (some avbReq) 12 avbResp 8 (setRollbackReq w slot 0) _ hinit ha (by decide) (by decide) hroom
    (by decide)
  rw [show (8 : UInt32).toNat = 8 from rfl, hleft] at hread
  have hvalue : (w₁.mem.store out 8 (w₁.mem.load avbResp 8)).read out 8 =
      overlay ((f.bytes.drop 8).take 8) (w.mem.read avbResp 8) := by
    rw [Mem.read_store_load]
    exact hread
  have hcall : trustyReadRollbackIndex scriptTransport slot out w =
      some (rc, w₁.setMem (w₁.mem.store out 8 (w₁.mem.load avbResp 8))) := by
    simp only [trustyReadRollbackIndex, hrun, Option.bind_eq_bind, Option.bind_some]
  rw [hcall]
  exact readsExactly_iff hacc hrej (Mem.read_length _ _ _) hvalue

theorem readLockState_iff {w : World Script} {f : Frame} {out : Ptr Obj} {n : Nat}
    (hinit : w.initialized .avb = true) (ha : Answers w f) (hout : out.block = .caller n) :
    ReadsExactly readLockState 1 out f w (trustyReadLockState scriptTransport out w) ↔
      AvbFull readLockState 1 f.bytes ∨ (¬AvbAccepts readLockState 1 f.bytes ∧
        overlay ((f.bytes.drop 8).take 1) (w.mem.read out 1) = w.mem.read out 1) := by
  have hroom : (w.setMem (w.mem.store avbRespSize 4 1)).mem.load avbRespSize 4 =
      (1 : UInt32).toNat := Mem.load_store_self _ _ (by decide)
  have hmsg : out.block ≠ .avbMsg := by rw [hout]; exact nofun
  have hsize : out.block ≠ .avbRespSize := by rw [hout]; exact nofun
  have hleft : (w.setMem (w.mem.store avbRespSize 4 1)).mem.read out 1 = w.mem.read out 1 :=
    Mem.read_write_apart w.mem (Or.inl (Ne.symm hsize))
  obtain ⟨rc, w₁, hrun, hacc, hrej, hread, _⟩ := avbDoTipc_answered
    (r := out) (n := 1)
    (w := w.setMem (w.mem.store avbRespSize 4 1)) hinit ha hmsg hsize hroom (by decide)
  rw [show (1 : UInt32).toNat = 1 from rfl, hleft] at hread
  rw [trustyReadLockState, hrun]
  exact readsExactly_iff hacc hrej (Mem.read_length _ _ _) hread

/-- A read is exact on full responses, and on rejected ones that happen to leave the output's own
bytes in the buffer; a short payload is accepted, and reads whatever the buffer held. -/
theorem avbRead_readsExactly_iff (q : AvbRead) (w : World Script) (f : Frame) (out : Ptr Obj)
    (n : Nat) (hinit : w.initialized .avb = true) (ha : Answers w f)
    (hout : out.block = .caller n) :
    ReadsExactly q.cmd q.size out f w (q.run scriptTransport out w) ↔
      AvbFull q.cmd q.size f.bytes ∨ (¬AvbAccepts q.cmd q.size f.bytes ∧
        overlay ((f.bytes.drop 8).take q.size) (w.mem.read (q.buffer out) q.size) =
          w.mem.read out q.size) := by
  cases q with
  | rollbackIndex slot => exact readRollbackIndex_iff hinit ha slot
  | lockState => exact readLockState_iff hinit ha hout

/-- The program at rest, its clients connected, with this message to arrive. -/
def answeredBy (f : Frame) : World Script where
  mem := ⟨fun _ _ => 0, []⟩
  chans := fun _ => ⟨1, 0, .sync⟩
  initialized := fun _ => true
  env := ⟨[], [], [.frame f], [], []⟩

def lockedFrame : Frame := ⟨[11, 0, 0, 0, 0, 0, 0, 0, 1], by decide⟩

theorem readsExactly_lockedFrame :
    ReadsExactly readLockState 1 ⟨.caller 0, 0⟩ lockedFrame (answeredBy lockedFrame)
      (AvbRead.lockState.run scriptTransport ⟨.caller 0, 0⟩ (answeredBy lockedFrame)) :=
  (avbRead_readsExactly_iff .lockState (answeredBy lockedFrame) lockedFrame ⟨.caller 0, 0⟩ 0 rfl
    ⟨by decide, rfl⟩ rfl).mpr (Or.inl ⟨by decide, by decide, by decide⟩)

def headerOnlyFrame : Frame := ⟨[11, 0, 0, 0, 0, 0, 0, 0], by decide⟩

/-- A lock state read that is answered with a bare header succeeds without reading a state. -/
theorem readLockState_headerOnly :
    ¬ReadsExactly readLockState 1 ⟨.caller 0, 0⟩ headerOnlyFrame (answeredBy headerOnlyFrame)
      (AvbRead.lockState.run scriptTransport ⟨.caller 0, 0⟩ (answeredBy headerOnlyFrame)) := by
  have hacc : AvbAccepts readLockState 1 headerOnlyFrame.bytes :=
    ⟨by decide, by decide, by decide, by decide⟩
  have hshort : headerOnlyFrame.bytes.length = 8 := rfl
  intro h
  rcases (readLockState_iff rfl ⟨by decide, rfl⟩ rfl).mp h with ⟨hfull, _⟩ | ⟨hno, _⟩
  · omega
  · exact hno hacc

end ExternalTrusty
