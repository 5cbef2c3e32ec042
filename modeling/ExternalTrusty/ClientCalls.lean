import ExternalTrusty.AnswerReads

namespace ExternalTrusty

open CMemory

variable {ε : Type}

/-- The calls that send a request to a service and read its answer. -/
inductive ClientCall
  | avbDoTipc (cmd : Nat) (req : Option (Ptr Obj)) (reqSize : UInt32)
    (resp respSizeP : Option (Ptr Obj))
  | kmDoTipc (cmd : Nat) (req : Option (Ptr Obj)) (reqLen : UInt32) (len : Option (Ptr Obj))
  | kmDoTipcData (cmd : Nat) (req : Option (Ptr Obj)) (reqLen : UInt32) (data len : Ptr Obj)
    (places : DataPlaces kmRespHeader data len)
  | getDiceArtifacts (context : UInt64) (artifacts : Ptr Obj) (bufSize : UInt64) (size : Ptr Obj)
  | nsDeprivilege

namespace ClientCall

def chan : ClientCall → Component
  | .avbDoTipc .. => .avb
  | .kmDoTipc .. => .km
  | .kmDoTipcData .. => .km
  | .getDiceArtifacts .. => .hwbcc
  | .nsDeprivilege => .hwbcc

def run (t : Transport ε) (fuel : Nat) : ClientCall → World ε → Option (Int × World ε)
  | .avbDoTipc cmd req reqSize resp respSizeP =>
    ExternalTrusty.avbDoTipc t cmd req reqSize resp respSizeP
  | .kmDoTipc cmd req reqLen len => ExternalTrusty.kmDoTipc t fuel cmd req reqLen none len
  | .kmDoTipcData cmd req reqLen data len _ =>
    ExternalTrusty.kmDoTipc t fuel cmd req reqLen (some data) (some len)
  | .getDiceArtifacts context artifacts bufSize size =>
    hwbccGetDiceArtifacts t context artifacts bufSize size
  | .nsDeprivilege => hwbccNsDeprivilege t

/-- The call up to the point where its request is sent. -/
def ask (t : Transport ε) : ClientCall → World ε → Option (Int × World ε)
  | .avbDoTipc cmd req reqSize _ _, w =>
    if w.initialized .avb = false ∧ cmd ≠ avbGetVersionCmd then
      some (trustyErrGeneric, w.setMem ((w.mem.store avbMsg 4 cmd).store avbMsgResult 4 0))
    else avbSendRequest t avbMsg req reqSize
      (w.setMem ((w.mem.store avbMsg 4 cmd).store avbMsgResult 4 0))
  | .kmDoTipc cmd req reqLen _, w => kmSendRequest t cmd req reqLen w
  | .kmDoTipcData cmd req reqLen _ _ _, w => kmSendRequest t cmd req reqLen w
  | .getDiceArtifacts context _ _ _, w =>
    sendHeaderOnlyRequest t (w.setMem ((w.mem.store hwbccReq 4 hwbccCmdGetDiceArtifacts).store
      hwbccReqContext 8 context.toNat))
  | .nsDeprivilege, w =>
    sendHeaderOnlyRequest t (w.setMem ((w.mem.memset hwbccReq 0 sizeofHwbccReqHdr).store hwbccReq 4
      hwbccCmdNsDeprivilege))

/-- The end of `km_do_tipc`. -/
def kmFinish (rc : Int) (w : World ε) : Option (Int × World ε) :=
  if rc < 0 then some (rc, w)
  else if w.mem.load kmRespHeader 4 ≠ kmErrorOk then some (trustyErrGeneric, w)
  else some (trustyErrNone, w)

/-- The rest of the call. -/
def read (t : Transport ε) (fuel : Nat) : ClientCall → World ε → Option (Int × World ε)
  | .avbDoTipc cmd _ _ resp respSizeP, w => do
    let respSize := (respSizeP.map fun p => UInt32.ofNat (w.mem.load p 4)).getD 0
    let (rc, w) ← avbReadResponse t avbMsg cmd resp respSize w
    if rc < 0 then some (rc, w) else some (avbFinish respSizeP rc w)
  | .kmDoTipc cmd _ _ _, w => do
    let (rc, w) ← kmReadRawResponse t fuel cmd (some kmRespHeader) sizeofKmNoResponse w
    kmFinish rc w
  | .kmDoTipcData cmd _ _ data len _, w => do
    let (rc, w) ← kmReadDataResponse t fuel cmd kmRespHeader data len w
    kmFinish rc w
  | .getDiceArtifacts _ artifacts bufSize size, w => do
    let (rc, w) ← readResponseWithData t artifacts bufSize size w
    if rc < 0 then some (rc, w) else some (trustyErrNone, w)
  | .nsDeprivilege, w => do
    let (rc, w) ← readHeaderOnlyResponse t w
    if rc < 0 then some (rc, w) else some (trustyErrNone, w)

theorem run_eq (t : Transport ε) (fuel : Nat) (call : ClientCall) (w : World ε) :
    call.run t fuel w = (call.ask t w).bind fun r =>
      if r.1 < 0 then some r else call.read t fuel r.2 := by
  have generic : trustyErrGeneric < 0 := by decide
  cases call with
  | avbDoTipc cmd req reqSize resp respSizeP =>
    unfold run ask ExternalTrusty.avbDoTipc
    simp only
    by_cases closed : w.initialized .avb = false ∧ cmd ≠ avbGetVersionCmd
    · have closed' : (w.setMem ((w.mem.store avbMsg 4 cmd).store avbMsgResult 4 0)).initialized
          .avb = false ∧ cmd ≠ avbGetVersionCmd := closed
      rw [if_pos closed, if_pos closed', Option.bind_some, if_pos generic]
    · have closed' : ¬((w.setMem ((w.mem.store avbMsg 4 cmd).store avbMsgResult 4 0)).initialized
          .avb = false ∧ cmd ≠ avbGetVersionCmd) := closed
      rw [if_neg closed, if_neg closed']
      rfl
  | kmDoTipc => rfl
  | kmDoTipcData => rfl
  | getDiceArtifacts => rfl
  | nsDeprivilege => rfl

/-- The message with which the call stops reading is the last of these. -/
def Whole : ClientCall → Mem Obj → List Frame → Prop
  | .kmDoTipc cmd _ _ _, _, frames => rawLeft cmd sizeofKmNoResponse 0 frames = []
  | .kmDoTipcData cmd _ _ _ len _, m, frames => DataWhole cmd (m.load len 4) frames
  | _, _, frames => frames.tail = []

end ClientCall

theorem avbReadResponse_recv {t : Transport ε} {msg : Ptr Obj} {cmd : Nat} {resp : Option (Ptr Obj)}
    {respLen : UInt32} {w w' : World ε} {rc : Int}
    (run : avbReadResponse t msg cmd resp respLen w = some (rc, w')) :
    ∃ rc₁, t.recv .avb (twoIovs msg 8 resp respLen.toUInt64) true w = some (rc₁, w') ∧
      (rc₁ < 0 → rc < 0) := by
  obtain ⟨⟨rc₁, w₁⟩, received, run⟩ := Option.bind_eq_some_iff.mp run
  simp only at run
  split at run
  next negative =>
    cases run
    exact ⟨_, received, id⟩
  next positive =>
    split at run
    next =>
      obtain ⟨rfl, rfl⟩ := Prod.mk.inj (Option.some.inj run)
      exact ⟨_, received, fun negative => absurd negative positive⟩
    next =>
      obtain ⟨rfl, rfl⟩ := Prod.mk.inj (Option.some.inj run)
      exact ⟨_, received, fun negative => absurd negative positive⟩

/-- Only the size of the response is stored after it is read. -/
theorem avbFinish_stores (respSizeP : Option (Ptr Obj)) (rc : Int) (w : World ε) :
    (avbFinish respSizeP rc w).2 = w ∨ ∃ p n, respSizeP = some p ∧
      (avbFinish respSizeP rc w).2 = w.setMem (w.mem.store p 4 n) := by
  have finish : ∀ w : World ε, (if w.mem.load avbMsgResult 4 ≠ avbErrorNone then
      (trustyErrGeneric, w) else (trustyErrNone, w)).2 = w := by
    intro w
    split
    next => rfl
    next => rfl
  unfold avbFinish
  cases respSizeP with
  | none => exact Or.inl (finish w)
  | some p =>
    simp only
    rw [finish]
    split
    next => exact Or.inr ⟨p, _, rfl, rfl⟩
    next => exact Or.inl rfl

theorem ClientCall.kmFinish_eq {w w' : World ε} {rc rc' : Int}
    (run : ClientCall.kmFinish rc w = some (rc', w')) : w' = w ∧ (rc < 0 → rc' < 0) := by
  unfold ClientCall.kmFinish at run
  split at run
  next =>
    cases run
    exact ⟨rfl, id⟩
  next positive =>
    split at run
    next =>
      cases run
      exact ⟨rfl, fun negative => absurd negative positive⟩
    next =>
      cases run
      exact ⟨rfl, fun negative => absurd negative positive⟩

theorem checkHwbccResponse_neg {rc : Int} (h : rc < 0) (w : World ε) :
    checkHwbccResponse rc w < 0 := by
  rw [checkHwbccResponse, if_pos h]
  exact h

theorem readResponseWithData_recv {t : Transport ε} {buf outSize : Ptr Obj} {bufSize : UInt64}
    {w w' : World ε} {rc : Int}
    (run : readResponseWithData t buf bufSize outSize w = some (rc, w')) :
    ∃ rc₁ w₁ m, t.recv .hwbcc [⟨hwbccResp, 12⟩, ⟨buf, bufSize⟩] true (zeroHwbccResp w) =
      some (rc₁, w₁) ∧ w' = w₁.setMem m ∧ (rc₁ < 0 → rc < 0) := by
  obtain ⟨⟨rc₁, w₁⟩, received, run⟩ := Option.bind_eq_some_iff.mp run
  refine ⟨rc₁, w₁, w'.mem, received, ?_⟩
  simp only at run
  split at run
  next =>
    obtain ⟨rfl, rfl⟩ := Prod.mk.inj (Option.some.inj run)
    exact ⟨rfl, fun negative => checkHwbccResponse_neg negative _⟩
  next positive =>
    have never : rc₁ < 0 → rc < 0 := fun negative =>
      absurd (checkHwbccResponse_neg negative _) positive
    split at run
    next =>
      obtain ⟨rfl, rfl⟩ := Prod.mk.inj (Option.some.inj run)
      exact ⟨rfl, never⟩
    next =>
      obtain ⟨rfl, rfl⟩ := Prod.mk.inj (Option.some.inj run)
      exact ⟨rfl, never⟩

/-- A call that ends with the result of its read, or with none. -/
theorem orNone_eq {w w' : World ε} {rc rc' : Int}
    (run : (if rc < 0 then some (rc, w) else some (trustyErrNone, w)) = some (rc', w')) :
    w' = w ∧ (rc < 0 → rc' < 0) := by
  split at run
  next =>
    cases run
    exact ⟨rfl, id⟩
  next positive =>
    cases run
    exact ⟨rfl, fun negative => absurd negative positive⟩

section Calls

variable {s : Surroundings ε} {sv : Service s} {on : Component → Prop}
  {handles : Component → UInt32} {target : Target} {wait fuel : Nat} {call : ClientCall}
  {w w' : World ε} {rc : Int}

/-- A request is sent once, if at all. -/
theorem ask_meanwhile (sv : Service s) (hc : on call.chan) (h : Connected on handles w)
    (run : call.ask (ipcTransport s.dev (s.ops target) wait) w = some (rc, w')) :
    ∃ calls, Meanwhile s on handles (fun d => d ≠ call.chan) w w' calls ∧
      (rc < 0 ∧ sv.box (handles call.chan) w' = sv.box (handles call.chan) w ∨
        0 ≤ rc ∧ ∃ answer,
          sv.box (handles call.chan) w' = (sv.box (handles call.chan) w).ask answer) := by
  have sends : ∀ {iovs m}, trustyIpcSend s.dev (s.ops target) wait call.chan iovs true
      (w.setMem m) = some (rc, w') → ∃ calls,
      Meanwhile s on handles (fun d => d ≠ call.chan) w w' calls ∧
      (rc < 0 ∧ sv.box (handles call.chan) w' = sv.box (handles call.chan) w ∨
        0 ≤ rc ∧ ∃ answer,
          sv.box (handles call.chan) w' = (sv.box (handles call.chan) w).ask answer) := by
    intro iovs m sent
    obtain ⟨calls, while₁, outcome⟩ := trustyIpcSend_meanwhile hc (h.setMem m) sent
    exact ⟨calls, ⟨while₁.log, while₁.connected, while₁.off⟩, outcome⟩
  cases call with
  | avbDoTipc cmd req reqSize resp respSizeP =>
    simp only [ClientCall.ask] at run
    split at run
    next =>
      have generic : trustyErrGeneric < 0 := by decide
      cases run
      exact ⟨[], ⟨(List.append_nil _).symm, h.setMem _, nofun⟩, Or.inl ⟨generic, rfl⟩⟩
    next => exact sends run
  | kmDoTipc => exact sends run
  | kmDoTipcData => exact sends run
  | getDiceArtifacts => exact sends run
  | nsDeprivilege => exact sends run

/-- A successful call reads a message, and undisturbed reading ends with the last message. -/
theorem read_reading (hc : on call.chan) (client : sv.clients (handles call.chan))
    (h : Connected on handles w)
    (run : call.read (ipcTransport s.dev (s.ops target) wait) fuel w = some (rc, w')) :
    ∃ calls new, Reading sv on handles call.chan w w' calls new ∧ (0 ≤ rc → new ≠ []) ∧
      (Calm call.chan (handles call.chan) calls →
        call.Whole w.mem (sv.frames (handles call.chan) w) →
        sv.frames (handles call.chan) w' = []) := by
  have nonneg : ∀ {r r' : Int}, (r < 0 → r' < 0) → 0 ≤ r' → 0 ≤ r := by
    intro r r' fails positive
    exact not_lt.mp fun negative => absurd (fails negative) (not_lt.mpr positive)
  cases call with
  | avbDoTipc cmd req reqSize resp respSizeP =>
    obtain ⟨⟨rc₁, w₁⟩, response, run⟩ := Option.bind_eq_some_iff.mp run
    obtain ⟨rc₀, received, fails⟩ := avbReadResponse_recv response
    obtain ⟨calls, new, reading, reads, left⟩ := recv_reading hc client h received
    simp only at run
    split at run
    next =>
      cases run
      exact ⟨calls, new, reading, fun positive => reads (nonneg fails positive),
        fun calm whole => (left calm).trans whole⟩
    next positive =>
      have finished := Option.some.inj run
      have reads' := reads (nonneg fails (not_lt.mp positive))
      rcases avbFinish_stores respSizeP rc₁ w₁ with same | ⟨p, n, _, same⟩
      · rw [finished] at same
        cases same
        exact ⟨calls, new, reading, fun _ => reads', fun calm whole => (left calm).trans whole⟩
      · rw [finished] at same
        cases same
        exact ⟨calls, new, reading.setMem _, fun _ => reads',
          fun calm whole => (left calm).trans whole⟩
  | kmDoTipc cmd req reqLen len =>
    obtain ⟨⟨rc₁, w₁⟩, response, run⟩ := Option.bind_eq_some_iff.mp run
    obtain ⟨rfl, fails⟩ := ClientCall.kmFinish_eq run
    obtain ⟨calls, new, reading, reads, left⟩ :=
      kmReadRawResponse_reading hc client (by decide) (by decide) h response
    exact ⟨calls, new, reading, fun positive => reads (nonneg fails positive),
      fun calm whole => (left calm).trans whole⟩
  | kmDoTipcData cmd req reqLen data len places =>
    obtain ⟨⟨rc₁, w₁⟩, response, run⟩ := Option.bind_eq_some_iff.mp run
    obtain ⟨rfl, fails⟩ := ClientCall.kmFinish_eq run
    obtain ⟨calls, new, reading, reads, left⟩ :=
      kmReadDataResponse_reading hc client places h response
    exact ⟨calls, new, reading, fun positive => reads (nonneg fails positive), left⟩
  | getDiceArtifacts context artifacts bufSize size =>
    obtain ⟨⟨rc₁, w₁⟩, response, run⟩ := Option.bind_eq_some_iff.mp run
    obtain ⟨rfl, fails⟩ := orNone_eq run
    obtain ⟨rc₀, w₀, m, received, rfl, negative⟩ := readResponseWithData_recv response
    obtain ⟨calls, new, reading, reads, left⟩ :=
      recv_reading hc client (h.setMem (w.mem.memset hwbccResp 0 sizeofHwbccRespHdr)) received
    exact ⟨calls, new, reading.of_setMem.setMem m,
      fun positive => reads (nonneg negative (nonneg fails positive)),
      fun calm whole => (left calm).trans whole⟩
  | nsDeprivilege =>
    obtain ⟨⟨rc₁, w₁⟩, response, run⟩ := Option.bind_eq_some_iff.mp run
    obtain ⟨rfl, fails⟩ := orNone_eq run
    obtain ⟨⟨rc₀, w₀⟩, received, response⟩ := Option.bind_eq_some_iff.mp response
    obtain ⟨rfl, rfl⟩ := Prod.mk.inj (Option.some.inj response)
    obtain ⟨calls, new, reading, reads, left⟩ :=
      recv_reading hc client (h.setMem (w.mem.memset hwbccResp 0 sizeofHwbccRespHdr)) received
    have negative : rc₀ < 0 → checkHwbccResponse rc₀ w₀ < 0 := fun negative =>
      checkHwbccResponse_neg negative w₀
    exact ⟨calls, new, reading.of_setMem,
      fun positive => reads (nonneg negative (nonneg fails positive)),
      fun calm whole => (left calm).trans whole⟩

end Calls

end ExternalTrusty
