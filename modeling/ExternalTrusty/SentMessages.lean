import ExternalTrusty.KeymasterCalls
import ExternalTrusty.ClientCalls

namespace ExternalTrusty

open CMemory

abbrev Message : Type := Component × List UInt8

/-- The message that an effect passes to `trusty_ipc_send`. -/
def Effect.message? : Effect → Option Message
  | .sent c msg => some (c, msg)
  | _ => none

/-- These messages were sent while the surroundings went from one state to a later one. -/
structure Sent (e e' : Script) (msgs : List Message) : Prop where
  trace : ∃ es, e'.trace = e.trace ++ es ∧ es.filterMap Effect.message? = msgs
  recvs : e'.recvs.length ≤ e.recvs.length

/-- A call that returns, and sends these messages. -/
def Sends (e : Script) (r : Option (Int × World Script)) (msgs : List Message) : Prop :=
  ∃ rc w', r = some (rc, w') ∧ Sent e w'.env msgs

namespace Sent

variable {e e₁ e₂ : Script} {msgs more : List Message}

theorem refl (e : Script) : Sent e e [] := ⟨⟨[], (List.append_nil _).symm, rfl⟩, le_rfl⟩

theorem trans (h : Sent e e₁ msgs) (h' : Sent e₁ e₂ more) : Sent e e₂ (msgs ++ more) := by
  obtain ⟨es, trace, sent⟩ := h.trace
  obtain ⟨es', trace', sent'⟩ := h'.trace
  refine ⟨⟨es ++ es', by rw [trace', trace, List.append_assoc], ?_⟩, h'.recvs.trans h.recvs⟩
  rw [List.filterMap_append, sent, sent']

theorem messages (h : Sent e e₁ msgs) :
    (e₁.trace.drop e.trace.length).filterMap Effect.message? = msgs := by
  obtain ⟨es, trace, sent⟩ := h.trace
  rw [trace, List.drop_left, sent]

end Sent

namespace Sends

variable {e : Script} {r : Option (Int × World Script)} {msgs more : List Message}

theorem ret (w : World Script) (rc : Int) : Sends w.env (some (rc, w)) [] :=
  ⟨rc, w, rfl, Sent.refl w.env⟩

theorem bind {f : Int × World Script → Option (Int × World Script)} (h : Sends e r msgs)
    (next : ∀ rc w', r = some (rc, w') → Sent e w'.env msgs → Sends w'.env (f (rc, w')) more) :
    Sends e (r.bind f) (msgs ++ more) := by
  obtain ⟨rc, w₁, rfl, sent⟩ := h
  obtain ⟨rc', w₂, run, sent'⟩ := next rc w₁ rfl sent
  exact ⟨rc', w₂, run, sent.trans sent'⟩

/-- What comes after sends nothing more. -/
theorem andThen {f : Int × World Script → Option (Int × World Script)} (h : Sends e r msgs)
    (next : ∀ rc w', r = some (rc, w') → Sent e w'.env msgs → Sends w'.env (f (rc, w')) []) :
    Sends e (r.bind f) msgs := by
  have whole := h.bind next
  rwa [List.append_nil] at whole

end Sends

theorem scriptSend_sends (c : Component) (iovs : List Iovec) (wait : Bool) (w : World Script) :
    Sends w.env (scriptTransport.send c iovs wait w) [(c, gather w.mem (segs iovs))] :=
  ⟨_, _, rfl, ⟨_, rfl, rfl⟩, le_rfl⟩

theorem scriptRecv_sends (c : Component) (iovs : List Iovec) (wait : Bool) (w : World Script) :
    Sends w.env (scriptTransport.recv c iovs wait w) [] := by
  refine ⟨_, _, rfl, ⟨_, rfl, rfl⟩, ?_⟩
  show w.env.recvs.tail.length ≤ w.env.recvs.length
  rw [List.length_tail]
  omega

/-- A receive takes the next delivery, and with none left it fails. -/
theorem scriptRecv_taken {c : Component} {iovs : List Iovec} {wait : Bool} {w w' : World Script}
    {rc : Int} (run : scriptTransport.recv c iovs wait w = some (rc, w')) :
    rc < 0 ∨ w'.env.recvs.length < w.env.recvs.length := by
  obtain ⟨rfl, rfl⟩ := Prod.mk.inj (Option.some.inj run)
  cases left : w.env.recvs with
  | nil =>
    left
    show trustyErrChannelClosed < 0
    decide
  | cons d ds =>
    right
    show w.env.recvs.tail.length < _
    rw [left, List.tail_cons, List.length_cons]
    omega

theorem checkResponseError_neg {expectedCmd headerCmd : Nat} {rc : Int} (h : rc < 0) :
    checkResponseError expectedCmd headerCmd rc < 0 := by
  rw [checkResponseError, if_pos h]
  exact h

theorem kmReadRawLoop_sends {cmd maxRespLen fuel respLen : Nat} {resp : Ptr Obj}
    {w : World Script} (enough : w.env.recvs.length < fuel) :
    Sends w.env (kmReadRawLoop scriptTransport cmd resp maxRespLen fuel respLen w) [] := by
  induction fuel generalizing respLen w with
  | zero => omega
  | succ fuel ih =>
    rw [kmReadRawLoop]
    apply (scriptRecv_sends _ _ _ w).andThen
    intro rc w₁ received _
    simp only
    by_cases failed : checkResponseError cmd (w₁.mem.load kmRawHeader 4) rc < 0
    · rw [if_pos failed]
      exact Sends.ret w₁ _
    · rw [if_neg failed]
      split
      next => exact Sends.ret w₁ _
      next =>
        rcases scriptRecv_taken received with negative | fewer
        · exact absurd (checkResponseError_neg negative) failed
        · exact ih (by omega)

theorem kmReadRawResponse_sends {cmd fuel respLen : Nat} {resp : Option (Ptr Obj)}
    {w : World Script} (enough : w.env.recvs.length < fuel) :
    Sends w.env (kmReadRawResponse scriptTransport fuel cmd resp respLen w) [] := by
  cases resp with
  | none => exact Sends.ret (w.setMem _) _
  | some p => exact kmReadRawLoop_sends (w := w.setMem _) enough

theorem kmReadDataResponse_sends {cmd fuel : Nat} {error respData respDataLen : Ptr Obj}
    {w : World Script} (enough : w.env.recvs.length < fuel) :
    Sends w.env (kmReadDataResponse scriptTransport fuel cmd error respData respDataLen w) [] := by
  unfold kmReadDataResponse
  apply (scriptRecv_sends _ _ _ (w.setMem (w.mem.store kmDataHeader 4 cmd))).andThen
  intro rc w₁ _ sent
  have left : w₁.env.recvs.length < fuel := sent.recvs.trans_lt enough
  simp only
  split
  next => exact Sends.ret w₁ _
  next =>
    split
    next => exact Sends.ret w₁ _
    next =>
      apply (kmReadRawResponse_sends left).andThen
      intro rc w₂ _ _
      simp only
      split
      next => exact Sends.ret w₂ _
      next =>
        split
        next => exact Sends.ret w₂ _
        next => exact Sends.ret w₂ _

/-- The message that a Keymaster request is sent as. -/
def kmMessage (m : Mem Obj) (cmd : Nat) (req : Option (Ptr Obj)) (reqLen : UInt32) : Message :=
  (.km, gather (m.store kmSendHeader 4 cmd) (segs (twoIovs kmSendHeader 4 req reqLen.toUInt64)))

/-- A request is one message. -/
theorem kmDoTipc_sends {cmd fuel : Nat} {req respData respDataLen : Option (Ptr Obj)}
    {reqLen : UInt32} {w : World Script} (enough : w.env.recvs.length < fuel)
    (room : respData.isSome → respDataLen.isSome) :
    Sends w.env (kmDoTipc scriptTransport fuel cmd req reqLen respData respDataLen w)
      [kmMessage w.mem cmd req reqLen] := by
  unfold kmDoTipc
  apply (scriptSend_sends _ _ _ (w.setMem (w.mem.store kmSendHeader 4 cmd))).andThen
  intro rc w₁ _ sent
  have left : w₁.env.recvs.length < fuel := sent.recvs.trans_lt enough
  have finish : ∀ rc (w : World Script), Sends w.env
      (if rc < 0 then some (rc, w) else if w.mem.load kmRespHeader 4 ≠ kmErrorOk
        then some (trustyErrGeneric, w) else some (trustyErrNone, w)) [] := by
    intro rc w
    split
    next => exact Sends.ret w _
    next =>
      split
      next => exact Sends.ret w _
      next => exact Sends.ret w _
  simp only
  split
  next => exact Sends.ret w₁ _
  next =>
    cases respData with
    | none => exact (kmReadRawResponse_sends left).andThen fun rc w₂ _ _ => finish rc w₂
    | some data =>
      obtain ⟨len, rfl⟩ := Option.isSome_iff_exists.mp (room rfl)
      exact (kmReadDataResponse_sends left).andThen fun rc w₂ _ _ => finish rc w₂

/-- The message that a request to the storage of boot state is sent as. -/
def avbMessage (m : Mem Obj) (cmd : Nat) (req : Option (Ptr Obj)) (reqSize : UInt32) : Message :=
  (.avb, gather ((m.store avbMsg 4 cmd).store avbMsgResult 4 0)
    (segs (twoIovs avbMsg 8 req reqSize.toUInt64)))

theorem avbDoTipc_sends (cmd : Nat) (req : Option (Ptr Obj)) (reqSize : UInt32)
    (resp respSizeP : Option (Ptr Obj)) (w : World Script) :
    Sends w.env (avbDoTipc scriptTransport cmd req reqSize resp respSizeP w)
      (if w.initialized .avb = false ∧ cmd ≠ avbGetVersionCmd then []
        else [avbMessage w.mem cmd req reqSize]) := by
  unfold avbDoTipc
  simp only [World.setMem]
  split
  next => exact Sends.ret { w with mem := _ } _
  next =>
    apply (scriptSend_sends _ _ _ (w.setMem ((w.mem.store avbMsg 4 cmd).store avbMsgResult 4
      0))).andThen
    intro rc w₁ _ _
    simp only
    split
    next => exact Sends.ret w₁ _
    next =>
      refine Sends.andThen (show Sends w₁.env (avbReadResponse _ _ _ _ _ w₁) [] from ?_) ?_
      · unfold avbReadResponse
        apply (scriptRecv_sends _ _ _ w₁).andThen
        intro rc w₂ _ _
        simp only
        split
        next => exact Sends.ret w₂ _
        next =>
          split
          next => exact Sends.ret w₂ _
          next => exact Sends.ret w₂ _
      · intro rc w₂ _ _
        simp only
        split
        next => exact Sends.ret w₂ _
        next =>
          refine ⟨(avbFinish respSizeP rc w₂).1, (avbFinish respSizeP rc w₂).2, rfl, ?_⟩
          rcases avbFinish_stores respSizeP rc w₂ with same | ⟨p, n, _, same⟩
          · rw [same]
            exact Sent.refl _
          · rw [same]
            exact Sent.refl _

/-- The header that a request of either kind is sent as. -/
def hwbccMessage (m : Mem Obj) : Message := (.hwbcc, m.read hwbccReq 16)

theorem hwbcc_sends {m : Mem Obj} {w : World Script}
    {read : World Script → Option (Int × World Script)}
    (quiet : ∀ w, Sends w.env (read w) []) :
    Sends w.env ((sendHeaderOnlyRequest scriptTransport (w.setMem m)).bind fun r =>
      if r.1 < 0 then some r else (read r.2).bind fun r =>
        if r.1 < 0 then some r else some (trustyErrNone, r.2)) [hwbccMessage m] := by
  have sends := scriptSend_sends .hwbcc [⟨hwbccReq, 16⟩] true (w.setMem m)
  have message : gather m (segs [⟨hwbccReq, 16⟩]) = m.read hwbccReq 16 := List.append_nil _
  change Sends w.env _ [(.hwbcc, gather m (segs [⟨hwbccReq, 16⟩]))] at sends
  rw [message] at sends
  apply sends.andThen
  intro rc w₁ _ _
  simp only
  split
  next => exact Sends.ret w₁ rc
  next =>
    apply (quiet w₁).andThen
    intro rc w₂ _ _
    simp only
    split
    next => exact Sends.ret w₂ rc
    next => exact Sends.ret w₂ _

theorem hwbccGetDiceArtifacts_sends (context : UInt64) (diceArtifacts : Ptr Obj) (bufSize : UInt64)
    (diceArtifactsSize : Ptr Obj) (w : World Script) :
    Sends w.env (hwbccGetDiceArtifacts scriptTransport context diceArtifacts bufSize
      diceArtifactsSize w) [hwbccMessage ((w.mem.store hwbccReq 4 hwbccCmdGetDiceArtifacts).store
        hwbccReqContext 8 context.toNat)] := by
  apply hwbcc_sends
  intro w
  unfold readResponseWithData
  apply (scriptRecv_sends _ _ _ (zeroHwbccResp w)).andThen
  intro rc w₁ _ _
  simp only
  split
  next => exact Sends.ret w₁ _
  next =>
    split
    next => exact Sends.ret w₁ _
    next => exact Sends.ret (w₁.setMem _) _

theorem hwbccNsDeprivilege_sends (w : World Script) :
    Sends w.env (hwbccNsDeprivilege scriptTransport w)
      [hwbccMessage ((w.mem.memset hwbccReq 0 sizeofHwbccReqHdr).store hwbccReq 4
        hwbccCmdNsDeprivilege)] := by
  apply hwbcc_sends
  intro w
  unfold readHeaderOnlyResponse
  apply (scriptRecv_sends _ _ _ (zeroHwbccResp w)).andThen
  intro rc w₁ _ _
  exact Sends.ret w₁ _

end ExternalTrusty
