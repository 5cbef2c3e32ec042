import ExternalTrusty.RpmbWrap

namespace ExternalTrusty

open CMemory

/-- `op_id` and `size` in a message's header. -/
def storageMsgOpId (msg : List UInt8) : List UInt8 := (msg.drop 4).take 4
def storageMsgSize (msg : List UInt8) : Nat := leNat ((msg.drop 12).take 4)

/-- The header of a reply to this request is what it is documented to be. -/
structure ReplyHeaderOk (msg reply : List UInt8) : Prop where
  cmd : leNat (reply.take 4) = leNat (msg.take 4) ||| storageRespBit
  opId : storageMsgOpId reply = storageMsgOpId msg
  size : storageMsgSize reply = reply.length

def sentByProxy : Effect → Option (List UInt8)
  | .sent .proxy reply => some reply
  | _ => none

/-- The replies of the proxy from one world to a later one. -/
def repliesSince (w w' : World Script) : List (List UInt8) :=
  (w'.env.trace.drop w.env.trace.length).filterMap sentByProxy

instance (target : Target) (reqLen reliable write read : Nat) :
    Decidable (RpmbPasses target reqLen reliable write read) :=
  decidable_of_iff (target.sizeofPtr ≤ reqLen ∧
      reqLen = target.size (target.size (16 + reliable) + write) ∧ reliable % 512 = 0 ∧
      write % 512 = 0 ∧ read % 512 = 0 ∧ read ≤ 4096)
    ⟨fun ⟨long, sum, rel, wr, rd, fits⟩ => ⟨long, sum, rel, wr, rd, fits⟩,
      fun ⟨long, sum, rel, wr, rd, fits⟩ => ⟨long, sum, rel, wr, rd, fits⟩⟩

/-- How much data the reply to a request carries, when the command comes to `rc`. -/
def replyPayload (target : Target) (msg : List UInt8) (rc : Int) : Nat :=
  if leNat (msg.take 4) = storageRpmbSend ∧
      RpmbPasses target (msg.drop 24).length (rpmbReliableSize (msg.drop 24))
        (rpmbWriteSize (msg.drop 24)) (rpmbReadSize (msg.drop 24)) ∧ rc = 0 then
    rpmbReadSize (msg.drop 24)
  else 0

theorem replyHeader_length {msg : List UInt8} (h : 24 ≤ msg.length) (result : Nat) :
    (replyHeader msg result).length = 24 := by
  simp only [replyHeader, List.length_append, leBytes_length, List.length_take, List.length_drop]
  omega

/-- The reply keeps the request's operation and size, whatever follows the header. -/
theorem replyHeader_fields {msg : List UInt8} (h : 24 ≤ msg.length) (result : Nat)
    (payload : List UInt8) :
    leNat ((replyHeader msg result ++ payload).take 4) = leNat (msg.take 4) ||| storageRespBit ∧
      storageMsgOpId (replyHeader msg result ++ payload) = storageMsgOpId msg ∧
      storageMsgSize (replyHeader msg result ++ payload) = storageMsgSize msg := by
  obtain ⟨rest, split⟩ : ∃ rest, replyHeader msg result ++ payload =
      leBytes 4 (leNat (msg.take 4) ||| storageRespBit) ++ ((msg.drop 4).take 12 ++ rest) :=
    ⟨(leBytes 4 result ++ (msg.drop 20).take 4) ++ payload, by
      simp only [replyHeader, List.append_assoc]⟩
  have middle : ((msg.drop 4).take 12).length = 12 := by
    rw [List.length_take, List.length_drop]
    omega
  have behind : (replyHeader msg result ++ payload).drop 4 = (msg.drop 4).take 12 ++ rest := by
    rw [split]
    exact List.drop_left' (leBytes_length _ _)
  refine ⟨?_, ?_, ?_⟩
  · have small : leNat (msg.take 4) < 2 ^ 32 := leNat_take_lt 4 msg
    rw [split, List.take_left' (leBytes_length _ _), leNat_leBytes]
    exact Nat.mod_eq_of_lt (Nat.or_lt_two_pow small (by decide))
  · rw [storageMsgOpId, behind, List.take_append_of_le_length (by omega), List.take_take]
    rfl
  · rw [storageMsgSize, show 12 = 4 + 8 from rfl, ← List.drop_drop, behind,
      List.drop_append_of_le_length (by omega), List.take_append_of_le_length (by
        rw [List.length_drop]
        omega), List.drop_take, List.drop_drop, List.take_take]
    rfl

/-- Every request is answered once, by its own header and as much data as it is due. -/
theorem proxyHandleReq_replies {target : Target} {w w₁ : World Script} {msg : List UInt8}
    (h : RequestRead w w₁ msg) :
    ∃ w₂ es result payload, proxyHandleReq target scriptTransport scriptRpmb .proxy reqMsg reqBuf
        (msg.drop 24).length w₁ = some (w.env.sends.headD trustyErrNone, w₂) ∧
      w₂.env.trace = w.env.trace ++ .received .proxy :: es ∧
      es.filterMap sentByProxy = [replyHeader msg result ++ payload] ∧
      payload.length = replyPayload target msg (w.env.rpmb.headD (trustyErrGeneric, [])).1 := by
  have held : w₁.mem.read reqBuf (msg.drop 24).length = msg.drop 24 := by
    rw [List.length_drop]
    exact h.payload
  have cmd : w₁.mem.load reqMsg 4 = leNat (msg.take 4) := by
    rw [Mem.load, ← Mem.read_take w₁.mem reqMsg (by omega : 4 ≤ 24), h.header, List.take_take]
    rfl
  have refused : ∀ result, ∃ w₂ es payload,
      errResponse scriptTransport .proxy reqMsg result w₁ =
        some (w.env.sends.headD trustyErrNone, w₂) ∧
      w₂.env.trace = w.env.trace ++ .received .proxy :: es ∧
      es.filterMap sentByProxy = [replyHeader msg result ++ payload] ∧
      payload.length = 0 := by
    intro result
    obtain ⟨w₂, run, trace⟩ := @errResponse_sent w₁ msg result h.header
    rw [h.trace, List.append_assoc] at trace
    exact ⟨w₂, _, [], by rw [run, h.sends], trace, by simp [sentByProxy], rfl⟩
  rw [proxyHandleReq, cmd, replyPayload]
  by_cases rpmb : leNat (msg.take 4) = storageRpmbSend
  · rw [if_pos rpmb]
    by_cases passes : RpmbPasses target (msg.drop 24).length (rpmbReliableSize (msg.drop 24))
        (rpmbWriteSize (msg.drop 24)) (rpmbReadSize (msg.drop 24))
    · have fits := (rpmbPasses_received held).mpr passes
      obtain ⟨_, _, read⟩ := rpmbSizes_read held passes.header
      have executes := @proxyHandleRpmb_passes _ _ scriptTransport scriptRpmb _ _ fits
      rw [read] at executes
      obtain ⟨w₂, run, trace⟩ := proxyExecute_reply h.header held passes.header passes.readFits _ _
        _ _
      rw [h.trace, h.rpmb, h.kept, List.append_assoc] at trace
      rw [executes, run, h.sends]
      by_cases fine : (w.env.rpmb.headD (trustyErrGeneric, [])).1 = 0
      · rw [rpmbReply, if_pos fine] at trace
        refine ⟨w₂, _, storageNoError, _, rfl, trace, rfl, ?_⟩
        rw [if_pos ⟨rpmb, passes, fine⟩, overlay_length, Mem.read_length]
        exact Nat.max_eq_right (List.length_take_le _ _)
      · rw [rpmbReply, if_neg fine] at trace
        refine ⟨w₂, _, storageErrGeneric, [], rfl, trace, by rw [List.append_nil]; rfl, ?_⟩
        rw [if_neg fun all => fine all.2.2]
        rfl
    · have fails := fun received => passes ((rpmbPasses_received held).mp received)
      obtain ⟨w₂, es, payload, run, trace, sent, empty⟩ := refused storageErrNotValid
      refine ⟨w₂, es, _, payload, ?_, trace, sent, ?_⟩
      · rw [proxyHandleRpmb_fails fails, run]
      · rw [empty, if_neg fun all => passes all.2.1]
  · rw [if_neg rpmb]
    obtain ⟨w₂, es, payload, run, trace, sent, empty⟩ := refused storageErrUnimplemented
    refine ⟨w₂, es, _, payload, run, trace, sent, ?_⟩
    rw [empty, if_neg fun all => rpmb all.1]

theorem proxyOnMessage_replies {target : Target} {w : World Script} {msg : List UInt8}
    (next : NextMessage w msg) :
    ∃ rc w' result payload,
      proxyOnMessage target scriptTransport scriptRpmb .proxy w = some (rc, w') ∧
      repliesSince w w' = [replyHeader msg result ++ payload] ∧
      payload.length = replyPayload target msg (w.env.rpmb.headD (trustyErrGeneric, [])).1 := by
  obtain ⟨w₁, read, received⟩ := proxyReadRequest_message next
  obtain ⟨_, _, _, long, fits⟩ := next
  obtain ⟨w₂, es, result, payload, run, trace, sent, length⟩ :=
    @proxyHandleReq_replies target _ _ _ received
  have len : intToUsize ((msg.length - 24 : Nat) : Int) = (msg.drop 24).length := by
    rw [intToUsize_of_nonneg (by omega) (by omega), Int.toNat_natCast, List.length_drop]
  obtain ⟨rc, w', closed, handled, after, quiet⟩ : ∃ rc w' closed,
      proxyOnMessage target scriptTransport scriptRpmb .proxy w = some (rc, w') ∧
      w'.env.trace = w₂.env.trace ++ closed ∧ closed.filterMap sentByProxy = [] := by
    simp only [proxyOnMessage, read, Option.bind_eq_bind, Option.bind_some, len, run]
    rw [if_neg (by omega)]
    by_cases failed : w.env.sends.headD trustyErrNone < 0
    · rw [if_pos failed]
      exact ⟨_, _, [.closed .proxy], rfl, rfl, rfl⟩
    · rw [if_neg failed]
      exact ⟨_, w₂, [], rfl, (List.append_nil _).symm, rfl⟩
  refine ⟨rc, w', result, payload, handled, ?_, length⟩
  rw [repliesSince, after, trace, List.append_assoc, List.drop_left, List.cons_append,
    List.filterMap_cons_none rfl, List.filterMap_append, sent, quiet, List.append_nil]

/-- The reply's header is right exactly when the request's own size happens to be the reply's: the
size is never set. -/
theorem replyHeaderOk_iff (target : Target) {w : World Script} {msg : List UInt8}
    (next : NextMessage w msg) :
    ∃ rc w' reply, proxyOnMessage target scriptTransport scriptRpmb .proxy w = some (rc, w') ∧
      repliesSince w w' = [reply] ∧ (ReplyHeaderOk msg reply ↔
        storageMsgSize msg =
          24 + replyPayload target msg (w.env.rpmb.headD (trustyErrGeneric, [])).1) := by
  obtain ⟨rc, w', result, payload, run, sent, length⟩ := @proxyOnMessage_replies target _ _ next
  obtain ⟨_, _, _, long, _⟩ := next
  obtain ⟨cmd, opId, size⟩ := replyHeader_fields long result payload
  have total : (replyHeader msg result ++ payload).length =
      24 + replyPayload target msg (w.env.rpmb.headD (trustyErrGeneric, [])).1 := by
    rw [List.length_append, replyHeader_length long, length]
  refine ⟨rc, w', replyHeader msg result ++ payload, run, sent, ?_⟩
  constructor
  · intro ok
    rw [← size, ok.size, total]
  · intro same
    exact ⟨cmd, opId, by rw [size, same, total]⟩

/-- A message to the proxy, with the size that its header gives. -/
def proxyMessage (cmd size : Nat) (payload : List UInt8) : List UInt8 :=
  leBytes 4 cmd ++ leBytes 4 7 ++ leBytes 4 0 ++ leBytes 4 size ++ leBytes 8 0 ++ payload

/-- The next receive brings this message, and the next command succeeds. -/
def messageWorld (msg : List UInt8) (short : msg.length < 2 ^ 32) : World Script where
  mem := ⟨fun _ _ => 0, []⟩
  chans := fun _ => ⟨1, 0, .proxy⟩
  initialized := fun _ => true
  env := ⟨[], [], [.frame ⟨msg, short⟩], [(0, [])], []⟩

/-- A well-formed request of 40 bytes is executed, and its reply of 24 bytes gives its size as
40. -/
theorem executedRequest_sizeWrong : ∃ rc w' reply,
    proxyOnMessage .bits64 scriptTransport scriptRpmb .proxy
      (messageWorld (proxyMessage storageRpmbSend 40 idleRequest) (by decide)) = some (rc, w') ∧
    repliesSince (messageWorld (proxyMessage storageRpmbSend 40 idleRequest) (by decide)) w' =
      [reply] ∧ reply.length = 24 ∧ storageMsgSize reply = 40 ∧
    ¬ReplyHeaderOk (proxyMessage storageRpmbSend 40 idleRequest) reply := by
  have next : NextMessage (messageWorld (proxyMessage storageRpmbSend 40 idleRequest) (by decide))
      (proxyMessage storageRpmbSend 40 idleRequest) := ⟨_, rfl, rfl, by decide, by decide⟩
  obtain ⟨rc, w', result, payload, run, sent, length⟩ := @proxyOnMessage_replies .bits64 _ _ next
  have long : 24 ≤ (proxyMessage storageRpmbSend 40 idleRequest).length := by decide
  obtain ⟨_, _, size⟩ := replyHeader_fields long result payload
  have total : (replyHeader (proxyMessage storageRpmbSend 40 idleRequest) result ++
      payload).length = 24 := by
    rw [List.length_append, replyHeader_length long, length]
    decide
  have size : storageMsgSize (replyHeader (proxyMessage storageRpmbSend 40 idleRequest) result ++
      payload) = 40 := size.trans (by decide)
  refine ⟨rc, w', _, run, sent, total, size, fun ok => ?_⟩
  have same := ok.size
  omega

theorem unknownCommand_sizeRight : ∃ rc w' reply,
    proxyOnMessage .bits64 scriptTransport scriptRpmb .proxy
      (messageWorld (proxyMessage 2 24 []) (by decide)) = some (rc, w') ∧
    repliesSince (messageWorld (proxyMessage 2 24 []) (by decide)) w' = [reply] ∧
    ReplyHeaderOk (proxyMessage 2 24 []) reply := by
  obtain ⟨rc, w', reply, run, sent, ok⟩ := @replyHeaderOk_iff .bits64
    (messageWorld (proxyMessage 2 24 []) (by decide)) (proxyMessage 2 24 [])
    ⟨_, rfl, rfl, by decide, by decide⟩
  exact ⟨rc, w', reply, run, sent, ok.mpr (by decide)⟩

end ExternalTrusty
