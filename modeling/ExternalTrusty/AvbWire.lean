import ExternalTrusty.Avb
import ExternalTrusty.RemoteObject

namespace ExternalTrusty

open CMemory

/-- The requests of `avb.h`. The value in the request for a rollback index is ignored. -/
inductive AvbRequest
  | readRollbackIndex (slot : UInt32)
  | writeRollbackIndex (slot : UInt32) (value : UInt64)
  | readPermanentAttributes
  | writePermanentAttributes (attributes : List UInt8)
  | readLockState
  | writeLockState (lockState : UInt8)
  | lockBootState
  deriving DecidableEq

namespace AvbRequest

def cmd : AvbRequest → Nat
  | readRollbackIndex _ => ExternalTrusty.readRollbackIndex
  | writeRollbackIndex _ _ => ExternalTrusty.writeRollbackIndex
  | readPermanentAttributes => ExternalTrusty.readPermanentAttributes
  | writePermanentAttributes _ => ExternalTrusty.writePermanentAttributes
  | readLockState => ExternalTrusty.readLockState
  | writeLockState _ => ExternalTrusty.writeLockState
  | lockBootState => ExternalTrusty.lockBootState

/-- `struct avb_rollback_req` -/
def rollbackReq (slot : UInt32) (value : UInt64) : List UInt8 :=
  leBytes 8 value.toNat ++ leBytes 4 slot.toNat

def payload : AvbRequest → List UInt8
  | readRollbackIndex slot => rollbackReq slot 0
  | writeRollbackIndex slot value => rollbackReq slot value
  | writePermanentAttributes attributes => attributes
  | writeLockState lockState => [lockState]
  | _ => []

/-- `struct avb_message` -/
def avbMessageBytes (cmd result : Nat) (payload : List UInt8) : List UInt8 :=
  leBytes 4 cmd ++ (leBytes 4 result ++ payload)

def message (r : AvbRequest) : List UInt8 := avbMessageBytes r.cmd 0 r.payload

def slotOf (payload : List UInt8) : UInt32 := UInt32.ofNat (leNat (payload.drop 8))

def valueOf (payload : List UInt8) : UInt64 := UInt64.ofNat (leNat (payload.take 8))

/-- What a payload is, after the command before it. -/
def parsePayload (cmd : Nat) (payload : List UInt8) : Option AvbRequest :=
  if cmd = ExternalTrusty.readRollbackIndex then
    if payload.length = 12 then some (readRollbackIndex (slotOf payload)) else none
  else if cmd = ExternalTrusty.writeRollbackIndex then
    if payload.length = 12 then some (writeRollbackIndex (slotOf payload) (valueOf payload))
    else none
  else if cmd = ExternalTrusty.writePermanentAttributes then
    some (writePermanentAttributes payload)
  else if cmd = ExternalTrusty.writeLockState then
    if payload.length = 1 then some (writeLockState (payload.headD 0)) else none
  else if payload ≠ [] then none
  else if cmd = ExternalTrusty.readPermanentAttributes then some readPermanentAttributes
  else if cmd = ExternalTrusty.readLockState then some readLockState
  else if cmd = ExternalTrusty.lockBootState then some lockBootState
  else none

/-- How the service reads a message. -/
def parse (msg : List UInt8) : Option AvbRequest :=
  if msg.length < sizeofAvbMessage then none
  else parsePayload (leNat (msg.take 4)) (msg.drop sizeofAvbMessage)

theorem slotOf_rollbackReq (slot : UInt32) (value : UInt64) :
    slotOf (rollbackReq slot value) = slot := by
  have back : slot.toNat % 256 ^ 4 = slot.toNat := Nat.mod_eq_of_lt slot.toNat_lt
  rw [slotOf, rollbackReq, List.drop_left' (leBytes_length ..), leNat_leBytes, back,
    UInt32.ofNat_toNat]

theorem valueOf_rollbackReq (slot : UInt32) (value : UInt64) :
    valueOf (rollbackReq slot value) = value := by
  have back : value.toNat % 256 ^ 8 = value.toNat := Nat.mod_eq_of_lt value.toNat_lt
  rw [valueOf, rollbackReq, List.take_left' (leBytes_length ..), leNat_leBytes, back,
    UInt64.ofNat_toNat]

theorem rollbackReq_length (slot : UInt32) (value : UInt64) :
    (rollbackReq slot value).length = 12 := by
  rw [rollbackReq, List.length_append, leBytes_length, leBytes_length]

theorem parsePayload_payload (r : AvbRequest) : parsePayload r.cmd r.payload = some r := by
  cases r with
  | readRollbackIndex slot =>
    have whole : parsePayload ExternalTrusty.readRollbackIndex (rollbackReq slot 0) =
        some (readRollbackIndex (slotOf (rollbackReq slot 0))) := by
      rw [parsePayload, if_pos rfl, if_pos (rollbackReq_length slot 0)]
    rwa [slotOf_rollbackReq] at whole
  | writeRollbackIndex slot value =>
    have whole : parsePayload ExternalTrusty.writeRollbackIndex (rollbackReq slot value) =
        some (writeRollbackIndex (slotOf (rollbackReq slot value))
          (valueOf (rollbackReq slot value))) := by
      rw [parsePayload, if_neg (by decide), if_pos rfl, if_pos (rollbackReq_length slot value)]
    rwa [slotOf_rollbackReq, valueOf_rollbackReq] at whole
  | _ => rfl

theorem avbMessageBytes_take (cmd result : Nat) (payload : List UInt8) :
    (avbMessageBytes cmd result payload).take 4 = leBytes 4 cmd :=
  List.take_left' (leBytes_length ..)

theorem avbMessageBytes_drop (cmd result : Nat) (payload : List UInt8) :
    (avbMessageBytes cmd result payload).drop 8 = payload := by
  rw [avbMessageBytes, ← List.append_assoc]
  refine List.drop_left' ?_
  rw [List.length_append, leBytes_length, leBytes_length]

theorem avbMessageBytes_length (cmd result : Nat) (payload : List UInt8) :
    (avbMessageBytes cmd result payload).length = 8 + payload.length := by
  rw [avbMessageBytes, List.length_append, List.length_append, leBytes_length, leBytes_length]
  omega

theorem cmd_lt (r : AvbRequest) : r.cmd < 16 := by
  cases r
  all_goals exact of_decide_eq_true rfl

/-- The service reads every request as what it is. -/
theorem parse_message (r : AvbRequest) : parse r.message = some r := by
  have len := avbMessageBytes_length r.cmd 0 r.payload
  have back : r.cmd % 256 ^ 4 = r.cmd := Nat.mod_eq_of_lt (by have := r.cmd_lt; omega)
  have long : ¬(avbMessageBytes r.cmd 0 r.payload).length < sizeofAvbMessage := by
    rw [len]
    unfold sizeofAvbMessage
    omega
  rw [parse, message, if_neg long, avbMessageBytes_take, leNat_leBytes, back]
  exact (congrArg _ (avbMessageBytes_drop ..)).trans (parsePayload_payload r)

/-- What the service returns with each request, when it grants it. -/
abbrev Answer : AvbRequest → Type
  | readRollbackIndex _ => UInt64
  | writeRollbackIndex _ _ => UInt64
  | readPermanentAttributes => { bs : List UInt8 // bs.length ≤ avbMaxBufferLength }
  | readLockState => UInt8
  | _ => Unit

def answerBytes : (r : AvbRequest) → r.Answer → List UInt8
  | readRollbackIndex _, value => leBytes 8 (value : UInt64).toNat
  | writeRollbackIndex _ _, value => leBytes 8 (value : UInt64).toNat
  | readPermanentAttributes, attributes => attributes.1
  | readLockState, lockState => [lockState]
  | writePermanentAttributes _, _ => []
  | writeLockState _, _ => []
  | lockBootState, _ => []

/-- The room that the client has for the payload of an answer. -/
def room : AvbRequest → Nat
  | readRollbackIndex _ => 8
  | writeRollbackIndex _ _ => 8
  | readPermanentAttributes => avbMaxBufferLength
  | readLockState => 1
  | _ => 0

theorem answerBytes_length (r : AvbRequest) (a : r.Answer) :
    (r.answerBytes a).length ≤ r.room := by
  cases r with
  | readRollbackIndex slot => exact (leBytes_length ..).le
  | writeRollbackIndex slot value => exact (leBytes_length ..).le
  | readPermanentAttributes => exact a.2
  | readLockState => exact le_rfl
  | writePermanentAttributes attributes => exact le_rfl
  | writeLockState lockState => exact le_rfl
  | lockBootState => exact le_rfl

theorem room_le (r : AvbRequest) : r.room ≤ 2048 := by
  cases r
  all_goals exact of_decide_eq_true rfl

/-- A request is granted, or refused with an error. -/
inductive Reply (r : AvbRequest)
  | granted (answer : r.Answer)
  | refused (error : UInt32) (nonzero : error ≠ 0)

namespace Reply

variable {r : AvbRequest}

def result : r.Reply → Nat
  | granted _ => avbErrorNone
  | refused error _ => error.toNat

def bytes : r.Reply → List UInt8
  | granted answer => r.answerBytes answer
  | refused _ _ => []

theorem bytes_length (reply : r.Reply) : reply.bytes.length ≤ r.room := by
  cases reply with
  | granted answer => exact r.answerBytes_length answer
  | refused => exact Nat.zero_le _

theorem result_lt (reply : r.Reply) : reply.result < 2 ^ 32 := by
  cases reply with
  | granted => exact Nat.two_pow_pos 32
  | refused error => exact error.toNat_lt

/-- The message of a reply. -/
def frame (reply : r.Reply) : Frame where
  bytes := avbMessageBytes (r.cmd ||| avbRespBit) reply.result reply.bytes
  bound := by
    have short := reply.bytes_length
    have most := r.room_le
    rw [avbMessageBytes_length]
    omega

theorem frame_length (reply : r.Reply) : reply.frame.bytes.length = 8 + reply.bytes.length :=
  avbMessageBytes_length ..

theorem frame_cmd (reply : r.Reply) :
    leNat (reply.frame.bytes.take 4) = r.cmd ||| avbRespBit := by
  have low : r.cmd ||| avbRespBit < 256 ^ 4 := by
    have : r.cmd ||| avbRespBit < 2 ^ 4 := Nat.or_lt_two_pow r.cmd_lt (by decide)
    omega
  rw [frame, avbMessageBytes_take, leNat_leBytes, Nat.mod_eq_of_lt low]

theorem frame_result (reply : r.Reply) :
    leNat ((reply.frame.bytes.drop 4).take 4) = reply.result := by
  have rest : reply.frame.bytes.drop 4 = leBytes 4 reply.result ++ reply.bytes :=
    List.drop_left' (leBytes_length ..)
  have back : reply.result % 256 ^ 4 = reply.result := Nat.mod_eq_of_lt reply.result_lt
  rw [rest, List.take_left' (leBytes_length ..), leNat_leBytes, back]

theorem frame_payload (reply : r.Reply) : reply.frame.bytes.drop 8 = reply.bytes :=
  avbMessageBytes_drop ..

end Reply

end AvbRequest

end ExternalTrusty
