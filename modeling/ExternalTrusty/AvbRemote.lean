import ExternalTrusty.TakenRequests
import ExternalTrusty.AvbWire

namespace ExternalTrusty

open CMemory

variable {ε σ : Type}

/-- The calls of the AVB client. -/
inductive AvbCall
  | readRollbackIndex (slot : UInt32) (value : Ptr Obj)
  | writeRollbackIndex (slot : UInt32) (value : UInt64)
  | readPermanentAttributes (attributes : Ptr Obj) (size : UInt32)
  | writePermanentAttributes (attributes : Option (Ptr Obj)) (size : UInt32)
  | readLockState (lockState : Ptr Obj)
  | writeLockState (lockState : UInt8)
  | lockBootState

/-- What a call asks for, with the size that its caller expects of permanent attributes. -/
structure AvbAsk where
  request : AvbRequest
  size : UInt32

/-- A return code other than success, or what was stored for the caller. -/
abbrev AvbOutcome := Except Int (List UInt8)

/-- What a call makes of a reply. The value that comes with a write is dropped. -/
def AvbAsk.outcome : (a : AvbAsk) → a.request.Reply → AvbOutcome
  | ⟨_, _⟩, .refused _ _ => .error trustyErrGeneric
  | ⟨.writeRollbackIndex _ _, _⟩, .granted _ => .ok []
  | ⟨.readPermanentAttributes, size⟩, .granted attributes =>
    if size.toNat = attributes.1.length then .ok attributes.1 else .error trustyErrInvalidArgs
  | ⟨r, _⟩, .granted answer => .ok (r.answerBytes answer)

def avbStub : Remote.Stub AvbRequest AvbRequest.Reply AvbAsk AvbOutcome where
  request := AvbAsk.request
  outcome := AvbAsk.outcome
  Refused _ out := ∃ rc, rc < 0 ∧ out = .error rc

namespace AvbCall

def run (t : Transport ε) : AvbCall → World ε → Option (Int × World ε)
  | readRollbackIndex slot value => trustyReadRollbackIndex t slot value
  | writeRollbackIndex slot value => trustyWriteRollbackIndex t slot value
  | readPermanentAttributes attributes size => trustyReadPermanentAttributes t attributes size
  | writePermanentAttributes attributes size => trustyWritePermanentAttributes t attributes size
  | readLockState lockState => trustyReadLockState t lockState
  | writeLockState lockState => trustyWriteLockState t lockState
  | lockBootState => trustyLockBootState t

/-- The bytes that a pointer of a caller gives, with none behind a null pointer. -/
def bytesAt (m : Mem Obj) (p : Option (Ptr Obj)) (size : UInt32) : List UInt8 :=
  (p.map fun p => m.read p size.toNat).getD []

def ask (m : Mem Obj) : AvbCall → AvbAsk
  | readRollbackIndex slot _ => ⟨.readRollbackIndex slot, 0⟩
  | writeRollbackIndex slot value => ⟨.writeRollbackIndex slot value, 0⟩
  | readPermanentAttributes _ size => ⟨.readPermanentAttributes, size⟩
  | writePermanentAttributes attributes size =>
    ⟨.writePermanentAttributes (bytesAt m attributes size), 0⟩
  | readLockState _ => ⟨.readLockState, 0⟩
  | writeLockState lockState => ⟨.writeLockState lockState, 0⟩
  | lockBootState => ⟨.lockBootState, 0⟩

/-- Where a result is stored for the caller, and how long it is. -/
def out : AvbCall → Option (Ptr Obj × Nat)
  | readRollbackIndex _ value => some (value, 8)
  | readPermanentAttributes attributes size => some (attributes, size.toNat)
  | readLockState lockState => some (lockState, 1)
  | _ => none

def outcome (c : AvbCall) (rc : Int) (m : Mem Obj) : AvbOutcome :=
  if rc ≠ 0 then .error rc else .ok ((c.out.map fun o => m.read o.1 o.2).getD [])

/-- The buffers of a call belong to its caller. -/
def Placed : AvbCall → Prop
  | readRollbackIndex _ value => ∃ n, value.block = .caller n
  | readPermanentAttributes attributes _ => ∃ n, attributes.block = .caller n
  | writePermanentAttributes attributes _ => ∀ p ∈ attributes, ∃ n, p.block = .caller n
  | readLockState lockState => ∃ n, lockState.block = .caller n
  | _ => True

/-! A call stores its request, makes one exchange with the service, and stores the result. -/

def start : AvbCall → World ε → World ε
  | readRollbackIndex slot _, w => setRollbackReq w slot 0
  | writeRollbackIndex slot value, w => setRollbackReq w slot value
  | readPermanentAttributes _ _, w => w.setMem (w.mem.store avbRespSize 4 avbMaxBufferLength)
  | readLockState _, w => w.setMem (w.mem.store avbRespSize 4 1)
  | writeLockState lockState, w => w.setMem (w.mem.write avbReq [lockState])
  | _, w => w

def req : AvbCall → Option (Ptr Obj)
  | readRollbackIndex _ _ => some avbReq
  | writeRollbackIndex _ _ => some avbReq
  | writePermanentAttributes attributes _ => attributes
  | writeLockState _ => some avbReq
  | _ => none

def reqSize : AvbCall → UInt32
  | readRollbackIndex _ _ => 12
  | writeRollbackIndex _ _ => 12
  | writePermanentAttributes _ size => size
  | writeLockState _ => 1
  | _ => 0

def resp : AvbCall → Option (Ptr Obj)
  | readRollbackIndex _ _ => some avbResp
  | writeRollbackIndex _ _ => some avbResp
  | readPermanentAttributes _ _ => some avbResp
  | readLockState lockState => some lockState
  | _ => none

def tipc (c : AvbCall) (cmd : Nat) : ClientCall :=
  .avbDoTipc cmd c.req c.reqSize c.resp (c.resp.map fun _ => avbRespSize)

def finish : AvbCall → Int × World ε → Int × World ε
  | readRollbackIndex _ value, (rc, w) =>
    (rc, w.setMem (w.mem.store value 8 (w.mem.load avbResp 8)))
  | readPermanentAttributes attributes size, (rc, w) =>
    if rc ≠ 0 then (rc, w)
    else if size.toNat ≠ w.mem.load avbRespSize 4 then (trustyErrInvalidArgs, w)
    else (rc, w.setMem (w.mem.write attributes (w.mem.read avbResp (w.mem.load avbRespSize 4))))
  | _, r => r

theorem run_eq (t : Transport ε) (fuel : Nat) (c : AvbCall) (w : World ε) :
    c.run t w = ((c.tipc (c.ask w.mem).request.cmd).run t fuel (c.start w)).map c.finish := by
  have whole : ∀ r : Option (Int × World ε), r = r.map fun r => r := fun r => by simp
  cases c with
  | readRollbackIndex slot value =>
    exact Option.map_eq_bind.symm
  | readPermanentAttributes attributes size =>
    show Option.bind _ _ = Option.map _ _
    rw [Option.map_eq_bind]
    congr 1
    funext r
    simp only [Function.comp, finish]
    split
    next => rfl
    next =>
      split
      next => rfl
      next => rfl
  | _ => exact whole _

theorem finish_mem (c : AvbCall) (r : Int × World ε) : ∃ m, (c.finish r).2 = r.2.setMem m := by
  obtain ⟨rc, w⟩ := r
  cases c with
  | readRollbackIndex slot value => exact ⟨_, rfl⟩
  | readPermanentAttributes attributes size =>
    simp only [finish]
    split
    next => exact ⟨w.mem, rfl⟩
    next =>
      split
      next => exact ⟨w.mem, rfl⟩
      next => exact ⟨_, rfl⟩
  | _ => exact ⟨w.mem, rfl⟩

theorem finish_negative (c : AvbCall) {rc : Int} (negative : rc < 0) (w : World ε) :
    (c.finish (rc, w)).1 = rc := by
  cases c with
  | readPermanentAttributes attributes size =>
    have nonzero : rc ≠ 0 := by omega
    rw [finish, if_pos nonzero]
  | _ => rfl

theorem start_mem (c : AvbCall) (w : World ε) : ∃ m, c.start w = w.setMem m := by
  cases c with
  | writePermanentAttributes => exact ⟨w.mem, rfl⟩
  | lockBootState => exact ⟨w.mem, rfl⟩
  | _ => exact ⟨_, rfl⟩

/-! The message of a call -/

/-- Buffers apart from the header's are not changed by it. -/
theorem header_elsewhere (m : Mem Obj) (cmd : Nat) {q : Ptr Obj} (hq : q.block ≠ .avbMsg)
    (n : Nat) : ((m.store avbMsg 4 cmd).store avbMsgResult 4 0).read q n = m.read q n :=
  avbRequest_elsewhere m cmd n hq

theorem header_bytes (m : Mem Obj) (cmd : Nat) :
    ((m.store avbMsg 4 cmd).store avbMsgResult 4 0).read avbMsg 8 =
      leBytes 4 cmd ++ leBytes 4 0 := by
  have adjacent := Mem.write_write_bytes m avbMsg (leBytes 4 cmd) (leBytes 4 0)
  have both := Mem.read_write_self m avbMsg (leBytes 4 cmd ++ leBytes 4 0)
  rw [leBytes_length] at adjacent
  rw [List.length_append, leBytes_length, leBytes_length] at both
  exact (Mem.read_congr adjacent avbMsg 8).trans both

theorem message_gather (m : Mem Obj) (cmd : Nat) {req : Option (Ptr Obj)} {size : UInt32}
    (apart : ∀ p ∈ req, p.block ≠ .avbMsg) :
    gather ((m.store avbMsg 4 cmd).store avbMsgResult 4 0)
        (segs (twoIovs avbMsg 8 req size.toUInt64)) =
      AvbRequest.avbMessageBytes cmd 0 (bytesAt m req size) := by
  have header := header_bytes m cmd
  cases req with
  | none =>
    refine (List.append_nil _).trans ?_
    exact header.trans (congrArg _ (List.append_nil _).symm)
  | some p =>
    have body := header_elsewhere m cmd (apart p rfl) size.toNat
    refine (congrArg₂ _ header ((List.append_nil _).trans body)).trans ?_
    exact List.append_assoc ..

theorem setRollbackReq_bytes (w : World ε) (slot : UInt32) (value : UInt64) :
    (setRollbackReq w slot value).mem.read avbReq 12 = AvbRequest.rollbackReq slot value := by
  have adjacent := Mem.write_write_bytes w.mem avbReq (leBytes 8 value.toNat)
    (leBytes 4 slot.toNat)
  have both := Mem.read_write_self w.mem avbReq (leBytes 8 value.toNat ++ leBytes 4 slot.toNat)
  rw [leBytes_length] at adjacent
  rw [List.length_append, leBytes_length, leBytes_length] at both
  have size : (setRollbackReq w slot value).mem.read avbReq 12 =
      ((w.mem.store avbReq 8 value.toNat).store avbReqSlot 4 slot.toNat).read avbReq 12 :=
    Mem.read_write_apart _ (Or.inl (by decide))
  exact size.trans ((Mem.read_congr adjacent avbReq 12).trans both)

/-- The bytes behind the header are the payload of the request. -/
theorem payload_bytes (c : AvbCall) (w : World ε) :
    bytesAt (c.start w).mem c.req c.reqSize = (c.ask w.mem).request.payload := by
  cases c with
  | readRollbackIndex slot value => exact setRollbackReq_bytes w slot 0
  | writeRollbackIndex slot value => exact setRollbackReq_bytes w slot value
  | writeLockState lockState => exact Mem.read_write_self w.mem avbReq [lockState]
  | _ => rfl

theorem req_apart (c : AvbCall) (placed : c.Placed) : ∀ p ∈ c.req, p.block ≠ .avbMsg := by
  have own : ∀ p ∈ some avbReq, p.block ≠ .avbMsg := by
    rintro p ⟨⟩
    decide
  cases c with
  | readRollbackIndex => exact own
  | writeRollbackIndex => exact own
  | writePermanentAttributes attributes size =>
    intro p mem
    obtain ⟨n, caller⟩ := placed p mem
    rw [caller]
    exact nofun
  | writeLockState => exact own
  | _ => exact nofun

theorem req_plain (c : AvbCall) (placed : c.Placed) : ∀ p ∈ c.req, ¬ProxyObj p.block := by
  have own : ∀ p ∈ some avbReq, ¬ProxyObj p.block := by
    rintro p ⟨⟩
    simp [ProxyObj, avbReq]
  cases c with
  | readRollbackIndex => exact own
  | writeRollbackIndex => exact own
  | writePermanentAttributes attributes size =>
    intro p mem
    obtain ⟨n, caller⟩ := placed p mem
    rw [caller]
    simp [ProxyObj]
  | writeLockState => exact own
  | _ => exact nofun

theorem iovs_plain (c : AvbCall) (placed : c.Placed) :
    ∀ v ∈ twoIovs avbMsg 8 c.req c.reqSize.toUInt64, ¬ProxyObj v.base.block := by
  have header : ¬ProxyObj avbMsg.block := by simp [ProxyObj, avbMsg]
  intro v mem
  cases given : c.req with
  | none =>
    rw [given] at mem
    obtain rfl := List.mem_singleton.mp mem
    exact header
  | some p =>
    rw [given] at mem
    rcases List.mem_pair.mp mem with rfl | rfl
    · exact header
    · exact c.req_plain placed p given

end AvbCall

end ExternalTrusty
