import ExternalTrusty.RecvBounds

namespace ExternalTrusty

open CMemory

variable {ε σ : Type}

/-- The calls of `trusty_ipc.h` that the components make on their channels. A call that waits
may never return. -/
structure Transport (ε : Type) where
  connect : Component → CString → World ε → Option (Int × World ε)
  close : Component → World ε → Int × World ε
  send : Component → List Iovec → Bool → World ε → Option (Int × World ε)
  recv : Component → List Iovec → Bool → World ε → Option (Int × World ε)

/-- `trusty_ipc_chan_init` -/
def trustyIpcChanInit (c : Component) (w : World ε) : World ε :=
  { w with chans := Function.update w.chans c ⟨0, 0, .sync⟩ }

/-- Two iovecs, or only the first when the second has a null base. -/
def twoIovs (base : Ptr Obj) (len : UInt64) (next : Option (Ptr Obj)) (nextLen : UInt64) :
    List Iovec :=
  match next with
  | some p => [⟨base, len⟩, ⟨p, nextLen⟩]
  | none => [⟨base, len⟩]

/-- A message whose length fits the 32-bit length field. -/
structure Frame where
  bytes : List UInt8
  bound : bytes.length < 2 ^ 32

/-- What a receive can come to. -/
inductive Delivery
  | failed (rc : Int) (neg : rc < 0)
  | frame (f : Frame)

def Delivery.closed : Delivery := .failed trustyErrChannelClosed (by decide)

/-- The result and the effect of a receive, as its caller sees them. -/
def deliver (iovs : List Iovec) (m : Mem Obj) : Delivery → Int × Mem Obj
  | .failed rc _ => (rc, m)
  | .frame f =>
    (if total (segs iovs) < f.bytes.length then trustyErrMsgTooBig else toInt f.bytes.length,
      scatter m (segs iovs) f.bytes)

/-- Every receive from the secure OS is the delivery of some message, or fails. -/
theorem trustyIpcDevRecv_delivers (os : SecureOs σ) (dev : IpcDev) (chan : UInt32)
    (iovs : List Iovec) (w : World (DevEnv σ)) :
    ∃ d, ((trustyIpcDevRecv os dev chan iovs w).1, (trustyIpcDevRecv os dev chan iovs w).2.mem) =
      deliver iovs w.mem d := by
  by_cases h : RecvAnswered (execRecv os dev chan w)
  · obtain ⟨_, page, hrun, _⟩ := recv_answered h
    have hlt : (execRecv os dev chan w).2.env.page.load cmdPayloadLen 4 < 2 ^ 32 :=
      Mem.load_lt _ _ _
    refine ⟨.frame ⟨(execRecv os dev chan w).2.env.page.read cmdPayload
      ((execRecv os dev chan w).2.env.page.load cmdPayloadLen 4), by simpa using hlt⟩, ?_⟩
    rw [hrun]
    simp only [deliver, Mem.read_length]
  · refine ⟨.failed trustyErrSecosErr (by decide), ?_⟩
    rw [recv_unanswered h]
    rfl

/-- `rpmb_storage_send`, which each platform implements. -/
structure RpmbDevice (ε : Type) where
  storageSend : (relWriteData : Option (Ptr Obj)) → (relWriteSize : Nat) →
    (writeData : Option (Ptr Obj)) → (writeSize : Nat) → (readBuf : Ptr Obj) → (readSize : Nat) →
    World ε → Int × World ε

/-- What a component does to its surroundings. -/
inductive Effect
  | connected (c : Component)
  | sent (c : Component) (msg : List UInt8)
  | received (c : Component)
  | rpmb (relWrite write : Option (List UInt8)) (readSize : Nat)
  | closed (c : Component)
  deriving DecidableEq

/-- The outcomes of the calls to come, in order, and what was done so far. With no outcome left,
connects and sends succeed, receives find the channel closed, and RPMB commands fail. -/
structure Script where
  connects : List Int
  sends : List Int
  recvs : List Delivery
  rpmb : List (Int × List UInt8)
  trace : List Effect

def World.did (w : World Script) (e : Effect) : World Script :=
  { w with env := { w.env with trace := w.env.trace ++ [e] } }

def scriptConnect (c : Component) (_port : CString) (w : World Script) :
    Option (Int × World Script) :=
  let rc := w.env.connects.headD 1
  let w := { w with env := { w.env with connects := w.env.connects.tail } }
  some (rc, w.did (.connected c))

def scriptClose (c : Component) (w : World Script) : Int × World Script :=
  let chan := { w.chans c with handle := 0 }
  (trustyErrNone, { w with chans := Function.update w.chans c chan }.did (.closed c))

def scriptSend (c : Component) (iovs : List Iovec) (_wait : Bool) (w : World Script) :
    Option (Int × World Script) :=
  let rc := w.env.sends.headD trustyErrNone
  let msg := gather w.mem (segs iovs)
  let w := { w with env := { w.env with sends := w.env.sends.tail } }
  some (rc, w.did (.sent c msg))

/-- The next delivery is taken, and leaves this memory. -/
def World.received (w : World Script) (c : Component) (m : Mem Obj) : World Script :=
  { w with mem := m, env := { w.env with recvs := w.env.recvs.tail } }.did (.received c)

@[simp] theorem World.received_mem (w : World Script) (c : Component) (m : Mem Obj) :
    (w.received c m).mem = m := rfl

@[simp] theorem World.received_recvs (w : World Script) (c : Component) (m : Mem Obj) :
    (w.received c m).env.recvs = w.env.recvs.tail := rfl

def scriptRecv (c : Component) (iovs : List Iovec) (_wait : Bool) (w : World Script) :
    Option (Int × World Script) :=
  let r := deliver iovs w.mem (w.env.recvs.headD .closed)
  some (r.1, w.received c r.2)

theorem scriptRecv_frame {c : Component} {iovs : List Iovec} {wait : Bool} {w : World Script}
    {f : Frame} (h : w.env.recvs.headD .closed = .frame f) :
    scriptRecv c iovs wait w = some (if total (segs iovs) < f.bytes.length
      then trustyErrMsgTooBig else toInt f.bytes.length,
      w.received c (scatter w.mem (segs iovs) f.bytes)) := by
  simp only [scriptRecv, h, deliver]

theorem scriptRecv_failed {c : Component} {iovs : List Iovec} {wait : Bool} {w : World Script}
    {rc : Int} {neg : rc < 0} (h : w.env.recvs.headD .closed = .failed rc neg) :
    scriptRecv c iovs wait w = some (rc, w.received c w.mem) := by
  simp only [scriptRecv, h, deliver]

def scriptTransport : Transport Script :=
  ⟨scriptConnect, scriptClose, scriptSend, scriptRecv⟩

def readIf (m : Mem Obj) (data : Option (Ptr Obj)) (size : Nat) : Option (List UInt8) :=
  data.map fun p => m.read p size

/-- The command fills at most the read buffer it was given. -/
def scriptRpmb : RpmbDevice Script where
  storageSend relWriteData relWriteSize writeData writeSize readBuf readSize w :=
    let r := w.env.rpmb.headD (trustyErrGeneric, [])
    let e := Effect.rpmb (readIf w.mem relWriteData relWriteSize) (readIf w.mem writeData writeSize)
      readSize
    let w := { w with
      mem := w.mem.put readBuf (r.2.take readSize)
      env := { w.env with rpmb := w.env.rpmb.tail } }
    (r.1, w.did e)

end ExternalTrusty
