import ExternalTrusty.Transport

namespace ExternalTrusty

open CMemory

variable {ε : Type}

def avbRespBit : Nat := 1
def readRollbackIndex : Nat := 0
def writeRollbackIndex : Nat := 2
def avbGetVersionCmd : Nat := 4
def readPermanentAttributes : Nat := 6
def writePermanentAttributes : Nat := 8
def readLockState : Nat := 10
def writeLockState : Nat := 12
def lockBootState : Nat := 14

def avbErrorNone : Nat := 0
def avbMaxBufferLength : Nat := 2048
def avbTipcVersion : Nat := 1

def avbPort : CString where
  chars := "com.android.trusty.avb".toList.map fun c => c.toNat.toUInt8
  nonzero := by simp
  fits := by simp

/-- `struct avb_message` and its `result` -/
def avbMsg : Ptr Obj := ⟨.avbMsg, 0⟩
def avbMsgResult : Ptr Obj := ⟨.avbMsg, 4⟩
def sizeofAvbMessage : Nat := 8

/-- `struct avb_rollback_req`: the value, then the slot -/
def avbReq : Ptr Obj := ⟨.avbReq, 0⟩
def avbReqSlot : Ptr Obj := ⟨.avbReq, 8⟩
def avbResp : Ptr Obj := ⟨.avbResp, 0⟩
def avbRespSize : Ptr Obj := ⟨.avbRespSize, 0⟩

def World.setMem (w : World ε) (m : Mem Obj) : World ε := { w with mem := m }

def avbSendRequest (t : Transport ε) (msg : Ptr Obj) (req : Option (Ptr Obj)) (reqLen : UInt32)
    (w : World ε) : Option (Int × World ε) :=
  t.send .avb (twoIovs msg 8 req reqLen.toUInt64) true w

def avbReadResponse (t : Transport ε) (msg : Ptr Obj) (cmd : Nat) (resp : Option (Ptr Obj))
    (respLen : UInt32) (w : World ε) : Option (Int × World ε) := do
  let (rc, w) ← t.recv .avb (twoIovs msg 8 resp respLen.toUInt64) true w
  if rc < 0 then some (rc, w)
  else if w.mem.load msg 4 ≠ cmd ||| avbRespBit then some (trustyErrGeneric, w)
  -- the payload size, computed as a size_t and returned as an int
  else some (toInt (usizeSub (intToUsize rc) sizeofAvbMessage), w)

/-- The tail of `avb_do_tipc`, after the response is read. -/
def avbFinish (respSizeP : Option (Ptr Obj)) (rc : Int) (w : World ε) : Int × World ε :=
  let w :=
    match respSizeP with
    | some p =>
      if (rc % 2 ^ 32).toNat ≠ w.mem.load p 4 then w.setMem (w.mem.store p 4 (rc % 2 ^ 32).toNat)
      else w
    | none => w
  if w.mem.load avbMsgResult 4 ≠ avbErrorNone then (trustyErrGeneric, w) else (trustyErrNone, w)

def avbDoTipc (t : Transport ε) (cmd : Nat) (req : Option (Ptr Obj)) (reqSize : UInt32)
    (resp : Option (Ptr Obj)) (respSizeP : Option (Ptr Obj)) (w : World ε) :
    Option (Int × World ε) := do
  let w := w.setMem ((w.mem.store avbMsg 4 cmd).store avbMsgResult 4 0)
  if w.initialized .avb = false ∧ cmd ≠ avbGetVersionCmd then some (trustyErrGeneric, w)
  else
    let (rc, w) ← avbSendRequest t avbMsg req reqSize w
    if rc < 0 then some (rc, w)
    else
      let respSize := (respSizeP.map fun p => UInt32.ofNat (w.mem.load p 4)).getD 0
      let (rc, w) ← avbReadResponse t avbMsg cmd resp respSize w
      if rc < 0 then some (rc, w) else some (avbFinish respSizeP rc w)

def avbGetVersion (t : Transport ε) (w : World ε) : Option (Int × Nat × World ε) := do
  let w := w.setMem (w.mem.store avbRespSize 4 4)
  let (rc, w) ← avbDoTipc t avbGetVersionCmd none 0 (some avbResp) (some avbRespSize) w
  some (rc, w.mem.load avbResp 4, w)

def World.setInitialized (w : World ε) (c : Component) (b : Bool) : World ε :=
  { w with initialized := Function.update w.initialized c b }

def avbTipcInit (t : Transport ε) (w : World ε) : Option (Int × World ε) := do
  let (rc, w) ← t.connect .avb avbPort (trustyIpcChanInit .avb w)
  if rc < 0 then some (rc, w)
  else
    let (rc, version, w) ← avbGetVersion t w
    if rc ≠ 0 then some (trustyErrGeneric, w)
    else if version ≠ avbTipcVersion then some (trustyErrGeneric, w)
    else some (trustyErrNone, w.setInitialized .avb true)

def avbTipcShutdown (t : Transport ε) (w : World ε) : World ε :=
  if w.initialized .avb = false then w else (t.close .avb w).2.setInitialized .avb false

def setRollbackReq (w : World ε) (slot : UInt32) (value : UInt64) : World ε :=
  let m := (w.mem.store avbReq 8 value.toNat).store avbReqSlot 4 slot.toNat
  w.setMem (m.store avbRespSize 4 8)

/-- The value is stored whatever the outcome. -/
def trustyReadRollbackIndex (t : Transport ε) (slot : UInt32) (value : Ptr Obj) (w : World ε) :
    Option (Int × World ε) := do
  let (rc, w) ← avbDoTipc t readRollbackIndex (some avbReq) 12 (some avbResp) (some avbRespSize)
    (setRollbackReq w slot 0)
  some (rc, w.setMem (w.mem.store value 8 (w.mem.load avbResp 8)))

def trustyWriteRollbackIndex (t : Transport ε) (slot : UInt32) (value : UInt64) (w : World ε) :
    Option (Int × World ε) :=
  avbDoTipc t writeRollbackIndex (some avbReq) 12 (some avbResp) (some avbRespSize)
    (setRollbackReq w slot value)

def trustyReadPermanentAttributes (t : Transport ε) (attributes : Ptr Obj) (size : UInt32)
    (w : World ε) : Option (Int × World ε) := do
  let w := w.setMem (w.mem.store avbRespSize 4 avbMaxBufferLength)
  let (rc, w) ← avbDoTipc t readPermanentAttributes none 0 (some avbResp) (some avbRespSize) w
  if rc ≠ 0 then some (rc, w)
  else
    let respSize := w.mem.load avbRespSize 4
    if size.toNat ≠ respSize then some (trustyErrInvalidArgs, w)
    else some (rc, w.setMem (w.mem.write attributes (w.mem.read avbResp respSize)))

def trustyWritePermanentAttributes (t : Transport ε) (attributes : Option (Ptr Obj))
    (size : UInt32) (w : World ε) : Option (Int × World ε) :=
  avbDoTipc t writePermanentAttributes attributes size none none w

def trustyReadLockState (t : Transport ε) (lockState : Ptr Obj) (w : World ε) :
    Option (Int × World ε) :=
  avbDoTipc t readLockState none 0 (some lockState) (some avbRespSize)
    (w.setMem (w.mem.store avbRespSize 4 1))

def trustyWriteLockState (t : Transport ε) (lockState : UInt8) (w : World ε) :
    Option (Int × World ε) :=
  avbDoTipc t writeLockState (some avbReq) 1 none none (w.setMem (w.mem.write avbReq [lockState]))

def trustyLockBootState (t : Transport ε) (w : World ε) : Option (Int × World ε) :=
  avbDoTipc t lockBootState none 0 none none w

end ExternalTrusty
