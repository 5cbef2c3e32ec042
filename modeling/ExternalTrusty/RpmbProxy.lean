import ExternalTrusty.Avb

namespace ExternalTrusty

open CMemory

variable {ε : Type}

def storageRespBit : Nat := 1
def storageRpmbSend : Nat := 16

def storageNoError : Nat := 0
def storageErrGeneric : Nat := 1
def storageErrNotValid : Nat := 2
def storageErrUnimplemented : Nat := 3

def mmcBlockSize : Nat := 512

def trustyEventHandled : Int := 1
def trustyEventNone : Int := 2

/-- The width of pointers and of `size_t` on the target. -/
inductive Target
  | bits32
  | bits64
  deriving DecidableEq

def Target.sizeofPtr : Target → Nat
  | .bits32 => 4
  | .bits64 => 8

/-- Reduction to the target's `size_t`. -/
def Target.size (target : Target) (n : Nat) : Nat := n % 2 ^ (8 * target.sizeofPtr)

@[simp] theorem Target.sizeofPtr_bits64 : Target.bits64.sizeofPtr = 8 := rfl

@[simp] theorem Target.size_bits64 (n : Nat) : Target.bits64.size n = n % 2 ^ 64 := rfl

def storageDiskProxyPort : CString where
  chars := "com.android.trusty.storage.proxy".toList.map fun c => c.toNat.toUInt8
  nonzero := by simp
  fits := by simp

/-- `struct storage_msg`: cmd, op_id, flags, size, result and a reserved word -/
def reqMsg : Ptr Obj := ⟨.reqMsg, 0⟩
def sizeofStorageMsg : Nat := 24
def storageMsgResult (msg : Ptr Obj) : Ptr Obj := msg.add 16

def reqBuf : Ptr Obj := ⟨.reqBuf, 0⟩
def sizeofReqBuf : Nat := 4096
def readBuf : Ptr Obj := ⟨.readBuf, 0⟩
def sizeofReadBuf : Nat := 4096

/-- `struct storage_rpmb_send_req`: the three sizes, a reserved word, and the payload -/
def sizeofStorageRpmbSendReq : Nat := 16

def proxyReadRequest (t : Transport ε) (chan : Component) (msg req : Ptr Obj) (reqLen : Nat)
    (w : World ε) : Option (Int × World ε) := do
  let (rc, w) ← t.recv chan [⟨msg, 24⟩, ⟨req, UInt64.ofNat reqLen⟩] false w
  if rc < 0 then some (rc, w)
  else if intToUsize rc < sizeofStorageMsg then some (trustyErrGeneric, w)
  else some (toInt (usizeSub (intToUsize rc) sizeofStorageMsg), w)

def proxySendResponse (t : Transport ε) (chan : Component) (msg : Ptr Obj)
    (resp : Option (Ptr Obj)) (respLen : Nat) (w : World ε) : Option (Int × World ε) :=
  let w := w.setMem (w.mem.store msg 4 (w.mem.load msg 4 ||| storageRespBit))
  t.send chan (twoIovs msg 24 resp (UInt64.ofNat respLen)) false w

def setResult (msg : Ptr Obj) (result : Nat) (w : World ε) : World ε :=
  w.setMem (w.mem.store (storageMsgResult msg) 4 result)

/-- `err_response`, with the result that was set on the way there. -/
def errResponse (t : Transport ε) (chan : Component) (msg : Ptr Obj) (result : Nat)
    (w : World ε) : Option (Int × World ε) :=
  proxySendResponse t chan msg none 0 (setResult msg result w)

/-- The end of `proxy_handle_rpmb`, once the request is checked. -/
def proxyExecute (t : Transport ε) (dev : RpmbDevice ε) (chan : Component) (msg r : Ptr Obj)
    (relWriteData : Option (Ptr Obj)) (reliableWriteSize : Nat) (writeData : Option (Ptr Obj))
    (writeSize readSize : Nat) (w : World ε) : Option (Int × World ε) :=
  let (rc, w) :=
    dev.storageSend relWriteData reliableWriteSize writeData writeSize readBuf readSize w
  if rc ≠ 0 then errResponse t chan msg storageErrGeneric w
  else
    let w := setResult msg storageNoError w
    proxySendResponse t chan msg (some readBuf) (w.mem.load (r.add 8) 4) w

def proxyHandleRpmb (target : Target) (t : Transport ε) (dev : RpmbDevice ε) (chan : Component)
    (msg r : Ptr Obj) (reqLen : Nat) (w : World ε) : Option (Int × World ε) :=
  let reliableWriteSize := w.mem.load r 4
  let writeSize := w.mem.load (r.add 4) 4
  let readSize := w.mem.load (r.add 8) 4
  let payload := r.add sizeofStorageRpmbSendReq
  -- the size of the pointer, not of what it points to
  if reqLen < target.sizeofPtr then errResponse t chan msg storageErrNotValid w
  else if reqLen ≠ target.size (target.size (sizeofStorageRpmbSendReq + reliableWriteSize) +
      writeSize) then
    errResponse t chan msg storageErrNotValid w
  else if reliableWriteSize ≠ 0 ∧ reliableWriteSize % mmcBlockSize ≠ 0 then
    errResponse t chan msg storageErrNotValid w
  else
    let relWriteData := if reliableWriteSize ≠ 0 then some payload else none
    if writeSize ≠ 0 ∧ writeSize % mmcBlockSize ≠ 0 then
      errResponse t chan msg storageErrNotValid w
    else
      let writeData := if writeSize ≠ 0 then some (payload.add reliableWriteSize) else none
      if readSize ≠ 0 ∧ (readSize % mmcBlockSize ≠ 0 ∨ readSize > sizeofReadBuf) then
        errResponse t chan msg storageErrNotValid w
      else
        proxyExecute t dev chan msg r relWriteData reliableWriteSize writeData writeSize readSize w

def proxyHandleReq (target : Target) (t : Transport ε) (dev : RpmbDevice ε) (chan : Component)
    (msg req : Ptr Obj) (reqLen : Nat) (w : World ε) : Option (Int × World ε) :=
  if w.mem.load msg 4 = storageRpmbSend then proxyHandleRpmb target t dev chan msg req reqLen w
  -- the file commands and the default
  else errResponse t chan msg storageErrUnimplemented w

def proxyOnDisconnect (chan : Component) (w : World ε) : Int × World ε :=
  (trustyEventHandled,
    { w with chans := Function.update w.chans chan { w.chans chan with handle := 0 } })

def proxyOnMessage (target : Target) (t : Transport ε) (dev : RpmbDevice ε) (chan : Component)
    (w : World ε) : Option (Int × World ε) := do
  let (rc, w) ← proxyReadRequest t chan reqMsg reqBuf sizeofReqBuf w
  if rc < 0 then some (rc, (t.close chan w).2)
  else
    let (rc, w) ← proxyHandleReq target t dev chan reqMsg reqBuf (intToUsize rc) w
    if rc < 0 then some (rc, (t.close chan w).2) else some (trustyEventHandled, w)

end ExternalTrusty
