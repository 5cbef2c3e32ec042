import ExternalTrusty.Iovec

namespace ExternalTrusty

open CMemory

def qlTipcDevResp : Nat := 0x8000
def qlTipcDevConnect : Nat := 0x1
def qlTipcDevGetEvent : Nat := 0x2
def qlTipcDevSend : Nat := 0x3
def qlTipcDevRecv : Nat := 0x4
def qlTipcDevDisconnect : Nat := 0x5
def qlTipcDevFcHasEvent : Nat := 0x100

def smcScTrustyIpcHandleQlDevCmd : UInt32 := 0x32000020
def smcFcHandleQlTipcDevCmd : UInt32 := 0xb2000020

/-- `struct trusty_ipc_cmd_hdr`, at the start of the shared buffer -/
def cmdHdr : Ptr Page := ⟨.shared, 0⟩
def cmdOpcode : Ptr Page := ⟨.shared, 0⟩
def cmdStatus : Ptr Page := ⟨.shared, 4⟩
def cmdHandle : Ptr Page := ⟨.shared, 8⟩
def cmdPayloadLen : Ptr Page := ⟨.shared, 12⟩
def cmdPayload : Ptr Page := ⟨.shared, 16⟩
def sizeofCmdHdr : Nat := 16

/-- `sizeof(struct trusty_ipc_connect_req)`, and its fields in the payload -/
def sizeofConnectReq : Nat := 16
def connectReqCookie : Ptr Page := ⟨.shared, 16⟩
def connectReqName : Ptr Page := ⟨.shared, 32⟩

def sizeofWaitReq : Nat := 8
def sizeofIpcEvent : Nat := 16

/-- `struct trusty_ipc_event` -/
structure IpcEvent where
  event : UInt32
  handle : UInt32
  cookie : UInt64
  deriving DecidableEq

/-- A NUL-terminated string, without its terminator. -/
structure CString where
  chars : List UInt8
  nonzero : 0 ∉ chars
  fits : chars.length + 1 < 2 ^ 64

/-- `struct trusty_ipc_dev`. The size is the one `trusty_ipc_dev_create` asserts:
a whole number of pages, and not none. -/
structure IpcDev where
  bufSize : UInt64
  bufId : UInt64
  aligned : bufSize.toNat % pageSize = 0
  positive : 0 < bufSize.toNat

theorem IpcDev.pageSize_le (dev : IpcDev) : 4096 ≤ dev.bufSize.toNat := by
  have ha := dev.aligned
  have hp := dev.positive
  unfold pageSize at ha
  omega

/-- One call into the secure OS on behalf of the device, with the shared pages as they stand. -/
structure Smc where
  nr : UInt32
  bufId : UInt64
  size : Nat
  page : Mem Page

/-- The secure side: each call returns a code and leaves new contents in the shared buffer. -/
structure SecureOs (σ : Type) where
  exec : Smc → σ → Int × (Nat → UInt8) × σ

/-- What the device functions work on besides the program: the shared pages, the calls made so
far, and the secure OS. -/
structure DevEnv (σ : Type) where
  page : Mem Page
  smcs : List Smc
  os : σ

variable {σ : Type}

def World.withPage (w : World (DevEnv σ)) (page : Mem Page) : World (DevEnv σ) :=
  { w with env := { w.env with page := page } }

/-- The secure OS can only write inside the shared buffer. -/
def IpcDev.respond (dev : IpcDev) (page : Mem Page) (reply : Nat → UInt8) : Mem Page :=
  { page with
    bytes := fun b i => if b = .shared ∧ i < dev.bufSize.toNat then reply i else page.bytes b i }

def trustyDevCall (os : SecureOs σ) (dev : IpcDev) (nr : UInt32) (size : Nat)
    (w : World (DevEnv σ)) : Int × World (DevEnv σ) :=
  let smc : Smc := ⟨nr, dev.bufId, size, w.env.page⟩
  let r := os.exec smc w.env.os
  (r.1, { w with env := ⟨dev.respond w.env.page r.2.1, w.env.smcs ++ [smc], r.2.2⟩ })

def trustyDevExecIpc (os : SecureOs σ) (dev : IpcDev) (size : Nat) (w : World (DevEnv σ)) :
    Int × World (DevEnv σ) :=
  trustyDevCall os dev smcScTrustyIpcHandleQlDevCmd (u32 size) w

def trustyDevExecFcIpc (os : SecureOs σ) (dev : IpcDev) (size : Nat) (w : World (DevEnv σ)) :
    Int × World (DevEnv σ) :=
  trustyDevCall os dev smcFcHandleQlTipcDevCmd (u32 size) w

def checkResponse (page : Mem Page) (cmd : Nat) : Int :=
  if page.load cmdOpcode 2 ≠ cmd ||| qlTipcDevResp then trustyErrSecosErr
  else if page.load cmdStatus 4 ≠ 0 then trustyErrSecosErr
  else trustyErrNone

/-- `sizeof(*cmd) + cmd->payload_len` -/
def cmdSize (page : Mem Page) : Nat := usize (sizeofCmdHdr + page.load cmdPayloadLen 4)

def prepareHdr (page : Mem Page) (opcode : Nat) : Mem Page :=
  (page.memset cmdHdr 0 sizeofCmdHdr).store cmdOpcode 2 opcode

def prepareConnect (page : Mem Page) (port : CString) (cookie : UInt64) : Mem Page :=
  let page := prepareHdr page qlTipcDevConnect
  let page := page.memset cmdPayload 0 sizeofConnectReq
  let page := page.store connectReqCookie 8 cookie.toNat
  let page := page.write connectReqName (port.chars ++ [0])
  page.store cmdPayloadLen 4 (u32 (sizeofConnectReq + (port.chars.length + 1)))

def trustyIpcDevConnect (os : SecureOs σ) (dev : IpcDev) (port : CString) (cookie : UInt64)
    (w : World (DevEnv σ)) : Int × World (DevEnv σ) :=
  let portLen := port.chars.length + 1
  if portLen > usize (usizeSub dev.bufSize.toNat sizeofCmdHdr + sizeofConnectReq) then
    (trustyErrInvalidArgs, w)
  else
    let page := prepareConnect w.env.page port cookie
    let r := trustyDevExecIpc os dev (cmdSize page) (w.withPage page)
    if r.1 ≠ 0 then (trustyErrSecosErr, r.2)
    else
      let rc := checkResponse r.2.env.page qlTipcDevConnect
      if rc ≠ 0 then (rc, r.2) else (toInt (r.2.env.page.load cmdHandle 4), r.2)

def prepareClose (page : Mem Page) (handle : UInt32) : Mem Page :=
  (prepareHdr page qlTipcDevDisconnect).store cmdHandle 4 handle.toNat

def trustyIpcDevClose (os : SecureOs σ) (dev : IpcDev) (handle : UInt32) (w : World (DevEnv σ)) :
    Int × World (DevEnv σ) :=
  let page := prepareClose w.env.page handle
  let r := trustyDevExecIpc os dev (cmdSize page) (w.withPage page)
  if r.1 ≠ 0 then (trustyErrSecosErr, r.2)
  else
    let rc := checkResponse r.2.env.page qlTipcDevDisconnect
    if rc ≠ 0 then (rc, r.2) else (trustyErrNone, r.2)

def prepareHasEvent (page : Mem Page) (chan : UInt32) : Mem Page :=
  let page := (prepareHdr page qlTipcDevFcHasEvent).store cmdHandle 4 chan.toNat
  page.store cmdPayloadLen 4 0

def trustyIpcDevHasEvent (os : SecureOs σ) (dev : IpcDev) (chan : UInt32) (w : World (DevEnv σ)) :
    Bool × World (DevEnv σ) :=
  let page := prepareHasEvent w.env.page chan
  let r := trustyDevExecFcIpc os dev (cmdSize page) (w.withPage page)
  if r.1 ≠ 0 then (false, r.2)
  else if checkResponse r.2.env.page qlTipcDevFcHasEvent ≠ 0 then (false, r.2)
  else if r.2.env.page.load cmdPayloadLen 4 < 1 then (false, r.2)
  else (r.2.env.page.load cmdPayload 1 ≠ 0, r.2.withPage (r.2.env.page.touch cmdPayload 1))

def prepareGetEvent (page : Mem Page) (chan : UInt32) : Mem Page :=
  let page := (prepareHdr page qlTipcDevGetEvent).store cmdHandle 4 chan.toNat
  let page := page.memset cmdPayload 0 sizeofWaitReq
  page.store cmdPayloadLen 4 sizeofWaitReq

def readEvent (page : Mem Page) : IpcEvent where
  event := UInt32.ofNat (page.load cmdPayload 4)
  handle := UInt32.ofNat (page.load (cmdPayload.add 4) 4)
  cookie := UInt64.ofNat (page.load (cmdPayload.add 8) 8)

/-- The event is only written on success. -/
def trustyIpcDevGetEvent (os : SecureOs σ) (dev : IpcDev) (chan : UInt32) (w : World (DevEnv σ)) :
    Except Int IpcEvent × World (DevEnv σ) :=
  let page := prepareGetEvent w.env.page chan
  let r := trustyDevExecIpc os dev (cmdSize page) (w.withPage page)
  if r.1 ≠ 0 then (.error trustyErrSecosErr, r.2)
  else
    let rc := checkResponse r.2.env.page qlTipcDevGetEvent
    if rc ≠ 0 then (.error rc, r.2)
    else if r.2.env.page.load cmdPayloadLen 4 < sizeofIpcEvent then (.error trustyErrSecosErr, r.2)
    else (.ok (readEvent r.2.env.page),
      r.2.withPage (r.2.env.page.touch cmdPayload sizeofIpcEvent))

/-- The header of a send, before the payload is gathered. -/
def prepareSend (page : Mem Page) (chan : UInt32) (msgSize : Nat) : Mem Page :=
  let page := (prepareHdr page qlTipcDevSend).store cmdHandle 4 chan.toNat
  page.store cmdPayloadLen 4 (u32 msgSize)

def trustyIpcDevSend (os : SecureOs σ) (dev : IpcDev) (chan : UInt32) (iovs : List Iovec)
    (w : World (DevEnv σ)) : Int × World (DevEnv σ) :=
  let msgSize := iovecSize iovs
  if msgSize > usizeSub dev.bufSize.toNat sizeofCmdHdr then (trustyErrMsgTooBig, w)
  else
    let page := prepareSend w.env.page chan msgSize
    let g := iovecToBuf w.mem page (cmdHdr.add sizeofCmdHdr) 0
      (usizeSub dev.bufSize.toNat sizeofCmdHdr) iovs
    let w := { w.withPage g.2.2 with mem := g.2.1 }
    let r := trustyDevExecIpc os dev (cmdSize w.env.page) w
    if r.1 < 0 then (trustyErrSecosErr, r.2)
    else (checkResponse r.2.env.page qlTipcDevSend, r.2)

def prepareRecv (page : Mem Page) (chan : UInt32) : Mem Page :=
  (prepareHdr page qlTipcDevRecv).store cmdHandle 4 chan.toNat

/-- What `trusty_ipc_dev_recv` does with the answer to its command. -/
def finishRecv (iovs : List Iovec) (r : Int × World (DevEnv σ)) : Int × World (DevEnv σ) :=
  if r.1 < 0 then (trustyErrSecosErr, r.2)
  else
    let rc := checkResponse r.2.env.page qlTipcDevRecv
    if rc ≠ 0 then (rc, r.2)
    else
      let payloadLen := r.2.env.page.load cmdPayloadLen 4
      let c := bufToIovec r.2.env.page r.2.mem iovs cmdPayload payloadLen
      let w := { r.2.withPage c.2.1 with mem := c.2.2 }
      if c.1 ≠ w.env.page.load cmdPayloadLen 4 then (trustyErrMsgTooBig, w) else (toInt c.1, w)

/-- The answer to a RECV command, as the secure OS leaves it. -/
def execRecv (os : SecureOs σ) (dev : IpcDev) (chan : UInt32) (w : World (DevEnv σ)) :
    Int × World (DevEnv σ) :=
  let page := prepareRecv w.env.page chan
  trustyDevExecIpc os dev (cmdSize page) (w.withPage page)

def trustyIpcDevRecv (os : SecureOs σ) (dev : IpcDev) (chan : UInt32) (iovs : List Iovec)
    (w : World (DevEnv σ)) : Int × World (DevEnv σ) :=
  finishRecv iovs (execRecv os dev chan w)

end ExternalTrusty
