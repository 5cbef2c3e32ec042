import ExternalTrusty.Keymaster

namespace ExternalTrusty

open CMemory

variable {ε : Type}

def hwbccCmdRespBit : Nat := 1
def hwbccCmdGetDiceArtifacts : Nat := 3 * 2
def hwbccCmdNsDeprivilege : Nat := 4 * 2

/-- `NO_ERROR` -/
def noError : Nat := 0

def hwbccPort : CString where
  chars := "com.android.trusty.hwbcc".toList.map fun c => c.toNat.toUInt8
  nonzero := by simp
  fits := by simp

/-- `struct hwbcc_req_hdr`: the command, the test mode, and the context -/
def hwbccReq : Ptr Obj := ⟨.hwbccReq, 0⟩
def hwbccReqContext : Ptr Obj := ⟨.hwbccReq, 8⟩
def sizeofHwbccReqHdr : Nat := 16

/-- `struct hwbcc_resp_hdr`: the command, the status, and the size of the payload -/
def hwbccResp : Ptr Obj := ⟨.hwbccResp, 0⟩
def hwbccRespStatus : Ptr Obj := ⟨.hwbccResp, 4⟩
def hwbccRespPayloadSize : Ptr Obj := ⟨.hwbccResp, 8⟩
def sizeofHwbccRespHdr : Nat := 12

def hwbccTipcInit (t : Transport ε) (w : World ε) : Option (Int × World ε) := do
  let (rc, w) ← t.connect .hwbcc hwbccPort (trustyIpcChanInit .hwbcc w)
  if rc < 0 then some (rc, w) else some (trustyErrNone, w.setInitialized .hwbcc true)

def hwbccTipcShutdown (t : Transport ε) (w : World ε) : World ε :=
  if w.initialized .hwbcc = false then w
  else (t.close .hwbcc w).2.setInitialized .hwbcc false

def sendHeaderOnlyRequest (t : Transport ε) (w : World ε) : Option (Int × World ε) :=
  t.send .hwbcc [⟨hwbccReq, 16⟩] true w

/-- The checks of a response's header that both kinds of response have. -/
def checkHwbccResponse (rc : Int) (w : World ε) : Int :=
  if rc < 0 then rc
  else if intToUsize rc < sizeofHwbccRespHdr then trustyErrGeneric
  else if w.mem.load hwbccResp 4 ≠ w.mem.load hwbccReq 4 ||| hwbccCmdRespBit then trustyErrGeneric
  else if w.mem.load hwbccRespStatus 4 ≠ noError then trustyErrGeneric
  else rc

/-- The response's header starts out zeroed. -/
def zeroHwbccResp (w : World ε) : World ε :=
  w.setMem (w.mem.memset hwbccResp 0 sizeofHwbccRespHdr)

def readResponseWithData (t : Transport ε) (buf : Ptr Obj) (bufSize : UInt64) (outSize : Ptr Obj)
    (w : World ε) : Option (Int × World ε) := do
  let (rc, w) ← t.recv .hwbcc [⟨hwbccResp, 12⟩, ⟨buf, bufSize⟩] true (zeroHwbccResp w)
  let rc := checkHwbccResponse rc w
  if rc < 0 then some (rc, w)
  else
    let payloadSize := w.mem.load hwbccRespPayloadSize 4
    if payloadSize ≠ usizeSub (intToUsize rc) sizeofHwbccRespHdr then some (trustyErrGeneric, w)
    else some (rc, w.setMem (w.mem.store outSize 8 payloadSize))

def readHeaderOnlyResponse (t : Transport ε) (w : World ε) : Option (Int × World ε) := do
  let (rc, w) ← t.recv .hwbcc [⟨hwbccResp, 12⟩] true (zeroHwbccResp w)
  some (checkHwbccResponse rc w, w)

/-- The request's test mode is left as it is. -/
def hwbccGetDiceArtifacts (t : Transport ε) (context : UInt64) (diceArtifacts : Ptr Obj)
    (bufSize : UInt64) (diceArtifactsSize : Ptr Obj) (w : World ε) : Option (Int × World ε) := do
  let w := w.setMem ((w.mem.store hwbccReq 4 hwbccCmdGetDiceArtifacts).store hwbccReqContext 8
    context.toNat)
  let (rc, w) ← sendHeaderOnlyRequest t w
  if rc < 0 then some (rc, w)
  else
    let (rc, w) ← readResponseWithData t diceArtifacts bufSize diceArtifactsSize w
    if rc < 0 then some (rc, w) else some (trustyErrNone, w)

def hwbccNsDeprivilege (t : Transport ε) (w : World ε) : Option (Int × World ε) := do
  let w := w.setMem ((w.mem.memset hwbccReq 0 sizeofHwbccReqHdr).store hwbccReq 4
    hwbccCmdNsDeprivilege)
  let (rc, w) ← sendHeaderOnlyRequest t w
  if rc < 0 then some (rc, w)
  else
    let (rc, w) ← readHeaderOnlyResponse t w
    if rc < 0 then some (rc, w) else some (trustyErrNone, w)

end ExternalTrusty
