import ExternalTrusty.Avb

namespace ExternalTrusty

open CMemory

variable {ε : Type}

def keymasterRespBit : Nat := 1
def keymasterStopBit : Nat := 2
def keymasterMaxBufferLength : Nat := 4096

def kmGetVersionCmd : Nat := 7 * 4
def kmSetBootParams : Nat := 0x1000 * 4
def kmSetAttestationKey : Nat := 0x2000 * 4
def kmAppendAttestationCertChain : Nat := 0x3000 * 4
def kmAtapGetCaRequest : Nat := 0x4000 * 4
def kmAtapSetCaResponseBegin : Nat := 0x5000 * 4
def kmAtapSetCaResponseUpdate : Nat := 0x6000 * 4
def kmAtapSetCaResponseFinish : Nat := 0x7000 * 4
def kmAtapReadUuid : Nat := 0x8000 * 4

def kmErrorOk : Nat := 0
def trustyKmVersion : Int := 2

def keymasterPort : CString where
  chars := "com.android.trusty.keymaster".toList.map fun c => c.toNat.toUInt8
  nonzero := by simp
  fits := by simp

/-- The `struct keymaster_message` locals, one in each function that has one. -/
def kmSendHeader : Ptr Obj := ⟨.kmSendHeader, 0⟩
def kmRawHeader : Ptr Obj := ⟨.kmRawHeader, 0⟩
def kmDataHeader : Ptr Obj := ⟨.kmDataHeader, 0⟩
def sizeofKeymasterMessage : Nat := 4

/-- The `error` of `struct km_no_response` -/
def kmRespHeader : Ptr Obj := ⟨.kmRespHeader, 0⟩
def sizeofKmNoResponse : Nat := 4

/-- `struct km_get_version_resp`: the error, then the version's three bytes -/
def kmVersionResp : Ptr Obj := ⟨.kmVersionResp, 0⟩
def sizeofKmGetVersionResp : Nat := 7

def kmSendRequest (t : Transport ε) (cmd : Nat) (req : Option (Ptr Obj)) (reqLen : UInt32)
    (w : World ε) : Option (Int × World ε) :=
  t.send .km (twoIovs kmSendHeader 4 req reqLen.toUInt64) true
    (w.setMem (w.mem.store kmSendHeader 4 cmd))

/-- `header.cmd & ~KEYMASTER_STOP_BIT` -/
def clearStop (cmd : Nat) : Nat := cmd &&& 0xfffffffd

def isStop (cmd : Nat) : Prop := cmd &&& keymasterStopBit ≠ 0

instance (cmd : Nat) : Decidable (isStop cmd) := inferInstanceAs (Decidable (_ ≠ _))

def checkResponseError (expectedCmd headerCmd : Nat) (tipcResult : Int) : Int :=
  if tipcResult < 0 then tipcResult
  else if intToUsize tipcResult < sizeofKeymasterMessage then trustyErrGeneric
  else if clearStop headerCmd ≠ expectedCmd ||| keymasterRespBit then trustyErrGeneric
  else tipcResult

/-- `MIN(KEYMASTER_MAX_BUFFER_LENGTH, (int)max_resp_len - (int)resp_len)`, as a `size_t` -/
def rawRoom (maxRespLen respLen : Nat) : Nat :=
  intToUsize (min keymasterMaxBufferLength (intSub (toInt maxRespLen) (toInt respLen)))

/-- The loop of `km_read_raw_response`. -/
def kmReadRawLoop (t : Transport ε) (cmd : Nat) (resp : Ptr Obj) (maxRespLen : Nat) :
    Nat → Nat → World ε → Option (Int × World ε)
  | 0, _, _ => none
  | fuel + 1, respLen, w => do
    let iovs : List Iovec :=
      [⟨kmRawHeader, 4⟩, ⟨resp.add respLen, UInt64.ofNat (rawRoom maxRespLen respLen)⟩]
    let (rc, w) ← t.recv .km iovs true w
    let rc := checkResponseError cmd (w.mem.load kmRawHeader 4) rc
    if rc < 0 then some (rc, w)
    else
      let respLen := usize (respLen + usizeSub (intToUsize rc) sizeofKeymasterMessage)
      if isStop (w.mem.load kmRawHeader 4) ∨ respLen ≥ maxRespLen then some (toInt respLen, w)
      else kmReadRawLoop t cmd resp maxRespLen fuel respLen w

def kmReadRawResponse (t : Transport ε) (fuel : Nat) (cmd : Nat) (resp : Option (Ptr Obj))
    (respLen : Nat) (w : World ε) : Option (Int × World ε) :=
  let w := w.setMem (w.mem.store kmRawHeader 4 cmd)
  match resp with
  | none => some (trustyErrGeneric, w)
  | some p => kmReadRawLoop t cmd p respLen fuel 0 w

/-- The buffers of the first read of a response with data. -/
def dataIovs (error respData respDataLen : Ptr Obj) (maxRespLen : Nat) : List Iovec :=
  [⟨kmDataHeader, 4⟩, ⟨error, 4⟩, ⟨respDataLen, 4⟩,
    ⟨respData, UInt64.ofNat (min keymasterMaxBufferLength maxRespLen)⟩]

def kmReadDataResponse (t : Transport ε) (fuel : Nat) (cmd : Nat)
    (error respData respDataLen : Ptr Obj) (w : World ε) : Option (Int × World ε) := do
  let w := w.setMem (w.mem.store kmDataHeader 4 cmd)
  let maxRespLen := w.mem.load respDataLen 4
  let (rc, w) ← t.recv .km (dataIovs error respData respDataLen maxRespLen) true w
  let rc := checkResponseError cmd (w.mem.load kmDataHeader 4) rc
  if rc < 0 then some (rc, w)
  else
    let respDataBytes := u32 (usizeSub (usizeSub (intToUsize rc) sizeofKeymasterMessage) 8)
    if isStop (w.mem.load kmDataHeader 4) then some (trustyErrNone, w)
    else
      let remaining := u32Sub (w.mem.load respDataLen 4) respDataBytes
      let (rc, w) ← kmReadRawResponse t fuel cmd (some (respData.add respDataBytes)) remaining w
      if rc < 0 then some (rc, w)
      else
        let respDataBytes := u32 (respDataBytes + rc.toNat)
        if w.mem.load respDataLen 4 ≠ respDataBytes then some (trustyErrGeneric, w)
        else some (trustyErrNone, w)

/-- Asked for data without a length to put, it faults. -/
def kmDoTipc (t : Transport ε) (fuel : Nat) (cmd : Nat) (req : Option (Ptr Obj)) (reqLen : UInt32)
    (respData respDataLen : Option (Ptr Obj)) (w : World ε) : Option (Int × World ε) := do
  let (rc, w) ← kmSendRequest t cmd req reqLen w
  if rc < 0 then some (rc, w)
  else
    let (rc, w) ←
      match respData, respDataLen with
      | none, _ => kmReadRawResponse t fuel cmd (some kmRespHeader) sizeofKmNoResponse w
      | some data, some len => kmReadDataResponse t fuel cmd kmRespHeader data len w
      | some _, none => none
    if rc < 0 then some (rc, w)
    else if w.mem.load kmRespHeader 4 ≠ kmErrorOk then some (trustyErrGeneric, w)
    else some (trustyErrNone, w)

def messageVersion (majorVer minorVer _subminorVer : UInt8) : Int :=
  if majorVer = 0 then 0
  else if majorVer = 1 then
    if minorVer = 0 then 1 else if minorVer = 1 then 2 else -1
  else if majorVer = 2 then 3
  else -1

/-- The version is only set on success. -/
def kmGetVersion (t : Transport ε) (fuel : Nat) (version : Int) (w : World ε) :
    Option (Int × Int × World ε) := do
  let (rc, w) ← kmSendRequest t kmGetVersionCmd none 0 w
  if rc < 0 then some (rc, version, w)
  else
    let (rc, w) ←
      kmReadRawResponse t fuel kmGetVersionCmd (some kmVersionResp) sizeofKmGetVersionResp w
    if rc < 0 then some (rc, version, w)
    else some (trustyErrNone, messageVersion (w.mem.bytes .kmVersionResp 4)
      (w.mem.bytes .kmVersionResp 5) (w.mem.bytes .kmVersionResp 6), w)

def kmTipcInit (t : Transport ε) (fuel : Nat) (w : World ε) : Option (Int × World ε) := do
  let (rc, w) ← t.connect .km keymasterPort (trustyIpcChanInit .km w)
  if rc < 0 then some (rc, w)
  else
    let w := w.setInitialized .km true
    let (rc, version, w) ← kmGetVersion t fuel (-1) w
    if rc < 0 then some (rc, w)
    else if version < trustyKmVersion then some (trustyErrGeneric, w)
    else some (trustyErrNone, w)

def kmTipcShutdown (t : Transport ε) (w : World ε) : World ε :=
  if w.initialized .km = false then w else (t.close .km w).2.setInitialized .km false

end ExternalTrusty
