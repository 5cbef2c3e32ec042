import ExternalTrusty.Keymaster
import ExternalTrusty.KeymasterSerializable

namespace ExternalTrusty

open CMemory

variable {ε : Type}

def kMaxCaRequestSize : Nat := 10000
def kMaxSendSize : Nat := 4000
def kUuidSize : Nat := 32

/-- The locals `begin_req` and `response_size` -/
def kmBeginReq : Ptr Obj := ⟨.kmReq, 0⟩
def kmResponseSize : Ptr Obj := ⟨.kmRespSize, 0⟩

/-- The address that a pointer is stored as, and the object that an address leads to. -/
structure Addresses where
  address : Option (Ptr Obj) → UInt64
  object : UInt64 → Option (Ptr Obj)

def Addresses.store (a : Addresses) (m : Mem Obj) (cell : Ptr Obj) (p : Option (Ptr Obj)) :
    Mem Obj :=
  m.store cell 8 (a.address p).toNat

def Addresses.load (a : Addresses) (m : Mem Obj) (cell : Ptr Obj) : Option (Ptr Obj) :=
  a.object (UInt64.ofNat (m.load cell 8))

/-- What the callers of a serialize function do with its result. They free the request at the end,
and use nothing of it after that. -/
def sendSerialized (t : Transport ε) (fuel : Nat) (cmd : Nat)
    (respData respDataSize : Option (Ptr Obj)) (s : Serialized) (w : World ε) :
    Option (Int × World ε) :=
  if s.rc < 0 then some (s.rc, w.setMem s.mem)
  else kmDoTipc t fuel cmd s.out (UInt32.ofNat s.outSize) respData respDataSize (w.setMem s.mem)

def trustySetBootParams (t : Transport ε) (heap : Nat → Option Nat) (fuel : Nat)
    (osVersion osPatchlevel verifiedBootState : UInt32) (deviceLocked : Bool)
    (verifiedBootKeyHash : Option (Ptr Obj)) (verifiedBootKeyHashSize : UInt32)
    (verifiedBootHash : Option (Ptr Obj)) (verifiedBootHashSize : UInt32) (w : World ε) :
    Option (Int × World ε) :=
  let params : KmBootParams :=
    ⟨osVersion, osPatchlevel, if deviceLocked then 1 else 0, verifiedBootState,
      verifiedBootKeyHashSize, verifiedBootKeyHash, verifiedBootHashSize, verifiedBootHash⟩
  sendSerialized t fuel kmSetBootParams none none (kmBootParamsSerialize heap params w.mem) w

def trustySendAttestationData (t : Transport ε) (heap : Nat → Option Nat) (fuel : Nat) (cmd : Nat)
    (data : Option (Ptr Obj)) (dataSize : UInt32) (algorithm : UInt32) (w : World ε) :
    Option (Int × World ε) :=
  sendSerialized t fuel cmd none none
    (kmAttestationDataSerialize heap ⟨algorithm, dataSize, data⟩ w.mem) w

def trustySendRawBuffer (t : Transport ε) (heap : Nat → Option Nat) (fuel : Nat) (cmd : Nat)
    (reqData : Option (Ptr Obj)) (reqDataSize : UInt32) (respData respDataSize : Option (Ptr Obj))
    (w : World ε) : Option (Int × World ε) :=
  sendSerialized t fuel cmd respData respDataSize
    (kmRawBufferSerialize heap ⟨reqDataSize, reqData⟩ w.mem) w

def trustySetAttestationKey (t : Transport ε) (heap : Nat → Option Nat) (fuel : Nat)
    (key : Option (Ptr Obj)) (keySize algorithm : UInt32) (w : World ε) : Option (Int × World ε) :=
  trustySendAttestationData t heap fuel kmSetAttestationKey key keySize algorithm w

def trustyAppendAttestationCertChain (t : Transport ε) (heap : Nat → Option Nat) (fuel : Nat)
    (cert : Option (Ptr Obj)) (certSize algorithm : UInt32) (w : World ε) :
    Option (Int × World ε) :=
  trustySendAttestationData t heap fuel kmAppendAttestationCertChain cert certSize algorithm w

/-- `heap i` picks the object of the call's `i`-th allocation. -/
def trustyAtapGetCaRequest (t : Transport ε) (a : Addresses) (heap : Nat → Nat → Option Nat)
    (fuel : Nat) (operationStart : Option (Ptr Obj)) (operationStartSize : UInt32)
    (caRequestP caRequestSizeP : Ptr Obj) (w : World ε) : Option (Int × World ε) :=
  match trustyCalloc (heap 0) kMaxCaRequestSize w.mem with
  | none => some (trustyErrNoMemory, w.setMem (a.store w.mem caRequestP none))
  | some (p, m) =>
    let m := (a.store m caRequestP (some p)).store caRequestSizeP 4 kMaxCaRequestSize
    trustySendRawBuffer t (heap 1) fuel kmAtapGetCaRequest operationStart operationStartSize
      (a.load m caRequestP) (some caRequestSizeP) (w.setMem m)

/-- `MIN(kMaxSendSize, ca_response_size - bytes_sent)`, as a `uint32_t` -/
def caSendSize (caResponseSize bytesSent : UInt32) : UInt32 :=
  UInt32.ofNat (min kMaxSendSize (caResponseSize - bytesSent).toNat)

theorem caSendSize_toNat {size sent : UInt32} (h : sent < size) :
    (caSendSize size sent).toNat = min 4000 (size.toNat - sent.toNat) := by
  have left : (size - sent).toNat = size.toNat - sent.toNat :=
    UInt32.toNat_sub_of_le _ _ (UInt32.le_of_lt h)
  have bound := size.toNat_lt
  rw [caSendSize, left, kMaxSendSize]
  exact UInt32.toNat_ofNat_of_lt (show _ < 2 ^ 32 by omega)

theorem caSendSize_add {size sent : UInt32} (h : sent < size) :
    (sent + caSendSize size sent).toNat = sent.toNat + min 4000 (size.toNat - sent.toNat) := by
  have below : sent.toNat < size.toNat := h
  have bound := size.toNat_lt
  rw [UInt32.toNat_add, caSendSize_toNat h, Nat.mod_eq_of_lt (by omega)]

/-- The loop of `trusty_atap_set_ca_response`, and the request after it. -/
def caSendLoop (t : Transport ε) (heap : Nat → Nat → Option Nat) (fuel : Nat)
    (caResponse : Ptr Obj) (caResponseSize bytesSent : UInt32) (w : World ε) :
    Option (Int × World ε) :=
  if _below : bytesSent < caResponseSize then do
    let sendSize := caSendSize caResponseSize bytesSent
    let (rc, w) ← trustySendRawBuffer t (heap 0) fuel kmAtapSetCaResponseUpdate
      (some (caResponse.add bytesSent.toNat)) sendSize none none w
    if rc ≠ trustyErrNone then some (rc, w)
    else
      caSendLoop t (fun i => heap (i + 1)) fuel caResponse caResponseSize (bytesSent + sendSize) w
  else kmDoTipc t fuel kmAtapSetCaResponseFinish none 0 none none w
  termination_by caResponseSize.toNat - bytesSent.toNat
  decreasing_by
    have below : bytesSent.toNat < caResponseSize.toNat := _below
    rw [caSendSize_add _below]
    omega

def trustyAtapSetCaResponse (t : Transport ε) (heap : Nat → Nat → Option Nat) (fuel : Nat)
    (caResponse : Ptr Obj) (caResponseSize : UInt32) (w : World ε) : Option (Int × World ε) := do
  let w := w.setMem (w.mem.store kmBeginReq 4 caResponseSize.toNat)
  let (rc, w) ← kmDoTipc t fuel kmAtapSetCaResponseBegin (some kmBeginReq) 4 none none w
  if rc ≠ trustyErrNone then some (rc, w)
  else caSendLoop t heap fuel caResponse caResponseSize 0 w

/-- `*uuid_p = trusty_calloc(1, kUuidSize + 1)` -/
def allocUuid (a : Addresses) (heap : Nat → Option Nat) (uuidP : Ptr Obj) (m : Mem Obj) : Mem Obj :=
  match trustyCalloc heap (kUuidSize + 1) m with
  | none => a.store m uuidP none
  | some (p, m) => a.store m uuidP (some p)

/-- `*uuid_p[kUuidSize] = '\0'` stores behind the pointer that is found in `uuid_p[kUuidSize]`: it
faults where that leads to no object. -/
def trustyAtapReadUuidStr (t : Transport ε) (a : Addresses) (heap : Nat → Option Nat) (fuel : Nat)
    (uuidP : Ptr Obj) (w : World ε) : Option (Int × World ε) := do
  let cell := uuidP.add (kUuidSize * 8)
  let m := (allocUuid a heap uuidP w.mem).touch cell 8
  let found ← a.load m cell
  let m := (m.write found [0]).store kmResponseSize 4 kUuidSize
  let (rc, w) ← kmDoTipc t fuel kmAtapReadUuid none 0 (a.load m uuidP) (some kmResponseSize)
    (w.setMem m)
  if rc < 0 then some (rc, w)
  else if w.mem.load kmResponseSize 4 ≠ kUuidSize then some (trustyErrGeneric, w)
  else some (rc, w)

end ExternalTrusty
