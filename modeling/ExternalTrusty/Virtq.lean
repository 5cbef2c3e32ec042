import ExternalTrusty.Interference
import ExternalTrusty.MachineInt
import Mathlib.Logic.Function.Basic

namespace ExternalTrusty

open CProgram

def vqSize : Nat := 32
def virtqDescFWrite : UInt16 := 2

/-- `struct virtq_desc`; descriptors are never chained, so `next` is left out. -/
structure VirtqDesc where
  addr : UInt64
  len : UInt32
  flags : UInt16
  deriving DecidableEq

/-- `struct virtq_used_elem` -/
structure VirtqUsedElem where
  id : UInt32
  len : UInt32
  deriving DecidableEq

/-- `struct virtq_raw`, without the flags and events that neither side uses. -/
structure VirtqRaw where
  desc : Fin vqSize → VirtqDesc
  availIdx : UInt16
  availRing : Fin vqSize → UInt16
  usedIdx : UInt16
  usedRing : Fin vqSize → VirtqUsedElem

/-- How far the device has come in the available ring, and whether it has written a used element
that `used.idx` does not count yet. -/
structure VqDevice where
  lastAvail : UInt16
  written : Bool

/-- A descriptor as it was when it was made available, and the slot of the ring. -/
structure Published where
  slot : Fin vqSize
  id : UInt16
  desc : VirtqDesc
  deriving DecidableEq

/-- What the caller of `get_control_msg` gets, and what it gives to `release_control_msg`. -/
inductive ControlEvent
  | got (msg : UInt64) (bufSize : UInt32) (msgIdx : Fin vqSize)
  | released (msgIdx : Fin vqSize)
  deriving DecidableEq

/-- A `struct virtq` and its device. The lists are what was made available, what was used, and
what the caller saw, each in order. -/
structure VqWorld where
  raw : VirtqRaw
  oldUsedIdx : UInt16
  dev : VqDevice
  published : List Published
  used : List VirtqUsedElem
  events : List ControlEvent

/-- The place of an index in a ring. -/
def vqSlot (idx : UInt16) : Fin vqSize := ⟨idx.toNat % vqSize, Nat.mod_lt _ (by decide)⟩

/-- The device takes the next available descriptor and writes a used element for it; then it
counts the element. -/
inductive VqDevice.Step : VqWorld → VqWorld → Prop
  | write {w : VqWorld} (len : UInt32) (idle : w.dev.written = false)
    (more : w.dev.lastAvail ≠ w.raw.availIdx) :
    Step w { w with
      raw := { w.raw with
        usedRing := Function.update w.raw.usedRing (vqSlot w.raw.usedIdx)
          ⟨(w.raw.availRing (vqSlot w.dev.lastAvail)).toUInt32, len⟩ }
      dev := ⟨w.dev.lastAvail + 1, true⟩ }
  | count {w : VqWorld} (written : w.dev.written = true) :
    Step w { w with
      raw := { w.raw with usedIdx := w.raw.usedIdx + 1 }
      dev := { w.dev with written := false }
      used := w.used ++ [w.raw.usedRing (vqSlot w.raw.usedIdx)] }

/-- The driver's accesses to the queue. -/
inductive VqOp
  | setAddr (descId : Fin vqSize) (addr : UInt64)
  | setLen (descId : Fin vqSize) (len : UInt32)
  | flags (descId : Fin vqSize)
  | availIdx
  | setAvailRing (slot : Fin vqSize) (descId : UInt16)
  | setAvailIdx (idx : UInt16)
  | usedIdx
  | usedLen (slot : Fin vqSize)
  | oldUsedIdx
  | setOldUsedIdx (idx : UInt16)
  | kick
  | event (e : ControlEvent)

def VqOp.Res : VqOp → Type
  | .flags _ => UInt16
  | .availIdx => UInt16
  | .usedIdx => UInt16
  | .usedLen _ => UInt32
  | .oldUsedIdx => UInt16
  | _ => Unit

def VqWorld.setDesc (w : VqWorld) (i : Fin vqSize) (d : VirtqDesc) : VqWorld :=
  { w with raw := { w.raw with desc := Function.update w.raw.desc i d } }

/-- What an access does, and the value that it reads. A store to `avail.idx`, always of the next
value, makes available what is in the slot before it. -/
def VqOp.perform : (o : VqOp) → VqWorld → o.Res × VqWorld
  | .setAddr i addr, w => ((), w.setDesc i { w.raw.desc i with addr })
  | .setLen i len, w => ((), w.setDesc i { w.raw.desc i with len })
  | .flags i, w => ((w.raw.desc i).flags, w)
  | .availIdx, w => (w.raw.availIdx, w)
  | .setAvailRing slot id, w =>
    ((), { w with raw := { w.raw with availRing := Function.update w.raw.availRing slot id } })
  | .setAvailIdx idx, w =>
    let slot := vqSlot w.raw.availIdx
    let id := w.raw.availRing slot
    ((), { w with
      raw := { w.raw with availIdx := idx }
      published := w.published ++ [⟨slot, id, w.raw.desc (vqSlot id)⟩] })
  | .usedIdx, w => (w.raw.usedIdx, w)
  | .usedLen slot, w => ((w.raw.usedRing slot).len, w)
  | .oldUsedIdx, w => (w.oldUsedIdx, w)
  | .setOldUsedIdx idx, w => ((), { w with oldUsedIdx := idx })
  | .kick, w => ((), w)
  | .event e, w => ((), { w with events := w.events ++ [e] })

abbrev VqProg := Prog VqOp VqOp.Res

/-- `vq_init`, for a queue that is all zero. -/
def vqInit (isInput : Bool) : VqWorld where
  raw :=
    { desc := fun _ => ⟨0, 0, if isInput then virtqDescFWrite else 0⟩
      availIdx := 0
      availRing := fun _ => 0
      usedIdx := 0
      usedRing := fun _ => ⟨0, 0⟩ }
  oldUsedIdx := 0
  dev := ⟨0, false⟩
  published := []
  used := []
  events := []

def vqMakeAvail (descId : Fin vqSize) : VqProg Unit := do
  let idx : UInt16 ← call VqOp.availIdx
  call (VqOp.setAvailRing (vqSlot idx) (UInt16.ofNat descId))
  let idx : UInt16 ← call VqOp.availIdx
  call (VqOp.setAvailIdx (idx + 1))

def vqReady : VqProg Bool := do
  let used : UInt16 ← call VqOp.usedIdx
  let old : UInt16 ← call VqOp.oldUsedIdx
  return decide (used ≠ old)

def vqWait : VqProg Unit :=
  forever () fun _ => do
    let ready ← vqReady
    return if ready then .inr () else .inl ()

def vqKick : VqProg Unit := call VqOp.kick

def vqAdv : VqProg UInt32 := do
  let old : UInt16 ← call VqOp.oldUsedIdx
  call (VqOp.setOldUsedIdx (old + 1))
  call (VqOp.usedLen (vqSlot old))

/-- The body of `vq_set_buf_w` and `vq_set_buf_r`, with the flags that they assert. The descriptor
keeps 32 bits of the length, and a failed assertion never returns. -/
def vqSetBuf (flags : UInt16) (descId : Fin vqSize) (data len : UInt64) : VqProg Unit := do
  call (VqOp.setAddr descId data)
  call (VqOp.setLen descId len.toUInt32)
  let found : UInt16 ← call (VqOp.flags descId)
  if found = flags then return () else hang

def vqSetBufW : Fin vqSize → UInt64 → UInt64 → VqProg Unit := vqSetBuf virtqDescFWrite

def vqSetBufR : Fin vqSize → UInt64 → UInt64 → VqProg Unit := vqSetBuf 0

/-- A `size_t` as an `ssize_t` -/
def ssize (n : UInt64) : Int := if n.toNat < 2 ^ 63 then n.toNat else n.toNat - 2 ^ 64

def sendVq (data len : UInt64) : VqProg Int := do
  let idx : UInt16 ← call VqOp.oldUsedIdx
  if len = 0 then return 0
  else
    vqSetBufR (vqSlot idx) data len
    vqMakeAvail (vqSlot idx)
    vqKick
    vqWait
    vqSetBufR (vqSlot idx) 0 0
    let _ ← vqAdv
    return ssize len

def recvVq (data len : UInt64) : VqProg Int := do
  let idx : UInt16 ← call VqOp.oldUsedIdx
  if len = 0 then return 0
  else
    vqSetBufW (vqSlot idx) data len
    vqMakeAvail (vqSlot idx)
    vqKick
    vqWait
    vqSetBufW (vqSlot idx) 0 0
    let got ← vqAdv
    return (got.toNat : Int)

end ExternalTrusty
