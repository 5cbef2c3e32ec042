import ExternalTrusty.VirtioBus

namespace ExternalTrusty.TestRunner

open CProgram

/-! `virtio-mmio.c` -/

/-- The registers of `struct virtio_mmio_config` that the driver uses. -/
inductive MmioReg
  | feature (r : FeatureReg)
  | guestPageSize
  | queueSel
  | queueNum
  | queueAlign
  | queuePfn
  | queueNotify
  | status
  deriving DecidableEq

namespace MmioReg

def offset : MmioReg → UInt64
  | .feature r => UInt64.ofNat (mmioLayout.offset r)
  | .guestPageSize => 0x28
  | .queueSel => 0x30
  | .queueNum => 0x38
  | .queueAlign => 0x3c
  | .queuePfn => 0x40
  | .queueNotify => 0x50
  | .status => 0x70

def all : List MmioReg :=
  [.feature .hostFeatures, .feature .hostFeaturesSel, .feature .guestFeatures,
    .feature .guestFeaturesSel, .guestPageSize, .queueSel, .queueNum, .queueAlign, .queuePfn,
    .queueNotify, .status]

/-- The register at an offset -/
def at? (off : UInt64) : Option MmioReg := all.find? fun r => r.offset = off

@[simp] theorem at?_offset (r : MmioReg) : at? r.offset = some r := by
  cases r with
  | feature r => cases r <;> decide
  | guestPageSize => decide
  | queueSel => decide
  | queueNum => decide
  | queueAlign => decide
  | queuePfn => decide
  | queueNotify => decide
  | status => decide

end MmioReg

namespace Mmio

variable (vio : UInt64)

def read32 (r : MmioReg) : BusProg UInt32 := call (BusOp.read32 (vio + r.offset))

def write32 (r : MmioReg) (val : UInt32) : BusProg Unit :=
  call (BusOp.write32 (vio + r.offset) val)

def virtioSetFeatures (features : UInt64) : BusProg Unit := do
  write32 vio (.feature .guestFeaturesSel) 0
  write32 vio (.feature .guestFeatures) (features &&& 0xFFFF).toUInt32
  write32 vio (.feature .guestFeaturesSel) 1
  write32 vio (.feature .guestFeatures) (features >>> 32).toUInt32

def virtioGetFeatures : BusProg UInt64 := do
  write32 vio (.feature .hostFeaturesSel) 1
  let features ← read32 vio (.feature .hostFeatures)
  write32 vio (.feature .hostFeaturesSel) 0
  let low ← read32 vio (.feature .hostFeatures)
  return (features.toUInt64 <<< 32) ||| low.toUInt64

def vqAttach (vq : Vq) (idx : UInt16) : BusProg Unit := do
  let v : Virtq ← call (BusOp.virtq vq)
  call (BusOp.setVirtq vq { v with queueId := idx.toUInt64 })
  write32 vio .queueSel idx.toUInt32
  let v : Virtq ← call (BusOp.virtq vq)
  write32 vio .queueNum v.numBufs.toUInt32
  write32 vio .queueAlign pageSize
  let v : Virtq ← call (BusOp.virtq vq)
  write32 vio .queuePfn (v.raw >>> 12).toUInt32

def vqKick (vq : Vq) : BusProg Unit := do
  let v : Virtq ← call (BusOp.virtq vq)
  write32 vio .queueNotify v.queueId.toUInt32

def virtioOrStatus (flags : UInt32) : BusProg Unit := do
  let oldStatus ← read32 vio .status
  write32 vio .status (oldStatus ||| flags)

def virtioGetStatus : BusProg UInt32 := read32 vio .status

def virtioResetDevice : BusProg Unit := write32 vio .status 0

def virtioSetGuestPageSize (size : UInt32) : BusProg Unit := write32 vio .guestPageSize size

/-- What the driver does for an operation of `virtio-device.h` or `virtio.h`. -/
def impl (pages : RawPages) : (o : VirtioOp) → BusProg o.Res
  | .resetDevice => virtioResetDevice vio
  | .orStatus flags => virtioOrStatus vio flags
  | .getStatus => virtioGetStatus vio
  | .getFeatures => virtioGetFeatures vio
  | .setFeatures features => virtioSetFeatures vio features
  | .setGuestPageSize size => virtioSetGuestPageSize vio size
  | .vqInit vq => initVirtq pages vq
  | .vqAttach vq idx => vqAttach vio vq idx
  | .vqKick vq => vqKick vio vq

end Mmio

/-- What the device was told of a queue. -/
structure MmioQueue where
  num : UInt32
  align : UInt32
  pfn : UInt32

/-- A legacy device behind these registers, and the driver's queues. -/
structure MmioDevice where
  status : UInt8
  features : FeatureDevice
  pageSize : UInt32
  queueSel : UInt32
  queues : UInt32 → MmioQueue
  notified : List UInt32
  virtqs : Vq → Virtq

/-- The first multiple of `align` from `n` on. -/
def alignUp (n align : Nat) : Nat := (n + align - 1) / align * align

namespace MmioDevice

/-- A queue without a page frame is none. Otherwise its rings follow one another as the legacy
specification has them. -/
def ring (d : MmioDevice) (idx : UInt32) : Option Ring :=
  let q := d.queues idx
  let desc := q.pfn.toNat * d.pageSize.toNat
  let avail := desc + 16 * q.num.toNat
  if q.pfn = 0 then none
  else some ⟨q.num.toNat, desc, avail, alignUp (avail + 2 * (3 + q.num.toNat)) q.align.toNat⟩

def selected (d : MmioDevice) (f : MmioQueue → MmioQueue) : MmioDevice :=
  { d with queues := Function.update d.queues d.queueSel (f (d.queues d.queueSel)) }

def store (keep : Virtio.Keep) (d : MmioDevice) (val : UInt32) : MmioReg → MmioDevice
  | .feature r => { d with features := d.features.store r val }
  | .guestPageSize => { d with pageSize := val }
  | .queueSel => { d with queueSel := val }
  | .queueNum => d.selected fun q => { q with num := val }
  | .queueAlign => d.selected fun q => { q with align := val }
  | .queuePfn => d.selected fun q => { q with pfn := val }
  | .queueNotify => { d with notified := d.notified ++ [val] }
  | .status =>
    if val = 0 then
      { d with
        status := 0
        features := { d.features with guest := fun _ => 0 }
        pageSize := 0
        queues := fun _ => ⟨0, 0, 0⟩ }
    else
      { d with
        status := keep (wideWord d.features.host) (wideWord d.features.guest) val.toUInt8 }

def load (d : MmioDevice) : MmioReg → UInt32
  | .feature r => d.features.load r
  | .status => d.status.toUInt32
  | _ => 0

variable (vio : UInt64)

def next (keep : Virtio.Keep) (d : MmioDevice) : Event BusOp BusOp.Res → MmioDevice
  | ⟨.write32 addr val, _⟩ =>
    match MmioReg.at? (addr - vio) with
    | some r => d.store keep val r
    | none => d
  | ⟨.setVirtq vq v, _⟩ => { d with virtqs := Function.update d.virtqs vq v }
  | _ => d

def may (d : MmioDevice) : Event BusOp BusOp.Res → Prop
  | ⟨.read32 addr, r⟩ => ∀ reg, MmioReg.at? (addr - vio) = some reg → r = d.load reg
  | ⟨.virtq vq, r⟩ => r = d.virtqs vq
  | _ => True

def layer (keep : Virtio.Keep) : Layer BusOp BusOp.Res MmioDevice := ⟨may vio, next vio keep⟩

section Accesses

variable {vio} {keep : Virtio.Keep} {m : MmioDevice} {r : MmioReg} {vq : Vq}

end Accesses

def view (m : MmioDevice) : BusView where
  status := m.status
  host := wideWord m.features.host
  guest := wideWord m.features.guest
  rings := fun idx => m.ring idx.toUInt32
  notified := m.notified
  virtqs := m.virtqs

variable {vio} {keep : Virtio.Keep} {m : MmioDevice} {pages : RawPages}

end MmioDevice

end ExternalTrusty.TestRunner
