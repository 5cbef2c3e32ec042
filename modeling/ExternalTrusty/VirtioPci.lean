import ExternalTrusty.VirtioBus

namespace ExternalTrusty.TestRunner

open CProgram

/-! `virtio-pci.c` -/

/-- The registers of `struct virtio_pci_common_cfg` that the driver uses. -/
inductive PciReg
  | feature (r : FeatureReg)
  | deviceStatus
  | queueSel
  | queueSize
  | queueEnable
  | queueNotifyOff
  | queueDesc
  | queueAvail
  | queueUsed
  deriving DecidableEq

namespace PciReg

def offset : PciReg → UInt64
  | .feature r => UInt64.ofNat (pciLayout.offset r)
  | .deviceStatus => 0x14
  | .queueSel => 0x16
  | .queueSize => 0x18
  | .queueEnable => 0x1c
  | .queueNotifyOff => 0x1e
  | .queueDesc => 0x20
  | .queueAvail => 0x28
  | .queueUsed => 0x30

/-- How many bits a register has. -/
def width : PciReg → Nat
  | .feature _ => 32
  | .deviceStatus => 8
  | .queueSel => 16
  | .queueSize => 16
  | .queueEnable => 16
  | .queueNotifyOff => 16
  | .queueDesc => 64
  | .queueAvail => 64
  | .queueUsed => 64

def all : List PciReg :=
  [.feature .hostFeatures, .feature .hostFeaturesSel, .feature .guestFeatures,
    .feature .guestFeaturesSel, .deviceStatus, .queueSel, .queueSize, .queueEnable,
    .queueNotifyOff, .queueDesc, .queueAvail, .queueUsed]

/-- The register at an offset -/
def at? (off : UInt64) : Option PciReg := all.find? fun r => r.offset = off

@[simp] theorem at?_offset (r : PciReg) : at? r.offset = some r := by
  cases r with
  | feature r => cases r <;> decide
  | deviceStatus => decide
  | queueSel => decide
  | queueSize => decide
  | queueEnable => decide
  | queueNotifyOff => decide
  | queueDesc => decide
  | queueAvail => decide
  | queueUsed => decide

end PciReg

/-- Where the probe found the common configuration and the doorbells of the queues. The doorbells
are inside their BAR, and not among the registers. -/
structure PciWindow where
  vio : UInt64
  notifyBase : UInt64
  notifyMultiplier : UInt32
  notifyOff : UInt16 → UInt16
  inside : ∀ idx, (notifyOff idx).toNat * notifyMultiplier.toNat < 2 ^ 32
  below : notifyBase.toNat + 2 ^ 32 < 2 ^ 64
  apart : ∀ idx, PciReg.at?
    (notifyBase + UInt64.ofNat ((notifyOff idx).toNat * notifyMultiplier.toNat) - vio) = none

namespace Pci

variable (w : PciWindow)

def virtioSetFeatures (features : UInt64) : BusProg Unit := do
  call (BusOp.write32 (w.vio + (PciReg.feature .guestFeaturesSel).offset) 0)
  call (BusOp.write32 (w.vio + (PciReg.feature .guestFeatures).offset)
    (features &&& 0xFFFF).toUInt32)
  call (BusOp.write32 (w.vio + (PciReg.feature .guestFeaturesSel).offset) 1)
  call (BusOp.write32 (w.vio + (PciReg.feature .guestFeatures).offset) (features >>> 32).toUInt32)

def virtioGetFeatures : BusProg UInt64 := do
  call (BusOp.write32 (w.vio + (PciReg.feature .hostFeaturesSel).offset) 1)
  let features : UInt32 ← call (BusOp.read32 (w.vio + (PciReg.feature .hostFeatures).offset))
  call (BusOp.write32 (w.vio + (PciReg.feature .hostFeaturesSel).offset) 0)
  let low : UInt32 ← call (BusOp.read32 (w.vio + (PciReg.feature .hostFeatures).offset))
  return (features.toUInt64 <<< 32) ||| low.toUInt64

def vqAttach (vq : Vq) (idx : UInt16) : BusProg Unit := do
  let v : Virtq ← call (BusOp.virtq vq)
  call (BusOp.setVirtq vq { v with queueId := idx.toUInt64 })
  call (BusOp.write16 (w.vio + PciReg.queueSel.offset) idx)
  let v : Virtq ← call (BusOp.virtq vq)
  call (BusOp.write16 (w.vio + PciReg.queueSize.offset) v.numBufs.toUInt16)
  let v : Virtq ← call (BusOp.virtq vq)
  call (BusOp.write64 (w.vio + PciReg.queueDesc.offset) v.raw)
  call (BusOp.write64 (w.vio + PciReg.queueAvail.offset) (v.raw + 512))
  call (BusOp.write64 (w.vio + PciReg.queueUsed.offset) (v.raw + 4096))
  call (BusOp.write16 (w.vio + PciReg.queueEnable.offset) 1)

def vqKick (vq : Vq) : BusProg Unit := do
  let v : Virtq ← call (BusOp.virtq vq)
  call (BusOp.write16 (w.vio + PciReg.queueSel.offset) v.queueId.toUInt16)
  let notifyOff : UInt16 ← call (BusOp.read16 (w.vio + PciReg.queueNotifyOff.offset))
  let notifyAddr := w.notifyBase + (notifyOff.toUInt32 * w.notifyMultiplier).toUInt64
  let v : Virtq ← call (BusOp.virtq vq)
  call (BusOp.write32 notifyAddr v.queueId.toUInt32)

def virtioOrStatus (flags : UInt32) : BusProg Unit := do
  let oldStatus : UInt8 ← call (BusOp.read8 (w.vio + PciReg.deviceStatus.offset))
  call (BusOp.write8 (w.vio + PciReg.deviceStatus.offset) (oldStatus.toUInt32 ||| flags).toUInt8)

def virtioGetStatus : BusProg UInt32 := do
  let status : UInt8 ← call (BusOp.read8 (w.vio + PciReg.deviceStatus.offset))
  return status.toUInt32

def virtioResetDevice : BusProg Unit := call (BusOp.write8 (w.vio + PciReg.deviceStatus.offset) 0)

def virtioSetGuestPageSize (_size : UInt32) : BusProg Unit := return ()

/-- What the driver does for an operation of `virtio-device.h` or `virtio.h`. -/
def impl (pages : RawPages) : (o : VirtioOp) → BusProg o.Res
  | .resetDevice => virtioResetDevice w
  | .orStatus flags => virtioOrStatus w flags
  | .getStatus => virtioGetStatus w
  | .getFeatures => virtioGetFeatures w
  | .setFeatures features => virtioSetFeatures w features
  | .setGuestPageSize size => virtioSetGuestPageSize size
  | .vqInit vq => initVirtq pages vq
  | .vqAttach vq idx => vqAttach w vq idx
  | .vqKick vq => vqKick w vq

end Pci

/-- What the device was told of a queue. -/
structure PciQueue where
  size : UInt16
  enable : UInt16
  desc : UInt64
  avail : UInt64
  used : UInt64

/-- A device behind the common configuration, and the driver's queues. -/
structure PciDevice where
  status : UInt8
  features : FeatureDevice
  queueSel : UInt16
  queues : UInt16 → PciQueue
  notified : List UInt32
  virtqs : Vq → Virtq

namespace PciDevice

/-- A queue that is not enabled is none. -/
def ring (d : PciDevice) (idx : UInt16) : Option Ring :=
  let q := d.queues idx
  if q.enable = 0 then none
  else some ⟨q.size.toNat, q.desc.toNat, q.avail.toNat, q.used.toNat⟩

def selected (d : PciDevice) (f : PciQueue → PciQueue) : PciDevice :=
  { d with queues := Function.update d.queues d.queueSel (f (d.queues d.queueSel)) }

def store (keep : Virtio.Keep) (d : PciDevice) (val : UInt64) : PciReg → PciDevice
  | .feature r => { d with features := d.features.store r val.toUInt32 }
  | .queueSel => { d with queueSel := val.toUInt16 }
  | .queueSize => d.selected fun q => { q with size := val.toUInt16 }
  | .queueEnable => d.selected fun q => { q with enable := val.toUInt16 }
  | .queueNotifyOff => d
  | .queueDesc => d.selected fun q => { q with desc := val }
  | .queueAvail => d.selected fun q => { q with avail := val }
  | .queueUsed => d.selected fun q => { q with used := val }
  | .deviceStatus =>
    if val = 0 then
      { d with
        status := 0
        features := { d.features with guest := fun _ => 0 }
        queues := fun _ => ⟨0, 0, 0, 0, 0⟩ }
    else
      { d with
        status := keep (wideWord d.features.host) (wideWord d.features.guest) val.toUInt8 }

variable (w : PciWindow)

def load (d : PciDevice) : PciReg → UInt64
  | .feature r => (d.features.load r).toUInt64
  | .deviceStatus => d.status.toUInt64
  | .queueNotifyOff => (w.notifyOff d.queueSel).toUInt64
  | _ => 0

/-- A store of so many bits: to a register of this width, or nowhere. -/
def storeAt (keep : Virtio.Keep) (d : PciDevice) (bits : Nat) (addr val : UInt64) : PciDevice :=
  match PciReg.at? (addr - w.vio) with
  | some r => if r.width = bits then d.store keep val r else d
  | none => d

/-- The doorbell of a queue takes its number. -/
def Doorbell (addr : UInt64) (val : UInt32) : Prop :=
  val.toUInt16.toUInt32 = val ∧ addr.toNat = w.notifyBase.toNat +
    (w.notifyOff val.toUInt16).toNat * w.notifyMultiplier.toNat

instance (addr : UInt64) (val : UInt32) : Decidable (Doorbell w addr val) :=
  inferInstanceAs (Decidable (_ ∧ _))

def next (keep : Virtio.Keep) (d : PciDevice) : Event BusOp BusOp.Res → PciDevice
  | ⟨.write8 addr val, _⟩ => d.storeAt w keep 8 addr val.toUInt64
  | ⟨.write16 addr val, _⟩ => d.storeAt w keep 16 addr val.toUInt64
  | ⟨.write32 addr val, _⟩ =>
    if Doorbell w addr val then { d with notified := d.notified ++ [val] }
    else d.storeAt w keep 32 addr val.toUInt64
  | ⟨.write64 addr val, _⟩ => d.storeAt w keep 64 addr val
  | ⟨.setVirtq vq v, _⟩ => { d with virtqs := Function.update d.virtqs vq v }
  | _ => d

/-- What is loaded with so many bits: from a register of this width, or anything. -/
def LoadAt (d : PciDevice) (bits : Nat) (addr val : UInt64) : Prop :=
  ∀ r, PciReg.at? (addr - w.vio) = some r → r.width = bits → val = d.load w r

def may (d : PciDevice) : Event BusOp BusOp.Res → Prop
  | ⟨.read8 addr, r⟩ => d.LoadAt w 8 addr (UInt8.toUInt64 r)
  | ⟨.read16 addr, r⟩ => d.LoadAt w 16 addr (UInt16.toUInt64 r)
  | ⟨.read32 addr, r⟩ => d.LoadAt w 32 addr (UInt32.toUInt64 r)
  | ⟨.virtq vq, r⟩ => r = d.virtqs vq
  | _ => True

def layer (keep : Virtio.Keep) : Layer BusOp BusOp.Res PciDevice := ⟨may w, next w keep⟩

section Accesses

variable {w} {keep : Virtio.Keep} {m : PciDevice} {vq : Vq}

end Accesses

def view (m : PciDevice) : BusView where
  status := m.status
  host := wideWord m.features.host
  guest := wideWord m.features.guest
  rings := fun idx => m.ring idx
  notified := m.notified
  virtqs := m.virtqs

variable {w} {keep : Virtio.Keep} {m : PciDevice} {pages : RawPages}

end PciDevice

end ExternalTrusty.TestRunner
