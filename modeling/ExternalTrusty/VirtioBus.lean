import ExternalTrusty.VirtioDevice
import ExternalTrusty.Features

namespace ExternalTrusty.TestRunner

open CProgram

/-- `struct virtq`, without the index of the used ring and the pointer to the device. -/
structure Virtq where
  numBufs : UInt64
  queueId : UInt64
  raw : UInt64

/-- The accesses to the device's registers, each of its width, and those to a `struct virtq`. -/
inductive BusOp
  | read8 (addr : UInt64)
  | read16 (addr : UInt64)
  | read32 (addr : UInt64)
  | write8 (addr : UInt64) (val : UInt8)
  | write16 (addr : UInt64) (val : UInt16)
  | write32 (addr : UInt64) (val : UInt32)
  | write64 (addr : UInt64) (val : UInt64)
  | virtq (vq : Vq)
  | setVirtq (vq : Vq) (v : Virtq)

def BusOp.Res : BusOp → Type
  | .read8 _ => UInt8
  | .read16 _ => UInt16
  | .read32 _ => UInt32
  | .virtq _ => Virtq
  | _ => Unit

abbrev BusProg := Prog BusOp BusOp.Res

/-- `VQ_SIZE` -/
def vqNumBufs : UInt64 := 32

/-- Where each queue's `struct virtq_raw` is: a page frame that the legacy registers can name. -/
structure RawPages where
  at_ : Vq → UInt64
  aligned : ∀ vq, 4096 ∣ (at_ vq).toNat
  nonzero : ∀ vq, at_ vq ≠ 0
  low : ∀ vq, (at_ vq).toNat < 2 ^ 44

/-- The rings as a device takes them to be laid out. -/
structure Ring where
  num : Nat
  desc : Nat
  avail : Nat
  used : Nat
  deriving DecidableEq

/-- `struct virtq_raw`: 32 descriptors of 16 bytes, the available ring behind them, and the used
ring on the next page. -/
def rawRing (raw : UInt64) : Ring where
  num := 32
  desc := raw.toNat
  avail := raw.toNat + 512
  used := raw.toNat + 4096

/-- `vq_init`, as far as the struct goes. -/
def initVirtq (pages : RawPages) (vq : Vq) : BusProg Unit := do
  let v : Virtq ← call (BusOp.virtq vq)
  call (BusOp.setVirtq vq { v with raw := pages.at_ vq })
  let v : Virtq ← call (BusOp.virtq vq)
  call (BusOp.setVirtq vq { v with numBufs := vqNumBufs })

/-- Two words as one, the second above the first. -/
def wideWord (w : UInt32 → UInt32) : UInt64 := ((w 1).toUInt64 <<< 32) ||| (w 0).toUInt64

/-- What a device is, as it is seen through its registers, and the driver's queues. -/
structure BusView where
  status : UInt8
  host : UInt64
  guest : UInt64
  rings : UInt16 → Option Ring
  notified : List UInt32
  virtqs : Vq → Virtq

/-- The view shows the device: each ring is in the memory of the queue that it belongs to. -/
structure Shows (pages : RawPages) (d : Virtio) (v : BusView) : Prop where
  status : v.status = d.status
  host : v.host = d.host
  guest : v.guest = d.guest
  rings : ∀ idx, v.rings idx = (d.rings idx).map fun vq => rawRing (pages.at_ vq)
  notified : v.notified = d.kicked.map UInt16.toUInt32
  ready : ∀ vq, d.ready vq → (v.virtqs vq).numBufs = vqNumBufs ∧ (v.virtqs vq).raw = pages.at_ vq
  queueId : ∀ vq idx, d.queueId vq = some idx → (v.virtqs vq).queueId = idx.toUInt64

namespace Shows

variable {pages : RawPages} {d : Virtio} {v : BusView} (keep : Virtio.Keep) (u : Unit)

theorem resetDevice (h : Shows pages d v) : Shows pages (d.next keep ⟨.resetDevice, u⟩)
    { v with status := 0, guest := 0, rings := fun _ => none } :=
  { h with
    status := rfl
    guest := rfl
    rings := fun _ => rfl }

theorem orStatus (h : Shows pages d v) (flags : UInt32) :
    Shows pages (d.next keep ⟨.orStatus flags, u⟩)
      { v with status := keep v.host v.guest (v.status ||| flags.toUInt8) } :=
  { h with
    status := by
      rw [h.host, h.guest, h.status]
      rfl }

theorem setFeatures (h : Shows pages d v) (features : UInt64) :
    Shows pages (d.next keep ⟨.setFeatures features, u⟩) { v with guest := features } :=
  { h with guest := rfl }

theorem vqInit (h : Shows pages d v) (vq : Vq) : Shows pages (d.next keep ⟨.vqInit vq, u⟩)
    { v with
      virtqs := Function.update v.virtqs vq
        { v.virtqs vq with numBufs := vqNumBufs, raw := pages.at_ vq } } :=
  { h with
    ready := by
      intro q hq
      by_cases hsame : q = vq
      · subst hsame
        simp
      · have hq' : d.ready q := by
          simpa [Virtio.next, Setup.step, Function.update_of_ne hsame] using hq
        simpa [Function.update_of_ne hsame] using h.ready q hq'
    queueId := by
      intro q idx hq
      by_cases hsame : q = vq
      · subst hsame
        simpa using h.queueId q idx hq
      · simpa [Function.update_of_ne hsame] using h.queueId q idx hq }

theorem vqAttach (h : Shows pages d v) (vq : Vq) (idx : UInt16) :
    Shows pages (d.next keep ⟨.vqAttach vq idx, u⟩)
      { v with
        rings := Function.update v.rings idx (some (rawRing (pages.at_ vq)))
        virtqs := Function.update v.virtqs vq { v.virtqs vq with queueId := idx.toUInt64 } } :=
  { h with
    rings := by
      intro q
      by_cases hsame : q = idx
      · subst hsame
        simp [Virtio.next, Setup.step]
      · simpa [Virtio.next, Setup.step, Function.update_of_ne hsame] using h.rings q
    ready := by
      intro q hq
      by_cases hsame : q = vq
      · subst hsame
        simpa using h.ready q hq
      · simpa [Function.update_of_ne hsame] using h.ready q hq
    queueId := by
      intro q i hq
      by_cases hsame : q = vq
      · subst hsame
        obtain rfl : idx = i := by simpa [Virtio.next, Setup.step] using hq
        simp
      · have hq' : d.queueId q = some i := by
          simpa [Virtio.next, Setup.step, Function.update_of_ne hsame] using hq
        simpa [Function.update_of_ne hsame] using h.queueId q i hq' }

theorem vqKick (h : Shows pages d v) {vq : Vq} {idx : UInt16} (hid : d.queueId vq = some idx) :
    Shows pages (d.next keep ⟨.vqKick vq, u⟩)
      { v with notified := v.notified ++ [idx.toUInt32] } := by
  have hnext : d.next keep ⟨.vqKick vq, u⟩ = { d with kicked := d.kicked ++ [idx] } := by
    simp only [Virtio.next, hid]
  rw [hnext]
  exact { h with notified := by simp [h.notified] }

end Shows

end ExternalTrusty.TestRunner
