import ExternalTrusty.Layers
import Mathlib.Logic.Function.Basic
import Mathlib.Tactic.Common

namespace ExternalTrusty.TestRunner

open CProgram

/-! `virtio.h` and `virtio-device.h` -/

def virtioStatusAcknowledge : UInt32 := 1
def virtioStatusDriver : UInt32 := 2
def virtioStatusDriverOk : UInt32 := 4
def virtioStatusFeaturesOk : UInt32 := 8

def pageSize : UInt32 := 4096

/-- The six static `struct virtq`: the console's control queues, and those of the ports
`testrunner0` and `rpmb0`. -/
inductive Vq
  | cmdInput
  | cmdOutput
  | logInput
  | logOutput
  | rpmbInput
  | rpmbOutput
  deriving DecidableEq

inductive VirtioOp
  | resetDevice
  | orStatus (flags : UInt32)
  | getStatus
  | getFeatures
  | setFeatures (features : UInt64)
  | setGuestPageSize (size : UInt32)
  | vqInit (vq : Vq)
  | vqAttach (vq : Vq) (idx : UInt16)
  | vqKick (vq : Vq)

def VirtioOp.Res : VirtioOp → Type
  | .getStatus => UInt32
  | .getFeatures => UInt64
  | _ => Unit

/-- How far a device is set up: the status bits that were asked for since the last reset, the
features and the page size, which of the driver's queues are initialised, the number that each is
attached with, and whose rings the device has under a number. -/
structure Setup where
  asked : UInt32
  guest : UInt64
  pageSize : UInt32
  ready : Vq → Bool
  queueId : Vq → Option UInt16
  rings : UInt16 → Option Vq

namespace Setup

def step (s : Setup) : VirtioOp → Setup
  | .resetDevice => { s with asked := 0, guest := 0, pageSize := 0, rings := fun _ => none }
  | .orStatus flags => { s with asked := s.asked ||| flags }
  | .setFeatures features => { s with guest := features }
  | .setGuestPageSize size => { s with pageSize := size }
  | .vqInit vq => { s with ready := Function.update s.ready vq true }
  | .vqAttach vq idx =>
    { s with
      queueId := Function.update s.queueId vq (some idx)
      rings := Function.update s.rings idx (some vq) }
  | _ => s

/-- When the transports do what they are asked. -/
def Able (s : Setup) : VirtioOp → Prop
  | .orStatus flags => flags.toUInt8 ≠ 0
  | .setFeatures features => (features >>> 16) &&& 0xFFFF = 0
  | .setGuestPageSize _ => ∀ idx, s.rings idx = none
  | .vqAttach vq _ => s.ready vq ∧ s.pageSize = TestRunner.pageSize
  | _ => True

/-- The order in which a driver is to bring up a device: acknowledge it, negotiate features, then
attach each queue under a number of its own, and kick none before `DRIVER_OK`. -/
def Orderly (s : Setup) : VirtioOp → Prop
  | .resetDevice => ∀ vq, s.queueId vq = none
  | .orStatus flags =>
    (flags = virtioStatusAcknowledge ∧ s.asked = 0) ∨
      (flags = virtioStatusDriver ∧ s.asked = 1) ∨
      (flags = virtioStatusFeaturesOk ∧ s.asked = 3 ∧ s.guest ≠ 0) ∨
      (flags = virtioStatusDriverOk ∧ s.asked = 11)
  | .setFeatures _ => s.asked = 3
  | .setGuestPageSize _ => s.asked = 11
  | .vqInit vq => s.queueId vq = none
  | .vqAttach vq idx => (s.asked = 11 ∨ s.asked = 15) ∧ s.rings idx = none ∧ s.queueId vq = none
  | .vqKick vq => s.asked = 15 ∧ (s.queueId vq).isSome
  | _ => True

end Setup

/-- A virtio device, whatever the transport, with the numbers of the queues that were kicked. What
it has in `status` may differ from what the driver asked for. -/
structure Virtio extends Setup where
  status : UInt8
  host : UInt64
  kicked : List UInt16
  blind : Bool

namespace Virtio

/-- The device may refuse bits of a status that is written, after the features that it has and
those that were asked for. -/
abbrev Keep := UInt64 → UInt64 → UInt8 → UInt8

/-- A kick of a queue that is attached nowhere goes wherever its empty `struct virtq` points: from
then on nothing is known. -/
def next (keep : Keep) (d : Virtio) : Event VirtioOp VirtioOp.Res → Virtio
  | ⟨.resetDevice, _⟩ => { d with toSetup := d.step .resetDevice, status := 0 }
  | ⟨.orStatus flags, _⟩ =>
    { d with
      toSetup := d.step (.orStatus flags)
      status := keep d.host d.guest (d.status ||| flags.toUInt8) }
  | ⟨.vqKick vq, _⟩ =>
    match d.queueId vq with
    | some idx => { d with kicked := d.kicked ++ [idx] }
    | none => { d with blind := true }
  | ⟨o, _⟩ => { d with toSetup := d.step o }

def may (d : Virtio) : Event VirtioOp VirtioOp.Res → Prop
  | ⟨.getStatus, r⟩ => d.blind ∨ r = d.status.toUInt32
  | ⟨.getFeatures, r⟩ => d.blind ∨ r = d.host
  | _ => True

def layer (keep : Keep) : Layer VirtioOp VirtioOp.Res Virtio := ⟨may, next keep⟩

theorem next_blind {keep : Keep} {d : Virtio} (h : d.blind) (e : Event VirtioOp VirtioOp.Res) :
    (d.next keep e).blind := by
  obtain ⟨o, r⟩ := e
  cases o with
  | vqKick vq =>
    rw [next]
    split
    next => exact h
    next => rfl
  | _ => exact h

theorem next_toSetup (keep : Keep) (d : Virtio) (e : Event VirtioOp VirtioOp.Res) :
    (d.next keep e).toSetup = d.step e.1 := by
  obtain ⟨o, r⟩ := e
  cases o with
  | vqKick vq =>
    rw [next]
    split
    next => rfl
    next => rfl
  | _ => rfl

/-- A queue is kicked once the device is up, and under its own number, which no other has. -/
structure Sane (d : Virtio) : Prop where
  attached : ∀ vq idx, d.queueId vq = some idx → d.rings idx = some vq
  known : ∀ idx vq, d.rings idx = some vq → d.queueId vq = some idx
  ready : ∀ vq idx, d.queueId vq = some idx → d.ready vq
  kicked : ∀ idx ∈ d.kicked, (d.rings idx).isSome
  up : d.kicked ≠ [] → d.asked = 15
  paged : ∀ vq idx, d.queueId vq = some idx → d.pageSize = TestRunner.pageSize

section Sane

variable {keep : Keep} {d : Virtio}

theorem Sane.unattached (h : Sane d) (hnone : ∀ vq, d.queueId vq = none) :
    (∀ idx, d.rings idx = none) ∧ d.kicked = [] := by
  have hrings : ∀ idx, d.rings idx = none := by
    intro idx
    cases hidx : d.rings idx with
    | none => rfl
    | some vq => exact absurd ((h.known idx vq hidx).symm.trans (hnone vq)) nofun
  refine ⟨hrings, List.eq_nil_iff_forall_not_mem.mpr ?_⟩
  intro idx hidx
  have hsome := h.kicked idx hidx
  rw [hrings idx] at hsome
  cases hsome

theorem Sane.reset (h : Sane d) (hnone : ∀ vq, d.queueId vq = none) (r : Unit) :
    Sane (d.next keep ⟨.resetDevice, r⟩) where
  attached vq idx hid := absurd ((hnone vq).symm.trans hid) nofun
  known _ _ := nofun
  ready vq idx hid := absurd ((hnone vq).symm.trans hid) nofun
  kicked idx hidx := by
    have hempty := (h.unattached hnone).2
    rw [show (d.next keep ⟨.resetDevice, r⟩).kicked = d.kicked from rfl, hempty] at hidx
    cases hidx
  up hne := absurd (h.unattached hnone).2 hne
  paged vq idx hid := absurd ((hnone vq).symm.trans hid) nofun

theorem Sane.attach (h : Sane d) {vq : Vq} {idx : UInt16} (hready : d.ready vq)
    (hpage : d.pageSize = TestRunner.pageSize) (hfree : d.rings idx = none)
    (hnew : d.queueId vq = none) (r : Unit) : Sane (d.next keep ⟨.vqAttach vq idx, r⟩) where
  attached q i hid := by
    show Function.update d.rings idx (some vq) i = some q
    by_cases hq : q = vq
    · subst hq
      obtain rfl : idx = i := by simpa [next, Setup.step] using hid
      exact Function.update_self ..
    · have hold : d.queueId q = some i := by
        simpa [next, Setup.step, Function.update_of_ne hq] using hid
      have hring := h.attached q i hold
      have hne : i ≠ idx := by
        rintro rfl
        rw [hfree] at hring
        cases hring
      rw [Function.update_of_ne hne, hring]
  known i q hring := by
    show Function.update d.queueId vq (some idx) q = some i
    by_cases hi : i = idx
    · subst hi
      obtain rfl : vq = q := by simpa [next, Setup.step] using hring
      exact Function.update_self ..
    · have hold : d.rings i = some q := by
        simpa [next, Setup.step, Function.update_of_ne hi] using hring
      have hid := h.known i q hold
      have hne : q ≠ vq := by
        rintro rfl
        rw [hnew] at hid
        cases hid
      rw [Function.update_of_ne hne, hid]
  ready q i hid := by
    by_cases hq : q = vq
    · subst hq
      exact hready
    · exact h.ready q i (by simpa [next, Setup.step, Function.update_of_ne hq] using hid)
  kicked i hi := by
    show (Function.update d.rings idx (some vq) i).isSome
    by_cases hsame : i = idx
    · subst hsame
      simp
    · rw [Function.update_of_ne hsame]
      exact h.kicked i hi
  up := h.up
  paged _ _ _ := hpage

/-- An orderly operation keeps the device sane. -/
theorem Sane.next (h : Sane d) {e : Event VirtioOp VirtioOp.Res} (able : d.Able e.1)
    (orderly : d.Orderly e.1) : Sane (d.next keep e) := by
  obtain ⟨o, r⟩ := e
  cases o with
  | resetDevice => exact h.reset orderly r
  | orStatus flags =>
    refine { h with up := ?_ }
    intro hne
    have hup := h.up hne
    -- nothing is asked for after `DRIVER_OK`
    rcases orderly with ⟨_, hasked⟩ | ⟨_, hasked⟩ | ⟨_, hasked, _⟩ | ⟨_, hasked⟩
    all_goals exact absurd (hup.symm.trans hasked) (by decide)
  | getStatus => exact h
  | getFeatures => exact h
  | setFeatures features => exact { h with }
  | setGuestPageSize size =>
    refine { h with paged := ?_ }
    intro vq idx hid
    exact absurd ((able idx).symm.trans (h.attached vq idx hid)) nofun
  | vqInit vq =>
    refine { h with ready := ?_ }
    intro q idx hid
    show Function.update d.ready vq true q
    by_cases hq : q = vq
    · subst hq
      exact Function.update_self ..
    · rw [Function.update_of_ne hq]
      exact h.ready q idx hid
  | vqAttach vq idx => exact h.attach able.1 able.2 orderly.2.1 orderly.2.2 r
  | vqKick vq =>
    obtain ⟨hasked, hsome⟩ := orderly
    obtain ⟨idx, hidx⟩ := Option.isSome_iff_exists.mp hsome
    have hnext : d.next keep ⟨.vqKick vq, r⟩ = { d with kicked := d.kicked ++ [idx] } := by
      simp only [Virtio.next, hidx]
    rw [hnext]
    refine { h with kicked := ?_, up := fun _ => hasked }
    intro i hi
    rcases List.mem_append.mp hi with hi | hi
    · exact h.kicked i hi
    · rw [List.mem_singleton.mp hi, h.attached vq idx hidx]
      rfl

end Sane

end Virtio

end ExternalTrusty.TestRunner
