import ExternalTrusty.Chains
import ExternalTrusty.Memory
import Mathlib.Data.Fintype.Card

namespace ExternalTrusty.Pci

open CMemory CProgram

/-- Physical memory, as one object. -/
abbrev Phys := Mem Unit

section Access

variable (m : Phys) (addr : Nat)

def ioRead8 : UInt8 := UInt8.ofNat (m.load ⟨(), addr⟩ 1)
def ioRead16 : UInt16 := UInt16.ofNat (m.load ⟨(), addr⟩ 2)
def ioRead32 : UInt32 := UInt32.ofNat (m.load ⟨(), addr⟩ 4)
def ioWrite16 (v : UInt16) : Phys := m.store ⟨(), addr⟩ 2 v.toNat
def ioWrite64 (v : UInt64) : Phys := m.store ⟨(), addr⟩ 8 v.toNat

end Access

def virtioDeviceVendorId : UInt16 := 0x1AF4
def virtioPciDeviceConsoleId : UInt16 := 0x1003
def virtioPciCapCommonCfg : UInt8 := 0x1
def virtioPciCapNotifyCfg : UInt8 := 0x2
def cmdMemSpaceBitPosition : UInt16 := 1
def statusCapListBitPosition : UInt16 := 4
def virtPcieEcamHighBase : Nat := 0x4010000000
def virtPcieEcamHighSize : Nat := 0x10000000
def virtConsoleBarAddr : UInt64 := 0x8000000000 + 0x40000000
def pageSize : Nat := 4096

/-! `struct pci_type0_config` and `struct virtio_pci_cap`. -/

def vendorId (cfg : Nat) : Nat := cfg
def deviceId (cfg : Nat) : Nat := cfg + 2
def command (cfg : Nat) : Nat := cfg + 4
def status (cfg : Nat) : Nat := cfg + 6
def baseAddrReg0 (cfg : Nat) : Nat := cfg + 16
def capabilitiesPointer (cfg : Nat) : Nat := cfg + 52

def capNext (cap : Nat) : Nat := cap + 1
def cfgType (cap : Nat) : Nat := cap + 3
def bar (cap : Nat) : Nat := cap + 4
def offset (cap : Nat) : Nat := cap + 8
def notifyOffMultiplier (cap : Nat) : Nat := cap + 16

/-- Memory, the two variables of the file, and what was reported. -/
structure World where
  mem : Phys
  notifyBase : UInt64
  notifyMultiplier : UInt32
  log : List String
  aborted : Bool

/-- The variables that the walk along the capabilities sets. -/
structure CapState where
  commonBar : UInt8
  notifyBar : UInt8
  virtioCfg : UInt64
  notifyBase : UInt64
  notifyMultiplier : UInt32

/-- The address that an entry's offset stands for. -/
def barAddr (m : Phys) (cap : Nat) : UInt64 :=
  (ioRead32 m (offset cap)).toUInt64 + virtConsoleBarAddr

/-- The body of the loop, for the entry at `capOffset`. -/
def visitCap (m : Phys) (baseAddr : Nat) (s : CapState) (capOffset : UInt8) : CapState :=
  let virtioCap := baseAddr + capOffset.toNat
  let type := ioRead8 m (cfgType virtioCap)
  let s :=
    if virtioPciCapCommonCfg = type then
      { s with commonBar := ioRead8 m (bar virtioCap), virtioCfg := barAddr m virtioCap }
    else s
  if virtioPciCapNotifyCfg = type then
    { s with
      notifyBar := ioRead8 m (bar virtioCap)
      notifyMultiplier := ioRead32 m (notifyOffMultiplier virtioCap)
      notifyBase := barAddr m virtioCap }
  else s

def nextCap (m : Phys) (baseAddr : Nat) (capOffset : UInt8) : UInt8 :=
  ioRead8 m (capNext (baseAddr + capOffset.toNat))

/-- The search for the console, over this many functions from `baseAddr` on. -/
def findConsole (m : Phys) : Nat → Nat → Option Nat
  | 0, _ => none
  | left + 1, baseAddr =>
    if virtioDeviceVendorId = ioRead16 m (vendorId baseAddr) ∧
      virtioPciDeviceConsoleId = ioRead16 m (deviceId baseAddr) then some baseAddr
    else findConsole m left (baseAddr + pageSize)

def console (m : Phys) : Option Nat :=
  findConsole m (virtPcieEcamHighSize / pageSize) virtPcieEcamHighBase

/-- Access to memory space is enabled. -/
def enableMemSpace (m : Phys) (cfg : Nat) : Phys :=
  ioWrite16 m (command cfg) (ioRead16 m (command cfg) ||| 1 <<< cmdMemSpaceBitPosition)

def World.logMsg (w : World) (msg : String) : World := { w with log := w.log ++ [msg] }

/-- `virtio_console_probe_pcie_mmio`, with the walk cut off after `fuel` turns; 0 is `NULL`. Before
the walk sets them, the local variables hold what `junk` has. A failed assertion is reported by
`abort_msg`, which returns. -/
def virtioConsoleProbePcieMmio (fuel : Nat) (junk : CapState) (w : World) :
    Option (UInt64 × World) :=
  match console w.mem with
  | none => some (0, w.logMsg "Error: No virtio console device found!\n")
  | some cfg =>
    if ioRead16 w.mem (status cfg) &&& 1 <<< statusCapListBitPosition = 0 then
      some (0, w.logMsg "Error: Virtio console capabilities list unsupport!\n")
    else
      let mem := enableMemSpace w.mem cfg
      let start := { junk with notifyBase := w.notifyBase, notifyMultiplier := w.notifyMultiplier }
      match walk (nextCap mem cfg) 0 (visitCap mem cfg) fuel (ioRead8 mem (capabilitiesPointer cfg))
        start with
      | none => none
      | some s =>
        let reg := baseAddrReg0 cfg + s.commonBar.toNat * 4
        some (s.virtioCfg,
          { w with
            mem := ioWrite64 mem reg (virtConsoleBarAddr ||| 0x4)
            notifyBase := s.notifyBase
            notifyMultiplier := s.notifyMultiplier
            aborted := w.aborted || decide (s.commonBar ≠ s.notifyBar) })

section Walked

variable (m : Phys) (cfg : Nat)

/-- The entries of the capability list. -/
def Listed (caps : List UInt8) : Prop :=
  Visits (nextCap m cfg) 0 (ioRead8 m (capabilitiesPointer cfg)) caps

end Walked

/-- A console whose status has the capability list bit. -/
structure HasConsole (m : Phys) (cfg : Nat) : Prop where
  found : console m = some cfg
  capList : ioRead16 m (status cfg) &&& 1 <<< statusCapListBitPosition ≠ 0

section Probe

variable {w : World} {cfg : Nat}

theorem probe_isSome (h : HasConsole w.mem cfg) {fuel : Nat} {junk : CapState} :
    (virtioConsoleProbePcieMmio fuel junk w).isSome ↔
      ∃ caps, Listed (enableMemSpace w.mem cfg) cfg caps ∧ caps.length ≤ fuel := by
  simp only [virtioConsoleProbePcieMmio, h.found, if_neg h.capList]
  split
  next hwalk =>
    refine iff_of_false Bool.false_ne_true ?_
    rintro ⟨caps, hlisted, hlen⟩
    rw [walk_eq_some.mpr ⟨caps, hlisted, hlen, rfl⟩] at hwalk
    cases hwalk
  next s hwalk =>
    obtain ⟨caps, hlisted, hlen, _⟩ := walk_eq_some.mp hwalk
    exact iff_of_true rfl ⟨caps, hlisted, hlen⟩

/-- The walk ends after as many turns as there are offsets, or never. -/
theorem probe_within (h : HasConsole w.mem cfg) {junk : CapState} :
    (∃ fuel, (virtioConsoleProbePcieMmio fuel junk w).isSome) ↔
      (virtioConsoleProbePcieMmio 256 junk w).isSome := by
  constructor
  · rintro ⟨fuel, hends⟩
    obtain ⟨caps, hlisted, _⟩ := (probe_isSome h).mp hends
    have hinj : Function.Injective UInt8.toFin := fun _ _ => UInt8.toFin_inj.mp
    have hlen := (hlisted.nodup.map hinj).length_le_card
    rw [List.length_map, Fintype.card_fin] at hlen
    exact (probe_isSome h).mpr ⟨caps, hlisted, hlen⟩
  · intro hends
    exact ⟨256, hends⟩

end Probe

end ExternalTrusty.Pci
