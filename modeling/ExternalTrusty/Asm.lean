import ExternalTrusty.Aarch64

namespace ExternalTrusty.Asm

open Aarch64

def maxCpuCount : Nat := 4
def stackSize : Nat := 4096
def gicdBase : UInt64 := 0x08000000
def gicdSgir : UInt64 := 0xf00

/-- The number that `get_cpu_num` makes of MPIDR_EL1. -/
def cpuNumOf (mpidr : UInt64) : UInt64 := mpidr &&& ~~~0x1000000 &&& ~~~0xc0000000

/-- What the assembly is built for and linked at. `data` is where its data begins. The first four
cores are numbered in order; the bits of MPIDR_EL1 that have no meaning read as zero. -/
structure Board where
  gicVersion : Nat
  currentEl : UInt64
  mpidr : Nat → UInt64
  l2ctlr : UInt64
  start : UInt64
  exitParams : UInt64
  data : Nat
  data_fits : data < 2 ^ 48
  numbered : ∀ i k : Nat, k < maxCpuCount → (cpuNumOf (mpidr i) = UInt64.ofNat k ↔ i = k)
  res0 : ∀ i, mpidr i &&& ~~~0xff00ffffff &&& ~~~0xc1000000 = 0

/-- The labels, and two more (`sendInt`, `intSent`) where the text of `trusty_idle` depends on the
version of the interrupt controller. -/
inductive Label
  | start
  | vbarSetupNotEl2
  | vbarSetupDone
  | error
  | semihosting
  | trustyIdle
  | sendInt
  | intSent
  | cpu0Idle
  | wfi
  | noWfi
  | trustyLocalIrqDisable
  | trustyLocalIrqDisableDone
  | archStartSecondaryCpus
  | cpuCountOk
  | startSecondaryCpuLoop
  | waitForSecondaryCpuLoop
  | startSecondaryCpuFailed
  deriving DecidableEq

namespace Board

variable (b : Board)

def stack : Nat := b.data + stackSize
def stackSpaceEnd : Nat := b.stack + stackSize * (maxCpuCount - 1)
def cpuReady : Nat := b.stackSpaceEnd

/-- The next multiple of eight after `cpu_ready`. -/
def skipCpu0Wfi : Nat := (b.cpuReady + maxCpuCount + 7) / 8 * 8

def platform : Platform Label where
  currentEl := b.currentEl
  mpidr := b.mpidr
  l2ctlr := b.l2ctlr
  gicdSgir := if b.gicVersion > 2 then none else some (gicdBase + gicdSgir)
  entryAt := fun a => if a = b.start then some .start else none

end Board

abbrev x (n : Nat) : Reg := .x n

def addr (a : Nat) : Operand := .imm (UInt64.ofNat a)

/-- `get_cpu_num` -/
def getCpuNum (reg : Reg) : List (Instr Label) :=
  [.mrs reg .mpidr, .bic reg reg (.imm 0x1000000), .bic reg reg (.imm 0xc0000000)]

/-- `get_secondary_cpu_count` -/
def getSecondaryCpuCount (reg : Reg) : List (Instr Label) := [.mrs reg .l2ctlr, .lsr reg reg 24]

def block (b : Board) : Label → List (Instr Label)
  | .start =>
    [.mov (x 0) (.imm b.start),
      .mrs (x 1) .currentEl,
      .and (x 1) (x 1) (.imm 0xc),
      .cmp (x 1) (.imm 0x8),
      .bCond .ne .vbarSetupNotEl2,
      .msr .vbarEl2 (x 0),
      .b .vbarSetupDone]
  | .vbarSetupNotEl2 => [.msr .vbarEl1 (x 0)]
  | .vbarSetupDone =>
    getCpuNum (x 0) ++
    [.mov (x 1) (addr stackSize),
      .mul (x 1) (x 1) (.reg (x 0)),
      .mov (x 2) (addr b.stack),
      .add (x 2) (x 2) (.reg (x 1)),
      .mov (x 1) (addr b.stackSpaceEnd),
      .cmp (x 2) (.reg (x 1)),
      .bCond .hi .error,
      .mov (x 1) (addr b.cpuReady),
      .strb (x 0) (x 1) (x 0),
      .dmb,
      .sev,
      .mov .sp (.reg (x 2)),
      .bl]
  | .error => [.mov (x 0) (.imm 0x18), .mov (x 1) (.imm b.exitParams)]
  | .semihosting => [.hlt, .ret]
  | .trustyIdle =>
    .mov (x 0) (addr b.skipCpu0Wfi) ::
    getCpuNum (x 2) ++
    [.cbz (x 2) .cpu0Idle,
      .stlr (x 2) (x 0)]
  | .sendInt =>
    if b.gicVersion > 2 then
      [.mov (x 4) (.imm 1), .msr .iccSgi1r (x 4)]
    else
      [.mov (x 3) (.imm gicdBase), .mov (x 4) (.imm 0x1800f), .str (x 4) (x 3) gicdSgir]
  | .intSent => [.cbnz (x 1) .noWfi, .b .wfi]
  | .cpu0Idle =>
    [.cbz (x 1) .wfi,
      .ldaxr (x 3) (x 0),
      .stxr (x 4) .zr (x 0),
      .cbnz (x 3) .noWfi]
  | .wfi => [.wfi]
  | .noWfi => [.ret]
  | .trustyLocalIrqDisable =>
    if b.gicVersion > 2 then
      [.mrs (x 0) .iccIar1,
        .cmp (x 0) (.imm 1020),
        .bCond .hs .trustyLocalIrqDisableDone,
        .msr .iccEoir1 (x 0),
        .b .trustyLocalIrqDisable]
    else []
  | .trustyLocalIrqDisableDone => if b.gicVersion > 2 then [.ret] else []
  | .archStartSecondaryCpus =>
    .sub .sp .sp (.imm 16) ::
    .mov (x 1) (.imm 1) ::
    getSecondaryCpuCount (x 2) ++
    [.cmp (x 2) (addr maxCpuCount),
      .bCond .lo .cpuCountOk,
      .mov (x 2) (addr (maxCpuCount - 1))]
  | .cpuCountOk => [.stp (x 1) (x 2) .sp]
  | .startSecondaryCpuLoop =>
    [.mov (x 0) (.imm psciCpuOn),
      .mov (x 2) (.imm b.start),
      .mov (x 3) (.imm 0),
      .smc,
      .cbnz (x 0) .startSecondaryCpuFailed,
      .ldp (x 1) (x 2) .sp,
      .add (x 1) (x 1) (.imm 1),
      .stp (x 1) (x 2) .sp,
      .cmp (x 1) (.reg (x 2)),
      .bCond .ls .startSecondaryCpuLoop,
      .add .sp .sp (.imm 16),
      .mov (x 1) (.imm 0)]
  | .waitForSecondaryCpuLoop =>
    [.wfe,
      .dmb,
      .mov (x 4) (addr b.cpuReady),
      .ldrb (x 3) (x 4) (x 1),
      .cmp (x 3) (.reg (x 1)),
      .bCond .ne .waitForSecondaryCpuLoop,
      .add (x 1) (x 1) (.imm 1),
      .cmp (x 1) (.reg (x 2)),
      .bCond .ls .waitForSecondaryCpuLoop,
      .mov (x 0) (.imm 0)]
  | .startSecondaryCpuFailed => [.ret]

/-- Which label the text of each runs on into. -/
def next : Label → Option Label
  | .vbarSetupNotEl2 => some .vbarSetupDone
  | .vbarSetupDone => some .error
  | .error => some .semihosting
  | .trustyIdle => some .sendInt
  | .sendInt => some .intSent
  | .cpu0Idle => some .wfi
  | .wfi => some .noWfi
  | .archStartSecondaryCpus => some .cpuCountOk
  | .cpuCountOk => some .startSecondaryCpuLoop
  | .startSecondaryCpuLoop => some .waitForSecondaryCpuLoop
  | .waitForSecondaryCpuLoop => some .startSecondaryCpuFailed
  | _ => none

def text (b : Board) : Code Label := ⟨block b, next⟩

/-- The number that `get_cpu_num` reads on core `i`. -/
def cpuNum (b : Board) (i : Nat) : UInt64 := cpuNumOf (b.mpidr i)

theorem cpuNum_eq_zero (b : Board) (i : Nat) : cpuNum b i = 0 ↔ i = 0 :=
  b.numbered i 0 (by decide)

/-- A board like the one that the test runner is made for. -/
def virtBoard : Board where
  gicVersion := 3
  currentEl := 4
  mpidr := fun i => UInt64.ofNat (min i 4)
  l2ctlr := 0x3000000
  start := 0x60000000
  exitParams := 0x60000100
  data := 0x60010000
  data_fits := by decide
  numbered := by
    intro i k hk
    match i with
    | 0 => revert k; decide
    | 1 => revert k; decide
    | 2 => revert k; decide
    | 3 => revert k; decide
    | n + 4 =>
      have hmin : min (n + 4) 4 = 4 := by omega
      have hfour : ∀ k < maxCpuCount, cpuNumOf (UInt64.ofNat 4) ≠ UInt64.ofNat k := by decide
      simp only [hmin, hfour k hk, false_iff]
      simp only [maxCpuCount] at hk
      omega
  res0 := by
    intro i
    match i with
    | 0 => rfl
    | 1 => rfl
    | 2 => rfl
    | 3 => rfl
    | n + 4 =>
      have hmin : min (n + 4) 4 = 4 := by omega
      rw [hmin]
      rfl

/-- `n` instructions of core `i`, where each firmware call turns on `target`. -/
def playN (b : Board) (target i n : Nat) : Machine Label → Option (Machine Label) :=
  play b.platform (text b) i (List.replicate n ⟨0, false, target, fun _ => 0⟩)

end ExternalTrusty.Asm
