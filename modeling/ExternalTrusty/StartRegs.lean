import ExternalTrusty.Asm

namespace ExternalTrusty.Asm

open Aarch64

variable {b : Board} {m m' : Machine Label} {i : Nat} {ch : Choice}

theorem cpuNum_eq_affinity (b : Board) (i : Nat) : cpuNum b i = affinity (b.mpidr i) := by
  have hres := b.res0 i
  have hsplit : ~~~0x1000000 &&& ~~~0xc0000000 =
      (0xff00ffffff : UInt64) ||| ~~~0xff00ffffff &&& ~~~0xc1000000 := by decide
  rw [UInt64.and_assoc] at hres
  unfold cpuNum cpuNumOf affinity
  rw [UInt64.and_assoc, hsplit]
  refine UInt64.toNat_inj.mp ?_
  rw [UInt64.toNat_and, UInt64.toNat_or, Nat.and_or_distrib_left, ← UInt64.toNat_and,
    ← UInt64.toNat_and, hres]
  exact Nat.or_zero _

theorem cpuNum_lt (b : Board) (i : Nat) : (cpuNum b i).toNat < 2 ^ 40 := by
  rw [cpuNum_eq_affinity, affinity, UInt64.toNat_and]
  exact Nat.lt_of_le_of_lt Nat.and_le_right (by decide)

/-- A core with one of the first four numbers is the core of that place. -/
theorem eq_cpuNum (h : (cpuNum b i).toNat < maxCpuCount) : i = (cpuNum b i).toNat :=
  (b.numbered i _ h).mp UInt64.ofNat_toNat.symm

theorem cpuNum_toNat (h : i < maxCpuCount) : (cpuNum b i).toNat = i := by
  rw [cpuNum, (b.numbered i i h).mpr rfl]
  refine UInt64.toNat_ofNat_of_lt' ?_
  simp only [maxCpuCount] at h
  simp only [UInt64.size]
  omega

/-- The top of the stack of the core with this number. -/
def stackTop (b : Board) (num : Nat) : Nat := b.stack + stackSize * num

theorem stackTop_cpuNum (b : Board) (i : Nat) :
    (UInt64.ofNat b.stack + 4096 * cpuNum b i).toNat = stackTop b (cpuNum b i).toNat := by
  have hnum := cpuNum_lt b i
  have hfits := b.data_fits
  have hstack : (UInt64.ofNat b.stack).toNat = b.stack := by
    refine UInt64.toNat_ofNat_of_lt' ?_
    simp only [Board.stack, stackSize, UInt64.size]
    omega
  have hconst : (4096 : UInt64).toNat = 4096 := rfl
  rw [UInt64.toNat_add, UInt64.toNat_mul, hstack, hconst]
  simp only [stackTop, Board.stack, stackSize]
  omega

theorem stackSpaceEnd_toNat (b : Board) :
    (UInt64.ofNat b.stackSpaceEnd).toNat = stackTop b (maxCpuCount - 1) := by
  have hfits := b.data_fits
  refine UInt64.toNat_ofNat_of_lt' ?_
  simp only [Board.stackSpaceEnd, Board.stack, stackSize, maxCpuCount, UInt64.size]
  omega

/-- The check against the end of the stacks lets the first four cores through. -/
theorem lt_maxCpuCount
    (h : UInt64.ofNat b.stack + 4096 * cpuNum b i ≤ UInt64.ofNat b.stackSpaceEnd) :
    i < maxCpuCount := by
  have hle := UInt64.le_iff_toNat_le.mp h
  rw [stackTop_cpuNum, stackSpaceEnd_toNat] at hle
  simp only [stackTop, stackSize, maxCpuCount] at hle
  have hnum : (cpuNum b i).toNat < maxCpuCount := by
    unfold maxCpuCount
    omega
  rwa [eq_cpuNum hnum]

/-- The text of `arch_start_secondary_cpus`. -/
def isCall : Label → Bool
  | .archStartSecondaryCpus => true
  | .cpuCountOk => true
  | .startSecondaryCpuLoop => true
  | .waitForSecondaryCpuLoop => true
  | .startSecondaryCpuFailed => true
  | _ => false

/-- What is known of a core's registers on its way from `_start` to `boot_arm64`. -/
def StartRegs (b : Board) (i : Nat) (c : Core Label) : Prop :=
  match c.pc with
  | none => True
  | some (.start, _) => True
  | some (.vbarSetupNotEl2, _) => True
  | some (.vbarSetupDone, k) =>
    (k = 1 → c.regs (x 0) = b.mpidr i) ∧ (k = 2 → c.regs (x 0) = b.mpidr i &&& ~~~0x1000000) ∧
      (3 ≤ k → c.regs (x 0) = cpuNum b i) ∧ (k = 4 → c.regs (x 1) = 4096) ∧
      (5 ≤ k → k ≤ 6 → c.regs (x 1) = 4096 * cpuNum b i) ∧
      (k = 6 → c.regs (x 2) = UInt64.ofNat b.stack) ∧
      (7 ≤ k → c.regs (x 2) = UInt64.ofNat b.stack + 4096 * cpuNum b i) ∧
      (k = 8 → c.regs (x 1) = UInt64.ofNat b.stackSpaceEnd) ∧
      (k = 9 → c.compared = (c.regs (x 2), UInt64.ofNat b.stackSpaceEnd)) ∧
      (10 ≤ k → i < maxCpuCount) ∧ (k = 11 → c.regs (x 1) = UInt64.ofNat b.cpuReady) ∧
      (k = 15 → c.regs .sp = c.regs (x 2))
  | some (.error, _) => True
  | some (.semihosting, _) => True
  | some (l, _) => isCall l ∧ i = 0

section Places

variable {k : Nat} {ins : Instr Label} {m₁ : Machine Label} {target : Target Label}

/-- A core goes on from a place with what is known there. -/
def StartsOn (b : Board) (i : Nat) (m₁ : Machine Label) (pc : Label × Nat)
    (target : Target Label) : Prop :=
  StartRegs b i { m₁.cores i with pc := (text b).after pc target }

theorem startsOn_vbarSetupDone (held : StartRegs b i (m.cores i))
    (hpc : (m.cores i).pc = some (.vbarSetupDone, k))
    (hins : (block b .vbarSetupDone)[k]? = some ins)
    (hrun : ins.run b.platform i ch m = some (m₁, target)) :
    StartsOn b i m₁ (.vbarSetupDone, k) target := by
  unfold StartRegs at held
  rw [hpc] at held
  obtain ⟨h1, h2, h3, h4, h5, h6, h7, h8, h9, h10, h11, h15⟩ := held
  unfold StartsOn
  match k, hins with
  | 0, hins =>
    cases hins
    cases hrun
    simp [StartRegs, Code.after, text, block, getCpuNum, Board.platform]
  | 1, hins =>
    cases hins
    cases hrun
    simp [StartRegs, Code.after, text, block, getCpuNum, h1]
  | 2, hins =>
    cases hins
    cases hrun
    simp [StartRegs, Code.after, text, block, getCpuNum, h2, cpuNum, cpuNumOf]
  | 3, hins =>
    cases hins
    cases hrun
    simp [StartRegs, Code.after, text, block, getCpuNum, h3, addr, stackSize]
  | 4, hins =>
    cases hins
    cases hrun
    simp [StartRegs, Code.after, text, block, getCpuNum, h3, h4]
  | 5, hins =>
    cases hins
    cases hrun
    simp [StartRegs, Code.after, text, block, getCpuNum, h3, h5, addr]
  | 6, hins =>
    cases hins
    cases hrun
    simp [StartRegs, Code.after, text, block, getCpuNum, h3, h5, h6]
  | 7, hins =>
    cases hins
    cases hrun
    simp [StartRegs, Code.after, text, block, getCpuNum, h3, h7, addr]
  | 8, hins =>
    cases hins
    cases hrun
    simp [StartRegs, Code.after, text, block, getCpuNum, h3, h7, h8]
  | 9, hins =>
    cases hins
    cases hrun
    have hcmp : (m.cores i).compared =
        (UInt64.ofNat b.stack + 4096 * cpuNum b i, UInt64.ofNat b.stackSpaceEnd) := by
      rw [h9 rfl, h7 (by omega)]
    by_cases hhi : UInt64.ofNat b.stackSpaceEnd < UInt64.ofNat b.stack + 4096 * cpuNum b i
    · simp [StartRegs, Code.after, Cond.holds, hcmp, hhi]
    · have hlt := lt_maxCpuCount (UInt64.not_lt.mp hhi)
      simp [StartRegs, Code.after, text, block, getCpuNum, Cond.holds, h3, h7, hcmp, hhi, hlt]
  | 10, hins =>
    cases hins
    cases hrun
    simp [StartRegs, Code.after, text, block, getCpuNum, h3, h7, h10, addr]
  | 11, hins =>
    cases hins
    cases hrun
    simp [StartRegs, Code.after, text, block, getCpuNum, h3, h7, h10]
  | 12, hins =>
    cases hins
    cases hrun
    simp [StartRegs, Code.after, text, block, getCpuNum, h3, h7, h10]
  | 13, hins =>
    cases hins
    cases hrun
    simp [StartRegs, Code.after, text, block, getCpuNum, h3, h7, h10]
  | 14, hins =>
    cases hins
    cases hrun
    simp [StartRegs, Code.after, text, block, getCpuNum, h3, h7, h10]
  | 15, hins =>
    cases hins
    cases hrun
    simp [StartRegs, Code.after]

theorem startsOn_start (hins : (block b .start)[k]? = some ins)
    (hrun : ins.run b.platform i ch m = some (m₁, target)) :
    StartsOn b i m₁ (.start, k) target := by
  unfold StartsOn
  match k, hins with
  | 0, hins => cases hins; cases hrun; simp [StartRegs, Code.after, text, block]
  | 1, hins => cases hins; cases hrun; simp [StartRegs, Code.after, text, block]
  | 2, hins => cases hins; cases hrun; simp [StartRegs, Code.after, text, block]
  | 3, hins => cases hins; cases hrun; simp [StartRegs, Code.after, text, block]
  | 4, hins =>
    cases hins
    cases hrun
    split
    · simp [StartRegs, Code.after]
    · simp [StartRegs, Code.after, text, block]
  | 5, hins => cases hins; cases hrun; simp [StartRegs, Code.after, text, block]
  | 6, hins => cases hins; cases hrun; simp [StartRegs, Code.after]

end Places

/-- `_start` is left only for `boot_arm64`, or for the end of the run. -/
theorem startRegs_exec (held : StartRegs b i (m.cores i))
    (hcall : ∀ l k, (m.cores i).pc = some (l, k) → isCall l = false)
    (h : exec b.platform (text b) i ch m = some m') : StartRegs b i (m'.cores i) := by
  obtain ⟨⟨l, k⟩, ins, m₁, target, hpc, hins, hrun, rfl⟩ := exec_eq h
  change (block b l)[k]? = some ins at hins
  have hnot := hcall l k hpc
  have hheld := held
  unfold StartRegs at hheld
  rw [hpc] at hheld
  have hgo : StartsOn b i m₁ (l, k) target := by
    cases l
    case start => exact startsOn_start hins hrun
    case vbarSetupDone => exact startsOn_vbarSetupDone held hpc hins hrun
    case vbarSetupNotEl2 =>
      match k, hins with
      | 0, hins => cases hins; cases hrun; simp [StartsOn, StartRegs, Code.after, text, block, next]
    case error =>
      match k, hins with
      | 0, hins => cases hins; cases hrun; simp [StartsOn, StartRegs, Code.after, text, block]
      | 1, hins => cases hins; cases hrun; simp [StartsOn, StartRegs, Code.after, text, block, next]
    case semihosting =>
      match k, hins with
      | 0, hins => cases hins; cases hrun
      | 1, hins => cases hins; cases hrun; simp [StartsOn, StartRegs, Code.after]
    all_goals simp [isCall] at hheld hnot
  simpa [StartsOn] using hgo

theorem startRegs_congr {c c' : Core Label} (hpc : c'.pc = c.pc) (hregs : c'.regs = c.regs)
    (hcompared : c'.compared = c.compared) (held : StartRegs b i c) : StartRegs b i c' := by
  unfold StartRegs at *
  rw [hpc, hregs, hcompared]
  exact held

end ExternalTrusty.Asm
