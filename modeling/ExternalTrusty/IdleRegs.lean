import ExternalTrusty.Asm

namespace ExternalTrusty.Asm

open Aarch64

variable {b : Board} {m m' : Machine Label} {i : Nat} {ch : Choice}

def skipAddr (b : Board) : UInt64 := UInt64.ofNat b.skipCpu0Wfi

/-- The rest of the code calls the two routines, and stores nothing where `trusty_idle` keeps its
flag. That flag is a `.long`, but it is read and written as eight bytes. -/
def idleRely (b : Board) : Rely Label where
  enters := fun _ l _ => l = .trustyIdle ∨ l = .trustyLocalIrqDisable
  stores := fun _ a n => a + n ≤ b.skipCpu0Wfi ∨ b.skipCpu0Wfi + 8 ≤ a

/-- What is known of a core at each place of the two routines. -/
def IdleRegs (b : Board) (i : Nat) (c : Core Label) : Prop :=
  match c.pc with
  | none => True
  | some (.trustyIdle, k) =>
    (0 < k → c.regs (x 0) = skipAddr b) ∧ (k = 2 → c.regs (x 2) = b.mpidr i) ∧
      (k = 3 → c.regs (x 2) = b.mpidr i &&& ~~~0x1000000) ∧
      (4 ≤ k → c.regs (x 2) = cpuNum b i) ∧ (5 ≤ k → cpuNum b i ≠ 0)
  | some (.sendInt, k) =>
    cpuNum b i ≠ 0 ∧
      if b.gicVersion > 2 then k = 1 → c.regs (x 4) = 1
      else (0 < k → c.regs (x 3) = gicdBase) ∧ (k = 2 → c.regs (x 4) = 0x1800f)
  | some (.intSent, _) => cpuNum b i ≠ 0
  | some (.cpu0Idle, k) =>
    cpuNum b i = 0 ∧ c.regs (x 0) = skipAddr b ∧ (0 < k → c.regs (x 1) ≠ 0)
  | some (.wfi, _) => cpuNum b i = 0 → c.regs (x 1) ≠ 0 → c.regs (x 3) = 0
  | some (.noWfi, _) => True
  | some (.trustyLocalIrqDisable, _) => True
  | some (.trustyLocalIrqDisableDone, _) => True
  | _ => False

section Places

variable {k : Nat} {ins : Instr Label} {m₁ : Machine Label} {target : Target Label}

/-- A core goes on from a place with what is known there. -/
def GoesOn (b : Board) (i : Nat) (m₁ : Machine Label) (pc : Label × Nat)
    (target : Target Label) : Prop :=
  IdleRegs b i { m₁.cores i with pc := (text b).after pc target }

theorem goesOn_trustyIdle (held : IdleRegs b i (m.cores i))
    (hpc : (m.cores i).pc = some (.trustyIdle, k))
    (hins : (block b .trustyIdle)[k]? = some ins)
    (hrun : ins.run b.platform i ch m = some (m₁, target)) :
    GoesOn b i m₁ (.trustyIdle, k) target := by
  unfold IdleRegs at held
  rw [hpc] at held
  obtain ⟨h0, h2, h3, h4, h5⟩ := held
  unfold GoesOn
  match k, hins with
  | 0, hins =>
    cases hins
    cases hrun
    simp [IdleRegs, Code.after, text, block, getCpuNum, addr, skipAddr]
  | 1, hins =>
    cases hins
    cases hrun
    simp [IdleRegs, Code.after, text, block, getCpuNum, h0, Board.platform]
  | 2, hins =>
    cases hins
    cases hrun
    simp [IdleRegs, Code.after, text, block, getCpuNum, h0, h2]
  | 3, hins =>
    cases hins
    cases hrun
    simp [IdleRegs, Code.after, text, block, getCpuNum, h0, h3, cpuNum, cpuNumOf]
  | 4, hins =>
    cases hins
    cases hrun
    by_cases hz : cpuNum b i = 0
    · simp [IdleRegs, Code.after, h0, h4, hz]
    · simp [IdleRegs, Code.after, text, block, getCpuNum, h0, h4, hz]
  | 5, hins =>
    cases hins
    cases hrun
    simp [IdleRegs, Code.after, text, block, getCpuNum, next, h5]

theorem goesOn_sendInt (held : IdleRegs b i (m.cores i))
    (hpc : (m.cores i).pc = some (.sendInt, k))
    (hins : (block b .sendInt)[k]? = some ins)
    (hrun : ins.run b.platform i ch m = some (m₁, target)) :
    GoesOn b i m₁ (.sendInt, k) target := by
  unfold IdleRegs at held
  rw [hpc] at held
  obtain ⟨hnum, hregs⟩ := held
  unfold GoesOn
  by_cases hgic : b.gicVersion > 2
  · simp only [block, hgic, ite_true] at hins hregs
    match k, hins with
    | 0, hins =>
      cases hins
      cases hrun
      simp [IdleRegs, Code.after, text, block, hgic, hnum]
    | 1, hins =>
      cases hins
      cases hrun
      simp [IdleRegs, Code.after, text, block, hgic, hnum, next]
  · simp only [block, hgic, ite_false] at hins hregs
    match k, hins with
    | 0, hins =>
      cases hins
      cases hrun
      simp [IdleRegs, Code.after, text, block, hgic, hnum]
    | 1, hins =>
      cases hins
      cases hrun
      simp [IdleRegs, Code.after, text, block, hgic, hnum, hregs]
    | 2, hins =>
      cases hins
      simp only [Instr.run] at hrun
      split at hrun
      all_goals
        cases hrun
        simp [IdleRegs, Code.after, text, block, hgic, hnum, next]

theorem goesOn_intSent (held : IdleRegs b i (m.cores i))
    (hpc : (m.cores i).pc = some (.intSent, k))
    (hins : (block b .intSent)[k]? = some ins)
    (hrun : ins.run b.platform i ch m = some (m₁, target)) :
    GoesOn b i m₁ (.intSent, k) target := by
  unfold IdleRegs at held
  rw [hpc] at held
  unfold GoesOn
  match k, hins with
  | 0, hins =>
    cases hins
    cases hrun
    by_cases hz : (m.cores i).regs (x 1) = 0
    · simpa [IdleRegs, Code.after, text, block, hz] using held
    · simp [IdleRegs, Code.after, hz]
  | 1, hins =>
    cases hins
    cases hrun
    simp [IdleRegs, Code.after, held]

theorem goesOn_cpu0Idle (held : IdleRegs b i (m.cores i))
    (hpc : (m.cores i).pc = some (.cpu0Idle, k))
    (hins : (block b .cpu0Idle)[k]? = some ins)
    (hrun : ins.run b.platform i ch m = some (m₁, target)) :
    GoesOn b i m₁ (.cpu0Idle, k) target := by
  unfold IdleRegs at held
  rw [hpc] at held
  obtain ⟨hnum, h0, h1⟩ := held
  unfold GoesOn
  match k, hins with
  | 0, hins =>
    cases hins
    cases hrun
    by_cases hz : (m.cores i).regs (x 1) = 0
    · simp [IdleRegs, Code.after, hz]
    · simp [IdleRegs, Code.after, text, block, hz, hnum, h0]
  | 1, hins =>
    cases hins
    cases hrun
    simp [IdleRegs, Code.after, text, block, hnum, h0, h1, Machine.watch]
  | 2, hins =>
    cases hins
    simp only [Instr.run] at hrun
    split at hrun
    all_goals
      cases hrun
      simp [IdleRegs, Code.after, text, block, hnum, h0, h1, Machine.watch]
  | 3, hins =>
    cases hins
    cases hrun
    by_cases hz : (m.cores i).regs (x 3) = 0
    · simp [IdleRegs, Code.after, text, block, next, hz]
    · simp [IdleRegs, Code.after, hz]

theorem goesOn_irqDisable (hins : (block b .trustyLocalIrqDisable)[k]? = some ins)
    (hrun : ins.run b.platform i ch m = some (m₁, target)) :
    GoesOn b i m₁ (.trustyLocalIrqDisable, k) target := by
  unfold GoesOn
  by_cases hgic : b.gicVersion > 2
  · simp only [block, hgic, ite_true] at hins
    match k, hins with
    | 0, hins =>
      cases hins
      obtain ⟨_, _, heq⟩ := Option.map_eq_some_iff.mp hrun
      cases heq
      simp [IdleRegs, Code.after, text, block, hgic]
    | 1, hins =>
      cases hins
      cases hrun
      simp [IdleRegs, Code.after, text, block, hgic]
    | 2, hins =>
      cases hins
      cases hrun
      split
      · simp [IdleRegs, Code.after]
      · simp [IdleRegs, Code.after, text, block, hgic]
    | 3, hins =>
      cases hins
      cases hrun
      simp [IdleRegs, Code.after, text, block, hgic]
    | 4, hins =>
      cases hins
      cases hrun
      simp [IdleRegs, Code.after]
  · simp [block, hgic] at hins

end Places

theorem idleRegs_exec (held : IdleRegs b i (m.cores i))
    (h : exec b.platform (text b) i ch m = some m') : IdleRegs b i (m'.cores i) := by
  obtain ⟨⟨l, k⟩, ins, m₁, target, hpc, hins, hrun, rfl⟩ := exec_eq h
  have hheld := held
  unfold IdleRegs at hheld
  rw [hpc] at hheld
  have hgo : GoesOn b i m₁ (l, k) target := by
    cases l
    case trustyIdle => exact goesOn_trustyIdle held hpc hins hrun
    case sendInt => exact goesOn_sendInt held hpc hins hrun
    case intSent => exact goesOn_intSent held hpc hins hrun
    case cpu0Idle => exact goesOn_cpu0Idle held hpc hins hrun
    case trustyLocalIrqDisable => exact goesOn_irqDisable hins hrun
    case wfi =>
      match k, hins with
      | 0, hins =>
        cases hins
        cases hrun
        simp [GoesOn, IdleRegs, Code.after, text, block, next]
    case noWfi =>
      match k, hins with
      | 0, hins =>
        cases hins
        cases hrun
        simp [GoesOn, IdleRegs, Code.after]
    case trustyLocalIrqDisableDone =>
      by_cases hgic : b.gicVersion > 2
      · simp only [text, block, hgic, ite_true] at hins
        match k, hins with
        | 0, hins =>
          cases hins
          cases hrun
          simp [GoesOn, IdleRegs, Code.after]
      · simp [text, block, hgic] at hins
    all_goals exact hheld.elim
  simpa [GoesOn] using hgo

theorem idleRegs_congr {c c' : Core Label} (hpc : c'.pc = c.pc) (hregs : c'.regs = c.regs)
    (held : IdleRegs b i c) : IdleRegs b i c' := by
  unfold IdleRegs at *
  rw [hpc, hregs]
  exact held

/-- The two routines store only in three places, and call no firmware. -/
theorem idle_places {l : Label} {k : Nat} {ins : Instr Label}
    (hpc : (m.cores i).pc = some (l, k)) (held : IdleRegs b i (m.cores i))
    (hins : (block b l)[k]? = some ins) (hl : ins.isLocal = false) :
    ins ≠ .smc ∧ ((l, k) = (.trustyIdle, 5) ∨ (l = .sendInt ∧ k = 2 ∧ ¬b.gicVersion > 2) ∨
      (l, k) = (.cpu0Idle, 2)) := by
  unfold IdleRegs at held
  rw [hpc] at held
  cases l
  case trustyIdle =>
    match k, hins with
    | 0, hins => cases hins; cases hl
    | 1, hins => cases hins; cases hl
    | 2, hins => cases hins; cases hl
    | 3, hins => cases hins; cases hl
    | 4, hins => cases hins; cases hl
    | 5, hins => cases hins; exact ⟨nofun, Or.inl rfl⟩
  case sendInt =>
    by_cases hgic : b.gicVersion > 2
    · simp only [block, hgic, ite_true] at hins
      match k, hins with
      | 0, hins => cases hins; cases hl
      | 1, hins => cases hins; cases hl
    · simp only [block, hgic, ite_false] at hins
      match k, hins with
      | 0, hins => cases hins; cases hl
      | 1, hins => cases hins; cases hl
      | 2, hins => cases hins; exact ⟨nofun, Or.inr (Or.inl ⟨rfl, rfl, hgic⟩)⟩
  case intSent =>
    match k, hins with
    | 0, hins => cases hins; cases hl
    | 1, hins => cases hins; cases hl
  case cpu0Idle =>
    match k, hins with
    | 0, hins => cases hins; cases hl
    | 1, hins => cases hins; cases hl
    | 2, hins => cases hins; exact ⟨nofun, Or.inr (Or.inr rfl)⟩
    | 3, hins => cases hins; cases hl
  case wfi =>
    match k, hins with
    | 0, hins => cases hins; cases hl
  case noWfi =>
    match k, hins with
    | 0, hins => cases hins; cases hl
  case trustyLocalIrqDisable =>
    by_cases hgic : b.gicVersion > 2
    · simp only [block, hgic, ite_true] at hins
      match k, hins with
      | 0, hins => cases hins; cases hl
      | 1, hins => cases hins; cases hl
      | 2, hins => cases hins; cases hl
      | 3, hins => cases hins; cases hl
      | 4, hins => cases hins; cases hl
    · simp [block, hgic] at hins
  case trustyLocalIrqDisableDone =>
    by_cases hgic : b.gicVersion > 2
    · simp only [block, hgic, ite_true] at hins
      match k, hins with
      | 0, hins => cases hins; cases hl
    · simp [block, hgic] at hins
  all_goals exact held.elim

theorem idleRegs_step (held : ∀ i, IdleRegs b i (m.cores i))
    (h : Step b.platform (text b) (idleRely b) m m') (j : Nat) : IdleRegs b j (m'.cores j) := by
  cases h with
  | exec i ch h =>
    by_cases hj : j = i
    · subst hj
      exact idleRegs_exec (held j) h
    · obtain ⟨⟨l, k⟩, ins, m₁, target, hpc, hins, hrun, rfl⟩ := exec_eq h
      have hs : ins ≠ .smc := by
        rintro rfl
        exact (idle_places hpc (held i) hins rfl).1 rfl
      obtain ⟨hpc', hregs, _⟩ := Instr.run_other hrun hs hj
      exact idleRegs_congr (by simpa [hj] using hpc') (by simpa [hj] using hregs) (held j)
  | enter i l outside ok =>
    by_cases hj : j = i
    · subst hj
      rcases ok with rfl | rfl
      · simp [IdleRegs]
      · simp [IdleRegs]
    · simpa [hj] using held j
  | store i a n v outside ok => exact idleRegs_congr rfl rfl (held j)
  | compute i regs compared monitor outside =>
    by_cases hj : j = i
    · subst hj
      simp [IdleRegs, outside.2]
    · simpa [hj] using held j
  | serve i pending active outside => exact held j
  | interrupt i id => exact held j

end ExternalTrusty.Asm
