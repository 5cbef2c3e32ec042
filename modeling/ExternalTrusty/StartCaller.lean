import Mathlib.Tactic.IntervalCases
import ExternalTrusty.StartRegs

namespace ExternalTrusty.Asm

open Aarch64 CMemory

variable {b : Board} {m m' : Machine Label} {i : Nat} {ch : Choice} {sp₀ : Nat}

/-- How many secondary CPUs `arch_start_secondary_cpus` waits for. -/
def secondaryCpus (b : Board) : Nat := min (b.l2ctlr >>> 24).toNat (maxCpuCount - 1)

/-- How many it turns on: the first one always. -/
def turnedOn (b : Board) : Nat := max 1 (secondaryCpus b)

def num (c : Core Label) (k : Nat) : Nat := (c.regs (x k)).toNat

/-- CPUs 1 to `n` are all such that `P`. -/
def Upto (n : Nat) (P : Nat → Prop) : Prop := ∀ k, 1 ≤ k → k ≤ n → P k

/-- What CPU 0 can see of the machine: the two words in the frame of the call, which CPUs have set
their byte of `cpu_ready`, and which have been turned on. -/
structure Seen where
  saved : Nat
  count : Nat
  up : Nat → Prop
  on : Nat → Prop

/-- CPU 0 is turning on the CPU whose number is in its frame, after those before it. -/
def Turning (b : Board) (sp₀ : Nat) (c : Core Label) (s : Seen) : Prop :=
  (c.regs .sp).toNat = sp₀ - 16 ∧ s.count = secondaryCpus b ∧ 1 ≤ s.saved ∧
    s.saved ≤ turnedOn b ∧ Upto (s.saved - 1) s.on

/-- CPU 0 has turned on the CPU before the one whose number is in its frame. -/
def Turned (b : Board) (sp₀ : Nat) (c : Core Label) (s : Seen) : Prop :=
  (c.regs .sp).toNat = sp₀ - 16 ∧ s.count = secondaryCpus b ∧ 2 ≤ s.saved ∧
    s.saved ≤ turnedOn b + 1 ∧ Upto (s.saved - 1) s.on ∧ num c 1 = s.saved ∧
    num c 2 = secondaryCpus b

/-- CPU 0 has turned on all of them. -/
def AllOn (b : Board) (sp : Nat) (c : Core Label) (s : Seen) : Prop :=
  (c.regs .sp).toNat = sp ∧ num c 2 = secondaryCpus b ∧ Upto (turnedOn b) s.on

/-- CPU 0 waits for the CPU whose number is in `x1`, after those before it. -/
def Waits (b : Board) (sp₀ : Nat) (c : Core Label) (s : Seen) : Prop :=
  AllOn b sp₀ c s ∧ num c 1 ≤ secondaryCpus b ∧ Upto (num c 1 - 1) s.up

/-- CPU 0 has seen all CPUs before the one whose number is in `x1`. -/
def Waited (b : Board) (sp₀ : Nat) (c : Core Label) (s : Seen) : Prop :=
  AllOn b sp₀ c s ∧ 1 ≤ num c 1 ∧ num c 1 ≤ secondaryCpus b + 1 ∧ Upto (num c 1 - 1) s.up

/-- What is known of CPU 0 in `arch_start_secondary_cpus`, called with its stack at `sp₀`. -/
def Caller (b : Board) (sp₀ : Nat) (c : Core Label) (s : Seen) : Prop :=
  match c.pc with
  | some (.archStartSecondaryCpus, k) =>
    (c.regs .sp).toNat = (if k = 0 then sp₀ else sp₀ - 16) ∧ (2 ≤ k → num c 1 = 1) ∧
      (k = 3 → c.regs (x 2) = b.l2ctlr) ∧ (4 ≤ k → c.regs (x 2) = b.l2ctlr >>> 24) ∧
      (k = 5 → c.compared = (c.regs (x 2), 4)) ∧ (6 ≤ k → 4 ≤ (b.l2ctlr >>> 24).toNat)
  | some (.cpuCountOk, _) =>
    (c.regs .sp).toNat = sp₀ - 16 ∧ num c 1 = 1 ∧ num c 2 = secondaryCpus b
  | some (.startSecondaryCpuLoop, 0) => Turning b sp₀ c s ∧ num c 1 = s.saved
  | some (.startSecondaryCpuLoop, 1) =>
    Turning b sp₀ c s ∧ num c 1 = s.saved ∧ c.regs (x 0) = psciCpuOn
  | some (.startSecondaryCpuLoop, 2) =>
    Turning b sp₀ c s ∧ num c 1 = s.saved ∧ c.regs (x 0) = psciCpuOn ∧ c.regs (x 2) = b.start
  | some (.startSecondaryCpuLoop, 3) =>
    Turning b sp₀ c s ∧ num c 1 = s.saved ∧ c.regs (x 0) = psciCpuOn ∧ c.regs (x 2) = b.start
  | some (.startSecondaryCpuLoop, 4) => Turning b sp₀ c s ∧ (c.regs (x 0) = 0 → s.on s.saved)
  | some (.startSecondaryCpuLoop, 5) => Turning b sp₀ c s ∧ s.on s.saved
  | some (.startSecondaryCpuLoop, 6) =>
    Turning b sp₀ c s ∧ s.on s.saved ∧ num c 1 = s.saved ∧ num c 2 = secondaryCpus b
  | some (.startSecondaryCpuLoop, 7) =>
    Turning b sp₀ c s ∧ s.on s.saved ∧ num c 1 = s.saved + 1 ∧ num c 2 = secondaryCpus b
  | some (.startSecondaryCpuLoop, 8) => Turned b sp₀ c s
  | some (.startSecondaryCpuLoop, 9) =>
    Turned b sp₀ c s ∧ c.compared = (c.regs (x 1), c.regs (x 2))
  | some (.startSecondaryCpuLoop, 10) => AllOn b (sp₀ - 16) c s
  | some (.startSecondaryCpuLoop, 11) => AllOn b sp₀ c s
  | some (.waitForSecondaryCpuLoop, 0) => Waits b sp₀ c s
  | some (.waitForSecondaryCpuLoop, 1) => Waits b sp₀ c s
  | some (.waitForSecondaryCpuLoop, 2) => Waits b sp₀ c s
  | some (.waitForSecondaryCpuLoop, 3) =>
    Waits b sp₀ c s ∧ c.regs (x 4) = UInt64.ofNat b.cpuReady
  | some (.waitForSecondaryCpuLoop, 4) =>
    Waits b sp₀ c s ∧ (c.regs (x 3) = c.regs (x 1) → Upto (num c 1) s.up)
  | some (.waitForSecondaryCpuLoop, 5) =>
    Waits b sp₀ c s ∧ (c.regs (x 3) = c.regs (x 1) → Upto (num c 1) s.up) ∧
      c.compared = (c.regs (x 3), c.regs (x 1))
  | some (.waitForSecondaryCpuLoop, 6) => Waits b sp₀ c s ∧ Upto (num c 1) s.up
  | some (.waitForSecondaryCpuLoop, 7) => Waited b sp₀ c s
  | some (.waitForSecondaryCpuLoop, 8) =>
    Waited b sp₀ c s ∧ c.compared = (c.regs (x 1), c.regs (x 2))
  | some (.waitForSecondaryCpuLoop, 9) => AllOn b sp₀ c s ∧ Upto (secondaryCpus b) s.up
  | some (.startSecondaryCpuFailed, _) =>
    (c.regs (x 0) = 0 ∧ (c.regs .sp).toNat = sp₀ ∧ Upto (secondaryCpus b) s.up ∧
        Upto (turnedOn b) s.on) ∨
      (c.regs (x 0) ≠ 0 ∧ (c.regs .sp).toNat = sp₀ - 16)
  | _ => True

theorem Upto.mono {n k : Nat} {P Q : Nat → Prop} (h : Upto n P) (hk : k ≤ n)
    (hPQ : ∀ i, P i → Q i) : Upto k Q :=
  fun i h1 hi => hPQ i (h i h1 (by omega))

theorem Upto.last {n : Nat} {P : Nat → Prop} (h : Upto (n - 1) P) (hn : P n) : Upto n P := by
  intro k h1 hk
  by_cases hlast : k = n
  · exact hlast ▸ hn
  · exact h k h1 (by omega)

/-- What CPU 0 relies on stays: bytes that are set stay set, CPUs that are on stay on. -/
structure Seen.Grows (s s' : Seen) : Prop where
  saved : s'.saved = s.saved
  count : s'.count = s.count
  up : ∀ k, s.up k → s'.up k
  on : ∀ k, s.on k → s'.on k

theorem Seen.Grows.trans {s s' s'' : Seen} (h : s.Grows s') (h' : s'.Grows s'') : s.Grows s'' :=
  ⟨h'.saved.trans h.saved, h'.count.trans h.count, fun k hk => h'.up k (h.up k hk),
    fun k hk => h'.on k (h.on k hk)⟩

section Grows

variable {c : Core Label} {s s' : Seen} {sp : Nat}

theorem Turning.grows (h : Turning b sp₀ c s) (g : s.Grows s') : Turning b sp₀ c s' := by
  obtain ⟨hsp, hcount, hone, hle, hon⟩ := h
  exact ⟨hsp, g.count.trans hcount, g.saved ▸ hone, g.saved ▸ hle,
    g.saved ▸ hon.mono le_rfl g.on⟩

theorem Turned.grows (h : Turned b sp₀ c s) (g : s.Grows s') : Turned b sp₀ c s' := by
  obtain ⟨hsp, hcount, htwo, hle, hon, h1, h2⟩ := h
  exact ⟨hsp, g.count.trans hcount, g.saved ▸ htwo, g.saved ▸ hle, g.saved ▸ hon.mono le_rfl g.on,
    h1.trans g.saved.symm, h2⟩

theorem AllOn.grows (h : AllOn b sp c s) (g : s.Grows s') : AllOn b sp c s' :=
  ⟨h.1, h.2.1, h.2.2.mono le_rfl g.on⟩

theorem Waits.grows (h : Waits b sp₀ c s) (g : s.Grows s') : Waits b sp₀ c s' :=
  ⟨h.1.grows g, h.2.1, h.2.2.mono le_rfl g.up⟩

theorem Waited.grows (h : Waited b sp₀ c s) (g : s.Grows s') : Waited b sp₀ c s' :=
  ⟨h.1.grows g, h.2.1, h.2.2.1, h.2.2.2.mono le_rfl g.up⟩

theorem Caller.grows (h : Caller b sp₀ c s) (g : s.Grows s') : Caller b sp₀ c s' := by
  have hsaved := g.saved
  unfold Caller at *
  split
  case h_26 => trivial
  all_goals
    rename_i hpc
    rw [hpc] at h
  · exact h
  · exact h
  · exact ⟨h.1.grows g, h.2.trans hsaved.symm⟩
  · exact ⟨h.1.grows g, h.2.1.trans hsaved.symm, h.2.2⟩
  · exact ⟨h.1.grows g, h.2.1.trans hsaved.symm, h.2.2⟩
  · exact ⟨h.1.grows g, h.2.1.trans hsaved.symm, h.2.2⟩
  · exact ⟨h.1.grows g, fun hz => hsaved ▸ g.on _ (h.2 hz)⟩
  · exact ⟨h.1.grows g, hsaved ▸ g.on _ h.2⟩
  · exact ⟨h.1.grows g, hsaved ▸ g.on _ h.2.1, hsaved ▸ h.2.2⟩
  · exact ⟨h.1.grows g, hsaved ▸ g.on _ h.2.1, hsaved ▸ h.2.2⟩
  · exact h.grows g
  · exact ⟨h.1.grows g, h.2⟩
  · exact h.grows g
  · exact h.grows g
  · exact h.grows g
  · exact h.grows g
  · exact h.grows g
  · exact ⟨h.1.grows g, h.2⟩
  · exact ⟨h.1.grows g, fun same => (h.2 same).mono le_rfl g.up⟩
  · exact ⟨h.1.grows g, fun same => (h.2.1 same).mono le_rfl g.up, h.2.2⟩
  · exact ⟨h.1.grows g, h.2.mono le_rfl g.up⟩
  · exact h.grows g
  · exact ⟨h.1.grows g, h.2⟩
  · exact ⟨h.1.grows g, h.2.mono le_rfl g.up⟩
  · rcases h with ⟨hz, hsp, hup, hon⟩ | ⟨hz, hsp⟩
    · exact Or.inl ⟨hz, hsp, hup.mono le_rfl g.up, hon.mono le_rfl g.on⟩
    · exact Or.inr ⟨hz, hsp⟩

end Grows

/-- What CPU 0 sees of a machine. -/
def seen (b : Board) (sp₀ : Nat) (m : Machine Label) : Seen where
  saved := m.load (sp₀ - 16) 8
  count := m.load (sp₀ - 8) 8
  up := fun k => k < maxCpuCount ∧ m.load (b.cpuReady + k) 1 = k
  on := fun k => (m.cores k).isOn

/-- The call's frame lies below its stack pointer, inside the stack of CPU 0. -/
def StackOk (b : Board) (sp₀ : Nat) : Prop := b.data + 16 ≤ sp₀ ∧ sp₀ ≤ b.stack

theorem StackOk.lt (h : StackOk b sp₀) : sp₀ < 2 ^ 64 := by
  have hfits := b.data_fits
  have hle := h.2
  simp only [Board.stack, stackSize] at hle
  omega

section Places

variable {k : Nat} {ins : Instr Label} {m₁ : Machine Label} {target : Target Label}

/-- CPU 0 goes on from a place with what is known there, while what it sees is as before. -/
def CallsOn (b : Board) (sp₀ : Nat) (m m₁ : Machine Label) (pc : Label × Nat)
    (target : Target Label) : Prop :=
  Caller b sp₀ { m₁.cores 0 with pc := (text b).after pc target } (seen b sp₀ m)

theorem callsOn_archStart (ok : StackOk b sp₀) (held : Caller b sp₀ (m.cores 0) (seen b sp₀ m))
    (hpc : (m.cores 0).pc = some (.archStartSecondaryCpus, k))
    (hins : (block b .archStartSecondaryCpus)[k]? = some ins)
    (hrun : ins.run b.platform 0 ch m = some (m₁, target)) :
    CallsOn b sp₀ m m₁ (.archStartSecondaryCpus, k) target := by
  unfold Caller at held
  rw [hpc] at held
  obtain ⟨hsp, h1, h3, h4, h5, h6⟩ := held
  unfold CallsOn
  have hk : k < 7 := (List.getElem?_eq_some_iff.mp hins).1
  interval_cases k
  · cases hins
    cases hrun
    have hsub : ((m.cores 0).regs .sp - 16).toNat = sp₀ - 16 := by
      rw [UInt64.toNat_sub_of_le, hsp]
      · rfl
      · rw [UInt64.le_iff_toNat_le, hsp]
        have h16 : (16 : UInt64).toNat = 16 := rfl
        have hlow := ok.1
        simp only [h16, ite_true]
        omega
    simp [Caller, Code.after, text, block, getSecondaryCpuCount, num, hsub]
  · cases hins
    cases hrun
    simpa [Caller, Code.after, text, block, getSecondaryCpuCount, num] using hsp
  · cases hins
    cases hrun
    simpa [Caller, Code.after, text, block, getSecondaryCpuCount, num, h1, Board.platform] using
      ⟨hsp, h1 le_rfl⟩
  · cases hins
    cases hrun
    simpa [Caller, Code.after, text, block, getSecondaryCpuCount, num, h1, h3] using
      ⟨hsp, h1 (by omega)⟩
  · cases hins
    cases hrun
    simpa [Caller, Code.after, text, block, getSecondaryCpuCount, num, h1, h4, addr, maxCpuCount]
      using ⟨hsp, h1 (by omega)⟩
  · cases hins
    cases hrun
    have hx2 : (m.cores 0).regs (x 2) = b.l2ctlr >>> 24 := h4 (by omega)
    have hcmp : (m.cores 0).compared = (b.l2ctlr >>> 24, 4) := by rw [h5 rfl, hx2]
    have h4 : (4 : UInt64).toNat = 4 := rfl
    by_cases hlo : b.l2ctlr >>> 24 < 4
    · have hlt : (b.l2ctlr >>> 24).toNat < 4 := UInt64.lt_iff_toNat_lt.mp hlo
      have hcap : (b.l2ctlr >>> 24).toNat = secondaryCpus b := by
        simp only [secondaryCpus, maxCpuCount]
        omega
      have hnext : (text b).after (.archStartSecondaryCpus, 5)
          (if Cond.lo.holds (m.cores 0).compared then .label .cpuCountOk else .next) =
            some (.cpuCountOk, 0) := by
        simp [hcmp, Cond.holds, hlo, Code.after]
      rw [hnext]
      exact ⟨hsp, h1 (by omega), by rw [← hcap, ← hx2]; rfl⟩
    · have hge : 4 ≤ (b.l2ctlr >>> 24).toNat := UInt64.le_iff_toNat_le.mp (UInt64.not_lt.mp hlo)
      have hnext : (text b).after (.archStartSecondaryCpus, 5)
          (if Cond.lo.holds (m.cores 0).compared then .label .cpuCountOk else .next) =
            some (.archStartSecondaryCpus, 6) := by
        simp [hcmp, Cond.holds, hlo, Code.after, text, block, getSecondaryCpuCount]
      rw [hnext]
      exact ⟨hsp, fun _ => h1 (by omega), by simp, fun _ => hx2, by simp, fun _ => hge⟩
  · cases hins
    cases hrun
    have hge := h6 le_rfl
    have hcap : secondaryCpus b = 3 := by
      simp only [secondaryCpus, maxCpuCount]
      omega
    simpa [Caller, Code.after, text, block, getSecondaryCpuCount, num, next, addr, maxCpuCount,
      hcap] using ⟨hsp, h1 (by omega)⟩

theorem turnedOn_le (b : Board) : turnedOn b ≤ 3 := by
  simp only [turnedOn, secondaryCpus, maxCpuCount]
  omega

theorem toNat_add_one {v : UInt64} (h : v.toNat < 8) : (v + 1).toNat = v.toNat + 1 := by
  have hone : (1 : UInt64).toNat = 1 := rfl
  rw [UInt64.toNat_add, hone]
  omega

theorem readyAddr_toNat (b : Board) {v : UInt64} (h : v.toNat < 8) :
    (UInt64.ofNat b.cpuReady + v).toNat = b.cpuReady + v.toNat := by
  have hfits := b.data_fits
  have hready : b.cpuReady < 2 ^ 49 := by
    simp only [Board.cpuReady, Board.stackSpaceEnd, Board.stack, stackSize, maxCpuCount]
    omega
  rw [UInt64.toNat_add, UInt64.toNat_ofNat_of_lt' (by simp only [UInt64.size]; omega)]
  omega

/-- A byte that a register was loaded with. -/
theorem ofNat_byte {m : Machine Label} {a : Nat} {v : UInt64}
    (h : UInt64.ofNat (m.load a 1) = v) : m.load a 1 = v.toNat := by
  have hlt : m.load a 1 < 256 := Mem.load_lt ..
  rw [← h, UInt64.toNat_ofNat_of_lt' (by simp only [UInt64.size]; omega)]

theorem waited_next {s : Seen} {c : Core Label} {n : Nat} (hall : AllOn b sp₀ c s)
    (hn : num c 1 = n + 1) (hle : n ≤ secondaryCpus b) (hup : Upto n s.up) :
    Waited b sp₀ c s := by
  refine ⟨hall, by omega, by omega, ?_⟩
  rw [hn]
  exact hup

theorem turned_on {s : Seen} {c : Core Label} (h : Turned b sp₀ c s)
    (hlast : ¬num c 1 ≤ num c 2) : Upto (turnedOn b) s.on := by
  obtain ⟨_, _, htwo, hle, hon, h1, h2⟩ := h
  refine hon.mono ?_ fun _ h => h
  simp only [turnedOn]
  omega

theorem callsOn_loop (ok : StackOk b sp₀) (held : Caller b sp₀ (m.cores 0) (seen b sp₀ m))
    (hpc : (m.cores 0).pc = some (.startSecondaryCpuLoop, k)) (hlocal : ins.isLocal)
    (hins : (block b .startSecondaryCpuLoop)[k]? = some ins)
    (hrun : ins.run b.platform 0 ch m = some (m₁, target)) :
    CallsOn b sp₀ m m₁ (.startSecondaryCpuLoop, k) target := by
  unfold Caller at held
  rw [hpc] at held
  unfold CallsOn
  have hk : k < 12 := (List.getElem?_eq_some_iff.mp hins).1
  interval_cases k
  · cases hins
    cases hrun
    rw [Machine.update_self]
    exact ⟨held.1, held.2, rfl⟩
  · cases hins
    cases hrun
    rw [Machine.update_self]
    exact ⟨held.1, held.2.1, held.2.2, rfl⟩
  · cases hins
    cases hrun
    rw [Machine.update_self]
    exact ⟨held.1, held.2.1, held.2.2.1, held.2.2.2⟩
  · cases hins
    cases hlocal
  · cases hins
    cases hrun
    rw [Core.get_x]
    by_cases hz : (m.cores 0).regs (x 0) = 0
    · rw [if_pos hz]
      exact ⟨held.1, held.2 hz⟩
    · rw [if_neg hz]
      exact Or.inr ⟨hz, held.1.1⟩
  · cases hins
    cases hrun
    obtain ⟨hturning, hon⟩ := held
    have hsp : ((m.cores 0).get .sp).toNat = sp₀ - 16 := hturning.1
    have hword : sp₀ - 16 + 8 = sp₀ - 8 := by
      have hlow := ok.1
      omega
    rw [Machine.update_self, hsp, hword]
    refine ⟨hturning, hon, UInt64.toNat_ofNat_of_lt' (Mem.load_lt ..), ?_⟩
    exact (UInt64.toNat_ofNat_of_lt' (Mem.load_lt ..)).trans hturning.2.1
  · cases hins
    cases hrun
    obtain ⟨hturning, hon, h1, h2⟩ := held
    rw [Machine.update_self]
    refine ⟨hturning, hon, ?_, h2⟩
    have hle := turnedOn_le b
    have hsaved := hturning.2.2.2.1
    rw [← h1] at hsaved ⊢
    exact toNat_add_one (v := (m.cores 0).regs (x 1)) (by unfold num at hsaved; omega)
  · cases hins
    cases hlocal
  · cases hins
    cases hrun
    rw [Machine.update_self]
    exact ⟨held, rfl⟩
  · cases hins
    cases hrun
    obtain ⟨hturned, hcmp⟩ := held
    rw [hcmp]
    by_cases hls : num (m.cores 0) 1 ≤ num (m.cores 0) 2
    · have hholds : Cond.ls.holds ((m.cores 0).regs (x 1), (m.cores 0).regs (x 2)) :=
        decide_eq_true (UInt64.le_iff_toNat_le.mpr hls)
      rw [if_pos hholds]
      obtain ⟨hsp, hcount, htwo, hle, hon, h1, h2⟩ := hturned
      refine ⟨⟨hsp, hcount, by omega, ?_, hon⟩, h1⟩
      rw [h1, h2] at hls
      simp only [turnedOn]
      omega
    · have hholds : ¬Cond.ls.holds ((m.cores 0).regs (x 1), (m.cores 0).regs (x 2)) :=
        fun h => hls (UInt64.le_iff_toNat_le.mp (of_decide_eq_true h))
      rw [if_neg hholds]
      exact ⟨hturned.1, hturned.2.2.2.2.2.2, turned_on hturned hls⟩
  · cases hins
    cases hrun
    obtain ⟨hsp, h2, hon⟩ := held
    rw [Machine.update_self]
    refine ⟨?_, h2, hon⟩
    have hlt := ok.lt
    have hlow := ok.1
    have h16 : (16 : UInt64).toNat = 16 := rfl
    have hadd : ((m.cores 0).regs .sp + 16).toNat = sp₀ := by
      rw [UInt64.toNat_add, hsp, h16]
      omega
    exact hadd
  · cases hins
    cases hrun
    rw [Machine.update_self]
    exact ⟨held, Nat.zero_le _, fun k h1 hk => absurd (h1.trans hk) (Nat.not_succ_le_zero 0)⟩

theorem callsOn_wait (held : Caller b sp₀ (m.cores 0) (seen b sp₀ m))
    (hpc : (m.cores 0).pc = some (.waitForSecondaryCpuLoop, k))
    (hins : (block b .waitForSecondaryCpuLoop)[k]? = some ins)
    (hrun : ins.run b.platform 0 ch m = some (m₁, target)) :
    CallsOn b sp₀ m m₁ (.waitForSecondaryCpuLoop, k) target := by
  unfold Caller at held
  rw [hpc] at held
  unfold CallsOn
  have hk : k < 10 := (List.getElem?_eq_some_iff.mp hins).1
  interval_cases k
  · cases hins; cases hrun; exact held
  · cases hins; cases hrun; exact held
  · cases hins
    cases hrun
    rw [Machine.update_self]
    exact ⟨held, rfl⟩
  · cases hins
    cases hrun
    obtain ⟨hwaits, hx4⟩ := held
    rw [Machine.update_self]
    refine ⟨hwaits, ?_⟩
    intro same
    have haddr := readyAddr_toNat b (v := (m.cores 0).regs (x 1)) (by
      have hle := hwaits.2.1
      have hcap := turnedOn_le b
      unfold num at hle
      simp only [turnedOn] at hcap
      omega)
    have hbyte : UInt64.ofNat (m.load (b.cpuReady + num (m.cores 0) 1) 1) = (m.cores 0).regs (x 1) := by
      have hval : ((m.cores 0).get (x 4) + (m.cores 0).get (x 1)).toNat =
          b.cpuReady + num (m.cores 0) 1 := by
        rw [Core.get_x, hx4]
        exact haddr
      rw [← hval]
      exact same
    have hnum : num (m.cores 0) 1 < maxCpuCount := by
      have hle := hwaits.2.1
      simp only [secondaryCpus, maxCpuCount] at hle ⊢
      omega
    exact hwaits.2.2.last ⟨hnum, ofNat_byte hbyte⟩
  · cases hins
    cases hrun
    rw [Machine.update_self]
    exact ⟨held.1, held.2, rfl⟩
  · cases hins
    cases hrun
    obtain ⟨hwaits, hup, hcmp⟩ := held
    rw [hcmp]
    by_cases hne : (m.cores 0).regs (x 3) = (m.cores 0).regs (x 1)
    · have hholds : ¬Cond.ne.holds ((m.cores 0).regs (x 3), (m.cores 0).regs (x 1)) :=
        fun h => of_decide_eq_true h hne
      rw [if_neg hholds]
      exact ⟨hwaits, hup hne⟩
    · have hholds : Cond.ne.holds ((m.cores 0).regs (x 3), (m.cores 0).regs (x 1)) :=
        decide_eq_true hne
      rw [if_pos hholds]
      exact hwaits
  · cases hins
    cases hrun
    obtain ⟨⟨hall, hle, _⟩, hup⟩ := held
    have hcap := turnedOn_le b
    have hadd := toNat_add_one (v := (m.cores 0).regs (x 1)) (by
      unfold num at hle
      simp only [turnedOn] at hcap
      omega)
    rw [Machine.update_self]
    exact waited_next hall hadd hle hup
  · cases hins
    cases hrun
    rw [Machine.update_self]
    exact ⟨held, rfl⟩
  · cases hins
    cases hrun
    obtain ⟨⟨hall, hone, hle, hup⟩, hcmp⟩ := held
    rw [hcmp]
    have h2 := hall.2.1
    by_cases hls : num (m.cores 0) 1 ≤ num (m.cores 0) 2
    · have hholds : Cond.ls.holds ((m.cores 0).regs (x 1), (m.cores 0).regs (x 2)) :=
        decide_eq_true (UInt64.le_iff_toNat_le.mpr hls)
      rw [if_pos hholds]
      exact ⟨hall, h2 ▸ hls, hup⟩
    · have hholds : ¬Cond.ls.holds ((m.cores 0).regs (x 1), (m.cores 0).regs (x 2)) :=
        fun h => hls (UInt64.le_iff_toNat_le.mp (of_decide_eq_true h))
      rw [if_neg hholds]
      exact ⟨hall, hup.mono (by omega) fun _ h => h⟩
  · cases hins
    cases hrun
    obtain ⟨⟨hsp, h2, hon⟩, hup⟩ := held
    rw [Machine.update_self]
    exact Or.inl ⟨rfl, hsp, hup, hon⟩

theorem call_jumps {l : Label} (hl : isCall l) :
    ∀ l' ∈ (block b l).flatMap Instr.jumps, isCall l' := by
  cases l
  all_goals first
    | (cases hl; done)
    | simp [block, getSecondaryCpuCount, Instr.jumps, isCall]

/-- The call stays in its text until it returns. -/
theorem call_stays {l : Label} {pc : Label × Nat} (hl : isCall l)
    (hins : (block b l)[k]? = some ins) (hrun : ins.run b.platform i ch m = some (m₁, target))
    (hpc : (text b).after (l, k) target = some pc) : isCall pc.1 := by
  cases target with
  | next =>
    simp only [Code.after] at hpc
    split at hpc
    · cases hpc
      exact hl
    · cases l
      all_goals first
        | (cases hl; done)
        | (simp [text, next] at hpc; done)
        | (simp only [text, next, Option.map_some] at hpc
           cases hpc
           rfl)
  | label l' =>
    cases hpc
    exact call_jumps hl l' (List.mem_flatMap.mpr ⟨ins, List.mem_of_getElem? hins,
      Instr.run_jumps hrun⟩)
  | out => cases hpc

theorem start_jumps {l : Label} (hl : isCall l = false) :
    ∀ l' ∈ (block b l).flatMap Instr.jumps, isCall l' = false := by
  cases l
  all_goals first
    | (cases hl; done)
    | (by_cases hgic : b.gicVersion > 2 <;> simp [block, getCpuNum, hgic, Instr.jumps, isCall])

/-- No other code runs on into the call. -/
theorem start_stays {l : Label} {pc : Label × Nat} (hl : isCall l = false)
    (hins : (block b l)[k]? = some ins) (hrun : ins.run b.platform i ch m = some (m₁, target))
    (hpc : (text b).after (l, k) target = some pc) : isCall pc.1 = false := by
  cases target with
  | next =>
    simp only [Code.after] at hpc
    split at hpc
    · cases hpc
      exact hl
    · cases l
      all_goals first
        | (cases hl; done)
        | (simp [text, next] at hpc; done)
        | (simp only [text, next, Option.map_some] at hpc
           cases hpc
           rfl)
  | label l' =>
    cases hpc
    exact start_jumps hl l' (List.mem_flatMap.mpr ⟨ins, List.mem_of_getElem? hins,
      Instr.run_jumps hrun⟩)
  | out => cases hpc

end Places

theorem caller_congr {c c' : Core Label} {s : Seen} (hpc : c'.pc = c.pc)
    (hregs : c'.regs = c.regs) (hcompared : c'.compared = c.compared) (held : Caller b sp₀ c s) :
    Caller b sp₀ c' s := by
  obtain ⟨isOn, pc, regs, compared, monitor⟩ := c'
  subst hpc hregs hcompared
  exact held

/-- Where CPU 0 is not in the call there is nothing to know. -/
theorem caller_elsewhere {c : Core Label} {s : Seen}
    (h : ∀ pc, c.pc = some pc → isCall pc.1 = false) : Caller b sp₀ c s := by
  unfold Caller
  split
  case h_26 => trivial
  all_goals
    rename_i hpc
    cases h _ hpc

end ExternalTrusty.Asm
