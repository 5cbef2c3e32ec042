import Mathlib.Tactic.IntervalCases
import ExternalTrusty.StartCaller

namespace ExternalTrusty.Asm

open Aarch64 CMemory

variable {b : Board} {m m' : Machine Label} {i : Nat} {ch : Choice} {sp₀ : Nat}

/-- CPU 0 calls `arch_start_secondary_cpus` with its stack at `sp₀`; `boot_arm64` may return. No
other code stores to `cpu_ready`, and no other CPU stores in the frame of the call. -/
def startRely (b : Board) (sp₀ : Nat) : Rely Label where
  enters := fun i l c =>
    (i = 0 ∧ l = .archStartSecondaryCpus ∧ (c.regs .sp).toNat = sp₀) ∨ l = .error
  stores := fun i a n =>
    (a + n ≤ b.cpuReady ∨ b.cpuReady + maxCpuCount ≤ a) ∧ (i = 0 ∨ a + n ≤ sp₀ - 16 ∨ sp₀ ≤ a)

/-- The instruction is core `i`'s store to `cpu_ready`. -/
def announces (i : Nat) (e : Executed Label) : Bool := e.core = i ∧ e.pc = (.vbarSetupDone, 11)

/-- The instruction is the jump to `boot_arm64`. -/
def boots (e : Executed Label) : Bool := e.pc = (.vbarSetupDone, 15)

/-- The instruction is CPU 0's return from `arch_start_secondary_cpus`. -/
def startReturns (e : Executed Label) : Bool := e.core = 0 ∧ e.pc = (.startSecondaryCpuFailed, 0)

def Announced (trace : List (Executed Label)) (k : Nat) : Prop := ∃ e ∈ trace, announces k e

/-- What an instruction finds: a core at the jump to C its own number and stack, and CPU 0 at the
end of `arch_start_secondary_cpus` either all secondary CPUs announced, or an error. -/
def Finds (b : Board) (sp₀ : Nat) (e : Executed Label) (earlier : List (Executed Label)) : Prop :=
  (boots e → e.core < maxCpuCount ∧ e.regs (x 0) = cpuNum b e.core ∧
      (e.regs .sp).toNat = stackTop b e.core) ∧
    (startReturns e →
      (e.regs (x 0) = 0 ∧ (e.regs .sp).toNat = sp₀ ∧ Upto (secondaryCpus b) (Announced earlier)) ∨
        (e.regs (x 0) ≠ 0 ∧ (e.regs .sp).toNat = sp₀ - 16))

structure StartInv (b : Board) (sp₀ : Nat) (m : Machine Label) : Prop where
  regs : ∀ i, StartRegs b i (m.cores i)
  caller : Caller b sp₀ (m.cores 0) (seen b sp₀ m)
  ready : ∀ k, 1 ≤ k → k < maxCpuCount → (seen b sp₀ m).up k → Announced m.trace k
  found : History (Finds b sp₀) m.trace

theorem frame_apart (ok : StackOk b sp₀) : sp₀ ≤ b.cpuReady := by
  have hle := ok.2
  simp only [Board.cpuReady, Board.stackSpaceEnd, stackSize, maxCpuCount]
  omega

theorem load_apart (m : Machine Label) {a n v a' n' : Nat} (h : a + n ≤ a' ∨ a' + n' ≤ a) :
    (m.store a n v).load a' n' = m.load a' n' :=
  Mem.load_store_apart _ (Or.inr (Or.inr (Or.inr h)))

theorem load_self (m : Machine Label) {a n v : Nat} (h : v < 256 ^ n) :
    (m.store a n v).load a n = v := Mem.load_store_self _ _ h

theorem load_word (m : Machine Label) (a : Nat) (v : UInt64) :
    (m.store a 8 v.toNat).load a 8 = v.toNat := Mem.load_store_self _ _ v.toNat_lt

/-- What CPU 0 sees grows while its frame is left alone and bytes that are set stay set. -/
theorem seen_grows (hsaved : m'.load (sp₀ - 16) 8 = m.load (sp₀ - 16) 8)
    (hcount : m'.load (sp₀ - 8) 8 = m.load (sp₀ - 8) 8)
    (hup : ∀ k, k < maxCpuCount → m.load (b.cpuReady + k) 1 = k → m'.load (b.cpuReady + k) 1 = k)
    (hon : ∀ k, (m.cores k).isOn → (m'.cores k).isOn) :
    (seen b sp₀ m).Grows (seen b sp₀ m') :=
  ⟨hsaved, hcount, fun k h => ⟨h.1, hup k h.1 h.2⟩, hon⟩

theorem seen_congr (hmem : m'.mem = m.mem) (hon : ∀ k, (m.cores k).isOn → (m'.cores k).isOn) :
    (seen b sp₀ m).Grows (seen b sp₀ m') := by
  have hload : ∀ a n, m'.load a n = m.load a n := by
    intro a n
    simp [Machine.load, hmem]
  exact seen_grows (hload _ _) (hload _ _) (fun k _ h => (hload _ _).trans h) hon

/-- A core stores its number at its place in `cpu_ready`. -/
theorem seen_announce (ok : StackOk b sp₀) (hi : i < maxCpuCount) :
    (seen b sp₀ m).Grows (seen b sp₀ (m.store (b.cpuReady + i) 1 i)) ∧
      ∀ k, (seen b sp₀ (m.store (b.cpuReady + i) 1 i)).up k → k = i ∨ (seen b sp₀ m).up k := by
  have hframe := frame_apart ok
  have hlow := ok.1
  have hsmall : i < 256 ^ 1 := by
    simp only [maxCpuCount] at hi
    omega
  refine ⟨seen_grows (load_apart m (by omega)) (load_apart m (by omega)) ?_ fun _ h => h, ?_⟩
  · intro k hk hup
    by_cases hki : k = i
    · subst hki
      exact load_self m hsmall
    · rw [load_apart m (by omega)]
      exact hup
  · intro k hup
    by_cases hki : k = i
    · exact Or.inl hki
    · have hbyte := hup.2
      rw [load_apart m (by omega)] at hbyte
      exact Or.inr ⟨hup.1, hbyte⟩

/-- Where the instructions of a block are that are not local. -/
theorem nonlocal_at {l : Label} {k : Nat} {ins : Instr Label} (hins : (block b l)[k]? = some ins)
    (hl : ins.isLocal = false) : ((block b l).map Instr.isLocal)[k]? = some false := by
  rw [List.getElem?_map, hins, Option.map_some, hl]

/-- `_start` stores only in `cpu_ready`, and calls no firmware. -/
theorem start_places {l : Label} {k : Nat} {ins : Instr Label}
    (hpc : (m.cores i).pc = some (l, k)) (held : StartRegs b i (m.cores i))
    (hcall : isCall l = false) (hins : (block b l)[k]? = some ins) (hl : ins.isLocal = false) :
    (l, k) = (.vbarSetupDone, 11) := by
  unfold StartRegs at held
  rw [hpc] at held
  have hat := nonlocal_at hins hl
  have hlt : k < ((block b l).map Instr.isLocal).length := (List.getElem?_eq_some_iff.mp hat).1
  cases l
  case start =>
    have hnone : ∀ k < 7, (List.replicate 7 true)[k]? ≠ some false := by decide
    exact absurd hat (hnone k hlt)
  case vbarSetupDone =>
    have honly : ∀ k < 16, (List.replicate 11 true ++ false :: List.replicate 4 true)[k]? =
        some false → k = 11 := by decide
    rw [honly k hlt hat]
  case vbarSetupNotEl2 =>
    have hnone : ∀ k < 1, [true][k]? ≠ some false := by decide
    exact absurd hat (hnone k hlt)
  case error =>
    have hnone : ∀ k < 2, [true, true][k]? ≠ some false := by decide
    exact absurd hat (hnone k hlt)
  case semihosting =>
    have hnone : ∀ k < 2, [true, true][k]? ≠ some false := by decide
    exact absurd hat (hnone k hlt)
  all_goals simp [isCall] at held hcall

/-- The call stores only in its frame, and calls firmware in one place. -/
theorem call_places {l : Label} {k : Nat} {ins : Instr Label} (hcall : isCall l)
    (hins : (block b l)[k]? = some ins) (hl : ins.isLocal = false) :
    (l, k) = (.cpuCountOk, 0) ∨ (l, k) = (.startSecondaryCpuLoop, 3) ∨
      (l, k) = (.startSecondaryCpuLoop, 7) := by
  have hat := nonlocal_at hins hl
  have hlt : k < ((block b l).map Instr.isLocal).length := (List.getElem?_eq_some_iff.mp hat).1
  cases l
  case archStartSecondaryCpus =>
    have hnone : ∀ k < 7, (List.replicate 7 true)[k]? ≠ some false := by decide
    exact absurd hat (hnone k hlt)
  case cpuCountOk =>
    obtain rfl : k = 0 := Nat.lt_one_iff.mp hlt
    exact Or.inl rfl
  case startSecondaryCpuLoop =>
    have honly : ∀ k < 12, [true, true, true, false, true, true, true, false, true, true, true,
        true][k]? = some false → k = 3 ∨ k = 7 := by decide
    rcases honly k hlt hat with rfl | rfl
    · exact Or.inr (Or.inl rfl)
    · exact Or.inr (Or.inr rfl)
  case waitForSecondaryCpuLoop =>
    have hnone : ∀ k < 10, (List.replicate 10 true)[k]? ≠ some false := by decide
    exact absurd hat (hnone k hlt)
  case startSecondaryCpuFailed =>
    have hnone : ∀ k < 1, [true][k]? ≠ some false := by decide
    exact absurd hat (hnone k hlt)
  all_goals cases hcall

/-- The two words that the call stores in its frame are what CPU 0 sees there. -/
theorem seen_stp (ok : StackOk b sp₀) (u v : UInt64) :
    seen b sp₀ ((m.store (sp₀ - 16) 8 u.toNat).store (sp₀ - 16 + 8) 8 v.toNat) =
      { seen b sp₀ m with saved := u.toNat, count := v.toNat } := by
  have hframe := frame_apart ok
  have hlow := ok.1
  have hword : sp₀ - 16 + 8 = sp₀ - 8 := by omega
  have hsaved : ((m.store (sp₀ - 16) 8 u.toNat).store (sp₀ - 8) 8 v.toNat).load (sp₀ - 16) 8 =
      u.toNat := by
    rw [load_apart _ (by omega), load_word]
  have hup : ∀ k, ((m.store (sp₀ - 16) 8 u.toNat).store (sp₀ - 8) 8 v.toNat).load
      (b.cpuReady + k) 1 = m.load (b.cpuReady + k) 1 := by
    intro k
    rw [load_apart _ (by omega), load_apart m (by omega)]
  simp only [seen, hword, hsaved, hup, load_word, Machine.store_cores, Core.snoop_isOn]

variable {k : Nat} {m₁ : Machine Label} {target : Target Label} {trace : List (Executed Label)}

theorem caller_cpuCountOk (ok : StackOk b sp₀)
    (held : Caller b sp₀ (m.cores 0) (seen b sp₀ m))
    (hpc : (m.cores 0).pc = some (.cpuCountOk, 0))
    (hrun : (Instr.stp (x 1) (x 2) .sp).run b.platform 0 ch m = some (m₁, target)) :
    Caller b sp₀ { m₁.cores 0 with pc := (text b).after (.cpuCountOk, 0) target }
      (seen b sp₀ m₁) := by
  unfold Caller at held
  rw [hpc] at held
  obtain ⟨hsp, h1, h2⟩ := held
  have haddr : ((m.cores 0).get .sp).toNat = sp₀ - 16 := hsp
  cases hrun
  simp only [haddr]
  rw [seen_stp ok]
  refine ⟨⟨hsp, h2, ?_, ?_, ?_⟩, rfl⟩
  · exact h1.ge
  · exact h1.le.trans (Nat.le_max_left ..)
  · intro k hk hle
    have hle' : k ≤ num (m.cores 0) 1 - 1 := hle
    omega

theorem caller_stp (ok : StackOk b sp₀) (held : Caller b sp₀ (m.cores 0) (seen b sp₀ m))
    (hpc : (m.cores 0).pc = some (.startSecondaryCpuLoop, 7))
    (hrun : (Instr.stp (x 1) (x 2) .sp).run b.platform 0 ch m = some (m₁, target)) :
    Caller b sp₀ { m₁.cores 0 with pc := (text b).after (.startSecondaryCpuLoop, 7) target }
      (seen b sp₀ m₁) := by
  unfold Caller at held
  rw [hpc] at held
  obtain ⟨⟨hsp, hcount, hone, hle, hon⟩, hlast, h1, h2⟩ := held
  have haddr : ((m.cores 0).get .sp).toNat = sp₀ - 16 := hsp
  have hx1 : ((m.cores 0).get (x 1)).toNat = (seen b sp₀ m).saved + 1 := h1
  cases hrun
  simp only [haddr]
  rw [seen_stp ok]
  refine ⟨hsp, h2, ?_, ?_, ?_, rfl, h2⟩
  · change 2 ≤ ((m.cores 0).get (x 1)).toNat
    omega
  · change ((m.cores 0).get (x 1)).toNat ≤ turnedOn b + 1
    omega
  · change Upto (((m.cores 0).get (x 1)).toNat - 1) (seen b sp₀ m).on
    rw [hx1, Nat.add_sub_cancel]
    exact hon.last hlast

theorem caller_smc (held : Caller b sp₀ (m.cores 0) (seen b sp₀ m))
    (hpc : (m.cores 0).pc = some (.startSecondaryCpuLoop, 3))
    (hrun : m.smc b.platform 0 ch = some m₁) :
    Caller b sp₀ { m₁.cores 0 with pc := (text b).after (.startSecondaryCpuLoop, 3) .next }
      (seen b sp₀ m₁) := by
  unfold Caller at held
  rw [hpc] at held
  obtain ⟨hturning, h1, h0, h2⟩ := held
  obtain ⟨hsp, _, hstarted⟩ := Machine.smc_self hrun
  have hgrows : (seen b sp₀ m).Grows (seen b sp₀ m₁) := by
    refine seen_congr (Machine.smc_mem hrun) ?_
    intro k hk
    have hsmc : (Instr.smc : Instr Label).run b.platform 0 ch m = some (m₁, .next) := by
      rw [Instr.run, hrun]; rfl
    exact Instr.run_isOn hsmc hk
  have hturning' : Turning b sp₀ { m₁.cores 0 with
      pc := (text b).after (.startSecondaryCpuLoop, 3) .next } (seen b sp₀ m₁) := by
    have hmoved := hturning.grows hgrows
    unfold Turning at hmoved ⊢
    simpa only [hsp] using hmoved
  refine ⟨hturning', ?_⟩
  intro hzero
  obtain ⟨t, _, haff, hon⟩ := hstarted h0 hzero
  have hnum : (cpuNum b t).toNat = (seen b sp₀ m).saved := by
    rw [cpuNum_eq_affinity]
    exact (congrArg UInt64.toNat haff).trans h1
  have hle := turnedOn_le b
  have hsaved := hturning.2.2.2.1
  have ht : t = (seen b sp₀ m).saved := by
    rw [← hnum]
    refine eq_cpuNum ?_
    simp only [maxCpuCount]
    omega
  have hsame : (seen b sp₀ m₁).saved = t := by rw [ht, hgrows.saved]
  rw [hsame]
  exact hon

theorem seen_update {f : Core Label → Core Label} (hf : ∀ c, (f c).isOn = c.isOn) :
    (seen b sp₀ m).Grows (seen b sp₀ (m.update i f)) := by
  refine seen_congr rfl ?_
  intro j hj
  by_cases hji : j = i
  · subst hji
    simpa [hf] using hj
  · simpa [hji] using hj

theorem seen_exec {ins : Instr Label} {pc : Option (Label × Nat)}
    (hrun : ins.run b.platform i ch m = some (m₁, target)) (hmem : m₁.mem = m.mem) :
    (seen b sp₀ m).Grows (seen b sp₀ (m₁.advance i pc trace)) := by
  refine seen_congr hmem ?_
  intro j hj
  have hon := Instr.run_isOn hrun hj
  by_cases hji : j = i
  · subst hji
    simpa using hon
  · simpa [hji] using hon

theorem seen_advance (pc : Option (Label × Nat)) :
    (seen b sp₀ m).Grows (seen b sp₀ (m.advance i pc trace)) := by
  refine seen_congr rfl ?_
  intro j hj
  by_cases hji : j = i
  · subst hji
    simpa using hj
  · simpa [hji] using hj

/-- One instruction of the call. -/
theorem caller_exec (ok : StackOk b sp₀) (held : Caller b sp₀ (m.cores 0) (seen b sp₀ m))
    {l : Label} {ins : Instr Label} (hcall : isCall l) (hpc : (m.cores 0).pc = some (l, k))
    (hins : (block b l)[k]? = some ins)
    (hrun : ins.run b.platform 0 ch m = some (m₁, target)) :
    Caller b sp₀ { m₁.cores 0 with pc := (text b).after (l, k) target }
      (seen b sp₀ (m₁.advance 0 ((text b).after (l, k) target) trace)) := by
  cases hl : ins.isLocal with
  | false =>
    rcases call_places hcall hins hl with hat | hat | hat
    · cases hat
      cases hins
      exact (caller_cpuCountOk ok held hpc hrun).grows (seen_advance _)
    · cases hat
      cases hins
      obtain ⟨_, hsmc, heq⟩ := Option.map_eq_some_iff.mp hrun
      cases heq
      exact (caller_smc held hpc hsmc).grows (seen_advance _)
    · cases hat
      cases hins
      exact (caller_stp ok held hpc hrun).grows (seen_advance _)
  | true =>
    have hmem : m₁.mem = m.mem := (Instr.run_local hrun hl (j := 1) (by decide)).1
    have hgo : CallsOn b sp₀ m m₁ (l, k) target := by
      cases l
      case archStartSecondaryCpus => exact callsOn_archStart ok held hpc hins hrun
      case cpuCountOk =>
        have hk : k < 1 := (List.getElem?_eq_some_iff.mp hins).1
        interval_cases k
        · cases hins
          cases hl
      case startSecondaryCpuLoop => exact callsOn_loop ok held hpc hl hins hrun
      case waitForSecondaryCpuLoop => exact callsOn_wait held hpc hins hrun
      case startSecondaryCpuFailed =>
        have hk : k < 1 := (List.getElem?_eq_some_iff.mp hins).1
        interval_cases k
        · cases hins
          cases hrun
          exact caller_elsewhere nofun
      all_goals cases hcall
    exact hgo.grows (seen_exec hrun hmem)

/-- What an instruction that is executed finds. -/
theorem finds_exec {l : Label} (inv : StartInv b sp₀ m) (hpc : (m.cores i).pc = some (l, k)) :
    Finds b sp₀ ⟨i, (l, k), (m.cores i).regs⟩ m.trace := by
  refine ⟨?_, ?_⟩
  · intro hboot
    have hat : (l, k) = (.vbarSetupDone, 15) := of_decide_eq_true hboot
    cases hat
    have held := inv.regs i
    unfold StartRegs at held
    rw [hpc] at held
    obtain ⟨-, -, h0, -, -, -, h2, -, -, hi, -, hsp⟩ := held
    have hlt := hi (by omega)
    refine ⟨hlt, h0 (by omega), ?_⟩
    change ((m.cores i).regs .sp).toNat = stackTop b i
    rw [hsp rfl, h2 (by omega), stackTop_cpuNum, cpuNum_toNat hlt]
  · intro hret
    obtain ⟨rfl, hat⟩ : i = 0 ∧ (l, k) = (.startSecondaryCpuFailed, 0) := of_decide_eq_true hret
    cases hat
    have held := inv.caller
    unfold Caller at held
    rw [hpc] at held
    rcases held with ⟨hz, hsp, hup, _⟩ | ⟨hz, hsp⟩
    · refine Or.inl ⟨hz, hsp, ?_⟩
      intro j h1 hj
      refine inv.ready j h1 ?_ (hup j h1 hj)
      simp only [secondaryCpus, maxCpuCount] at hj ⊢
      omega
    · exact Or.inr ⟨hz, hsp⟩

theorem Announced.cons {e : Executed Label} (h : Announced trace k) : Announced (e :: trace) k := by
  obtain ⟨a, ha, hk⟩ := h
  exact ⟨a, List.mem_cons_of_mem _ ha, hk⟩

theorem startRegs_call {c : Core Label} (h : ∀ pc, c.pc = some pc → isCall pc.1) :
    StartRegs b 0 c := by
  unfold StartRegs
  cases hpc : c.pc with
  | none => trivial
  | some pc =>
    obtain ⟨l, k⟩ := pc
    have hl := h _ hpc
    cases l
    all_goals first
      | (cases hl; done)
      | exact ⟨hl, rfl⟩

/-- CPU 0 turns the other CPUs on at `_start`. -/
theorem smc_caller {l : Label} (inv : StartInv b sp₀ m) (hcall : isCall l)
    (hpc : (m.cores i).pc = some (l, k)) (hins : (block b l)[k]? = some .smc) :
    i = 0 ∧ (m.cores i).regs (x 2) = b.start := by
  rcases call_places hcall hins rfl with hat | hat | hat
  · cases hat
    cases hins
  · cases hat
    have hheld := inv.regs i
    unfold StartRegs at hheld
    rw [hpc] at hheld
    obtain rfl := hheld.2
    have hcaller := inv.caller
    unfold Caller at hcaller
    rw [hpc] at hcaller
    exact ⟨rfl, hcaller.2.2.2⟩
  · cases hat
    cases hins

/-- The registers of every core after an instruction. -/
theorem startRegs_step (inv : StartInv b sp₀ m) (h : exec b.platform (text b) i ch m = some m')
    (j : Nat) : StartRegs b j (m'.cores j) := by
  have hexec := h
  obtain ⟨⟨l, k⟩, ins, m₁, target, hpc, hins, hrun, rfl⟩ := exec_eq h
  change (block b l)[k]? = some ins at hins
  by_cases hj : j = i
  · subst hj
    cases hcall : isCall l with
    | true =>
      have hheld := inv.regs j
      unfold StartRegs at hheld
      rw [hpc] at hheld
      obtain rfl : j = 0 := by
        cases l
        all_goals first
          | (cases hcall; done)
          | exact hheld.2
      refine startRegs_call ?_
      intro pc hnew
      rw [Machine.advance_self] at hnew
      exact call_stays hcall hins hrun hnew
    | false =>
      refine startRegs_exec (inv.regs j) ?_ hexec
      intro l' k' hpc'
      rw [hpc] at hpc'
      cases hpc'
      exact hcall
  · rw [Machine.advance_ne _ _ _ _ hj]
    by_cases hsmc : ins = .smc
    · subst hsmc
      cases hcall : isCall l with
      | true =>
        obtain ⟨_, hsmc, heq⟩ := Option.map_eq_some_iff.mp hrun
        cases heq
        obtain ⟨rfl, hx2⟩ := smc_caller inv hcall hpc hins
        rcases Machine.smc_other hsmc hj with same | ⟨_, _, l', hentry, hstarted, _⟩
        · rw [same]
          exact inv.regs j
        · obtain rfl : l' = .start := by simpa [Board.platform, hx2, eq_comm] using hentry
          simp [StartRegs, hstarted]
      | false =>
        cases start_places hpc (inv.regs i) hcall hins rfl
        cases hins
    · obtain ⟨hpc', hregs, hcompared, _⟩ := Instr.run_other hrun hsmc hj
      exact startRegs_congr hpc' hregs hcompared (inv.regs j)

/-- The call sets no byte of `cpu_ready`. -/
theorem call_up {l : Label} {ins : Instr Label} {pc : Option (Label × Nat)} (ok : StackOk b sp₀)
    (inv : StartInv b sp₀ m) (hcall : isCall l) (hpc : (m.cores 0).pc = some (l, k))
    (hins : (block b l)[k]? = some ins)
    (hrun : ins.run b.platform 0 ch m = some (m₁, target)) :
    (seen b sp₀ (m₁.advance 0 pc trace)).up = (seen b sp₀ m).up := by
  have hup : ∀ {m₂ : Machine Label}, m₂.mem = m.mem →
      (seen b sp₀ (m₂.advance 0 pc trace)).up = (seen b sp₀ m).up := by
    intro m₂ hmem
    simp [seen, Machine.load, hmem]
  have hcaller := inv.caller
  unfold Caller at hcaller
  rw [hpc] at hcaller
  have hstp : ((m.cores 0).regs .sp).toNat = sp₀ - 16 → ins = .stp (x 1) (x 2) .sp →
      (seen b sp₀ (m₁.advance 0 pc trace)).up = (seen b sp₀ m).up := by
    rintro hsp rfl
    have haddr : ((m.cores 0).get .sp).toNat = sp₀ - 16 := hsp
    cases hrun
    simp only [haddr]
    have hstored := congrArg Seen.up (seen_stp (m := m) ok ((m.cores 0).get (x 1))
      ((m.cores 0).get (x 2)))
    exact hstored
  cases hl : ins.isLocal with
  | false =>
    rcases call_places hcall hins hl with hat | hat | hat
    · cases hat
      exact hstp hcaller.1 (Option.some.inj hins).symm
    · cases hat
      cases hins
      obtain ⟨_, hsmc, heq⟩ := Option.map_eq_some_iff.mp hrun
      cases heq
      exact hup (Machine.smc_mem hsmc)
    · cases hat
      exact hstp hcaller.1.1 (Option.some.inj hins).symm
  | true => exact hup (Instr.run_local hrun hl (j := 1) (by decide)).1

/-- What `_start` does to `cpu_ready`. -/
theorem start_exec {l : Label} {ins : Instr Label} {pc : Option (Label × Nat)}
    (ok : StackOk b sp₀) (held : StartRegs b i (m.cores i)) (hcall : isCall l = false)
    (hpc : (m.cores i).pc = some (l, k)) (hins : (block b l)[k]? = some ins)
    (hrun : ins.run b.platform i ch m = some (m₁, target)) :
    ins ≠ .smc ∧ (seen b sp₀ m).Grows (seen b sp₀ (m₁.advance i pc trace)) ∧
      ∀ j, (seen b sp₀ (m₁.advance i pc trace)).up j →
        announces j ⟨i, (l, k), (m.cores i).regs⟩ ∨ (seen b sp₀ m).up j := by
  cases hl : ins.isLocal with
  | false =>
    have hat := start_places hpc held hcall hins hl
    cases hat
    cases hins
    unfold StartRegs at held
    rw [hpc] at held
    obtain ⟨-, -, h0, -, -, -, -, -, -, hi, h1, -⟩ := held
    have hlt := hi (by omega)
    have hnum : ((m.cores i).get (x 0)).toNat = i := by
      rw [Core.get_x, h0 (by omega), cpuNum_toNat hlt]
    have haddr : ((m.cores i).get (x 1) + (m.cores i).get (x 0)).toNat = b.cpuReady + i := by
      rw [Core.get_x, h1 rfl, readyAddr_toNat b (by rw [hnum]; exact hlt.trans (by decide)), hnum]
    cases hrun
    simp only [haddr, hnum]
    obtain ⟨hgrows, hup⟩ := seen_announce (m := m) ok hlt
    refine ⟨nofun, hgrows.trans (seen_advance _), ?_⟩
    intro j hj
    rcases hup j hj with rfl | hold
    · exact Or.inl (by simp [announces])
    · exact Or.inr hold
  | true =>
    have hmem : m₁.mem = m.mem := (Instr.run_local hrun hl (j := i + 1) (by omega)).1
    refine ⟨?_, seen_exec hrun hmem, ?_⟩
    · rintro rfl
      cases hl
    · intro j hj
      refine Or.inr ?_
      simpa [seen, Machine.load, hmem] using hj

theorem startInv_exec (ok : StackOk b sp₀) (inv : StartInv b sp₀ m)
    (h : exec b.platform (text b) i ch m = some m') : StartInv b sp₀ m' := by
  have hregs := startRegs_step inv h
  obtain ⟨⟨l, k⟩, ins, m₁, target, hpc, hins, hrun, rfl⟩ := exec_eq h
  change (block b l)[k]? = some ins at hins
  have hheld := inv.regs i
  unfold StartRegs at hheld
  rw [hpc] at hheld
  have hfinds : History (Finds b sp₀) (⟨i, (l, k), (m.cores i).regs⟩ :: m.trace) :=
    ⟨finds_exec inv hpc, inv.found⟩
  cases hcall : isCall l with
  | true =>
    obtain rfl : i = 0 := by
      cases l
      all_goals first
        | (cases hcall; done)
        | exact hheld.2
    refine ⟨hregs, ?_, ?_, hfinds⟩
    · rw [Machine.advance_self]
      exact caller_exec ok inv.caller hcall hpc hins hrun
    · intro j h1 hj hup
      rw [call_up ok inv hcall hpc hins hrun] at hup
      exact (inv.ready j h1 hj hup).cons
  | false =>
    obtain ⟨hsmc, hgrows, hup⟩ := start_exec ok (inv.regs i) hcall hpc hins hrun
    refine ⟨hregs, ?_, ?_, hfinds⟩
    · by_cases hi : i = 0
      · subst hi
        refine caller_elsewhere ?_
        intro pc hnew
        rw [Machine.advance_self] at hnew
        exact start_stays hcall hins hrun hnew
      · obtain ⟨hpc', hregs', hcompared, _⟩ := Instr.run_other hrun hsmc (Ne.symm hi)
        rw [Machine.advance_ne _ _ _ _ (Ne.symm hi)]
        exact (caller_congr hpc' hregs' hcompared inv.caller).grows hgrows
    · intro j h1 hj hup'
      rcases hup j hup' with hnew | hold
      · exact ⟨_, List.mem_cons_self, hnew⟩
      · exact (inv.ready j h1 hj hold).cons

theorem startInv_step (ok : StackOk b sp₀) (inv : StartInv b sp₀ m)
    (h : Step b.platform (text b) (startRely b sp₀) m m') : StartInv b sp₀ m' := by
  have hframe := frame_apart ok
  have hlow := ok.1
  cases h with
  | exec i ch h => exact startInv_exec ok inv h
  | enter i l outside enters =>
    refine ⟨?_, ?_, inv.ready, inv.found⟩
    · intro j
      by_cases hj : j = i
      · subst hj
        rcases enters with ⟨rfl, rfl, _⟩ | rfl
        · simp [StartRegs, isCall]
        · simp [StartRegs]
      · simpa [hj] using inv.regs j
    · by_cases hi : i = 0
      · subst hi
        rcases enters with ⟨_, rfl, hsp⟩ | rfl
        · rw [Machine.update_self]
          refine ⟨hsp, ?_, ?_, ?_, ?_, ?_⟩ <;> simp
        · refine caller_elsewhere ?_
          intro pc hpc
          rw [Machine.update_self] at hpc
          cases hpc
          rfl
      · rw [Machine.update_ne _ _ _ (Ne.symm hi)]
        exact inv.caller.grows (seen_update fun _ => rfl)
  | store i a n v outside stores =>
    obtain ⟨hready, hstack⟩ := stores
    have hbyte : ∀ k, k < maxCpuCount →
        (m.store a n v).load (b.cpuReady + k) 1 = m.load (b.cpuReady + k) 1 := by
      intro k hk
      exact load_apart m (by omega)
    refine ⟨fun j => startRegs_congr rfl rfl rfl (inv.regs j), ?_, ?_, inv.found⟩
    · by_cases hi : i = 0
      · subst hi
        refine caller_elsewhere ?_
        intro pc hpc
        rw [Machine.store_cores, Core.snoop_pc, outside.2] at hpc
        cases hpc
      · refine (caller_congr (c := m.cores 0) rfl rfl rfl inv.caller).grows ?_
        exact seen_grows (load_apart m (by omega)) (load_apart m (by omega))
          (fun k hk h => (hbyte k hk).trans h) fun _ h => h
    · intro k h1 hk hup
      exact inv.ready k h1 hk ⟨hk, (hbyte k hk).symm.trans hup.2⟩
  | compute i regs compared monitor outside =>
    refine ⟨?_, ?_, inv.ready, inv.found⟩
    · intro j
      by_cases hj : j = i
      · subst hj
        simp [StartRegs, outside.2]
      · simpa [hj] using inv.regs j
    · by_cases hi : i = 0
      · subst hi
        refine caller_elsewhere ?_
        intro pc hpc
        rw [Machine.update_self] at hpc
        exact absurd (outside.2.symm.trans hpc) (by simp)
      · rw [Machine.update_ne _ _ _ (Ne.symm hi)]
        exact inv.caller.grows (seen_update fun _ => rfl)
  | serve i pending active outside => exact ⟨inv.regs, inv.caller, inv.ready, inv.found⟩
  | interrupt i id => exact ⟨inv.regs, inv.caller, inv.ready, inv.found⟩

/-- CPU 0 is at `_start`, the other CPUs are off or run other code, and `cpu_ready` is clear. -/
structure FromReset (b : Board) (m : Machine Label) : Prop where
  first : (m.cores 0).pc = some (.start, 0)
  others : ∀ i, i ≠ 0 → (m.cores i).pc = none
  clear : ∀ k, k < maxCpuCount → m.load (b.cpuReady + k) 1 = 0
  trace : m.trace = []

theorem startInv_reset (reset : FromReset b m) : StartInv b sp₀ m := by
  refine ⟨?_, ?_, ?_, ?_⟩
  · intro i
    by_cases hi : i = 0
    · subst hi
      simp [StartRegs, reset.first]
    · simp [StartRegs, reset.others i hi]
  · refine caller_elsewhere ?_
    intro pc hpc
    cases reset.first.symm.trans hpc
    rfl
  · intro k h1 hk hup
    have hzero := (reset.clear k hk).symm.trans hup.2
    omega
  · rw [reset.trace]
    trivial

theorem startInv_reaches (ok : StackOk b sp₀) (reset : FromReset b m)
    (run : Reaches b.platform (text b) (startRely b sp₀) m m') : StartInv b sp₀ m' :=
  run.keeps (startInv_reset reset) fun _ _ inv step => startInv_step ok inv step

/-- `arch_start_secondary_cpus` returns zero with its stack as it was, once every secondary CPU has
announced itself. The error of a CPU that does not start comes back with the stack pointer below
where it was: that way out does not give up the frame. -/
theorem archStartSecondaryCpus_returns (ok : StackOk b sp₀) (reset : FromReset b m)
    (run : Reaches b.platform (text b) (startRely b sp₀) m m')
    (later earlier : List (Executed Label)) (e : Executed Label)
    (trace : m'.trace = later ++ e :: earlier) (returns : startReturns e) :
    (e.regs (x 0) = 0 ∧ (e.regs .sp).toNat = sp₀ ∧ Upto (secondaryCpus b) (Announced earlier)) ∨
      (e.regs (x 0) ≠ 0 ∧ (e.regs .sp).toNat = sp₀ - 16) := by
  have found := (startInv_reaches ok reset run).found
  rw [trace] at found
  exact found.split.2 returns

/-! A board with two CPUs, on which CPU 0 starts the other one. -/

def twoCpus : Board := { virtBoard with l2ctlr := 0x1000000 }

def callSp : Nat := twoCpus.data + 0x800

def resetMachine : Machine Label where
  cores := fun i =>
    ⟨i = 0, if i = 0 then some (.start, 0) else none, fun _ => 0, (0, 0), none⟩
  mem := ⟨fun _ _ => 0, []⟩
  pending := fun _ => []
  active := fun _ => []
  trace := []

theorem resetMachine_ok : FromReset twoCpus resetMachine :=
  ⟨rfl, fun i hi => by simp [resetMachine, hi], fun _ _ => rfl, rfl⟩

def booted : Machine Label := (playN twoCpus 1 0 22 resetMachine).get (by decide)

def computed : Machine Label :=
  booted.update 0 fun c => ⟨c.isOn, c.pc, fun _ => UInt64.ofNat callSp, (0, 0), none⟩

def called : Machine Label :=
  computed.update 0 fun c => { c with pc := some (.archStartSecondaryCpus, 0) }

def turnedOnOne : Machine Label := (playN twoCpus 1 0 19 called).get (by decide)

def announcedOne : Machine Label := (playN twoCpus 1 1 22 turnedOnOne).get (by decide)

def returned : Machine Label := (playN twoCpus 1 0 20 announcedOne).get (by decide)

theorem returned_reaches :
    Reaches twoCpus.platform (text twoCpus) (startRely twoCpus callSp) resetMachine returned := by
  have hbooted : playN twoCpus 1 0 22 resetMachine = some booted := (Option.some_get _).symm
  have hturned : playN twoCpus 1 0 19 called = some turnedOnOne := (Option.some_get _).symm
  have hannounced : playN twoCpus 1 1 22 turnedOnOne = some announcedOne :=
    (Option.some_get _).symm
  have hreturned : playN twoCpus 1 0 20 announcedOne = some returned := (Option.some_get _).symm
  have hcomputed : Reaches twoCpus.platform (text twoCpus) (startRely twoCpus callSp) booted
      computed := .single (.compute 0 _ _ _ ⟨by decide, by decide⟩)
  have hcalled : Reaches twoCpus.platform (text twoCpus) (startRely twoCpus callSp) computed
      called := .single (Step.enter (m := computed) 0 Label.archStartSecondaryCpus
        ⟨by decide, by decide⟩ (Or.inl ⟨rfl, rfl, by decide⟩))
  exact (reaches_play hbooted).trans (hcomputed.trans (hcalled.trans
    ((reaches_play hturned).trans ((reaches_play hannounced).trans (reaches_play hreturned)))))

theorem callSp_ok : StackOk twoCpus callSp := ⟨by decide, by decide⟩

theorem archStartSecondaryCpus_returns_twoCpus :
    Reaches twoCpus.platform (text twoCpus) (startRely twoCpus callSp) resetMachine returned ∧
      startReturns (returned.trace.get ⟨0, by decide⟩) ∧
      (((returned.trace.get ⟨0, by decide⟩).regs (x 0) = 0 ∧
          ((returned.trace.get ⟨0, by decide⟩).regs .sp).toNat = callSp ∧
          Upto (secondaryCpus twoCpus) (Announced (returned.trace.drop 1))) ∨
        ((returned.trace.get ⟨0, by decide⟩).regs (x 0) ≠ 0 ∧
          ((returned.trace.get ⟨0, by decide⟩).regs .sp).toNat = callSp - 16)) :=
  ⟨returned_reaches, by decide,
    archStartSecondaryCpus_returns callSp_ok resetMachine_ok returned_reaches []
      (returned.trace.drop 1) (returned.trace.get ⟨0, by decide⟩) rfl (by decide)⟩

end ExternalTrusty.Asm
