import Mathlib.Tactic.IntervalCases
import ExternalTrusty.IdleRegs
import ExternalTrusty.Doorbell

namespace ExternalTrusty.Asm

open Aarch64 CMemory

variable {b : Board} {m m' : Machine Label} {i : Nat} {ch : Choice}

/-- The value of `skip_cpu0_wfi`, as the two routines read it. -/
def flag (b : Board) (m : Machine Label) : Nat := m.load b.skipCpu0Wfi 8

@[irreducible] def isUp (b : Board) (m : Machine Label) : Bool := flag b m != 0

/-- CPU 0 has an interrupt that takes it out of `wfi`. -/
def isRung (m : Machine Label) : Bool := !(m.pending 0).isEmpty

/-- CPU 0 returns from `trusty_idle` with `event_poll` set. -/
def isPollReturn (e : Executed Label) : Bool :=
  e.core = 0 ∧ e.pc = (.noWfi, 0) ∧ e.regs (x 1) ≠ 0

/-- The instruction is core `i`'s store to `skip_cpu0_wfi`. -/
def raises (i : Nat) (e : Executed Label) : Bool := e.core = i ∧ e.pc = (.trustyIdle, 5)

/-- The instruction is the one by which core `i` sends CPU 0 an interrupt. -/
def rings (b : Board) (i : Nat) (e : Executed Label) : Bool :=
  e.core = i ∧ e.pc.1 = .sendInt ∧ e.pc.2 + 1 = (block b .sendInt).length

def raised (i : Nat) : List (Executed Label) → Bool
  | [] => false
  | e :: earlier => !isPollReturn e && (raises i e || raised i earlier)

def rung (b : Board) (i : Nat) : List (Executed Label) → Bool
  | [] => false
  | e :: earlier => !isPollReturn e && (rings b i e && raised i earlier || rung b i earlier)

def phase (b : Board) (c : Core Label) : Doorbell.Phase :=
  match c.pc with
  | some (.cpu0Idle, 2) => .looked (c.regs (x 3) != 0) (c.monitor = some b.skipCpu0Wfi)
  | some (.cpu0Idle, 3) => .decided (c.regs (x 3) != 0)
  | some (.wfi, 0) => if c.regs (x 1) = 0 then .away else .waiting
  | some (.noWfi, 0) => if c.regs (x 1) = 0 then .away else .leaving (c.regs (x 3) != 0)
  | _ => .away

/-- The machine as a doorbell: CPU 0 waits in an event poll, the others ring. -/
def view (b : Board) (m : Machine Label) : Doorbell.State Nat where
  flag := isUp b m
  bell := isRung m
  phase := phase b (m.cores 0)
  raised := fun i => raised i m.trace
  rung := fun i => rung b i m.trace

theorem skipAddr_toNat (b : Board) : (skipAddr b).toNat = b.skipCpu0Wfi := by
  have hfits := b.data_fits
  refine UInt64.toNat_ofNat_of_lt' ?_
  simp only [Board.skipCpu0Wfi, Board.cpuReady, Board.stackSpaceEnd, Board.stack, stackSize,
    maxCpuCount, UInt64.size]
  omega

theorem flag_lt (b : Board) (m : Machine Label) : flag b m < 2 ^ 64 := Mem.load_lt ..

theorem isUp_congr (h : m'.mem = m.mem) : isUp b m' = isUp b m := by
  simp [isUp, flag, Machine.load, h]

theorem isUp_of_ne (h : flag b m ≠ 0) : isUp b m := by
  simp [isUp, h]

theorem isUp_of_eq (h : flag b m = 0) : isUp b m = false := by
  simp [isUp, h]

theorem isRung_of_mem {id : Nat} (h : id ∈ m.pending 0) : isRung m := by
  simp [isRung, List.ne_nil_of_mem h]

theorem isRung_mono (h : m.pending 0 ⊆ m'.pending 0) (hm : isRung m) : isRung m' := by
  cases hp : m.pending 0 with
  | nil => simp [isRung, hp] at hm
  | cons id ids => exact isRung_of_mem (h (hp ▸ List.mem_cons_self))

theorem isUp_ofNat (b : Board) (m : Machine Label) :
    (UInt64.ofNat (flag b m) != 0) = isUp b m := by
  have hzero : UInt64.ofNat (flag b m) = 0 ↔ flag b m = 0 := by
    rw [← UInt64.toNat_inj, UInt64.toNat_ofNat_of_lt' (flag_lt b m)]
    rfl
  by_cases hz : flag b m = 0
  · simp [isUp_of_eq hz, hzero.mpr hz]
  · rw [isUp_of_ne hz, bne_iff_ne]
    exact fun h => hz (hzero.mp h)

section Trace

variable {e : Executed Label} {earlier : List (Executed Label)}

theorem raised_quiet (hret : isPollReturn e = false) (hraise : raises i e = false) :
    raised i (e :: earlier) = raised i earlier := by
  simp [raised, hret, hraise]

theorem rung_quiet (hret : isPollReturn e = false) (hring : rings b i e = false) :
    rung b i (e :: earlier) = rung b i earlier := by
  simp [rung, hret, hring]

end Trace

/-- What is seen of an instruction that neither raises the flag, nor rings, nor returns. -/
theorem view_eq {e : Executed Label} {up bell : Bool} {p : Doorbell.Phase}
    (htrace : m'.trace = e :: m.trace) (hret : isPollReturn e = false)
    (hraise : ∀ i, raises i e = false) (hring : ∀ i, rings b i e = false)
    (hflag : isUp b m' = up) (hbell : isRung m' = bell)
    (hphase : phase b (m'.cores 0) = p) :
    view b m' = { view b m with flag := up, bell := bell, phase := p } := by
  simp only [view, htrace, hflag, hbell, hphase, raised_quiet hret (hraise _),
    rung_quiet hret (hring _)]

theorem boot_field (b : Board) (mask : UInt64) {lo w : Nat}
    (hmask : mask.toNat = (2 ^ w - 1) <<< lo)
    (hin : ~~~0x1000000 &&& ~~~0xc0000000 &&& mask = mask) : field (b.mpidr 0) lo w = 0 := by
  refine field_eq_zero hmask ?_
  have hzero : b.mpidr 0 &&& (~~~0x1000000 &&& ~~~0xc0000000) = 0 := by
    rw [← UInt64.and_assoc]
    exact (cpuNum_eq_zero b 0).mpr rfl
  rw [← hin, ← UInt64.and_assoc, hzero, UInt64.zero_and]

theorem sgi_reaches_boot (b : Board) (i : Nat) : sgi1rTargets b.platform 1 i 0 = true := by
  have h0 : field (b.mpidr 0) 0 4 = 0 := boot_field b 0xf (by decide) (by decide)
  have h4 : field (b.mpidr 0) 4 4 = 0 := boot_field b 0xf0 (by decide) (by decide)
  have h8 : field (b.mpidr 0) 8 8 = 0 := boot_field b 0xff00 (by decide) (by decide)
  have h16 : field (b.mpidr 0) 16 8 = 0 := boot_field b 0xff0000 (by decide) (by decide)
  have h32 : field (b.mpidr 0) 32 8 = 0 := boot_field b 0xff00000000 (by decide) (by decide)
  have hone : ∀ lo w, field 1 (lo + 1) w = 0 := by
    intro lo w
    have hlt : 1 < 2 ^ (lo + 1) := Nat.one_lt_two_pow (by omega)
    simp [field, Nat.div_eq_of_lt hlt]
  simp only [sgi1rTargets, Board.platform, h0, h4, h8, h16, h32, hone]
  rw [if_neg (by decide)]
  decide

theorem sgir_reaches_boot (i : Nat) : sgirTargets 0x1800f i 0 = true := by
  have hfilter : field 0x1800f 24 2 = 0 := by decide
  simp only [sgirTargets, hfilter]
  decide

theorem phase_store (b : Board) (c : Core Label) :
    phase b (c.snoop b.skipCpu0Wfi 8) = (phase b c).disturb := by
  have hlost : (c.snoop b.skipCpu0Wfi 8).monitor ≠ some b.skipCpu0Wfi := by
    intro h
    have hfilter := Option.filter_eq_some_iff.mp h
    simp at hfilter
  unfold phase
  simp only [Core.snoop_pc, Core.snoop_regs, hlost, decide_false]
  split
  · rfl
  · rfl
  · by_cases hz : c.regs (x 1) = 0
    · simp [hz, Doorbell.Phase.disturb]
    · simp [hz, Doorbell.Phase.disturb]
  · by_cases hz : c.regs (x 1) = 0
    · simp [hz, Doorbell.Phase.disturb]
    · simp only [hz, if_false, Doorbell.Phase.disturb]
  · rfl

theorem flag_store (b : Board) (m : Machine Label) (v : UInt64) :
    flag b (m.store b.skipCpu0Wfi 8 v.toNat) = v.toNat :=
  Mem.load_store_self _ _ v.toNat_lt

theorem raised_mono {e : Executed Label} {earlier : List (Executed Label)}
    (hret : isPollReturn e = false) (h : raised i earlier) : raised i (e :: earlier) := by
  simp [raised, hret, h]

/-- A ring that is recorded is one of a core that has raised the flag before. -/
theorem rung_raised {earlier : List (Executed Label)} (h : rung b i earlier) :
    raised i earlier := by
  induction earlier with
  | nil => cases h
  | cons e earlier ih =>
    simp only [rung, raised, Bool.and_eq_true, Bool.or_eq_true] at h ⊢
    refine ⟨h.1, Or.inr ?_⟩
    rcases h.2 with h | h
    · exact h.2
    · exact ih h

theorem bell_step {s : Doorbell.State Nat} {bell : Bool} (h : s.bell → bell) :
    Relation.ReflGen Doorbell.Step s { s with bell := bell } := by
  obtain ⟨flag, old, phase, raised, rung⟩ := s
  cases bell with
  | true => exact .single .noise
  | false =>
    cases old with
    | true => cases h rfl
    | false => exact .refl

theorem ring_step {e : Executed Label} (htrace : m'.trace = e :: m.trace)
    (hret : isPollReturn e = false) (hraise : ∀ i, raises i e = false)
    (hflag : isUp b m' = isUp b m) (hphase : phase b (m'.cores 0) = phase b (m.cores 0))
    (hbell : isRung m') : Doorbell.Step (view b m) (view b m') := by
  have hview : view b m' =
      { view b m with bell := true, rung := fun i => rung b i m'.trace } := by
    simp [view, htrace, hflag, hphase, raised_quiet hret (hraise _), hbell]
  rw [hview]
  refine .ring _ ?_
  intro i hi
  have hraised := rung_raised hi
  rwa [htrace, raised_quiet hret (hraise i)] at hraised

theorem raise_step {e : Executed Label} (htrace : m'.trace = e :: m.trace)
    (hret : isPollReturn e = false) (hring : ∀ i, rings b i e = false) (hflag : isUp b m')
    (hphase : phase b (m'.cores 0) = (phase b (m.cores 0)).disturb)
    (hbell : isRung m' = isRung m) : Doorbell.Step (view b m) (view b m') := by
  have hview : view b m' =
      { view b m with
        flag := true, phase := (view b m).phase.disturb
        raised := fun i => raised i m'.trace } := by
    simp [view, htrace, hflag, hphase, rung_quiet hret (hring _), hbell]
  rw [hview]
  refine .raise _ ?_
  intro i hi
  rw [htrace]
  exact raised_mono hret hi

/-- An instruction of a core other than CPU 0, as a step of the doorbell. -/
theorem view_other (held : ∀ i, IdleRegs b i (m.cores i)) (hi : i ≠ 0)
    (h : exec b.platform (text b) i ch m = some m') :
    Relation.ReflGen Doorbell.Step (view b m) (view b m') := by
  obtain ⟨⟨l, k⟩, ins, m₁, target, hpc, hins, hrun, rfl⟩ := exec_eq h
  change (block b l)[k]? = some ins at hins
  have hregs := held i
  unfold IdleRegs at hregs
  rw [hpc] at hregs
  have hret : isPollReturn ⟨i, (l, k), (m.cores i).regs⟩ = false := by
    simp [isPollReturn, hi]
  cases hl : ins.isLocal with
  | false =>
    rcases (idle_places hpc (held i) hins hl).2 with hat | ⟨rfl, rfl, hgic⟩ | hat
    · cases hat
      cases hins
      cases hrun
      obtain ⟨h0, -, -, h2, hnum⟩ := hregs
      have hstore : ((m.cores i).get (x 0)).toNat = b.skipCpu0Wfi := by
        rw [Core.get_x, h0 (by omega), skipAddr_toNat]
      have hvalue : (m.cores i).get (x 2) ≠ 0 := by
        rw [Core.get_x, h2 (by omega)]
        exact hnum (by omega)
      simp only [hstore]
      refine .single (raise_step rfl hret ?_ ?_ ?_ rfl)
      · intro j
        simp [rings]
      · refine isUp_of_ne (ne_of_eq_of_ne (flag_store b m _) ?_)
        intro hz
        exact hvalue (UInt64.toNat_inj.mp hz)
      · rw [Machine.advance_ne _ _ _ _ (Ne.symm hi), Machine.store_cores, phase_store]
    · simp only [block, hgic, ite_false] at hins
      cases hins
      have hx3 : (m.cores i).regs (x 3) = gicdBase := by
        have h := hregs.2
        simp only [hgic, ite_false] at h
        exact h.1 (by omega)
      have hx4 : (m.cores i).regs (x 4) = 0x1800f := by
        have h := hregs.2
        simp only [hgic, ite_false] at h
        exact h.2 trivial
      simp only [Instr.run, Core.get_x, hx3, hx4, Board.platform, hgic, ite_false,
        ite_true] at hrun
      cases hrun
      refine .single (ring_step rfl hret ?_ (isUp_congr rfl) ?_ ?_)
      · intro j
        simp [raises]
      · rw [Machine.advance_ne _ _ _ _ (Ne.symm hi)]
        rfl
      · exact isRung_of_mem (Machine.mem_pending_send m (sgir_reaches_boot i))
    · cases hat
      exact absurd ((cpuNum_eq_zero b i).mp hregs.1) hi
  | true =>
    obtain ⟨hmem, hcore, hpend⟩ := Instr.run_local hrun hl (Ne.symm hi)
    have hraise : ∀ j, raises j ⟨i, (l, k), (m.cores i).regs⟩ = false := by
      intro j
      by_contra hat
      simp only [raises, Bool.not_eq_false, decide_eq_true_eq] at hat
      obtain ⟨-, hat⟩ := hat
      cases hat
      cases hins
      cases hl
    have hflag : isUp b (m₁.advance i ((text b).after (l, k) target)
        (⟨i, (l, k), (m.cores i).regs⟩ :: m.trace)) = isUp b m := isUp_congr hmem
    have hphase : phase b ((m₁.advance i ((text b).after (l, k) target)
        (⟨i, (l, k), (m.cores i).regs⟩ :: m.trace)).cores 0) = phase b (m.cores 0) := by
      rw [Machine.advance_ne _ _ _ _ (Ne.symm hi), hcore]
    by_cases hat : l = .sendInt ∧ k + 1 = (block b .sendInt).length
    · obtain ⟨rfl, hlast⟩ := hat
      by_cases hgic : b.gicVersion > 2
      · simp only [block, hgic, ite_true] at hins hlast
        obtain rfl : k = 1 := by simpa using hlast
        cases hins
        have hx4 : (m.cores i).regs (x 4) = 1 := by
          have h := hregs.2
          simp only [hgic, ite_true] at h
          exact h trivial
        simp only [Instr.run, Core.get_x, hx4] at hrun
        cases hrun
        refine .single (ring_step rfl hret hraise hflag hphase ?_)
        exact isRung_of_mem (Machine.mem_pending_send m (sgi_reaches_boot b i))
      · simp only [block, hgic, ite_false] at hins hlast
        obtain rfl : k = 2 := by simpa using hlast
        cases hins
        cases hl
    · have hring : ∀ j, rings b j ⟨i, (l, k), (m.cores i).regs⟩ = false := by
        intro j
        simp only [rings, decide_eq_false_iff_not]
        exact fun h => hat h.2
      rw [view_eq rfl hret hraise hring hflag rfl hphase]
      exact bell_step (isRung_mono hpend)

/-- An instruction that CPU 0 executes while it waits for nothing. -/
theorem away_step {e : Executed Label} (htrace : m'.trace = e :: m.trace)
    (hret : isPollReturn e = false) (hraise : ∀ i, raises i e = false)
    (hring : ∀ i, rings b i e = false) (hflag : isUp b m' = isUp b m)
    (hbefore : phase b (m.cores 0) = .away) (hafter : phase b (m'.cores 0) = .away) :
    Relation.ReflGen Doorbell.Step (view b m) (view b m') := by
  rw [view_eq htrace hret hraise hring hflag rfl (hafter.trans hbefore.symm)]
  exact .single (.away _ hbefore)

/-- An instruction by which CPU 0 goes on in an event poll. -/
theorem poll_step {e : Executed Label} (up : Bool) {p : Doorbell.Phase}
    (htrace : m'.trace = e :: m.trace) (hret : isPollReturn e = false)
    (hraise : ∀ i, raises i e = false) (hring : ∀ i, rings b i e = false)
    (hflag : isUp b m' = up) (hbell : isRung m' = isRung m)
    (hphase : phase b (m'.cores 0) = p)
    (h : Doorbell.Step (view b m) { view b m with flag := up, phase := p }) :
    Relation.ReflGen Doorbell.Step (view b m) (view b m') := by
  rw [view_eq htrace hret hraise hring hflag hbell hphase]
  exact .single h

theorem leave_step {e : Executed Label} (seen : Bool) (htrace : m'.trace = e :: m.trace)
    (hret : isPollReturn e) (hflag : isUp b m' = isUp b m) (hbell : isRung m' = isRung m)
    (hbefore : phase b (m.cores 0) = .leaving seen) (hafter : phase b (m'.cores 0) = .away) :
    Doorbell.Step (view b m) (view b m') := by
  have hview : view b m' =
      { view b m with phase := .away, raised := fun _ => false, rung := fun _ => false } := by
    simp [view, htrace, hflag, hbell, hafter, raised, rung, hret]
  rw [hview]
  exact .leave hbefore

/-- An instruction of CPU 0 in `trusty_idle`, as a step of the doorbell. -/
theorem view_boot (held : IdleRegs b 0 (m.cores 0))
    (h : exec b.platform (text b) 0 ch m = some m') :
    Relation.ReflGen Doorbell.Step (view b m) (view b m') := by
  obtain ⟨⟨l, k⟩, ins, m₁, target, hpc, hins, hrun, rfl⟩ := exec_eq h
  change (block b l)[k]? = some ins at hins
  have hregs := held
  unfold IdleRegs at hregs
  rw [hpc] at hregs
  have hzero : cpuNum b 0 = 0 := (cpuNum_eq_zero b 0).mpr rfl
  have hraise : ∀ j, raises j ⟨0, (l, k), (m.cores 0).regs⟩ = false := by
    intro j
    by_contra hat
    simp only [raises, Bool.not_eq_false, decide_eq_true_eq] at hat
    obtain ⟨-, hat⟩ := hat
    cases hat
    exact hregs.2.2.2.2 (by omega) hzero
  have hring : ∀ j, rings b j ⟨0, (l, k), (m.cores 0).regs⟩ = false := by
    intro j
    by_contra hat
    simp only [rings, Bool.not_eq_false, decide_eq_true_eq] at hat
    obtain ⟨-, rfl, -⟩ := hat
    exact hregs.1 hzero
  cases l
  case trustyIdle =>
    have hbefore : phase b (m.cores 0) = .away := by simp [phase, hpc]
    have hk : k < 6 := (List.getElem?_eq_some_iff.mp hins).1
    interval_cases k
    · cases hins
      cases hrun
      refine away_step rfl rfl hraise hring (isUp_congr rfl) hbefore ?_
      simp [phase, Code.after, text, block, getCpuNum]
    · cases hins
      cases hrun
      refine away_step rfl rfl hraise hring (isUp_congr rfl) hbefore ?_
      simp [phase, Code.after, text, block, getCpuNum]
    · cases hins
      cases hrun
      refine away_step rfl rfl hraise hring (isUp_congr rfl) hbefore ?_
      simp [phase, Code.after, text, block, getCpuNum]
    · cases hins
      cases hrun
      refine away_step rfl rfl hraise hring (isUp_congr rfl) hbefore ?_
      simp [phase, Code.after, text, block, getCpuNum]
    · cases hins
      cases hrun
      have hx2 : (m.cores 0).regs (x 2) = 0 := (hregs.2.2.2.1 (by omega)).trans hzero
      refine away_step rfl rfl hraise hring (isUp_congr rfl) hbefore ?_
      simp [phase, Code.after, hx2]
    · exact absurd hzero (hregs.2.2.2.2 (by omega))
  case sendInt => exact absurd hzero hregs.1
  case intSent => exact absurd hzero hregs
  case cpu0Idle =>
    obtain ⟨-, h0, h1⟩ := hregs
    have hskip : ((m.cores 0).regs (x 0)).toNat = b.skipCpu0Wfi := by
      rw [h0, skipAddr_toNat]
    have hk : k < 4 := (List.getElem?_eq_some_iff.mp hins).1
    interval_cases k
    · cases hins
      cases hrun
      refine away_step rfl rfl hraise hring (isUp_congr rfl) ?_ ?_
      · simp [phase, hpc]
      · by_cases hz : (m.cores 0).regs (x 1) = 0
        · simp [phase, hz, Code.after]
        · simp [phase, hz, Code.after, text, block]
    · cases hins
      cases hrun
      refine poll_step (view b m).flag rfl rfl hraise hring (isUp_congr rfl) rfl ?_
        (.look ?_)
      · -- the value that was loaded is what the view calls the flag
        have hseen : (UInt64.ofNat (m.load b.skipCpu0Wfi 8) != 0) = isUp b m := isUp_ofNat b m
        simp [phase, Code.after, text, block, Machine.watch, hskip, hseen, view]
      · simp [view, phase, hpc]
    · cases hins
      simp only [Instr.run, Core.get_x, hskip] at hrun
      split at hrun
      next hopen =>
        cases hrun
        refine poll_step false (p := .decided ((m.cores 0).regs (x 3) != 0)) rfl rfl hraise
          hring ?_ rfl ?_ (.takeDown ?_)
        · exact isUp_of_eq (flag_store b m 0)
        · simp [phase, Code.after, text, block, Machine.watch]
        · simp [view, phase, hpc, hopen.1]
      next =>
        cases hrun
        refine poll_step (view b m).flag (p := .decided ((m.cores 0).regs (x 3) != 0)) rfl
          rfl hraise hring (isUp_congr rfl) rfl ?_
          (.leaveUp (w := (m.cores 0).monitor = some b.skipCpu0Wfi) ?_)
        · simp [phase, Code.after, text, block, Machine.watch]
        · simp [view, phase, hpc]
    · cases hins
      cases hrun
      have hpoll : (m.cores 0).regs (x 1) ≠ 0 := h1 (by omega)
      by_cases hz : (m.cores 0).regs (x 3) = 0
      · refine poll_step (view b m).flag rfl rfl hraise hring (isUp_congr rfl) rfl ?_
          (.wait ?_)
        · simp [phase, Code.after, text, block, next, hz, hpoll]
        · simp [view, phase, hpc, hz]
      · refine poll_step (view b m).flag rfl rfl hraise hring (isUp_congr rfl) rfl ?_
          (.skip ?_)
        · simp [phase, Code.after, hz, hpoll]
        · simp [view, phase, hpc, hz]
  case wfi =>
    have hk : k < 1 := (List.getElem?_eq_some_iff.mp hins).1
    interval_cases k
    · cases hins
      cases hrun
      by_cases hz : (m.cores 0).regs (x 1) = 0
      · refine away_step rfl rfl hraise hring (isUp_congr rfl) ?_ ?_
        · simp [phase, hpc, hz]
        · simp [phase, Code.after, text, block, next, hz]
      · refine poll_step (view b m).flag rfl rfl hraise hring (isUp_congr rfl) rfl ?_
          (.wake ?_)
        · simp [phase, Code.after, text, block, next, hz, hregs hzero hz]
        · simp [view, phase, hpc, hz]
  case noWfi =>
    have hk : k < 1 := (List.getElem?_eq_some_iff.mp hins).1
    interval_cases k
    · cases hins
      cases hrun
      by_cases hz : (m.cores 0).regs (x 1) = 0
      · refine away_step rfl ?_ hraise hring (isUp_congr rfl) ?_ ?_
        · simp [isPollReturn, hz]
        · simp [phase, hpc, hz]
        · simp [phase, Code.after]
      · refine .single (leave_step ((m.cores 0).regs (x 3) != 0) rfl ?_ (isUp_congr rfl) rfl
          ?_ ?_)
        · simp [isPollReturn, hz]
        · simp [phase, hpc, hz]
        · simp [phase, Code.after]
  case trustyLocalIrqDisable =>
    have hbefore : phase b (m.cores 0) = .away := by simp [phase, hpc]
    by_cases hgic : b.gicVersion > 2
    · simp only [block, hgic, ite_true] at hins
      have hk : k < 5 := (List.getElem?_eq_some_iff.mp hins).1
      interval_cases k
      · cases hins
        obtain ⟨m₂, hack, heq⟩ := Option.map_eq_some_iff.mp hrun
        cases heq
        have hmem : m₁.mem = m.mem := Machine.acknowledge_mem hack
        refine away_step rfl rfl hraise hring (isUp_congr hmem) hbefore ?_
        simp [phase, Code.after, text, block, hgic]
      · cases hins
        cases hrun
        refine away_step rfl rfl hraise hring (isUp_congr rfl) hbefore ?_
        simp [phase, Code.after, text, block, hgic]
      · cases hins
        cases hrun
        refine away_step rfl rfl hraise hring (isUp_congr rfl) hbefore ?_
        split
        · simp [phase, Code.after]
        · simp [phase, Code.after, text, block, hgic]
      · cases hins
        cases hrun
        refine away_step rfl rfl hraise hring (isUp_congr rfl) hbefore ?_
        simp [phase, Code.after, text, block, hgic]
      · cases hins
        cases hrun
        refine away_step rfl rfl hraise hring (isUp_congr rfl) hbefore ?_
        simp [phase, Code.after]
    · simp [block, hgic] at hins
  case trustyLocalIrqDisableDone =>
    have hbefore : phase b (m.cores 0) = .away := by simp [phase, hpc]
    by_cases hgic : b.gicVersion > 2
    · simp only [block, hgic, ite_true] at hins
      have hk : k < 1 := (List.getElem?_eq_some_iff.mp hins).1
      interval_cases k
      · cases hins
        cases hrun
        refine away_step rfl rfl hraise hring (isUp_congr rfl) hbefore ?_
        simp [phase, Code.after]
    · simp [block, hgic] at hins
  all_goals exact hregs.elim

theorem phase_outside {c : Core Label} (h : c.Outside) : phase b c = .away := by
  simp [phase, h.2]

/-- A store elsewhere leaves CPU 0's monitor alone. -/
theorem phase_store_apart {a n : Nat} (h : a + n ≤ b.skipCpu0Wfi ∨ b.skipCpu0Wfi + 8 ≤ a)
    (c : Core Label) : phase b (c.snoop a n) = phase b c := by
  have hopen : (c.snoop a n).monitor = some b.skipCpu0Wfi ↔ c.monitor = some b.skipCpu0Wfi := by
    unfold Core.snoop
    rw [Option.filter_eq_some_iff]
    refine ⟨fun h => h.1, fun hc => ⟨hc, ?_⟩⟩
    simp only [decide_eq_true_eq]
    omega
  unfold phase
  rw [Core.snoop_pc, Core.snoop_regs]
  split
  · exact congrArg _ (decide_eq_decide.mpr hopen)
  all_goals rfl

/-- A step that shows at most in the bell. -/
theorem bell_only (htrace : m'.trace = m.trace) (hflag : isUp b m' = isUp b m)
    (hphase : phase b (m'.cores 0) = phase b (m.cores 0))
    (h : Relation.ReflGen Doorbell.Step (view b m) { view b m with bell := isRung m' }) :
    Relation.ReflGen Doorbell.Step (view b m) (view b m') := by
  have hview : view b m' = { view b m with bell := isRung m' } := by
    simp [view, htrace, hflag, hphase]
  rwa [hview]

/-- Every step of the machine is one of the doorbell, or invisible. -/
theorem view_step (held : ∀ i, IdleRegs b i (m.cores i))
    (h : Step b.platform (text b) (idleRely b) m m') :
    Relation.ReflGen Doorbell.Step (view b m) (view b m') := by
  cases h with
  | exec i ch h =>
    by_cases hi : i = 0
    · subst hi
      exact view_boot (held 0) h
    · exact view_other held hi h
  | enter i l outside ok =>
    refine bell_only rfl (isUp_congr rfl) ?_ (bell_step id)
    by_cases hi : i = 0
    · subst hi
      rw [phase_outside outside, Machine.update_self]
      rcases ok with rfl | rfl
      · rfl
      · rfl
    · rw [Machine.update_ne _ _ _ (Ne.symm hi)]
  | store i a n v outside ok =>
    have hflag : flag b (m.store a n v) = flag b m := by
      refine Mem.load_store_apart _ ?_
      rcases ok with ok | ok
      · exact Or.inr (Or.inr (Or.inr (Or.inl ok)))
      · exact Or.inr (Or.inr (Or.inr (Or.inr ok)))
    refine bell_only rfl ?_ (phase_store_apart ok _) (bell_step id)
    simp [isUp, hflag]
  | compute i regs compared monitor outside =>
    refine bell_only rfl (isUp_congr rfl) ?_ (bell_step id)
    by_cases hi : i = 0
    · subst hi
      rw [phase_outside outside, Machine.update_self]
      exact phase_outside outside
    · rw [Machine.update_ne _ _ _ (Ne.symm hi)]
  | serve i pending active outside =>
    refine bell_only rfl (isUp_congr rfl) rfl ?_
    by_cases hi : i = 0
    · subst hi
      exact .single (.away _ (phase_outside outside))
    · exact bell_step (isRung_mono (by simp [Ne.symm hi]))
  | interrupt i id =>
    refine bell_only rfl (isUp_congr rfl) rfl (bell_step ?_)
    exact isRung_mono (Machine.pending_send m _ _ _)

end ExternalTrusty.Asm
