import ExternalTrusty.Memory
import Mathlib.Logic.Function.Basic
import Mathlib.Logic.Relation

namespace Aarch64

open CMemory

/-- The registers `x0` to `x30`, the stack pointer, and the one that reads as zero. -/
inductive Reg
  | x (n : Nat)
  | sp
  | zr
  deriving DecidableEq

inductive Operand
  | reg (r : Reg)
  | imm (v : UInt64)

inductive SysReg
  | currentEl
  | mpidr
  | l2ctlr
  | vbarEl1
  | vbarEl2
  | iccSgi1r
  | iccIar1
  | iccEoir1

/-- The conditions of a branch that compare unsigned. -/
inductive Cond
  | ne
  | hs
  | lo
  | hi
  | ls

def Cond.holds : Cond → UInt64 × UInt64 → Bool
  | .ne, (a, b) => a ≠ b
  | .hs, (a, b) => b ≤ a
  | .lo, (a, b) => a < b
  | .hi, (a, b) => b < a
  | .ls, (a, b) => a ≤ b

/-- The instructions, with the labels `L` of the text they are in. `adr` and a literal load are
`mov`: the linker's addresses are numbers here. -/
inductive Instr (L : Type)
  | mov (d : Reg) (s : Operand)
  | add (d a : Reg) (s : Operand)
  | sub (d a : Reg) (s : Operand)
  | mul (d a : Reg) (s : Operand)
  | and (d a : Reg) (s : Operand)
  | bic (d a : Reg) (s : Operand)
  | lsr (d a : Reg) (k : UInt64)
  | cmp (a : Reg) (s : Operand)
  | mrs (d : Reg) (r : SysReg)
  | msr (r : SysReg) (s : Reg)
  | b (l : L)
  | bCond (c : Cond) (l : L)
  | cbz (r : Reg) (l : L)
  | cbnz (r : Reg) (l : L)
  | ldp (d d' base : Reg)
  | stp (s s' base : Reg)
  | ldrb (d base index : Reg)
  | strb (s base index : Reg)
  | str (s base : Reg) (off : UInt64)
  | stlr (s base : Reg)
  | ldaxr (d base : Reg)
  | stxr (status s base : Reg)
  | wfi
  | wfe
  | sev
  | dmb
  | smc
  | hlt
  | bl
  | ret

/-- A text: the instructions from each label to the next, and which label that is. -/
structure Code (L : Type) where
  block : L → List (Instr L)
  next : L → Option L

/-- One core. Without a program counter it runs code that is not in the text. -/
structure Core (L : Type) where
  isOn : Bool
  pc : Option (L × Nat)
  regs : Reg → UInt64
  compared : UInt64 × UInt64
  monitor : Option Nat

/-- An instruction that a core has executed, with its registers before it. -/
structure Executed (L : Type) where
  core : Nat
  pc : L × Nat
  regs : Reg → UInt64

/-- The cores, the memory they share one access at a time, and their interrupts: those that can be
acknowledged and those that have been. The trace has the latest instruction first. -/
structure Machine (L : Type) where
  cores : Nat → Core L
  mem : Mem Unit
  pending : Nat → List Nat
  active : Nat → List Nat
  trace : List (Executed L)

/-- What a board fixes. A store to `gicdSgir` sends interrupts, where it is given. -/
structure Platform (L : Type) where
  currentEl : UInt64
  mpidr : Nat → UInt64
  l2ctlr : UInt64
  gicdSgir : Option UInt64
  entryAt : UInt64 → Option L

/-- What the text does not decide: the interrupt acknowledged, whether an exclusive store fails
without a reason, and what firmware leaves in its registers. -/
structure Choice where
  interrupt : Nat
  spurious : Bool
  target : Nat
  clobber : Nat → UInt64

variable {L : Type}

def Core.get (c : Core L) : Reg → UInt64
  | .zr => 0
  | r => c.regs r

def Core.eval (c : Core L) : Operand → UInt64
  | .reg r => c.get r
  | .imm v => v

def Core.set (c : Core L) (r : Reg) (v : UInt64) : Core L :=
  { c with regs := Function.update c.regs r v }

/-- The monitor is lost when a store reaches what it watches. -/
def Core.snoop (c : Core L) (a n : Nat) : Core L :=
  { c with monitor := c.monitor.filter fun w => w + 8 ≤ a ∨ a + n ≤ w }

def Machine.update (m : Machine L) (i : Nat) (f : Core L → Core L) : Machine L :=
  { m with cores := Function.update m.cores i (f (m.cores i)) }

/-- Set what the exclusive monitor of core `i` watches. -/
def Machine.watch (m : Machine L) (i : Nat) (w : Option Nat) : Machine L :=
  m.update i fun c => { c with monitor := w }

def Machine.load (m : Machine L) (a n : Nat) : Nat := m.mem.load ⟨(), a⟩ n

def Machine.store (m : Machine L) (a n v : Nat) : Machine L :=
  { m with cores := fun j => (m.cores j).snoop a n, mem := m.mem.store ⟨(), a⟩ n v }

/-- Interrupt `id` becomes pending on every core that it is sent to. -/
def Machine.send (m : Machine L) (targets : Nat → Bool) (id : Nat) : Machine L :=
  { m with pending := fun j =>
      if targets j ∧ id ∉ m.pending j then id :: m.pending j else m.pending j }

/-- The field of `w` bits from bit `lo` on. -/
def field (v : UInt64) (lo w : Nat) : Nat := v.toNat / 2 ^ lo % 2 ^ w

theorem field_eq_zero {v mask : UInt64} {lo w : Nat} (hmask : mask.toNat = (2 ^ w - 1) <<< lo)
    (h : v &&& mask = 0) : field v lo w = 0 := by
  have hand : v.toNat &&& (2 ^ w - 1) <<< lo = 0 := by
    rw [← hmask, ← UInt64.toNat_and, h]
    rfl
  unfold field
  rw [← Nat.shiftRight_eq_div_pow, ← Nat.and_two_pow_sub_one_eq_mod]
  calc v.toNat >>> lo &&& (2 ^ w - 1)
      = (v.toNat &&& (2 ^ w - 1) <<< lo) >>> lo := by
        rw [Nat.shiftRight_and_distrib, Nat.shiftLeft_shiftRight]
    _ = 0 := by rw [hand, Nat.zero_shiftRight]

/-- Whether a write to ICC_SGI1R_EL1 by core `i` targets core `j`. -/
def sgi1rTargets (plat : Platform L) (v : UInt64) (i j : Nat) : Bool :=
  if field v 40 1 = 1 then j ≠ i
  else
    let p := plat.mpidr j
    field p 8 8 = field v 16 8 ∧ field p 16 8 = field v 32 8 ∧ field p 32 8 = field v 48 8 ∧
      field p 4 4 = field v 44 4 ∧ field v (field p 0 4) 1 = 1

/-- Whether a write to GICD_SGIR by core `i` targets core `j`. -/
def sgirTargets (v : UInt64) (i j : Nat) : Bool :=
  match field v 24 2 with
  | 0 => j < 8 ∧ field v (16 + j) 1 = 1
  | 1 => j ≠ i
  | _ => j = i

/-- The affinity fields of MPIDR_EL1. -/
def affinity (v : UInt64) : UInt64 := v &&& 0xff00ffffff

def psciCpuOn : UInt64 := 0xC4000003

/-- The secure monitor may change `x0` to `x17`. A core turned on starts at the given address with
the given argument; the call fails in any other case. -/
def Machine.smc (plat : Platform L) (m : Machine L) (i : Nat) (ch : Choice) : Option (Machine L) :=
  let c := m.cores i
  let clobbered : Core L → Core L := fun c =>
    { c with regs := fun r =>
        match r with
        | .x n => if n ≤ 17 then ch.clobber n else c.regs (.x n)
        | r => c.regs r }
  if c.get (.x 0) = psciCpuOn ∧ ch.clobber 0 = 0 then do
    let l ← plat.entryAt (c.get (.x 2))
    if ch.target ≠ i ∧ affinity (plat.mpidr ch.target) = c.get (.x 1) ∧
        ¬(m.cores ch.target).isOn then
      some ((m.update i clobbered).update ch.target fun t =>
        { t with
          isOn := true, pc := some (l, 0)
          regs := Function.update t.regs (.x 0) (c.get (.x 3)) })
    else none
  else some (m.update i clobbered)

/-- Reading ICC_IAR1_EL1 acknowledges a pending interrupt; 1023 says that there is none. -/
def Machine.acknowledge (m : Machine L) (i : Nat) (d : Reg) (ch : Choice) : Option (Machine L) :=
  if m.pending i = [] then some (m.update i fun c => c.set d 1023)
  else if ch.interrupt ∈ m.pending i then
    some { m.update i fun c => c.set d (UInt64.ofNat ch.interrupt) with
      pending := Function.update m.pending i ((m.pending i).erase ch.interrupt)
      active := Function.update m.active i (ch.interrupt :: m.active i) }
  else none

inductive Target (L : Type)
  | next
  | label (l : L)
  | out

/-- What an instruction of core `i` does, and where the core goes. -/
def Instr.run (plat : Platform L) (i : Nat) (ch : Choice) (m : Machine L) :
    Instr L → Option (Machine L × Target L)
  | .mov d s => some (m.update i fun c => c.set d (c.eval s), .next)
  | .add d a s => some (m.update i fun c => c.set d (c.get a + c.eval s), .next)
  | .sub d a s => some (m.update i fun c => c.set d (c.get a - c.eval s), .next)
  | .mul d a s => some (m.update i fun c => c.set d (c.get a * c.eval s), .next)
  | .and d a s => some (m.update i fun c => c.set d (c.get a &&& c.eval s), .next)
  | .bic d a s => some (m.update i fun c => c.set d (c.get a &&& ~~~c.eval s), .next)
  | .lsr d a k => some (m.update i fun c => c.set d (c.get a >>> k), .next)
  | .cmp a s => some (m.update i fun c => { c with compared := (c.get a, c.eval s) }, .next)
  | .mrs d .currentEl => some (m.update i fun c => c.set d plat.currentEl, .next)
  | .mrs d .mpidr => some (m.update i fun c => c.set d (plat.mpidr i), .next)
  | .mrs d .l2ctlr => some (m.update i fun c => c.set d plat.l2ctlr, .next)
  | .mrs d .iccIar1 => (m.acknowledge i d ch).map (·, .next)
  | .mrs _ _ => none
  | .msr .iccSgi1r s =>
    let v := (m.cores i).get s
    some (m.send (sgi1rTargets plat v i) (field v 24 4), .next)
  | .msr .iccEoir1 s =>
    let ended := (m.active i).erase ((m.cores i).get s).toNat
    some ({ m with active := Function.update m.active i ended }, .next)
  | .msr _ _ => some (m, .next)
  | .b l => some (m, .label l)
  | .bCond c l => some (m, if c.holds (m.cores i).compared then .label l else .next)
  | .cbz r l => some (m, if (m.cores i).get r = 0 then .label l else .next)
  | .cbnz r l => some (m, if (m.cores i).get r = 0 then .next else .label l)
  | .ldp d d' base =>
    let a := ((m.cores i).get base).toNat
    some (m.update i fun c =>
      (c.set d (UInt64.ofNat (m.load a 8))).set d' (UInt64.ofNat (m.load (a + 8) 8)), .next)
  | .stp s s' base =>
    let c := m.cores i
    let a := (c.get base).toNat
    some ((m.store a 8 (c.get s).toNat).store (a + 8) 8 (c.get s').toNat, .next)
  | .ldrb d base index =>
    let a := ((m.cores i).get base + (m.cores i).get index).toNat
    some (m.update i fun c => c.set d (UInt64.ofNat (m.load a 1)), .next)
  | .strb s base index =>
    let c := m.cores i
    some (m.store (c.get base + c.get index).toNat 1 (c.get s).toNat, .next)
  | .str s base off =>
    let c := m.cores i
    let a := c.get base + off
    if plat.gicdSgir = some a then
      some (m.send (sgirTargets (c.get s) i) (field (c.get s) 0 4), .next)
    else some (m.store a.toNat 8 (c.get s).toNat, .next)
  | .stlr s base =>
    let c := m.cores i
    some (m.store (c.get base).toNat 8 (c.get s).toNat, .next)
  | .ldaxr d base =>
    let a := ((m.cores i).get base).toNat
    some ((m.update i fun c => c.set d (UInt64.ofNat (m.load a 8))).watch i (some a), .next)
  | .stxr status s base =>
    let c := m.cores i
    let a := (c.get base).toNat
    if c.monitor = some a ∧ ¬ch.spurious then
      some (((m.store a 8 (c.get s).toNat).update i fun c => c.set status 0).watch i none, .next)
    else some ((m.update i fun c => c.set status 1).watch i none, .next)
  -- a core may wake up without a reason; `Asleep` says when it need not
  | .wfi => some (m, .next)
  | .wfe => some (m, .next)
  | .sev => some (m, .next)
  | .dmb => some (m, .next)
  | .smc => (m.smc plat i ch).map (·, .next)
  | .hlt => none
  | .bl => some (m, .out)
  | .ret => some (m, .out)

def Code.after (code : Code L) (pc : L × Nat) : Target L → Option (L × Nat)
  | .next =>
    if pc.2 + 1 < (code.block pc.1).length then some (pc.1, pc.2 + 1)
    else (code.next pc.1).map (·, 0)
  | .label l => some (l, 0)
  | .out => none

/-- Core `i` goes to `pc`, and what it has done is in the trace. -/
def Machine.advance (m : Machine L) (i : Nat) (pc : Option (L × Nat))
    (trace : List (Executed L)) : Machine L :=
  { m.update i fun c => { c with pc := pc } with trace := trace }

/-- Core `i` executes its next instruction. -/
def exec (plat : Platform L) (code : Code L) (i : Nat) (ch : Choice) (m : Machine L) :
    Option (Machine L) := do
  let pc ← (m.cores i).pc
  let ins ← (code.block pc.1)[pc.2]?
  let (m', target) ← ins.run plat i ch m
  some (m'.advance i (code.after pc target) (⟨i, pc, (m.cores i).regs⟩ :: m.trace))

section Fields

variable (c : Core L) (m : Machine L) (i : Nat) (f : Core L → Core L)

@[simp] theorem Core.get_x (n : Nat) : c.get (.x n) = c.regs (.x n) := rfl

@[simp] theorem Core.get_sp : c.get .sp = c.regs .sp := rfl

@[simp] theorem Core.get_zr : c.get .zr = 0 := rfl

@[simp] theorem Core.eval_reg (r : Reg) : c.eval (.reg r) = c.get r := rfl

@[simp] theorem Core.eval_imm (v : UInt64) : c.eval (.imm v) = v := rfl

@[simp] theorem Core.set_regs (r r' : Reg) (v : UInt64) :
    (c.set r v).regs r' = if r' = r then v else c.regs r' := Function.update_apply ..

@[simp] theorem Core.set_pc (r : Reg) (v : UInt64) : (c.set r v).pc = c.pc := rfl

@[simp] theorem Core.set_isOn (r : Reg) (v : UInt64) : (c.set r v).isOn = c.isOn := rfl

@[simp] theorem Core.set_compared (r : Reg) (v : UInt64) :
    (c.set r v).compared = c.compared := rfl

@[simp] theorem Core.set_monitor (r : Reg) (v : UInt64) : (c.set r v).monitor = c.monitor := rfl

@[simp] theorem Core.snoop_regs (a n : Nat) : (c.snoop a n).regs = c.regs := rfl

@[simp] theorem Core.snoop_pc (a n : Nat) : (c.snoop a n).pc = c.pc := rfl

@[simp] theorem Core.snoop_isOn (a n : Nat) : (c.snoop a n).isOn = c.isOn := rfl

@[simp] theorem Core.snoop_compared (a n : Nat) : (c.snoop a n).compared = c.compared := rfl

@[simp] theorem Machine.update_self : (m.update i f).cores i = f (m.cores i) :=
  Function.update_self ..

@[simp] theorem Machine.update_ne {j : Nat} (h : j ≠ i) : (m.update i f).cores j = m.cores j :=
  Function.update_of_ne h ..

@[simp] theorem Machine.update_mem : (m.update i f).mem = m.mem := rfl

@[simp] theorem Machine.update_pending : (m.update i f).pending = m.pending := rfl

@[simp] theorem Machine.update_active : (m.update i f).active = m.active := rfl

@[simp] theorem Machine.update_trace : (m.update i f).trace = m.trace := rfl

@[simp] theorem Machine.store_cores (a n v j : Nat) :
    (m.store a n v).cores j = (m.cores j).snoop a n := rfl

@[simp] theorem Machine.store_mem (a n v : Nat) :
    (m.store a n v).mem = m.mem.store ⟨(), a⟩ n v := rfl

@[simp] theorem Machine.store_pending (a n v : Nat) : (m.store a n v).pending = m.pending := rfl

@[simp] theorem Machine.store_active (a n v : Nat) : (m.store a n v).active = m.active := rfl

@[simp] theorem Machine.send_cores (targets : Nat → Bool) (id : Nat) :
    (m.send targets id).cores = m.cores := rfl

@[simp] theorem Machine.send_mem (targets : Nat → Bool) (id : Nat) :
    (m.send targets id).mem = m.mem := rfl

@[simp] theorem Machine.send_active (targets : Nat → Bool) (id : Nat) :
    (m.send targets id).active = m.active := rfl

@[simp] theorem Machine.send_trace (targets : Nat → Bool) (id : Nat) :
    (m.send targets id).trace = m.trace := rfl

theorem Machine.pending_send (targets : Nat → Bool) (id j : Nat) :
    m.pending j ⊆ (m.send targets id).pending j := by
  intro x hx
  simp only [send]
  split
  · exact List.mem_cons_of_mem _ hx
  · exact hx

theorem Machine.mem_pending_send {targets : Nat → Bool} {id j : Nat} (h : targets j) :
    id ∈ (m.send targets id).pending j := by
  by_cases hid : id ∈ m.pending j
  · simp [send, hid]
  · simp [send, hid, h]

section Advance

variable (pc : Option (L × Nat)) (trace : List (Executed L))

@[simp] theorem Machine.advance_self :
    (m.advance i pc trace).cores i = { m.cores i with pc := pc } := Function.update_self ..

@[simp] theorem Machine.advance_ne {j : Nat} (h : j ≠ i) :
    (m.advance i pc trace).cores j = m.cores j := Function.update_of_ne h ..

@[simp] theorem Machine.advance_mem : (m.advance i pc trace).mem = m.mem := rfl

@[simp] theorem Machine.advance_pending : (m.advance i pc trace).pending = m.pending := rfl

@[simp] theorem Machine.advance_active : (m.advance i pc trace).active = m.active := rfl

@[simp] theorem Machine.advance_trace : (m.advance i pc trace).trace = trace := rfl

end Advance

end Fields

/-- The core runs code that is not in the text. -/
def Core.Outside (c : Core L) : Prop := c.isOn ∧ c.pc = none

/-- What the code outside the text may do: where it enters the text, and which stores it makes. -/
structure Rely (L : Type) where
  enters : Nat → L → Core L → Prop
  stores : Nat → Nat → Nat → Prop

/-- One step of the machine: an instruction of the text, one thing that code outside it does, or
an interrupt. -/
inductive Step (plat : Platform L) (code : Code L) (rely : Rely L) : Machine L → Machine L → Prop
  | exec {m m' : Machine L} (i : Nat) (ch : Choice) (h : exec plat code i ch m = some m') :
    Step plat code rely m m'
  | enter {m : Machine L} (i : Nat) (l : L) (outside : (m.cores i).Outside)
    (ok : rely.enters i l (m.cores i)) :
    Step plat code rely m (m.update i fun c => { c with pc := some (l, 0) })
  | store {m : Machine L} (i a n v : Nat) (outside : (m.cores i).Outside)
    (ok : rely.stores i a n) : Step plat code rely m (m.store a n v)
  | compute {m : Machine L} (i : Nat) (regs : Reg → UInt64) (compared : UInt64 × UInt64)
    (monitor : Option Nat) (outside : (m.cores i).Outside) :
    Step plat code rely m (m.update i fun c => ⟨c.isOn, c.pc, regs, compared, monitor⟩)
  | serve {m : Machine L} (i : Nat) (pending active : List Nat) (outside : (m.cores i).Outside) :
    Step plat code rely m { m with
      pending := Function.update m.pending i pending
      active := Function.update m.active i active }
  | interrupt {m : Machine L} (i id : Nat) :
    Step plat code rely m (m.send (fun j => j = i) id)

def Reaches (plat : Platform L) (code : Code L) (rely : Rely L) : Machine L → Machine L → Prop :=
  Relation.ReflTransGen (Step plat code rely)

variable {plat : Platform L} {code : Code L} {rely : Rely L} {m m' : Machine L} {i j : Nat}

theorem Reaches.keeps {I : Machine L → Prop} (run : Reaches plat code rely m m') (start : I m)
    (step : ∀ m m', I m → Step plat code rely m m' → I m') : I m' := by
  induction run with
  | refl => exact start
  | tail _ last ih => exact step _ _ ih last

/-- Each instruction of a trace fits what came before it. -/
def History (P : Executed L → List (Executed L) → Prop) : List (Executed L) → Prop
  | [] => True
  | e :: earlier => P e earlier ∧ History P earlier

theorem History.split {P : Executed L → List (Executed L) → Prop}
    {later earlier : List (Executed L)} {e : Executed L}
    (h : History P (later ++ e :: earlier)) : P e earlier := by
  induction later with
  | nil => exact h.1
  | cons _ _ ih => exact ih h.2

/-- What executing an instruction consists of. -/
theorem exec_eq {ch : Choice} (h : exec plat code i ch m = some m') :
    ∃ pc ins m₁ target, (m.cores i).pc = some pc ∧ (code.block pc.1)[pc.2]? = some ins ∧
      ins.run plat i ch m = some (m₁, target) ∧
      m' = m₁.advance i (code.after pc target) (⟨i, pc, (m.cores i).regs⟩ :: m.trace) := by
  obtain ⟨pc, hpc, h⟩ := Option.bind_eq_some_iff.mp h
  obtain ⟨ins, hins, h⟩ := Option.bind_eq_some_iff.mp h
  obtain ⟨r, hr, h⟩ := Option.bind_eq_some_iff.mp h
  cases Option.some.inj h
  exact ⟨pc, ins, r.1, r.2, hpc, hins, hr, rfl⟩

/-- Core `i` executes one instruction for each choice. -/
def play (plat : Platform L) (code : Code L) (i : Nat) : List Choice → Machine L → Option (Machine L)
  | [], m => some m
  | ch :: rest, m => (exec plat code i ch m).bind (play plat code i rest)

theorem reaches_play {chs : List Choice} (h : play plat code i chs m = some m') :
    Reaches plat code rely m m' := by
  induction chs generalizing m with
  | nil =>
    cases h
    exact .refl
  | cons ch rest ih =>
    obtain ⟨m₁, h₁, h⟩ := Option.bind_eq_some_iff.mp h
    exact .head (.exec i ch h₁) (ih h)

/-- Where an instruction may jump. -/
def Instr.jumps : Instr L → List L
  | .b l => [l]
  | .bCond _ l => [l]
  | .cbz _ l => [l]
  | .cbnz _ l => [l]
  | _ => []

theorem Instr.run_jumps {ins : Instr L} {ch : Choice} {l : L}
    (h : ins.run plat i ch m = some (m', .label l)) : l ∈ ins.jumps := by
  unfold Instr.run at h
  split at h
  all_goals first
    | (cases h; done)
    | (cases h; exact List.mem_singleton_self _)
    | (simp only [Option.some.injEq, Prod.mk.injEq] at h
       obtain ⟨-, h⟩ := h
       split at h <;> cases h
       exact List.mem_singleton_self _)
    | (dsimp only at h
       split at h <;> cases h)
    | (obtain ⟨m₁, hm, h⟩ := Option.map_eq_some_iff.mp h
       cases h)

/-- Instructions that neither store nor start another core. -/
def Instr.isLocal : Instr L → Bool
  | .stp .. => false
  | .strb .. => false
  | .str .. => false
  | .stlr .. => false
  | .stxr .. => false
  | .smc => false
  | _ => true

theorem Machine.acknowledge_mem {d : Reg} {ch : Choice} (h : m.acknowledge i d ch = some m') :
    m'.mem = m.mem := by
  unfold Machine.acknowledge at h
  split at h
  next => cases Option.some.inj h; rfl
  next =>
    split at h
    next => cases Option.some.inj h; rfl
    next => cases h

theorem Machine.acknowledge_other {d : Reg} {ch : Choice} (h : m.acknowledge i d ch = some m')
    (hj : j ≠ i) : m'.cores j = m.cores j ∧ m'.pending j = m.pending j := by
  unfold Machine.acknowledge at h
  split at h
  next => cases Option.some.inj h; simp [hj]
  next =>
    split at h
    next => cases Option.some.inj h; simp [hj]
    next => cases h

theorem Machine.acknowledge_isOn {d : Reg} {ch : Choice} (h : m.acknowledge i d ch = some m') :
    (m'.cores i).isOn = (m.cores i).isOn := by
  unfold Machine.acknowledge at h
  split at h
  next => cases Option.some.inj h; simp
  next =>
    split at h
    next => cases Option.some.inj h; simp
    next => cases h

/-- A local instruction is invisible to the other cores, but for the interrupts it sends. -/
theorem Instr.run_local {ins : Instr L} {ch : Choice} {t : Target L}
    (h : ins.run plat i ch m = some (m', t)) (hl : ins.isLocal) (hj : j ≠ i) :
    m'.mem = m.mem ∧ m'.cores j = m.cores j ∧ m.pending j ⊆ m'.pending j := by
  unfold Instr.run at h
  split at h
  all_goals first
    | (cases hl; done)
    | (cases h; done)
    | (simp only [Option.some.injEq, Prod.mk.injEq] at h
       obtain ⟨rfl, -⟩ := h
       simp [hj, Machine.watch, Machine.pending_send])
    | skip
  next =>
    obtain ⟨m₁, hm, h⟩ := Option.map_eq_some_iff.mp h
    cases h
    obtain ⟨hcore, hpend⟩ := Machine.acknowledge_other hm hj
    exact ⟨Machine.acknowledge_mem hm, hcore, hpend ▸ List.Subset.refl _⟩
/-- Whatever a core does, the others stay where they are, unless it starts one. -/
theorem Instr.run_other {ins : Instr L} {ch : Choice} {t : Target L}
    (h : ins.run plat i ch m = some (m', t)) (hs : ins ≠ .smc) (hj : j ≠ i) :
    (m'.cores j).pc = (m.cores j).pc ∧ (m'.cores j).regs = (m.cores j).regs ∧
      (m'.cores j).compared = (m.cores j).compared ∧ (m'.cores j).isOn = (m.cores j).isOn := by
  unfold Instr.run at h
  split at h
  all_goals first
    | (cases h; done)
    | (simp only [Option.some.injEq, Prod.mk.injEq] at h
       obtain ⟨rfl, -⟩ := h
       simp [hj, Machine.watch])
    | exact absurd rfl hs
    | (dsimp only at h
       split at h <;>
        (simp only [Option.some.injEq, Prod.mk.injEq] at h
         obtain ⟨rfl, -⟩ := h
         simp [hj, Machine.watch]))
    | skip
  next =>
    obtain ⟨m₁, hm, h⟩ := Option.map_eq_some_iff.mp h
    cases h
    obtain ⟨hcore, _⟩ := Machine.acknowledge_other hm hj
    rw [hcore]
    exact ⟨rfl, rfl, rfl, rfl⟩

/-- What the secure monitor does to the other cores: it may have turned one of them on. -/
theorem Machine.smc_other {ch : Choice} (h : m.smc plat i ch = some m') (hj : j ≠ i) :
    m'.cores j = m.cores j ∨
      (¬(m.cores j).isOn ∧ affinity (plat.mpidr j) = (m.cores i).get (.x 1) ∧
        ∃ l, plat.entryAt ((m.cores i).get (.x 2)) = some l ∧ (m'.cores j).pc = some (l, 0) ∧
          (m'.cores j).isOn) := by
  simp only [Machine.smc] at h
  split at h
  next =>
    obtain ⟨l, hl, h⟩ := Option.bind_eq_some_iff.mp h
    split at h
    next hoff =>
      cases Option.some.inj h
      by_cases ht : j = ch.target
      · subst ht
        exact Or.inr ⟨by simpa using hoff.2.2, hoff.2.1, l, hl, by simp, by simp⟩
      · exact Or.inl (by simp [ht, hj])
    next => cases h
  next =>
    cases Option.some.inj h
    exact Or.inl (by simp [hj])

/-- The caller finds a result of its call, and where that is zero a core has been turned on. -/
theorem Machine.smc_self {ch : Choice} (h : m.smc plat i ch = some m') :
    (m'.cores i).regs .sp = (m.cores i).regs .sp ∧ (m'.cores i).isOn = (m.cores i).isOn ∧
      ((m.cores i).regs (.x 0) = psciCpuOn → (m'.cores i).regs (.x 0) = 0 →
        ∃ t, t ≠ i ∧ affinity (plat.mpidr t) = (m.cores i).regs (.x 1) ∧ (m'.cores t).isOn) := by
  simp only [Machine.smc] at h
  split at h
  next =>
    obtain ⟨l, hl, h⟩ := Option.bind_eq_some_iff.mp h
    split at h
    next hoff =>
      cases Option.some.inj h
      have hne : i ≠ ch.target := Ne.symm hoff.1
      refine ⟨by simp [hne], by simp [hne], fun _ _ => ⟨ch.target, hoff.1, hoff.2.1, by simp⟩⟩
    next => cases h
  next hnot =>
    cases Option.some.inj h
    refine ⟨by simp, by simp, ?_⟩
    intro hcall hzero
    exact absurd ⟨hcall, by simpa using hzero⟩ hnot

theorem Machine.smc_mem {ch : Choice} (h : m.smc plat i ch = some m') : m'.mem = m.mem := by
  simp only [Machine.smc] at h
  split at h
  next =>
    obtain ⟨l, hl, h⟩ := Option.bind_eq_some_iff.mp h
    split at h
    next => cases Option.some.inj h; rfl
    next => cases h
  next => cases Option.some.inj h; rfl

/-- No core is turned off. -/
theorem Instr.run_isOn {ins : Instr L} {ch : Choice} {t : Target L}
    (h : ins.run plat i ch m = some (m', t)) (hon : (m.cores j).isOn) : (m'.cores j).isOn := by
  by_cases hj : j = i
  · subst hj
    unfold Instr.run at h
    split at h
    all_goals first
      | (cases h; done)
      | (simp only [Option.some.injEq, Prod.mk.injEq] at h
         obtain ⟨rfl, -⟩ := h
         simpa [Machine.watch] using hon)
      | (dsimp only at h
         split at h <;>
          (simp only [Option.some.injEq, Prod.mk.injEq] at h
           obtain ⟨rfl, -⟩ := h
           simpa [Machine.watch] using hon))
      | skip
    next =>
      obtain ⟨m₁, hm, h⟩ := Option.map_eq_some_iff.mp h
      cases h
      rwa [Machine.acknowledge_isOn hm]
    next =>
      obtain ⟨m₁, hm, h⟩ := Option.map_eq_some_iff.mp h
      cases h
      rwa [(Machine.smc_self hm).2.1]
  · cases ins
    case smc =>
      obtain ⟨m₁, hm, h⟩ := Option.map_eq_some_iff.mp h
      cases h
      rcases Machine.smc_other hm hj with same | ⟨_, _, _, _, _, on⟩
      · rwa [same]
      · exact on
    all_goals rwa [(Instr.run_other h nofun hj).2.2.2]

end Aarch64
