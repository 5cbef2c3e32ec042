import ExternalTrusty.StdCallLaw
import ExternalTrusty.Interleaving

namespace ExternalTrusty.Dev

open CMemory CProgram

/-- A standard call that a CPU may make: any but the restarts. -/
structure StdCallJob where
  smcnr : UInt32
  a0 : UInt32
  a1 : UInt32
  a2 : UInt32
  standard : ¬smcIsFastcall smcnr
  notLast : smcnr ≠ smcScRestartLast
  notFiq : smcnr ≠ smcScRestartFiq

def StdCallJob.run (j : StdCallJob) : Trusty Int := trustyStdCall32 j.smcnr j.a0 j.a1 j.a2

def StdCallJob.regs (j : StdCallJob) : SmcRegs := stdCallRegs j.smcnr j.a0 j.a1 j.a2

def IsNop (args : SmcRegs) : Prop := args.r0 = smcScNop.toUInt64

instance (args : SmcRegs) : Decidable (IsNop args) := inferInstanceAs (Decidable (_ = _))

/-- The codes that a NOP is answered with. -/
def NopCode (r : Int) : Prop :=
  r = smErrNopDone ∨ r = smErrNopInterrupted ∨ r = smErrBusy ∨ r = smErrFiqInterrupted

instance (r : Int) : Decidable (NopCode r) := inferInstanceAs (Decidable (_ ∨ _ ∨ _ ∨ _))

/-- A NOP, and a restart after an FIQ that follows it, come back with a NOP's codes. -/
def NopAnswered (j : StdCallJob) (e : TrustyEvent) : Prop :=
  j.smcnr = smcScNop → ∀ x, exchangeOf e = some x → IsNop x.1 ∨ x.1 = restartFiq → NopCode x.2

/-- The calls end with a NOP that an FIQ interrupted, and its restarts that FIQs interrupted. -/
def FiqOfNop (calls : List Exchange) : Prop :=
  ∃ before nop fiqs, calls = before ++ (nop, smErrFiqInterrupted) :: fiqs ∧ IsNop nop ∧
    ∀ x ∈ fiqs, x = (restartFiq, smErrFiqInterrupted)

theorem StdCallJob.regs_ne_fiq (j : StdCallJob) : j.regs ≠ restartFiq :=
  stdCallRegs_ne _ _ _ j.notFiq 0 0 0

theorem StdCallJob.regs_ne_last (j : StdCallJob) : j.regs ≠ restartLast :=
  stdCallRegs_ne _ _ _ j.notLast 0 0 0

theorem StdCallJob.isNop_iff (j : StdCallJob) : IsNop j.regs ↔ j.smcnr = smcScNop :=
  UInt32.toUInt64_inj

theorem FiqOfNop.of_nop {before : List Exchange} {nop : SmcRegs} (h : IsNop nop) :
    FiqOfNop (before ++ [(nop, smErrFiqInterrupted)]) := ⟨before, nop, [], rfl, h, nofun⟩

theorem FiqOfNop.of_restart {before : List Exchange} (h : FiqOfNop before) :
    FiqOfNop (before ++ [(restartFiq, smErrFiqInterrupted)]) := by
  obtain ⟨earlier, nop, fiqs, rfl, hnop, hfiqs⟩ := h
  refine ⟨earlier, nop, fiqs ++ [(restartFiq, smErrFiqInterrupted)], ?_, hnop, ?_⟩
  · rw [List.append_assoc]
    rfl
  · exact List.forall_mem_append.mpr ⟨hfiqs, List.forall_mem_singleton.mpr rfl⟩

/-- In a NOP's exchanges each call is the NOP, or a restart that an FIQ of it asks for. -/
theorem Protocol.nop {orig : SmcRegs} {calls : List Exchange} (h : Protocol orig calls)
    (horig : IsNop orig)
    (hcodes : ∀ x ∈ calls, IsNop x.1 ∨ x.1 = restartFiq → NopCode x.2) {pre post : List Exchange}
    {y : Exchange} (heq : calls = pre ++ y :: post) :
    y.1 = orig ∨ (y.1 = restartFiq ∧ FiqOfNop pre) := by
  induction hn : pre.length using Nat.strongRecOn generalizing pre post y with
  | _ n ih =>
    rcases h.split pre y post heq with ⟨_, hfirst⟩ | ⟨_, hask⟩
    · exact Or.inl hfirst
    have hearlier : ∀ a z b, pre = a ++ z :: b →
        z.1 = orig ∨ (z.1 = restartFiq ∧ FiqOfNop a) := by
      intro a z b hpre
      have hshort : a.length < n := by
        rw [← hn, hpre, List.length_append, List.length_cons]
        omega
      exact ih a.length hshort
        (by rw [heq, hpre, List.append_assoc]; rfl) rfl
    obtain ⟨x, hlast, hcase⟩ := nextCall_getLast hask
    obtain ⟨a, ha⟩ := List.getLast?_eq_some_iff.mp hlast
    have hx := hearlier a x [] ha
    rcases hcase with ⟨hr, hc⟩ | ⟨hr, _⟩ | ⟨_, hrec⟩
    · right
      refine ⟨hc, ?_⟩
      rw [ha]
      obtain ⟨args, r⟩ := x
      obtain rfl : r = smErrFiqInterrupted := hr
      rcases hx with hx | ⟨hx, hfiq⟩
      · obtain rfl : args = orig := hx
        exact FiqOfNop.of_nop horig
      · obtain rfl : args = restartFiq := hx
        exact hfiq.of_restart
    · -- a NOP is never answered by a code that asks for the last call's restart
      have hmem : x ∈ calls := by
        rw [heq, ha]
        simp
      have hcode : NopCode x.2 := by
        refine hcodes x hmem ?_
        rcases hx with hx | ⟨hx, _⟩
        · exact Or.inl (by rw [hx]; exact horig)
        · exact Or.inr hx
      rcases hr with hr | hr
      · rw [hr] at hcode
        exact absurd hcode (by decide)
      · rw [hr] at hcode
        exact absurd hcode (by decide)
    · obtain ⟨z, hz, hzc, hne⟩ := recentCall_eq hrec
      obtain ⟨b, c, hb⟩ := List.append_of_mem hz
      rcases hearlier b z c hb with hz | ⟨hz, _⟩
      · exact Or.inl (hzc.symm.trans hz)
      · exact absurd (hzc.symm.trans hz) hne

/-- The lock is taken by every standard call but a NOP, before anything else, and released at the
end. -/
theorem stdCall_disciplined :
    Disciplined TrustyOp.lock TrustyOp.unlock StdCallJob.run
      (fun j => j.smcnr ≠ smcScNop) := by
  have hfree : ∀ (j : StdCallJob) t, (stdCallBody j.smcnr j.a0 j.a1 j.a2).Starts t →
      LockFree TrustyOp.lock TrustyOp.unlock t :=
    fun j _ ht => (stdCallBody_lockFree j.smcnr j.a0 j.a1 j.a2).starts ht
  refine ⟨?_, ?_, ?_⟩
  · intro j hj t ht
    rw [StdCallJob.run, trustyStdCall32_eq, onlyIf_true hj, onlyIf_true hj] at ht
    rcases Prog.starts_bind ht with hlock | ⟨_, _, t', rfl, ⟨_, _, rfl, rfl, _⟩, hrest⟩
    · rcases hlock with rfl | ⟨_, _, rfl, rfl⟩
      · exact Or.inl rfl
      · exact Or.inr (Or.inl ⟨_, [], rfl, rfl, nofun⟩)
    · rcases Prog.starts_bind hrest with hbody | ⟨body, ret, t₂, rfl, hbody, hend⟩
      · exact Or.inr (Or.inl ⟨_, t', rfl, rfl, hfree j t' hbody⟩)
      · have hhold : Holding TrustyOp.lock TrustyOp.unlock
            ((⟨.lock, ()⟩ : TrustyEvent) :: body) := ⟨_, body, rfl, rfl, hfree j body hbody.starts⟩
        rcases Prog.starts_bind hend with hunlock | ⟨_, _, _, rfl, ⟨_, _, rfl, rfl, _⟩, rfl⟩
        · rcases hunlock with rfl | ⟨_, _, rfl, rfl⟩
          · rw [List.append_nil]
            exact Or.inr (Or.inl hhold)
          · exact Or.inr (Or.inr ⟨_, _, rfl, hhold, rfl⟩)
        · exact Or.inr (Or.inr ⟨_, _, rfl, hhold, rfl⟩)
  · intro j hj t ht
    rw [not_not] at hj
    rw [StdCallJob.run, trustyStdCall32_eq, onlyIf_false (not_not_intro hj),
      onlyIf_false (not_not_intro hj)] at ht
    have hrest : ((stdCallBody j.smcnr j.a0 j.a1 j.a2).bind .ret).Starts t := ht
    rcases Prog.starts_bind hrest with hbody | ⟨t₁, ret, _, rfl, hbody, rfl⟩
    · exact hfree j t hbody
    · rw [List.append_nil]
      exact hfree j t₁ hbody.starts
  · rintro j hj t ret ht ⟨e, rest, heq, _, hrest⟩
    rcases trustyStdCall32_runs ht with ⟨hnop, _⟩ | ⟨_, body, rfl, _⟩
    · exact hj hnop
    · obtain rfl := List.tail_eq_of_cons_eq heq
      exact (hrest ⟨.unlock, ()⟩ (by simp)).2 rfl

/-- The exchanges of a job keep to the protocol at any point of it. -/
theorem StdCallJob.protocol (j : StdCallJob) {t : List TrustyEvent} (h : j.run.Starts t) :
    exchanges t = [] ∨ Protocol j.regs (exchanges t) :=
  ((trustyStdCall32_triple rfl j.regs_ne_fiq [] (due_nil _)).1 t h).protocol

section Log

variable {ι : Type} [DecidableEq ι]

abbrev CpuEntry (ι : Type) := Entry TrustyOp TrustyRes ι StdCallJob

/-- The exchanges so far of the call that `z` belongs to. -/
def ownCalls (log : List (CpuEntry ι)) (z : CpuEntry ι) : List Exchange :=
  exchanges (localTrace log z.thread z.serial)

/-- A call that is neither a NOP nor a restart after an FIQ. -/
def IsPlain (args : SmcRegs) : Prop := ¬IsNop args ∧ args ≠ restartFiq

/-- What the lock is for: while a CPU is in a call, the others only get in NOPs and the restarts
of their own; so the last call that a restart could be of is the CPU's own. -/
structure CpuExclusion (log : List (CpuEntry ι)) : Prop where
  between : ∀ before x mid z mid' y after, log = before ++ x :: (mid ++ z :: (mid' ++ y :: after)) →
    x.thread = y.thread → x.serial = y.serial → x.job.smcnr ≠ smcScNop → z.thread ≠ x.thread →
    ∀ c, exchangeOf z.event = some c →
      IsNop c.1 ∨ (c.1 = restartFiq ∧ FiqOfNop (ownCalls (before ++ x :: mid) z))
  restarts : ∀ before z after c, log = before ++ z :: after → exchangeOf z.event = some c →
    c.1 = restartLast → ∃ earlier x later d, before = earlier ++ x :: later ∧
      x.thread = z.thread ∧ exchangeOf x.event = some d ∧ IsPlain d.1 ∧
      ∀ w ∈ later, ∀ d', exchangeOf w.event = some d' → ¬IsPlain d'.1

theorem localTrace_split (before : List (CpuEntry ι)) (z : CpuEntry ι) (after : List (CpuEntry ι)) :
    localTrace (before ++ z :: after) z.thread z.serial =
      localTrace before z.thread z.serial ++ z.event :: localTrace after z.thread z.serial := by
  unfold localTrace
  rw [List.filter_append, List.filter_cons_of_pos (by simp), List.map_append, List.map_cons]

/-- The exchange of an entry, among those of its call. -/
theorem ownCalls_split (before : List (CpuEntry ι)) {z : CpuEntry ι} (after : List (CpuEntry ι))
    {c : Exchange} (hc : exchangeOf z.event = some c) :
    ∃ rest, exchanges (localTrace (before ++ z :: after) z.thread z.serial) =
      ownCalls before z ++ c :: rest := by
  refine ⟨exchanges (localTrace after z.thread z.serial), ?_⟩
  rw [localTrace_split, exchanges_append]
  refine congrArg (_ ++ ·) ?_
  exact List.filterMap_cons_some hc

variable {s : System TrustyOp TrustyRes ι StdCallJob}

theorem callLog_protocol (h : LogInv StdCallJob.run NopAnswered s)
    {before after : List (CpuEntry ι)} {z : CpuEntry ι} {c : Exchange}
    (hlog : s.log = before ++ z :: after)
    (hc : exchangeOf z.event = some c) :
    ∃ rest, Protocol z.job.regs (ownCalls before z ++ c :: rest) ∧
      exchanges (localTrace s.log z.thread z.serial) = ownCalls before z ++ c :: rest := by
  have hz : z ∈ s.log := by
    rw [hlog]
    simp
  obtain ⟨rest, hsplit⟩ := ownCalls_split before after hc
  rw [← hlog] at hsplit
  refine ⟨rest, ?_, hsplit⟩
  rcases z.job.protocol (h.traces z hz) with hnil | hprot
  · rw [hsplit] at hnil
    simp at hnil
  · rwa [hsplit] at hprot

theorem callLog_nopCodes (h : LogInv StdCallJob.run NopAnswered s) {z : CpuEntry ι}
    (hz : z ∈ s.log) (hnop : z.job.smcnr = smcScNop) :
    ∀ x ∈ exchanges (localTrace s.log z.thread z.serial),
      IsNop x.1 ∨ x.1 = restartFiq → NopCode x.2 := by
  intro x hx
  obtain ⟨e, he, hex⟩ := List.mem_filterMap.mp hx
  obtain ⟨w, hw, rfl⟩ := List.mem_map.mp he
  obtain ⟨hlog, hsame⟩ := List.mem_filter.mp hw
  obtain ⟨hthread, hserial⟩ := of_decide_eq_true hsame
  have hjob := h.jobs w hlog z hz hthread hserial
  exact h.admitted w hlog (by rw [hjob]; exact hnop) x hex

/-- What a CPU does in a NOP. -/
theorem callLog_nop (h : LogInv StdCallJob.run NopAnswered s) {before after : List (CpuEntry ι)}
    {z : CpuEntry ι} {c : Exchange} (hlog : s.log = before ++ z :: after)
    (hc : exchangeOf z.event = some c) (hnop : z.job.smcnr = smcScNop) :
    IsNop c.1 ∨ (c.1 = restartFiq ∧ FiqOfNop (ownCalls before z)) := by
  have hz : z ∈ s.log := by
    rw [hlog]
    simp
  obtain ⟨rest, hprot, hsplit⟩ := callLog_protocol h hlog hc
  have hcodes := callLog_nopCodes h hz hnop
  rw [hsplit] at hcodes
  have horig := z.job.isNop_iff.mpr hnop
  rcases hprot.nop horig hcodes rfl with hfirst | hfiq
  · exact Or.inl (by rw [hfirst]; exact horig)
  · exact Or.inr hfiq

theorem not_isPlain {args : SmcRegs} {P : Prop} (h : IsNop args ∨ (args = restartFiq ∧ P)) :
    ¬IsPlain args := by
  intro hplain
  rcases h with hnop | ⟨hfiq, _⟩
  · exact hplain.1 hnop
  · exact hplain.2 hfiq

/-- An exclusive call that is restarted was made before, on the same CPU. -/
theorem callLog_first (h : LogInv StdCallJob.run NopAnswered s)
    {before after : List (CpuEntry ι)} {z : CpuEntry ι} {c : Exchange}
    (hlog : s.log = before ++ z :: after) (hc : exchangeOf z.event = some c)
    (hlast : c.1 = restartLast) (hnop : z.job.smcnr ≠ smcScNop) :
    ∃ x ∈ before, x.thread = z.thread ∧ x.serial = z.serial ∧
      ∃ d, exchangeOf x.event = some d ∧ IsPlain d.1 := by
  obtain ⟨rest, hprot, _⟩ := callLog_protocol h hlog hc
  have hhead := hprot.head_eq
  cases hown : ownCalls before z with
  | nil =>
    rw [hown] at hhead
    have hregs : c.1 = z.job.regs := Option.some.inj hhead
    exact absurd (hregs.symm.trans hlast) z.job.regs_ne_last
  | cons d ds =>
    rw [hown] at hhead
    have hregs : d.1 = z.job.regs := Option.some.inj hhead
    have hd : d ∈ ownCalls before z := by
      rw [hown]
      exact List.mem_cons_self
    obtain ⟨e, he, hex⟩ := List.mem_filterMap.mp hd
    obtain ⟨x, hx, rfl⟩ := List.mem_map.mp he
    obtain ⟨hmem, hsame⟩ := List.mem_filter.mp hx
    obtain ⟨hthread, hserial⟩ := of_decide_eq_true hsame
    refine ⟨x, hmem, hthread, hserial, d, hex, ?_⟩
    rw [hregs]
    exact ⟨fun hno => hnop (z.job.isNop_iff.mp hno), z.job.regs_ne_fiq⟩

/-- However CPUs interleave their calls, a call that takes the lock is not disturbed. -/
theorem cpuExclusion
    (h : System.Reachable TrustyOp.lock TrustyOp.unlock StdCallJob.run NopAnswered s) :
    CpuExclusion s.log := by
  obtain ⟨hlog, hlock⟩ := h.inv stdCall_disciplined (by decide)
  have hbetween : ∀ before x mid z mid' y after,
      s.log = before ++ x :: (mid ++ z :: (mid' ++ y :: after)) →
      x.thread = y.thread → x.serial = y.serial → x.job.smcnr ≠ smcScNop →
      z.thread ≠ x.thread → ∀ c, exchangeOf z.event = some c →
      IsNop c.1 ∨ (c.1 = restartFiq ∧ FiqOfNop (ownCalls (before ++ x :: mid) z)) := by
    intro before x mid z mid' y after heq hthread hserial hexcl hne c hc
    have hnop : ¬z.job.smcnr ≠ smcScNop := by
      refine hlock.apart before x (mid ++ z :: mid') y after ?_ hthread hserial hexcl z
        (by simp) hne
      rw [heq, List.append_assoc]
      rfl
    have hsplit : s.log = (before ++ x :: mid) ++ z :: (mid' ++ y :: after) := by
      rw [heq, List.append_assoc]
      rfl
    exact callLog_nop hlog hsplit hc (not_not.mp hnop)
  refine ⟨hbetween, ?_⟩
  intro before z after c heq hc hlast
  have hexcl : z.job.smcnr ≠ smcScNop := by
    intro hnop
    rcases callLog_nop hlog heq hc hnop with hno | ⟨hno, _⟩
    · rw [hlast] at hno
      exact absurd hno (by decide)
    · exact restartLast_ne_restartFiq (hlast.symm.trans hno)
  obtain ⟨x₀, hx₀, hthread, hserial, d₀, hd₀, hplain⟩ := callLog_first hlog heq hc hlast hexcl
  obtain ⟨earlier, tail, hbefore⟩ := List.append_of_mem hx₀
  -- the last plain call from there on; if it is another one, it comes between two of this CPU's
  obtain ⟨a, x, b, hsplit, ⟨d, hd, hxplain⟩, hafter⟩ := exists_last
    (P := fun w : CpuEntry ι => ∃ d, exchangeOf w.event = some d ∧ IsPlain d.1)
    (l := x₀ :: tail) ⟨x₀, List.mem_cons_self, d₀, hd₀, hplain⟩
  refine ⟨earlier ++ a, x, b, d, ?_, ?_, hd, hxplain, ?_⟩
  · rw [hbefore, hsplit, List.append_assoc]
  · cases a with
    | nil =>
      obtain rfl := List.head_eq_of_cons_eq hsplit
      exact hthread
    | cons a₀ a =>
      obtain rfl := List.head_eq_of_cons_eq hsplit
      have htail : tail = a ++ x :: b := List.tail_eq_of_cons_eq hsplit
      by_contra hne
      have hx₀job : x₀.job = z.job := hlog.jobs x₀ (by rw [heq]; simp [hx₀]) z
        (by rw [heq]; simp) hthread hserial
      have hquiet := hbetween earlier x₀ a x b z after
        (by rw [heq, hbefore, htail]; simp only [List.append_assoc, List.cons_append]) hthread
        hserial (by rw [hx₀job]; exact hexcl) (fun hno => hne (hno.trans hthread)) d hd
      exact not_isPlain hquiet hxplain
  · intro w hw d' hd' hno
    exact hafter w hw ⟨d', hd', hno⟩

end Log

/-- A command, and a NOP on another CPU. -/
def commandJob : StdCallJob :=
  ⟨smcScTrustyIpcHandleQlDevCmd, 1, 2, 3, by decide, by decide, by decide⟩

def nopJob : StdCallJob := ⟨smcScNop, 0, 0, 0, by decide, by decide, by decide⟩

def nopTrace : List TrustyEvent :=
  [⟨.irqDisable, ()⟩, ⟨.smc8 nopJob.regs, ⟨0xfffffff1, 0, 0, 0, 0, 0, 0, 0⟩⟩, ⟨.irqRestore, ()⟩]

theorem nopTrace_runs : nopJob.run.Runs nopTrace smErrNopDone := by
  have exec : nopJob.run.exec Platform.answer 2 (codePlatform [0xfffffff1]) =
      some (nopTrace, smErrNopDone, codePlatform []) := rfl
  exact Prog.exec_runs exec

/-- The NOP gets in between two calls of the command. -/
def twoCpuLog : List (CpuEntry Bool) :=
  [⟨false, 1, commandJob, ⟨.lock, ()⟩⟩, ⟨false, 1, commandJob, ⟨.irqDisable, ()⟩⟩,
    ⟨false, 1, commandJob, ⟨.smc8 commandJob.regs, ⟨0xfffffffb, 0, 0, 0, 0, 0, 0, 0⟩⟩⟩,
    ⟨true, 1, nopJob, ⟨.irqDisable, ()⟩⟩,
    ⟨true, 1, nopJob, ⟨.smc8 nopJob.regs, ⟨0xfffffff1, 0, 0, 0, 0, 0, 0, 0⟩⟩⟩,
    ⟨false, 1, commandJob, ⟨.smc8 commandJob.regs, ⟨0xfffffff4, 0, 0, 0, 0, 0, 0, 0⟩⟩⟩]

theorem twoCpuLog_reachable : ∃ s : System TrustyOp TrustyRes Bool StdCallJob,
    s.log = twoCpuLog ∧
      System.Reachable TrustyOp.lock TrustyOp.unlock StdCallJob.run NopAnswered s := by
  have hcommand : ∀ n, commandJob.run.Starts (interruptedTrace.take n) := fun n =>
    Prog.Starts.of_append
      (by rw [List.take_append_drop]; exact interruptedTrace_runs.starts)
  have hnop : ∀ n, nopJob.run.Starts (nopTrace.take n) := fun n =>
    Prog.Starts.of_append
      (by rw [List.take_append_drop]; exact nopTrace_runs.starts)
  have hfree : ∀ e : TrustyEvent, NopAnswered commandJob e := fun _ hno => absurd hno (by decide)
  have hidle : NopAnswered nopJob ⟨.irqDisable, ()⟩ := fun _ _ hnone => nomatch hnone
  have hdone : NopAnswered nopJob
      ⟨.smc8 nopJob.regs, ⟨0xfffffff1, 0, 0, 0, 0, 0, 0, 0⟩⟩ := by
    intro _ x hx _
    obtain rfl := Option.some.inj hx
    exact Or.inl (by decide)
  have start : ∀ {s : System TrustyOp TrustyRes Bool StdCallJob},
      System.Reachable TrustyOp.lock TrustyOp.unlock StdCallJob.run NopAnswered s →
      ∀ i j, (s.threads i).job = none →
        System.Reachable TrustyOp.lock TrustyOp.unlock StdCallJob.run NopAnswered
          { s with threads := Function.update s.threads i ⟨(s.threads i).serial + 1, some j⟩ } :=
    fun h i j idle => .step h (.start i j idle)
  have act := fun (s : System TrustyOp TrustyRes Bool StdCallJob)
    (h : System.Reachable TrustyOp.lock TrustyOp.unlock StdCallJob.run NopAnswered s) i j e busy
    next admitted free => System.Reachable.step h (.act i j e busy next admitted free)
  have h₀ : System.Reachable TrustyOp.lock TrustyOp.unlock StdCallJob.run NopAnswered
      (⟨fun _ => ⟨0, none⟩, none, []⟩ : System TrustyOp TrustyRes Bool StdCallJob) :=
    .init (fun _ => rfl) rfl rfl
  have h₁ := start h₀ false commandJob rfl
  have h₂ := act _ h₁ false commandJob ⟨.lock, ()⟩ rfl (hcommand 1) (hfree _) fun _ => rfl
  have h₃ := act _ h₂ false commandJob ⟨.irqDisable, ()⟩ rfl (hcommand 2) (hfree _) nofun
  have h₄ := act _ h₃ false commandJob
    ⟨.smc8 commandJob.regs, ⟨0xfffffffb, 0, 0, 0, 0, 0, 0, 0⟩⟩ rfl (hcommand 3) (hfree _) nofun
  have h₅ := start h₄ true nopJob rfl
  have h₆ := act _ h₅ true nopJob ⟨.irqDisable, ()⟩ rfl (hnop 1) hidle nofun
  have h₇ := act _ h₆ true nopJob ⟨.smc8 nopJob.regs, ⟨0xfffffff1, 0, 0, 0, 0, 0, 0, 0⟩⟩ rfl
    (hnop 2) hdone nofun
  have h₈ := act _ h₇ false commandJob
    ⟨.smc8 commandJob.regs, ⟨0xfffffff4, 0, 0, 0, 0, 0, 0, 0⟩⟩ rfl (hcommand 4) (hfree _) nofun
  exact ⟨_, rfl, h₈⟩

theorem twoCpuLog_exclusion : CpuExclusion twoCpuLog := by
  obtain ⟨s, hlog, hreach⟩ := twoCpuLog_reachable
  rw [← hlog]
  exact cpuExclusion hreach

end ExternalTrusty.Dev
