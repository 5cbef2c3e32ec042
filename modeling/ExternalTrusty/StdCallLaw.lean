import ExternalTrusty.StdCallTrace

namespace ExternalTrusty.Dev

open CMemory CProgram

/-- What a standard call does: its exchanges with the secure OS one after the other, the lock
around them, and the interrupts during each. -/
structure StdCallLaw (smcnr : UInt32) (orig : SmcRegs) (t : List TrustyEvent) (ret : Int) :
    Prop where
  first : (exchanges t).head?.map Prod.fst = some orig
  fiq : ∀ pre x y post, exchanges t = pre ++ x :: y :: post →
    (y.1 = restartFiq ↔ x.2 = smErrFiqInterrupted)
  restart : ∀ pre x y post, exchanges t = pre ++ x :: y :: post →
    x.2 = smErrInterrupted ∨ x.2 = smErrCpuIdle → y.1 = restartLast
  restarted : ∀ pre y post, exchanges t = pre ++ y :: post → y.1 = restartLast →
    ∃ x ∈ pre, x.2 = smErrInterrupted ∨ x.2 = smErrCpuIdle
  busy : ∀ pre x y post, exchanges t = pre ++ x :: y :: post → x.2 = smErrBusy →
    recentCall (pre ++ [x]) = some y.1
  returned : (exchanges t).getLast?.map Prod.snd = some ret
  final : ¬GoesOn ret
  irqs : IrqLaw t
  locked : smcnr ≠ smcScNop → ∃ body, t = ⟨.lock, ()⟩ :: (body ++ [⟨.unlock, ()⟩]) ∧
    ∀ e ∈ body, e.1 ≠ .lock ∧ e.1 ≠ .unlock
  unlocked : smcnr = smcScNop → ∀ e ∈ t, e.1 ≠ .lock ∧ e.1 ≠ .unlock

theorem stdCallRegs_ne {smcnr nr : UInt32} (a0 a1 a2 : UInt32) (h : smcnr ≠ nr)
    (b0 b1 b2 : UInt64) :
    stdCallRegs smcnr a0 a1 a2 ≠ stdRegs nr.toUInt64 b0 b1 b2 := by
  intro heq
  have hr0 : smcnr.toUInt64 = nr.toUInt64 := congrArg SmcRegs.r0 heq
  exact h (UInt32.toUInt64_inj.mp hr0)

theorem recentCall_eq {calls : List Exchange} {c : SmcRegs} (h : recentCall calls = some c) :
    ∃ x ∈ calls, x.1 = c ∧ c ≠ restartFiq := by
  obtain ⟨x, hx, rfl⟩ := Option.map_eq_some_iff.mp h
  obtain ⟨hmem, hne⟩ := List.mem_filter.mp (List.mem_of_getLast? hx)
  exact ⟨x, hmem, rfl, of_decide_eq_true hne⟩

theorem nextCall_getLast {calls : List Exchange} {c : SmcRegs} (h : nextCall calls = some c) :
    ∃ x, calls.getLast? = some x ∧
      ((x.2 = smErrFiqInterrupted ∧ c = restartFiq) ∨
        ((x.2 = smErrInterrupted ∨ x.2 = smErrCpuIdle) ∧ c = restartLast) ∨
        (x.2 = smErrBusy ∧ recentCall calls = some c)) := by
  unfold nextCall at h
  cases hlast : calls.getLast? with
  | none => simp [hlast] at h
  | some x =>
    obtain ⟨args, r⟩ := x
    simp only [hlast] at h
    refine ⟨(args, r), rfl, ?_⟩
    split at h
    next hr => exact Or.inl ⟨hr, (Option.some.inj h).symm⟩
    next =>
      split at h
      next hr => exact Or.inr (Or.inl ⟨hr, (Option.some.inj h).symm⟩)
      next =>
        split at h
        next hr => exact Or.inr (Or.inr ⟨hr, h⟩)
        next => simp at h

section Protocol

variable {orig : SmcRegs} {calls : List Exchange}

theorem Protocol.head_eq (h : Protocol orig calls) : calls.head?.map Prod.fst = some orig := by
  induction h with
  | first r => rfl
  | @next calls c r before _ ih =>
    cases calls with
    | nil => exact absurd rfl before.ne_nil
    | cons x calls => exact ih

theorem Protocol.fiq (h : Protocol orig calls) {pre post : List Exchange} {x y : Exchange}
    (heq : calls = pre ++ x :: y :: post) : y.1 = restartFiq ↔ x.2 = smErrFiqInterrupted := by
  have hask := h.asked heq
  constructor
  · intro hy
    obtain ⟨x', hlast, hcase⟩ := nextCall_getLast hask
    rw [List.getLast?_concat] at hlast
    cases hlast
    rcases hcase with ⟨hr, _⟩ | ⟨_, hc⟩ | ⟨_, hrec⟩
    · exact hr
    · exact absurd (hc.symm.trans hy) restartLast_ne_restartFiq
    · obtain ⟨_, _, _, hne⟩ := recentCall_eq hrec
      exact absurd hy hne
  · intro hx
    obtain ⟨args, r⟩ := x
    rw [nextCall_concat, if_pos hx] at hask
    exact (Option.some.inj hask).symm

theorem Protocol.restart (h : Protocol orig calls) {pre post : List Exchange} {x y : Exchange}
    (heq : calls = pre ++ x :: y :: post) (hx : x.2 = smErrInterrupted ∨ x.2 = smErrCpuIdle) :
    y.1 = restartLast := by
  have hask := h.asked heq
  obtain ⟨args, r⟩ := x
  have hfiq : r ≠ smErrFiqInterrupted := by
    rcases hx with rfl | rfl
    · decide
    · decide
  rw [nextCall_concat, if_neg hfiq, if_pos hx] at hask
  exact (Option.some.inj hask).symm

theorem Protocol.busy (h : Protocol orig calls) {pre post : List Exchange} {x y : Exchange}
    (heq : calls = pre ++ x :: y :: post) (hx : x.2 = smErrBusy) :
    recentCall (pre ++ [x]) = some y.1 := by
  have hask := h.asked heq
  obtain ⟨args, r⟩ := x
  obtain rfl : r = smErrBusy := hx
  rwa [nextCall_concat, if_neg (by decide), if_neg (by decide), if_pos rfl] at hask

/-- A restart of the last call goes back to an interruption, perhaps past busy retries of it. -/
theorem Protocol.restarted (h : Protocol orig calls) (horig : orig ≠ restartLast)
    {pre post : List Exchange} {y : Exchange} (heq : calls = pre ++ y :: post)
    (hy : y.1 = restartLast) : ∃ x ∈ pre, x.2 = smErrInterrupted ∨ x.2 = smErrCpuIdle := by
  induction hn : pre.length using Nat.strongRecOn generalizing pre post y with
  | _ n ih =>
    rcases h.split pre y post heq with ⟨_, hfirst⟩ | ⟨_, hask⟩
    · exact absurd (hfirst.symm.trans hy) horig
    · obtain ⟨x, hlast, hcase⟩ := nextCall_getLast hask
      rcases hcase with ⟨_, hc⟩ | ⟨hr, _⟩ | ⟨_, hrec⟩
      · exact absurd (hy.symm.trans hc) restartLast_ne_restartFiq
      · exact ⟨x, List.mem_of_getLast? hlast, hr⟩
      · obtain ⟨z, hz, hzc, _⟩ := recentCall_eq hrec
        obtain ⟨before, after, hpre⟩ := List.append_of_mem hz
        have hshort : before.length < n := by
          rw [← hn, hpre, List.length_append, List.length_cons]
          omega
        have hsplit : calls = before ++ z :: (after ++ y :: post) := by
          rw [heq, hpre, List.append_assoc]
          rfl
        obtain ⟨w, hw, hr⟩ := ih before.length hshort hsplit (hzc.trans hy) rfl
        exact ⟨w, by rw [hpre]; exact List.mem_append_left _ hw, hr⟩

end Protocol

theorem onlyIf_true {c : Prop} [Decidable c] (hc : c) (p : Trusty Unit) : onlyIf c p = p :=
  if_pos hc

theorem onlyIf_false {c : Prop} [Decidable c] (hc : ¬c) (p : Trusty Unit) :
    onlyIf c p = .ret () := if_neg hc

/-- The runs of a standard call are those of its body, with the lock around them unless the call
is a NOP. -/
theorem trustyStdCall32_runs {smcnr a0 a1 a2 : UInt32} {t : List TrustyEvent} {ret : Int}
    (h : (trustyStdCall32 smcnr a0 a1 a2).Runs t ret) :
    (smcnr = smcScNop ∧ (stdCallBody smcnr a0 a1 a2).Runs t ret) ∨
      (smcnr ≠ smcScNop ∧ ∃ body, t = ⟨.lock, ()⟩ :: (body ++ [⟨.unlock, ()⟩]) ∧
        (stdCallBody smcnr a0 a1 a2).Runs body ret) := by
  rw [trustyStdCall32_eq] at h
  by_cases hnop : smcnr = smcScNop
  · left
    rw [onlyIf_false (not_not_intro hnop), onlyIf_false (not_not_intro hnop)] at h
    have hrest : ((stdCallBody smcnr a0 a1 a2).bind .ret).Runs t ret := h
    obtain ⟨t₁, a, t₂, rfl, hbody, rfl, rfl⟩ := Prog.runs_bind.mp hrest
    rw [List.append_nil]
    exact ⟨hnop, hbody⟩
  · right
    rw [onlyIf_true hnop, onlyIf_true hnop] at h
    obtain ⟨_, _, t', rfl, ⟨_, _, rfl, rfl, _⟩, hrest⟩ := Prog.runs_bind.mp h
    obtain ⟨body, a, t₂, rfl, hbody, hunlock⟩ := Prog.runs_bind.mp hrest
    obtain ⟨_, _, _, rfl, ⟨_, _, rfl, rfl, _⟩, rfl, rfl⟩ := Prog.runs_bind.mp hunlock
    exact ⟨hnop, body, rfl, hbody⟩

theorem irqLaw_of_no_calls {h : List TrustyEvent} (hcalls : exchanges h = []) : IrqLaw h := by
  intro pre e post heq he
  have hnone : exchangeOf e = none :=
    List.filterMap_eq_nil_iff.mp hcalls e (by rw [heq]; simp)
  rw [hnone] at he
  cases he

/-- Nothing goes wrong at any point of a standard call, and it ends with a final code. -/
theorem trustyStdCall32_triple {smcnr a0 a1 a2 : UInt32} {orig : SmcRegs}
    (hc : stdCallRegs smcnr a0 a1 a2 = orig) (hfiq : orig ≠ restartFiq) :
    Triple (Sound orig) (fun h => Due orig orig h ∧ burst h = 0) (trustyStdCall32 smcnr a0 a1 a2)
      fun ret h => (∃ c, Answered orig c ret h) ∧ ¬GoesOn ret := by
  rw [trustyStdCall32_eq]
  refine Triple.bind (fun _ h => Due orig orig h ∧ burst h = 0) ?_ fun _ =>
    Triple.bind _ (stdCallBody_triple hc hfiq) fun ret => Triple.bind (fun _ h =>
      (∃ c, Answered orig c ret h) ∧ ¬GoesOn ret) ?_ fun _ =>
        Triple.ret (fun h ha => ha.1.elim fun _ ha => ha.sound) fun _ h => h
  · refine Triple.onlyIf (fun h hd => hd.1.sound) (fun _ => ?_) fun _ h hd => hd
    refine Triple.call (fun h hd => hd.1.sound) (fun h _ hd => (hd.1.other rfl).sound) ?_
    intro h _ hd
    refine ⟨hd.1.other rfl, ?_⟩
    rw [← hd.2, burst, burst, List.foldl_append]
    rfl
  · refine Triple.onlyIf (fun h ha => ha.1.elim fun _ ha => ha.sound) (fun _ => ?_) fun _ h ha => ha
    refine Triple.call (fun h ha => ha.1.elim fun _ ha => ha.sound) ?_ ?_
    · rintro h _ ⟨⟨c, hans⟩, _⟩
      exact (hans.other rfl).sound
    · rintro h _ ⟨⟨c, hans⟩, hend⟩
      exact ⟨⟨c, hans.other rfl⟩, hend⟩

/-- The state a standard call is made in: nothing done yet. -/
theorem due_nil (orig : SmcRegs) : Due orig orig [] ∧ burst [] = 0 :=
  ⟨⟨Or.inl ⟨rfl, rfl⟩, irqLaw_of_no_calls rfl⟩, rfl⟩

/-- The law of standard calls: for every call but the restarts, whatever the secure OS answers. -/
theorem trustyStdCall32_law {smcnr a0 a1 a2 : UInt32} {t : List TrustyEvent} {ret : Int}
    (hlast : smcnr ≠ smcScRestartLast) (hfiq : smcnr ≠ smcScRestartFiq)
    (hrun : (trustyStdCall32 smcnr a0 a1 a2).Runs t ret) :
    StdCallLaw smcnr (stdCallRegs smcnr a0 a1 a2) t ret := by
  have horig : stdCallRegs smcnr a0 a1 a2 ≠ restartLast := stdCallRegs_ne a0 a1 a2 hlast 0 0 0
  have huses : ∀ {body}, (stdCallBody smcnr a0 a1 a2).Runs body ret →
      ∀ e ∈ body, e.1 ≠ .lock ∧ e.1 ≠ .unlock := fun hbody =>
    (stdCallBody_lockFree smcnr a0 a1 a2).starts hbody.starts
  have hlocks : (smcnr ≠ smcScNop → ∃ body, t = ⟨.lock, ()⟩ :: (body ++ [⟨.unlock, ()⟩]) ∧
        ∀ e ∈ body, e.1 ≠ .lock ∧ e.1 ≠ .unlock) ∧
      (smcnr = smcScNop → ∀ e ∈ t, e.1 ≠ .lock ∧ e.1 ≠ .unlock) := by
    rcases trustyStdCall32_runs hrun with ⟨hnop, hbody⟩ | ⟨hnop, body, rfl, hbody⟩
    · exact ⟨fun hno => absurd hnop hno, fun _ => huses hbody⟩
    · exact ⟨fun _ => ⟨body, rfl, huses hbody⟩, fun hyes => absurd hyes hnop⟩
  obtain ⟨⟨c, ha⟩, hend⟩ := (trustyStdCall32_triple rfl
    (stdCallRegs_ne a0 a1 a2 hfiq 0 0 0) [] (due_nil _)).2 t ret hrun
  obtain ⟨hlocked, hunlocked⟩ := hlocks
  exact {
    first := ha.protocol.head_eq
    fiq := fun _ _ _ _ => ha.protocol.fiq
    restart := fun _ _ _ _ => ha.protocol.restart
    restarted := fun _ _ _ => ha.protocol.restarted horig
    busy := fun _ _ _ _ => ha.protocol.busy
    returned := ha.code
    final := hend
    irqs := ha.irqs
    locked := hlocked
    unlocked := hunlocked }

/-- Surroundings that answer calls to the monitor with these registers in turn, and the platform
functions always the same way. -/
structure Platform where
  regs : List SmcRegs
  heap : Option Nat
  pages : Option Nat
  pageInfo : Int × NsMemPageInfo

def Platform.answer (p : Platform) : (o : TrustyOp) → TrustyRes o × Platform
  | .smc8 _ => (p.regs.headD ⟨0, 0, 0, 0, 0, 0, 0, 0⟩, { p with regs := p.regs.tail })
  | .calloc => (p.heap, p)
  | .allocPages _ => (p.pages, p)
  | .encodePageInfo _ => (p.pageInfo, p)
  | .irqDisable => ((), p)
  | .irqRestore => ((), p)
  | .lock => ((), p)
  | .unlock => ((), p)
  | .idle => ((), p)
  | .storeTx _ _ => ((), p)
  | .freePages _ _ => ((), p)
  | .free _ => ((), p)
  | .fatal => ((), p)

/-- A platform on which nothing fails, and the secure OS returns these codes. -/
def codePlatform (codes : List UInt64) : Platform :=
  ⟨codes.map fun code => ⟨code, 0, 0, 0, 0, 0, 0, 0⟩, some 0, some 4096, (0, ⟨4096, 4096, 0, 0⟩)⟩

/-- A command that is told to wait, is interrupted by an FIQ, then by an IRQ, and succeeds. -/
def interruptedTrace : List TrustyEvent :=
  [⟨.lock, ()⟩, ⟨.irqDisable, ()⟩,
    ⟨.smc8 (stdCallRegs smcScTrustyIpcHandleQlDevCmd 1 2 3), ⟨0xfffffffb, 0, 0, 0, 0, 0, 0, 0⟩⟩,
    ⟨.smc8 (stdCallRegs smcScTrustyIpcHandleQlDevCmd 1 2 3), ⟨0xfffffff4, 0, 0, 0, 0, 0, 0, 0⟩⟩,
    ⟨.smc8 restartFiq, ⟨0xfffffffd, 0, 0, 0, 0, 0, 0, 0⟩⟩, ⟨.irqRestore, ()⟩,
    ⟨.irqDisable, ()⟩, ⟨.smc8 restartLast, ⟨0, 0, 0, 0, 0, 0, 0, 0⟩⟩, ⟨.irqRestore, ()⟩,
    ⟨.unlock, ()⟩]

theorem interruptedTrace_runs :
    (trustyStdCall32 smcScTrustyIpcHandleQlDevCmd 1 2 3).Runs interruptedTrace 0 := by
  have exec : (trustyStdCall32 smcScTrustyIpcHandleQlDevCmd 1 2 3).exec Platform.answer 3
      (codePlatform [0xfffffffb, 0xfffffff4, 0xfffffffd, 0]) =
        some (interruptedTrace, 0, codePlatform []) := rfl
  exact Prog.exec_runs exec

theorem interruptedTrace_law :
    StdCallLaw smcScTrustyIpcHandleQlDevCmd (stdCallRegs smcScTrustyIpcHandleQlDevCmd 1 2 3)
      interruptedTrace 0 :=
  trustyStdCall32_law (by decide) (by decide) interruptedTrace_runs

end ExternalTrusty.Dev
