import ExternalTrusty.StdCall

namespace ExternalTrusty.Dev

open CMemory CProgram

section Triples

variable {safe pre : List TrustyEvent → Prop}

theorem smc_triple {r0 r1 r2 r3 : UInt64} {post : UInt64 → List TrustyEvent → Prop}
    (hsafe : ∀ h, pre h → safe h)
    (hnext : ∀ h ret, pre h → safe (h ++ [⟨.smc8 (stdRegs r0 r1 r2 r3), ret⟩]))
    (hpost : ∀ h (ret : SmcRegs), pre h →
      post ret.r0 (h ++ [⟨.smc8 (stdRegs r0 r1 r2 r3), ret⟩])) :
    Triple safe pre (smc r0 r1 r2 r3) post :=
  Triple.bind (fun ret h => post ret.r0 h ∧ safe h)
    (Triple.call hsafe hnext fun h ret hpre => ⟨hpost h ret hpre, hnext h ret hpre⟩)
    fun _ => Triple.ret (fun _ h => h.2) fun _ h => h.1

end Triples

variable {orig c : SmcRegs}

/-- The inner function makes its call up to six times, and comes back with what the secure OS
says to it in the end. -/
theorem trustyStdCallInner_triple {nr a0 a1 a2 : UInt64} (hc : stdRegs nr a0 a1 a2 = c)
    (hfiq : c ≠ restartFiq) :
    Triple (Sound orig) (fun h => Due orig c h ∧ irqMasked h = true ∧ burst h = 0)
      (trustyStdCallInner nr a0 a1 a2)
      fun ret h => Answered orig c (regInt ret) h ∧ regInt ret ≠ smErrFiqInterrupted := by
  have hbody : Triple (Sound orig) (fun h => Due orig c h ∧ irqMasked h = true ∧ burst h + 5 ≤ 5)
      (trustyStdCallInner nr a0 a1 a2)
      fun ret h => Answered orig c (regInt ret) h ∧ regInt ret ≠ smErrFiqInterrupted := by
    refine Triple.forever
      (fun retry h => Due orig c h ∧ irqMasked h = true ∧ burst h + retry ≤ 5) ?_
    intro retry
    refine Triple.bind (fun ret h => Answered orig c (regInt ret) h ∧
      irqMasked h = true ∧ burst h + retry ≤ 6) ?_ fun ret => Triple.bind (fun ret h =>
      (Answered orig c (regInt ret) h ∧ irqMasked h = true ∧ burst h + retry ≤ 6) ∧
        ¬regInt ret = smErrFiqInterrupted) ?_ fun ret => ?_
    · rw [← hc] at hfiq ⊢
      refine smc_triple (fun h hd => hd.1.sound) ?_ ?_
      · intro h ret hd
        exact (hd.1.made hfiq hd.2.1 hd.2.2 ret).1.sound
      · intro h ret hd
        exact hd.1.made hfiq hd.2.1 hd.2.2 ret
    · refine Triple.whileDo (fun ret h => Answered orig c (regInt ret) h ∧
        irqMasked h = true ∧ burst h + retry ≤ 6) (fun _ h ha => ha.1.sound) ?_
      intro ret hret
      refine smc_triple (fun h ha => ha.1.sound) ?_ ?_
      · intro h ret' ha
        rw [hret] at ha
        exact (ha.1.restarted ha.2.1 ha.2.2 ret').1.sound
      · intro h ret' ha
        rw [hret] at ha
        exact ha.1.restarted ha.2.1 ha.2.2 ret'
    · split
      next hend => exact Triple.ret (fun h ha => ha.1.1.sound) fun h ha => ⟨ha.1.1, ha.2⟩
      next hmore =>
        have hbusy : regInt ret = smErrBusy := by
          by_contra hno
          exact hmore (Or.inl hno)
        have hleft : retry ≠ 0 := fun hzero => hmore (Or.inr hzero)
        refine Triple.ret (fun h ha => ha.1.1.sound) fun h ha => ?_
        obtain ⟨⟨hans, hmask, hburst⟩, _⟩ := ha
        rw [hbusy] at hans
        exact ⟨hans.busy, hmask, by omega⟩
  exact hbody.conseq (fun h hd => ⟨hd.1, hd.2.1, by omega⟩) fun _ _ ha => ha

theorem irqMasked_disable (h : List TrustyEvent) : irqMasked (h ++ [⟨.irqDisable, ()⟩]) = true := by
  rw [irqMasked, List.foldl_append]
  rfl

theorem burst_disable (h : List TrustyEvent) : burst (h ++ [⟨.irqDisable, ()⟩]) = burst h := by
  rw [burst, List.foldl_append]
  rfl

theorem burst_restore (h : List TrustyEvent) : burst (h ++ [⟨.irqRestore, ()⟩]) = 0 := by
  rw [burst, List.foldl_append]
  rfl

theorem burst_idle (h : List TrustyEvent) : burst (h ++ [⟨.idle, ()⟩]) = burst h := by
  rw [burst, List.foldl_append]
  rfl

/-- The helper makes its call until it is not told that the secure OS is busy. -/
theorem trustyStdCallHelper_triple {nr a0 a1 a2 : UInt64} (hc : stdRegs nr a0 a1 a2 = c)
    (hfiq : c ≠ restartFiq) :
    Triple (Sound orig) (fun h => Due orig c h ∧ burst h = 0) (trustyStdCallHelper nr a0 a1 a2)
      fun ret h => (Answered orig c (regInt ret) h ∧ burst h = 0) ∧
        regInt ret ≠ smErrFiqInterrupted ∧ regInt ret ≠ smErrBusy := by
  refine Triple.forever (fun _ h => Due orig c h ∧ burst h = 0) ?_
  intro _
  refine Triple.bind (fun _ h => Due orig c h ∧ irqMasked h = true ∧ burst h = 0) ?_
    fun _ => Triple.bind _ (trustyStdCallInner_triple hc hfiq) fun ret =>
      Triple.bind (fun _ h => (Answered orig c (regInt ret) h ∧ burst h = 0) ∧
        regInt ret ≠ smErrFiqInterrupted) ?_ fun _ => ?_
  · refine Triple.call (fun h hd => hd.1.sound) ?_ ?_
    · intro h _ hd
      exact (hd.1.other rfl).sound
    · intro h _ hd
      exact ⟨hd.1.other rfl, irqMasked_disable h, (burst_disable h).trans hd.2⟩
  · refine Triple.call (fun h ha => ha.1.sound) ?_ ?_
    · intro h _ ha
      exact (ha.1.other rfl).sound
    · intro h _ ha
      exact ⟨⟨ha.1.other rfl, burst_restore h⟩, ha.2⟩
  · split
    next hend => exact Triple.ret (fun h ha => ha.1.1.sound) fun h ha => ⟨ha.1, ha.2, hend⟩
    next hbusy =>
      refine Triple.bind (fun _ h => Due orig c h ∧ burst h = 0) ?_ fun _ =>
        Triple.ret (fun h hd => hd.1.sound) fun h hd => hd
      refine Triple.call (fun h ha => ha.1.1.sound) ?_ ?_
      · intro h _ ha
        exact (ha.1.1.other rfl).sound
      · intro h _ ha
        rw [not_not] at hbusy
        rw [hbusy] at ha
        exact ⟨ha.1.1.busy.other rfl, (burst_idle h).trans ha.1.2⟩

theorem restartLast_ne_restartFiq : restartLast ≠ restartFiq := by decide

/-- The codes after which a standard call goes on. -/
def GoesOn (r : Int) : Prop :=
  r = smErrFiqInterrupted ∨ r = smErrBusy ∨ r = smErrInterrupted ∨ r = smErrCpuIdle

/-- The part of a standard call between taking and releasing the lock. -/
def stdCallBody (smcnr a0 a1 a2 : UInt32) : Trusty Int := do
  let ret ← trustyStdCallHelper smcnr.toUInt64 a0.toUInt64 a1.toUInt64 a2.toUInt64
  whileDo (fun ret => ret = smErrInterrupted ∨ ret = smErrCpuIdle) (fun ret => do
    onlyIf (ret = smErrCpuIdle) (call TrustyOp.idle)
    let ret ← trustyStdCallHelper smcScRestartLast.toUInt64 0 0 0
    return regInt ret) (regInt ret)

theorem trustyStdCall32_eq (smcnr a0 a1 a2 : UInt32) :
    trustyStdCall32 smcnr a0 a1 a2 =
      (onlyIf (smcnr ≠ smcScNop) (call TrustyOp.lock)).bind fun _ =>
        (stdCallBody smcnr a0 a1 a2).bind fun ret =>
          (onlyIf (smcnr ≠ smcScNop) (call TrustyOp.unlock)).bind fun _ => .ret ret := by
  refine congrArg (Prog.bind _) (funext fun _ => ?_)
  exact (Prog.bind_assoc _ _ _).symm

/-- The call as it is made. -/
def stdCallRegs (smcnr a0 a1 a2 : UInt32) : SmcRegs :=
  stdRegs smcnr.toUInt64 a0.toUInt64 a1.toUInt64 a2.toUInt64

theorem stdCallBody_triple {smcnr a0 a1 a2 : UInt32} (hc : stdCallRegs smcnr a0 a1 a2 = orig)
    (hfiq : orig ≠ restartFiq) :
    Triple (Sound orig) (fun h => Due orig orig h ∧ burst h = 0) (stdCallBody smcnr a0 a1 a2)
      fun ret h => (∃ c, Answered orig c ret h) ∧ ¬GoesOn ret := by
  refine Triple.bind _ (trustyStdCallHelper_triple hc hfiq) fun ret => ?_
  refine Triple.conseq (Triple.whileDo (fun ret h => ((∃ c, Answered orig c ret h) ∧ burst h = 0) ∧
      ret ≠ smErrFiqInterrupted ∧ ret ≠ smErrBusy)
    (fun ret h hr => hr.1.1.elim fun _ ha => ha.sound) ?_)
    (fun h ha => ⟨⟨⟨orig, ha.1.1⟩, ha.1.2⟩, ha.2⟩) ?_
  rotate_left
  · rintro r h ⟨⟨⟨hans, _⟩, hnot⟩, hend⟩
    refine ⟨hans, ?_⟩
    rintro (hr | hr | hr)
    · exact hnot.1 hr
    · exact hnot.2 hr
    · exact hend hr
  · intro r hr
    refine Triple.bind (fun _ h => Due orig restartLast h ∧ burst h = 0) ?_ fun _ =>
      Triple.bind _ (trustyStdCallHelper_triple rfl restartLast_ne_restartFiq) fun ret =>
        Triple.ret (fun h ha => ha.1.1.sound) fun h ha => ⟨⟨⟨_, ha.1.1⟩, ha.1.2⟩, ha.2⟩
    refine Triple.onlyIf (fun h ha => ha.1.1.elim fun _ ha => ha.sound) (fun _ => ?_) ?_
    · refine Triple.call (fun h ha => ha.1.1.elim fun _ ha => ha.sound) ?_ ?_
      · rintro h _ ⟨⟨⟨c, hans⟩, _⟩, _⟩
        exact (hans.other rfl).sound
      · rintro h _ ⟨⟨⟨c, hans⟩, hburst⟩, _⟩
        exact ⟨(hans.interrupted hr).other rfl, (burst_idle h).trans hburst⟩
    · rintro _ h ⟨⟨⟨c, hans⟩, hburst⟩, _⟩
      exact ⟨hans.interrupted hr, hburst⟩

/-- What runs between the lock and its release: the call, its restarts, and what goes with them. -/
theorem stdCallBody_uses {ok : TrustyOp → Prop} {smcnr a0 a1 a2 : UInt32}
    (hcall : ok (.smc8 (stdCallRegs smcnr a0 a1 a2))) (hfiq : ok (.smc8 restartFiq))
    (hlast : ok (.smc8 restartLast)) (hdisable : ok .irqDisable) (hrestore : ok .irqRestore)
    (hidle : ok .idle) : (stdCallBody smcnr a0 a1 a2).Uses ok := by
  have hsmc : ∀ {r0 r1 r2 r3}, ok (.smc8 (stdRegs r0 r1 r2 r3)) → (smc r0 r1 r2 r3).Uses ok :=
    fun hr => (Prog.Uses.call hr).bind fun _ => trivial
  have hinner : ∀ {nr a0 a1 a2}, ok (.smc8 (stdRegs nr a0 a1 a2)) →
      (trustyStdCallInner nr a0 a1 a2).Uses ok := by
    intro nr a0 a1 a2 hr
    refine Prog.Uses.forever fun retry => (hsmc hr).bind fun ret =>
      (Prog.Uses.whileDo fun _ => hsmc hfiq).bind fun ret => ?_
    split
    next => trivial
    next => trivial
  have hhelper : ∀ {nr a0 a1 a2}, ok (.smc8 (stdRegs nr a0 a1 a2)) →
      (trustyStdCallHelper nr a0 a1 a2).Uses ok := by
    intro nr a0 a1 a2 hr
    refine Prog.Uses.forever fun _ => (Prog.Uses.call hdisable).bind fun _ =>
      (hinner hr).bind fun ret => (Prog.Uses.call hrestore).bind fun _ => ?_
    split
    next => trivial
    next => exact (Prog.Uses.call hidle).bind fun _ => trivial
  refine (hhelper hcall).bind fun ret => Prog.Uses.whileDo fun ret => ?_
  exact (Prog.Uses.call hidle).onlyIf.bind fun _ => (hhelper hlast).bind fun _ => trivial

theorem stdCallBody_lockFree (smcnr a0 a1 a2 : UInt32) :
    (stdCallBody smcnr a0 a1 a2).Uses fun o => o ≠ .lock ∧ o ≠ .unlock :=
  stdCallBody_uses ⟨nofun, nofun⟩ ⟨nofun, nofun⟩ ⟨nofun, nofun⟩ ⟨nofun, nofun⟩ ⟨nofun, nofun⟩
    ⟨nofun, nofun⟩

theorem trustyStdCall32_uses {ok : TrustyOp → Prop} {smcnr a0 a1 a2 : UInt32} (hlock : ok .lock)
    (hunlock : ok .unlock) (hbody : (stdCallBody smcnr a0 a1 a2).Uses ok) :
    (trustyStdCall32 smcnr a0 a1 a2).Uses ok := by
  rw [trustyStdCall32_eq]
  exact (Prog.Uses.call hlock).onlyIf.bind fun _ => hbody.bind fun _ =>
    (Prog.Uses.call hunlock).onlyIf.bind fun _ => trivial

end ExternalTrusty.Dev
