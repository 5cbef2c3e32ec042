import ExternalTrusty.StdCallLaw

namespace ExternalTrusty.Dev

open CMemory CProgram

/-- What an issue came to in the end: its own code, or past FIQs that of its last restart. -/
def issueCode : Int → List Exchange → Option Int
  | r, [] => if r = smErrFiqInterrupted then none else some r
  | r, y :: rest =>
    if r = smErrFiqInterrupted then
      if y.1 = restartFiq then issueCode y.2 rest else none
    else some r

theorem issueCode_nil (r : Int) :
    issueCode r [] = if r = smErrFiqInterrupted then none else some r := rfl

theorem issueCode_cons (r : Int) (y : Exchange) (rest : List Exchange) :
    issueCode r (y :: rest) =
      if r = smErrFiqInterrupted then if y.1 = restartFiq then issueCode y.2 rest else none
      else some r := rfl

theorem issueCode_append {r v : Int} {calls : List Exchange} (h : issueCode r calls = some v)
    (rest : List Exchange) : issueCode r (calls ++ rest) = some v := by
  induction calls generalizing r with
  | nil =>
    rw [issueCode_nil] at h
    split at h
    next => cases h
    next hr =>
      cases rest with
      | nil => rw [List.nil_append, issueCode_nil, if_neg hr, h]
      | cons y rest => rw [List.nil_append, issueCode_cons, if_neg hr, h]
  | cons y calls ih =>
    rw [List.cons_append]
    rw [issueCode_cons] at h ⊢
    split at h
    next hr =>
      split at h
      next hy => rw [if_pos hr, if_pos hy, ih h]
      next => cases h
    next hr => rw [if_neg hr, h]

/-- An issue that hangs on an FIQ is settled by the restart that follows. -/
theorem issueCode_restart {orig : SmcRegs} {calls : List Exchange} (h : Protocol orig calls)
    {pre b : List Exchange} {x : Exchange} (hcalls : calls = pre ++ x :: b)
    (hopen : issueCode x.2 b = none) (r : Int) :
    issueCode x.2 (b ++ [(restartFiq, r)]) = issueCode r [] := by
  induction b generalizing pre x with
  | nil =>
    rw [issueCode_nil] at hopen
    split at hopen
    next hr => rw [List.nil_append, issueCode_cons, if_pos hr, if_pos rfl]
    next => cases hopen
  | cons y b ih =>
    rw [issueCode_cons] at hopen
    rw [List.cons_append, issueCode_cons]
    split at hopen
    next hr =>
      have hy : y.1 = restartFiq := (h.fiq hcalls).mpr hr
      rw [if_pos hy] at hopen
      rw [if_pos hr, if_pos hy]
      rw [List.append_cons] at hcalls
      exact ih hcalls hopen
    next => cases hopen

/-- As long as the last call is still the original one, all its issues so far have been told that
the secure OS is busy, but perhaps the latest. -/
theorem Protocol.issues {orig : SmcRegs} {calls : List Exchange} (h : Protocol orig calls)
    (hfiq : orig ≠ restartFiq) (hlast : orig ≠ restartLast)
    (hrecent : recentCall calls = some orig) {pre b : List Exchange} {x : Exchange}
    (hcalls : calls = pre ++ x :: b) (hx : x.1 = orig) :
    issueCode x.2 b = some smErrBusy ∨
      ∃ z, calls.getLast? = some z ∧ issueCode x.2 b = issueCode z.2 [] := by
  induction h generalizing pre b x with
  | first r =>
    have hsplit : [] ++ [(orig, r)] = pre ++ x :: b := hcalls
    rcases concat_eq_split.mp hsplit with ⟨rfl, _, rfl⟩ | ⟨b', _, hnil⟩
    · exact Or.inr ⟨_, rfl, rfl⟩
    · simp at hnil
  | @next calls c r before asked ih =>
    rw [List.getLast?_concat]
    rcases concat_eq_split.mp hcalls with ⟨rfl, _, rfl⟩ | ⟨b', rfl, hbefore⟩
    · exact Or.inr ⟨_, rfl, rfl⟩
    rw [recentCall_concat] at hrecent
    by_cases hc : c = restartFiq
    · rw [if_pos hc] at hrecent
      rcases ih hrecent hbefore hx with hbusy | ⟨z, hz, hcode⟩
      · exact Or.inl (issueCode_append hbusy _)
      · obtain ⟨z', hz', hcase⟩ := nextCall_getLast asked
        rw [hz] at hz'
        cases hz'
        -- the restart was asked for by an FIQ, so the issue is still open
        have hfiqcode : z.2 = smErrFiqInterrupted := by
          rcases hcase with ⟨hr, _⟩ | ⟨_, hno⟩ | ⟨_, hrec⟩
          · exact hr
          · exact absurd (hno.symm.trans hc) restartLast_ne_restartFiq
          · obtain ⟨_, _, _, hne⟩ := recentCall_eq hrec
            exact absurd hc hne
        have hopen : issueCode x.2 b' = none := by
          rw [hcode, hfiqcode]
          rfl
        rw [hc]
        exact Or.inr ⟨_, rfl, issueCode_restart before hbefore hopen r⟩
    · rw [if_neg hc] at hrecent
      cases hrecent
      -- the original call is only made again when the last code was busy
      obtain ⟨z, hz, hcase⟩ := nextCall_getLast asked
      obtain ⟨hbusy, hrec⟩ : z.2 = smErrBusy ∧ recentCall calls = some orig := by
        rcases hcase with ⟨_, hno⟩ | ⟨_, hno⟩ | hbusy
        · exact absurd hno hfiq
        · exact absurd hno hlast
        · exact hbusy
      left
      rcases ih hrec hbefore hx with hdone | ⟨z', hz', hcode⟩
      · exact issueCode_append hdone _
      · rw [hz] at hz'
        cases hz'
        refine issueCode_append ?_ _
        rw [hcode, hbusy]
        rfl

/-- Another issue of the original call only follows one whose answer, in view of what came after
it, is of this kind. -/
def IssuedAgainOnlyIf (answer : Exchange → List Exchange → Prop) (orig : SmcRegs)
    (calls : List Exchange) : Prop :=
  ∀ pre x mid y post, calls = pre ++ x :: (mid ++ y :: post) → x.1 = orig → y.1 = orig →
    answer x (mid ++ y :: post)

theorem Protocol.issuedAgain {orig : SmcRegs} {calls : List Exchange} (h : Protocol orig calls)
    (hfiq : orig ≠ restartFiq) (hlast : orig ≠ restartLast) :
    IssuedAgainOnlyIf (fun x rest => issueCode x.2 rest = some smErrBusy) orig calls := by
  intro pre x mid y post hcalls hx hy
  have hsplit : calls = (pre ++ x :: mid) ++ y :: post := by
    rw [hcalls, List.append_assoc]
    rfl
  rcases h.split _ y post hsplit with ⟨hnil, _⟩ | ⟨hbefore, hask⟩
  · simp at hnil
  · rw [hy] at hask
    obtain ⟨z, hz, hcase⟩ := nextCall_getLast hask
    rcases hcase with ⟨_, hno⟩ | ⟨_, hno⟩ | ⟨hbusy, hrec⟩
    · exact absurd hno hfiq
    · exact absurd hno hlast
    · refine issueCode_append ?_ _
      rcases hbefore.issues hfiq hlast hrec rfl hx with hdone | ⟨z', hz', hcode⟩
      · exact hdone
      · rw [hz] at hz'
        cases hz'
        rw [hcode, hbusy]
        rfl

/-- At any point of a standard call, each issue of it that another one followed had been told
that the secure OS is busy, at once or by the restarts after FIQs. -/
theorem trustyStdCall32_issues {smcnr a0 a1 a2 : UInt32} {t : List TrustyEvent}
    (hlast : smcnr ≠ smcScRestartLast) (hfiq : smcnr ≠ smcScRestartFiq)
    (hstart : (trustyStdCall32 smcnr a0 a1 a2).Starts t) :
    IssuedAgainOnlyIf (fun x rest => issueCode x.2 rest = some smErrBusy)
      (stdCallRegs smcnr a0 a1 a2) (exchanges t) := by
  have hne := stdCallRegs_ne a0 a1 a2 hfiq 0 0 0
  have hsound := (trustyStdCall32_triple rfl hne [] (due_nil _)).1 t hstart
  rcases hsound.protocol with hnil | hprot
  · intro pre x mid y post hcalls
    have hempty : exchanges t = [] := hnil
    rw [hempty] at hcalls
    simp at hcalls
  · exact hprot.issuedAgain hne (stdCallRegs_ne a0 a1 a2 hlast 0 0 0)

/-- A command that an FIQ interrupts; its restart is told to come back. -/
def fiqBusyTrace : List TrustyEvent :=
  [⟨.lock, ()⟩, ⟨.irqDisable, ()⟩,
    ⟨.smc8 (stdCallRegs smcScTrustyIpcHandleQlDevCmd 1 2 3), ⟨0xfffffff4, 0, 0, 0, 0, 0, 0, 0⟩⟩,
    ⟨.smc8 restartFiq, ⟨0xfffffffb, 0, 0, 0, 0, 0, 0, 0⟩⟩,
    ⟨.smc8 (stdCallRegs smcScTrustyIpcHandleQlDevCmd 1 2 3), ⟨0, 0, 0, 0, 0, 0, 0, 0⟩⟩,
    ⟨.irqRestore, ()⟩, ⟨.unlock, ()⟩]

theorem fiqBusyTrace_runs :
    (trustyStdCall32 smcScTrustyIpcHandleQlDevCmd 1 2 3).Runs fiqBusyTrace 0 := by
  have exec : (trustyStdCall32 smcScTrustyIpcHandleQlDevCmd 1 2 3).exec Platform.answer 3
      (codePlatform [0xfffffff4, 0xfffffffb, 0]) = some (fiqBusyTrace, 0, codePlatform []) := rfl
  exact Prog.exec_runs exec

/-- The command is issued again, though its first issue was answered by an FIQ. -/
theorem fiqBusyTrace_again :
    (trustyStdCall32 smcScTrustyIpcHandleQlDevCmd 1 2 3).Runs fiqBusyTrace 0 ∧
      ¬IssuedAgainOnlyIf (fun x _ => x.2 = smErrBusy)
        (stdCallRegs smcScTrustyIpcHandleQlDevCmd 1 2 3) (exchanges fiqBusyTrace) := by
  refine ⟨fiqBusyTrace_runs, fun h => ?_⟩
  have hfirst := h [] (stdCallRegs smcScTrustyIpcHandleQlDevCmd 1 2 3, smErrFiqInterrupted)
    [(restartFiq, smErrBusy)] (stdCallRegs smcScTrustyIpcHandleQlDevCmd 1 2 3, 0) [] rfl rfl rfl
  exact absurd hfirst (by decide)

theorem fiqBusyTrace_issues :
    IssuedAgainOnlyIf (fun x rest => issueCode x.2 rest = some smErrBusy)
      (stdCallRegs smcScTrustyIpcHandleQlDevCmd 1 2 3) (exchanges fiqBusyTrace) :=
  trustyStdCall32_issues (by decide) (by decide) fiqBusyTrace_runs.starts

end ExternalTrusty.Dev
