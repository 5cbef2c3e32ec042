import ExternalTrusty.IpcDevCreate

namespace ExternalTrusty.Dev

open CMemory CProgram

/-- The library's measure, for the ledger. -/
abbrev LedgerTracks {α : Type} (good : Ledger → Prop) (l : Ledger) (p : Trusty α)
    (post : α → Ledger → Prop) : Prop := Tracks Ledger.record good l p post

/-- The two registers that a reclaim passes an id in. -/
theorem namedId_reclaim (id : UInt64) :
    namedId ⟨smcFcFfaMemReclaim.toUInt64, id.toUInt32.toUInt64, id >>> 32, 0, 0, 0, 0, 0⟩ = id := by
  have hlt := id.toNat_lt
  have hmod : (32 : UInt64).toNat % 64 = 32 := by decide
  have hsum : id.toUInt32.toUInt64.toNat + 2 ^ 32 * (id >>> 32).toNat = id.toNat := by
    simp only [UInt32.toNat_toUInt64, UInt64.toNat_toUInt32, UInt64.toNat_shiftRight]
    rw [Nat.shiftRight_eq_div_pow, hmod]
    omega
  show UInt64.ofNat _ = id
  rw [hsum]
  exact UInt64.ofNat_toNat

section Calls

variable {good : Ledger → Prop} {l : Ledger}

theorem LedgerTracks.neutral {α : Type} {p : Trusty α} (hp : p.Uses Neutral) (hgood : good l) :
    LedgerTracks good l p fun _ l' => l' = l :=
  Tracks.uncounted hp (fun l _ he => Ledger.record_neutral l he) hgood

theorem LedgerTracks.bind_neutral {α β : Type} {p : Trusty α} {f : α → Trusty β}
    {post : β → Ledger → Prop} (hp : p.Uses Neutral) (hgood : good l)
    (hf : ∀ a, LedgerTracks good l (f a) post) : LedgerTracks good l (p.bind f) post := by
  refine Tracks.bind (LedgerTracks.neutral hp hgood) ?_
  rintro a _ rfl
  exact hf a

theorem writeShareDescriptor_neutral (tdev : TrustyDev) (pinfo : NsMemPageInfo)
    (pageCount : Nat) : (writeShareDescriptor tdev pinfo pageCount).Uses Neutral := by
  refine (writeShareDescriptor_uses tdev pinfo pageCount).mono ?_
  rintro _ ⟨off, bytes, rfl⟩
  trivial

theorem trustyDevInitIpc_neutral (bufId : UInt64) (bufSize : UInt32) :
    (trustyDevInitIpc bufId bufSize).Uses Neutral := by
  have hcalls : ∀ {nr a0 a1 a2 : UInt64}, nr ≠ smcFcFfaMemShare.toUInt64 →
      nr ≠ smcFcFfaMemReclaim.toUInt64 → Neutral (.smc8 (stdRegs nr a0 a1 a2)) :=
    fun hshare hreclaim => ⟨hshare, hreclaim⟩
  unfold trustyDevInitIpc trustyCall32MemBufId
  rw [if_neg (by decide)]
  exact trustyStdCall32_uses trivial trivial (stdCallBody_uses (hcalls (by decide) (by decide))
    (hcalls (by decide) (by decide)) (hcalls (by decide) (by decide)) trivial trivial trivial)

theorem Ledger.record_share (l : Ledger) {args : SmcRegs} (ret : SmcRegs)
    (h : args.r0 = smcFcFfaMemShare.toUInt64) :
    l.record ⟨.smc8 args, ret⟩ =
      if ret.r0.toUInt32 = smcFcFfaSuccess then { l with shared := l.shared ++ [ret.r2] }
      else l := by
  show l.smc args ret = _
  rw [Ledger.smc, if_pos h]

theorem Ledger.record_reclaim (l : Ledger) {args : SmcRegs} (ret : SmcRegs)
    (h : args.r0 = smcFcFfaMemReclaim.toUInt64) :
    l.record ⟨.smc8 args, ret⟩ =
      { l with
        reclaimed := l.reclaimed ++ [namedId args]
        unreclaimed := if ret.r0.toUInt32 = smcFcFfaSuccess then l.unreclaimed
          else l.unreclaimed ++ [namedId args] } := by
  have hne : smcFcFfaMemReclaim.toUInt64 ≠ smcFcFfaMemShare.toUInt64 := by decide
  show l.smc args ret = _
  rw [Ledger.smc, if_neg (h ▸ hne), if_pos h]

theorem Ledger.record_info (l : Ledger) (vaddr : Nat) (info : Int × NsMemPageInfo) :
    l.record ⟨.encodePageInfo vaddr, info⟩ =
      { l with infoFailed := l.infoFailed || info.1 ≠ 0 } := rfl

/-- Sharing memory counts when it succeeds by a call. -/
theorem trustyDevShareMemory_ledger (hcalm : ∀ l : Ledger, l.fatal = false → good l)
    (hl : l.fatal = false) (tdev : TrustyDev) (id₀ : UInt64) (pinfo : NsMemPageInfo)
    (pageCount : Nat) :
    LedgerTracks good l (trustyDevShareMemory tdev id₀ pinfo pageCount) fun x l' =>
      (x.1 ≠ 0 ∧ l' = l) ∨ (x.1 = 0 ∧ l' = { l with
        shared := l.shared ++ if tdev.ffaTx then [x.2] else [] }) := by
  unfold trustyDevShareMemory
  cases hdev : tdev.ffaTx with
  | false =>
    rw [if_pos Bool.false_ne_true]
    refine Tracks.ret (hcalm l hl) (Or.inr ⟨rfl, ?_⟩)
    rw [if_neg Bool.false_ne_true, List.append_nil]
  | true =>
    rw [if_neg (not_not_intro rfl)]
    refine LedgerTracks.bind_neutral (writeShareDescriptor_neutral tdev pinfo pageCount)
      (hcalm l hl) fun _ => ?_
    have hcall : ∀ ret, good (l.record ⟨.smc8 ⟨smcFcFfaMemShare.toUInt64, UInt64.ofNat txSize,
        UInt64.ofNat txSize, 0, 0, 0, 0, 0⟩, ret⟩) := by
      intro ret
      rw [Ledger.record_share l ret rfl]
      split
      next => exact hcalm _ hl
      next => exact hcalm _ hl
    refine Tracks.bind (Tracks.call (hcalm l hl) hcall) ?_
    rintro ret _ rfl
    have hrecord := @Ledger.record_share l ⟨smcFcFfaMemShare.toUInt64,
      UInt64.ofNat txSize, UInt64.ofNat txSize, 0, 0, 0, 0, 0⟩ ret rfl
    split
    next hfail =>
      refine Tracks.ret (hcall ret) (Or.inl ⟨nofun, ?_⟩)
      rw [hrecord, if_neg hfail]
    next hok =>
      refine Tracks.ret (hcall ret) (Or.inr ⟨rfl, ?_⟩)
      rw [hrecord, if_pos (not_not.mp hok), if_pos rfl]

/-- Asking for memory back counts in any case. -/
theorem trustyDevReclaimMemory_ledger (hcalm : ∀ l : Ledger, l.fatal = false → good l)
    (hl : l.fatal = false) (tdev : TrustyDev) (id : UInt64) :
    LedgerTracks good l (trustyDevReclaimMemory tdev id) fun rc l' =>
      (rc = 0 ∧ l' = { l with reclaimed := l.reclaimed ++ if tdev.ffaTx then [id] else [] }) ∨
        (rc ≠ 0 ∧ tdev.ffaTx = true ∧ l' = { l with
          reclaimed := l.reclaimed ++ [id], unreclaimed := l.unreclaimed ++ [id] }) := by
  unfold trustyDevReclaimMemory
  cases hdev : tdev.ffaTx with
  | false =>
    rw [if_pos Bool.false_ne_true]
    refine Tracks.ret (hcalm l hl) (Or.inl ⟨rfl, ?_⟩)
    rw [if_neg Bool.false_ne_true, List.append_nil]
  | true =>
    rw [if_neg (not_not_intro rfl)]
    have hrecord := fun ret => @Ledger.record_reclaim l ⟨smcFcFfaMemReclaim.toUInt64,
      id.toUInt32.toUInt64, id >>> 32, 0, 0, 0, 0, 0⟩ ret rfl
    have hnamed : namedId ⟨smcFcFfaMemReclaim.toUInt64, id.toUInt32.toUInt64, id >>> 32,
        0, 0, 0, 0, 0⟩ = id := namedId_reclaim id
    rw [hnamed] at hrecord
    have hcall : ∀ ret, good (l.record ⟨.smc8 ⟨smcFcFfaMemReclaim.toUInt64,
        id.toUInt32.toUInt64, id >>> 32, 0, 0, 0, 0, 0⟩, ret⟩) := by
      intro ret
      rw [hrecord ret]
      exact hcalm _ hl
    refine Tracks.bind (Tracks.call (hcalm l hl) hcall) ?_
    rintro ret _ rfl
    rw [if_pos rfl]
    split
    next hfail =>
      refine Tracks.ret (hcall ret) (Or.inr ⟨nofun, rfl, ?_⟩)
      rw [hrecord ret, if_neg hfail]
    next hok =>
      refine Tracks.ret (hcall ret) (Or.inl ⟨rfl, ?_⟩)
      rw [hrecord ret, if_pos (not_not.mp hok)]

theorem errAllocPages_ledger (hcalm : ∀ l : Ledger, l.fatal = false → good l)
    (hl : l.fatal = false) (context : Nat) (rc : Int) (idev : Option TrustyIpcDev) :
    LedgerTracks good l (errAllocPages context rc idev) fun x l' =>
      x = (rc, idev) ∧ l' = { l with freed := l.freed ++ [context] } := by
  refine Tracks.bind (Tracks.call (hcalm l hl) fun _ => hcalm _ hl) ?_
  rintro _ _ rfl
  exact Tracks.ret (hcalm _ hl) ⟨rfl, rfl⟩

theorem errShareMemory_ledger (hcalm : ∀ l : Ledger, l.fatal = false → good l)
    (hl : l.fatal = false) (context vaddr size : Nat) (rc : Int) (idev : Option TrustyIpcDev) :
    LedgerTracks good l (errShareMemory context vaddr size rc idev) fun x l' =>
      x = (rc, idev) ∧ l' = { l with
        freedPages := l.freedPages ++ [(vaddr, bufPages size)]
        freed := l.freed ++ [context] } := by
  refine Tracks.bind (Tracks.call (hcalm l hl) fun _ => hcalm _ hl) ?_
  intro _ l₁ h₁
  subst h₁
  refine errAllocPages_ledger hcalm ?_ context rc idev
  exact hl

end Calls

/-- Giving up is only for memory that was never shared, when its attributes were not found. -/
def CreateGood (tdev : TrustyDev) (l : Ledger) : Prop :=
  l.fatal = true → ReclaimsSucceed l → tdev.ffaTx = true ∧ l.infoFailed = true

theorem createGood_calm (tdev : TrustyDev) (l : Ledger) (h : l.fatal = false) :
    CreateGood tdev l := by
  intro hfatal
  rw [h] at hfatal
  cases hfatal

theorem errCreateSecDev_ledger {tdev : TrustyDev} {l : Ledger} {bufId : UInt64}
    (hl : l.fatal = false)
    (hshared : tdev.ffaTx = true → bufId ∉ l.shared → l.infoFailed = true)
    (context vaddr size : Nat) (rc : Int) (idev : Option TrustyIpcDev) :
    LedgerTracks (CreateGood tdev) l (errCreateSecDev tdev context vaddr size bufId rc idev)
      fun x l' => x = (rc, idev) ∧ l' = { l with
        reclaimed := l.reclaimed ++ if tdev.ffaTx then [bufId] else []
        freedPages := l.freedPages ++ [(vaddr, bufPages size)]
        freed := l.freed ++ [context] } := by
  refine Tracks.bind (trustyDevReclaimMemory_ledger (createGood_calm tdev) hl tdev bufId) ?_
  intro rc2 l₁ h₁
  rcases h₁ with ⟨hok, hl₁⟩ | ⟨hfail, hffa, hl₁⟩
  · rw [if_neg (not_not_intro hok), hl₁]
    refine errShareMemory_ledger (createGood_calm tdev) ?_ context vaddr size rc idev
    exact hl
  · rw [if_pos hfail, hl₁]
    apply Tracks.fatal
    · exact createGood_calm tdev _ hl
    · intro _ hsucceed
      refine ⟨hffa, hshared hffa ?_⟩
      exact hsucceed bufId (List.mem_append_right _ List.mem_cons_self)

/-- What a call that returned has left behind. -/
structure CreateOutcome (tdev : TrustyDev) (idev : Option TrustyIpcDev) (l : Ledger) (rc : Int)
    (idev' : Option TrustyIpcDev) : Prop where
  returned : l.fatal = false
  sign : rc < 0 ∨ rc = trustyErrNone
  failed : rc < 0 → idev' = idev ∧ l.freed = l.contexts ∧ l.freedPages = l.pages ∧
    l.reclaimed = if l.infoFailed && tdev.ffaTx then [0] else l.shared
  done : rc = trustyErrNone → l.freed = [] ∧ l.freedPages = [] ∧ l.reclaimed = [] ∧
    l.infoFailed = false
  unshared : l.infoFailed = true → l.shared = []

theorem CreateOutcome.of_failure {tdev : TrustyDev} {idev : Option TrustyIpcDev} {l : Ledger}
    {rc : Int} (negative : rc < 0) (returned : l.fatal = false) (freed : l.freed = l.contexts)
    (freedPages : l.freedPages = l.pages)
    (reclaimed : l.reclaimed = if l.infoFailed && tdev.ffaTx then [0] else l.shared)
    (unshared : l.infoFailed = true → l.shared = []) : CreateOutcome tdev idev l rc idev := by
  refine ⟨returned, Or.inl negative, fun _ => ⟨rfl, freed, freedPages, reclaimed⟩, ?_, unshared⟩
  intro none
  rw [none] at negative
  cases negative

/-- From where the attributes are known on. -/
theorem shareAndInit_ledger (tdev : TrustyDev) (idev : Option TrustyIpcDev)
    (context vaddr size : Nat) (pinfo : NsMemPageInfo) {l : Ledger} (hl : l = { Ledger.empty with
      contexts := [context], pages := [(vaddr, bufPages size)] }) :
    LedgerTracks (CreateGood tdev) l (do
      let shared ← trustyDevShareMemory tdev 0 pinfo (size / pageSize)
      if shared.1 ≠ 0 then errShareMemory context vaddr size trustyErrSecosErr idev
      else
        let rc ← trustyDevInitIpc shared.2 (UInt32.ofNat size)
        if rc ≠ 0 then errCreateSecDev tdev context vaddr size shared.2 trustyErrSecosErr idev
        else return (trustyErrNone, some ⟨context, vaddr, size, shared.2, pinfo⟩))
      fun x l' => CreateOutcome tdev idev l' x.1 x.2 := by
  have calm := createGood_calm tdev
  subst hl
  refine Tracks.bind (trustyDevShareMemory_ledger calm rfl tdev 0 pinfo (size / pageSize)) ?_
  intro shared l₁ h₁
  rcases h₁ with ⟨hfail, hl₁⟩ | ⟨hok, hl₁⟩
  · rw [if_pos hfail, hl₁]
    refine (errShareMemory_ledger calm rfl context vaddr size trustyErrSecosErr idev).conseq ?_
    rintro x l' ⟨rfl, rfl⟩
    exact .of_failure (show trustyErrSecosErr < 0 by decide) rfl rfl rfl rfl nofun
  · rw [if_neg (not_not_intro hok), hl₁]
    refine LedgerTracks.bind_neutral (trustyDevInitIpc_neutral _ _) (calm _ rfl) ?_
    intro rc
    by_cases hrc : rc = 0
    · rw [if_neg (not_not_intro hrc)]
      exact Tracks.ret (calm _ rfl)
        ⟨rfl, Or.inr rfl, nofun, fun _ => ⟨rfl, rfl, rfl, rfl⟩, nofun⟩
    · rw [if_pos hrc]
      refine (errCreateSecDev_ledger rfl ?_ context vaddr size trustyErrSecosErr idev).conseq ?_
      · intro hffa hnot
        rw [if_pos hffa] at hnot
        exact absurd List.mem_cons_self hnot
      · rintro x l' ⟨rfl, rfl⟩
        exact .of_failure (show trustyErrSecosErr < 0 by decide) rfl rfl rfl rfl nofun

theorem trustyIpcDevCreate_ledger (tdev : TrustyDev) (idev : Option TrustyIpcDev) (size : Nat) :
    LedgerTracks (CreateGood tdev) .empty (trustyIpcDevCreate tdev idev size) fun x l =>
      CreateOutcome tdev idev l x.1 x.2 := by
  have calm := createGood_calm tdev
  refine Tracks.bind (Tracks.call (calm _ rfl) fun dev => ?_) ?_
  · cases dev with
    | none => exact calm _ rfl
    | some context => exact calm _ rfl
  intro dev l₁ h₁
  subst h₁
  cases dev with
  | none =>
    exact Tracks.ret (calm _ rfl)
      (.of_failure (show trustyErrNoMemory < 0 by decide) rfl rfl rfl rfl nofun)
  | some context =>
    refine Tracks.bind (Tracks.call (calm _ rfl) fun buf => ?_) ?_
    · cases buf with
      | none => exact calm _ rfl
      | some vaddr => exact calm _ rfl
    intro buf l₂ h₂
    subst h₂
    cases buf with
    | none =>
      refine (errAllocPages_ledger calm rfl context trustyErrNoMemory idev).conseq ?_
      rintro x l' ⟨rfl, rfl⟩
      exact .of_failure (show trustyErrNoMemory < 0 by decide) rfl rfl rfl rfl nofun
    | some vaddr =>
      refine Tracks.bind (Tracks.call (calm _ rfl) fun info => calm _ rfl) ?_
      intro info l₃ h₃
      by_cases hinfo : info.1 = 0
      · rw [if_neg (not_not_intro hinfo)]
        refine shareAndInit_ledger tdev idev context vaddr size info.2 ?_
        rw [h₃, Ledger.record_info, hinfo]
        rfl
      · rw [if_pos hinfo]
        have hfailed : l₃ = { Ledger.empty with
            contexts := [context], pages := [(vaddr, bufPages size)], infoFailed := true } := by
          rw [h₃, Ledger.record_info, decide_eq_true hinfo, Bool.or_true]
          rfl
        subst hfailed
        refine (errCreateSecDev_ledger rfl (fun _ _ => rfl) context vaddr size trustyErrGeneric
          idev).conseq ?_
        rintro x l' ⟨rfl, rfl⟩
        refine .of_failure (show trustyErrGeneric < 0 by decide) rfl rfl rfl ?_ fun _ => rfl
        cases tdev.ffaTx with
        | false => rfl
        | true => rfl

/-- A run that has come to its end: it has returned, or has given up. -/
def Ended {α : Type} (p : Trusty α) (t : List TrustyEvent) : Prop :=
  (∃ a, p.Runs t a) ∨ (p.Starts t ∧ (ledger t).fatal = true)

/-- The call does not give up, undoes what it did if it fails, and has undone nothing if it
succeeds. -/
structure CreateUndoes (tdev : TrustyDev) (idev : Option TrustyIpcDev) (size : Nat)
    (t : List TrustyEvent) : Prop where
  returns : (ledger t).fatal = false
  failed : ∀ rc idev', (trustyIpcDevCreate tdev idev size).Runs t (rc, idev') → rc < 0 →
    idev' = idev ∧ (ledger t).freed = (ledger t).contexts ∧
      (ledger t).freedPages = (ledger t).pages ∧ (ledger t).reclaimed = (ledger t).shared
  done : ∀ idev', (trustyIpcDevCreate tdev idev size).Runs t (trustyErrNone, idev') →
    (ledger t).freed = [] ∧ (ledger t).freedPages = [] ∧ (ledger t).reclaimed = []

/-- What goes wrong is the reclaim after the attributes were not found: nothing was shared yet. -/
theorem createUndoes_iff {tdev : TrustyDev} {idev : Option TrustyIpcDev} {size : Nat}
    {t : List TrustyEvent} (ended : Ended (trustyIpcDevCreate tdev idev size) t)
    (succeed : ReclaimsSucceed (ledger t)) :
    CreateUndoes tdev idev size t ↔ ¬(tdev.ffaTx = true ∧ (ledger t).infoFailed = true) := by
  obtain ⟨begins, returned⟩ := trustyIpcDevCreate_ledger tdev idev size
  apply Iff.intro
  · rintro undoes ⟨hffa, hinfo⟩
    rcases ended with ⟨⟨rc, idev'⟩, hrun⟩ | ⟨_, hfatal⟩
    · have outcome : CreateOutcome tdev idev (ledger t) rc idev' := returned t _ hrun
      have negative : rc < 0 := by
        rcases outcome.sign with neg | none
        · exact neg
        · have known := (outcome.done none).2.2.2
          rw [hinfo] at known
          cases known
      have reclaimed := (outcome.failed negative).2.2.2
      rw [(undoes.failed rc idev' hrun negative).2.2.2, outcome.unshared hinfo, hinfo, hffa]
        at reclaimed
      cases reclaimed
    · rw [undoes.returns] at hfatal
      cases hfatal
  · intro fine
    have returns : (ledger t).fatal = false := by
      rcases ended with ⟨_, hrun⟩ | ⟨hstart, hfatal⟩
      · exact (returned t _ hrun).returned
      · exact absurd (begins t hstart hfatal succeed) fine
    refine ⟨returns, ?_, ?_⟩
    · intro rc idev' hrun negative
      have outcome : CreateOutcome tdev idev (ledger t) rc idev' := returned t _ hrun
      obtain ⟨same, freed, freedPages, reclaimed⟩ := outcome.failed negative
      refine ⟨same, freed, freedPages, reclaimed.trans (if_neg ?_)⟩
      rw [Bool.and_eq_true]
      exact fun h => fine h.symm
    · intro idev' hrun
      have outcome : CreateOutcome tdev idev (ledger t) trustyErrNone idev' := returned t _ hrun
      obtain ⟨freed, freedPages, reclaimed, _⟩ := outcome.done rfl
      exact ⟨freed, freedPages, reclaimed⟩

/-- Memory is shared, but the secure OS refuses to make the device. -/
def initRefused : Platform :=
  { codePlatform [] with regs := [granted 7 0, ⟨0xfffffffe, 0, 0, 0, 0, 0, 0, 0⟩, granted 0 0] }

theorem initRefused_undoes : ∃ t,
    (trustyIpcDevCreate ⟨true, 1, 0x8000⟩ none 4096).Runs t (trustyErrSecosErr, none) ∧
      (ledger t).reclaimed = [7] ∧ CreateUndoes ⟨true, 1, 0x8000⟩ none 4096 t := by
  obtain ⟨t, hrun, hledger⟩ : ∃ t,
      (trustyIpcDevCreate ⟨true, 1, 0x8000⟩ none 4096).Runs t (trustyErrSecosErr, none) ∧
        ledger t = ⟨[0], [(4096, 1)], false, [7], [7], [], [(4096, 1)], [0], false⟩ := by
    obtain ⟨t, p, exec, seen⟩ : ∃ t p, (trustyIpcDevCreate ⟨true, 1, 0x8000⟩ none 4096).exec
          Platform.answer 1 initRefused = some (t, (trustyErrSecosErr, none), p) ∧
        ledger t = ⟨[0], [(4096, 1)], false, [7], [7], [], [(4096, 1)], [0], false⟩ :=
      ⟨_, _, rfl, rfl⟩
    exact ⟨t, Prog.exec_runs exec, seen⟩
  refine ⟨t, hrun, congrArg Ledger.reclaimed hledger, ?_⟩
  refine (createUndoes_iff (Or.inl ⟨_, hrun⟩) ?_).mpr ?_
  · rw [hledger]
    exact List.forall_mem_nil _
  · rw [hledger]
    decide

/-- The attributes are not found, so nothing is shared; yet memory 0 is asked back. -/
def unsharedTrace : List TrustyEvent :=
  [⟨.calloc, some 1⟩, ⟨.allocPages 1, some 4096⟩, ⟨.encodePageInfo 4096, (-1, ⟨0, 0, 0, 0⟩)⟩,
    ⟨.smc8 ⟨smcFcFfaMemReclaim.toUInt64, 0, 0, 0, 0, 0, 0, 0⟩, ⟨0x84000060, 0, 0, 0, 0, 0, 0, 0⟩⟩,
    ⟨.fatal, ()⟩]

theorem unsharedTrace_gives_up :
    (trustyIpcDevCreate ⟨true, 1, 0x8000⟩ none 4096).Starts unsharedTrace ∧
      ReclaimsSucceed (ledger unsharedTrace) ∧ (ledger unsharedTrace).shared = [] ∧
      (ledger unsharedTrace).reclaimed = [0] ∧
      ¬CreateUndoes ⟨true, 1, 0x8000⟩ none 4096 unsharedTrace := by
  have succeed : ReclaimsSucceed (ledger unsharedTrace) := fun _ _ => List.not_mem_nil
  refine ⟨?_, succeed, rfl, rfl, fun undoes => absurd undoes.returns (by decide)⟩
  have gives_up : (errCreateSecDev ⟨true, 1, 0x8000⟩ 1 4096 4096 0 trustyErrGeneric none).Starts
      (unsharedTrace.drop 3) :=
    Or.inr ⟨_, _, rfl, Or.inr ⟨(), [], rfl, Or.inl (.here rfl)⟩⟩
  exact Or.inr ⟨_, _, rfl, Or.inr ⟨_, _, rfl, Or.inr ⟨_, _, rfl, gives_up⟩⟩⟩

end ExternalTrusty.Dev
