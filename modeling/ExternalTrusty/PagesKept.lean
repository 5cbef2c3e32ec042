import ExternalTrusty.Custody
import Mathlib.Logic.Function.Basic

namespace ExternalTrusty.Dev

open CMemory CProgram

/-- Operations that do nothing while the secure OS holds no memory. -/
def Harmless : TrustyOp → Prop
  | .smc8 args => args.r0 ≠ smcScTrustyIpcCreateQlDev.toUInt64 ∧
    args.r0 ≠ smcScTrustyIpcShutdownQlDev.toUInt64 ∧ args ≠ restartFiq ∧ args ≠ restartLast
  | _ => True

/-- The secure OS holds nothing, and nothing has gone wrong. -/
structure Custody.Clear (c : Custody) : Prop where
  held : c.held = none
  refused : c.refused = false
  misfreed : c.misfreed = false

/-- Nothing has gone wrong. -/
structure Custody.Fine (c : Custody) : Prop where
  refused : c.refused = false
  misfreed : c.misfreed = false

theorem Custody.Clear.fine {c : Custody} (h : c.Clear) : c.Fine := ⟨h.refused, h.misfreed⟩

theorem Custody.Clear.record {c : Custody} (h : c.Clear) {e : TrustyEvent}
    (harmless : Harmless e.1) : (c.record e).Clear := by
  obtain ⟨o, r⟩ := e
  cases o with
  | smc8 args =>
    obtain ⟨hcreate, hshutdown, hfiq, hlast⟩ := harmless
    show (c.smc args r).Clear
    unfold Custody.smc
    split
    next =>
      refine ⟨?_, h.refused, h.misfreed⟩
      show (if _ then none else c.held) = none
      rw [h.held, ite_self]
    next =>
      rw [commandOf, if_neg (not_or.mpr ⟨hcreate, hshutdown⟩), if_neg (not_or.mpr ⟨hfiq, hlast⟩)]
      exact ⟨h.held, h.refused, h.misfreed⟩
  | freePages vaddr count =>
    refine ⟨h.held, h.refused, ?_⟩
    show (c.misfreed || c.held.isSome) = false
    rw [h.misfreed, h.held]
    rfl
  | irqDisable => exact h
  | irqRestore => exact h
  | lock => exact h
  | unlock => exact h
  | idle => exact h
  | storeTx off bytes => exact h
  | calloc => exact h
  | allocPages count => exact h
  | encodePageInfo vaddr => exact h
  | free addr => exact h
  | fatal => exact h

/-- The library's measure, for custody. -/
abbrev CustodyTracks {α : Type} (good : Custody → Prop) (c : Custody) (p : Trusty α)
    (post : α → Custody → Prop) : Prop := Tracks Custody.record good c p post

theorem CustodyTracks.harmless {α : Type} {p : Trusty α} {c : Custody} (hp : p.Uses Harmless)
    (h : c.Clear) : CustodyTracks Custody.Fine c p fun _ c' => c'.Clear := by
  have stays : ∀ t : List TrustyEvent, (∀ e ∈ t, Harmless e.1) →
      (t.foldl Custody.record c).Clear := by
    intro t ht
    induction t generalizing c with
    | nil => exact h
    | cons e t ih =>
      obtain ⟨he, ht⟩ := List.forall_mem_cons.mp ht
      exact ih (h.record he) ht
  constructor
  · exact fun t ht => (stays t (hp.starts ht)).fine
  · exact fun t a ht => stays t (hp.starts ht.starts)

theorem CustodyTracks.bind_harmless {α β : Type} {p : Trusty α} {f : α → Trusty β} {c : Custody}
    {post : β → Custody → Prop} (hp : p.Uses Harmless) (h : c.Clear)
    (hf : ∀ a c', c'.Clear → CustodyTracks Custody.Fine c' (f a) post) :
    CustodyTracks Custody.Fine c (p.bind f) post :=
  Tracks.bind (CustodyTracks.harmless hp h) hf

theorem harmless_smc {nr : UInt32} {args : SmcRegs} (h : args.r0 = nr.toUInt64)
    (other : nr ∉ [smcScTrustyIpcCreateQlDev, smcScTrustyIpcShutdownQlDev, smcScRestartFiq,
      smcScRestartLast]) : Harmless (.smc8 args) := by
  have differs : ∀ nr', nr' ∈ [smcScTrustyIpcCreateQlDev, smcScTrustyIpcShutdownQlDev,
      smcScRestartFiq, smcScRestartLast] → args.r0 ≠ nr'.toUInt64 := by
    intro nr' mem eq
    rw [h] at eq
    exact other (UInt32.toUInt64_inj.mp eq ▸ mem)
  refine ⟨differs _ (by decide), differs _ (by decide), fun eq => ?_, fun eq => ?_⟩
  · exact differs smcScRestartFiq (by decide) (congrArg SmcRegs.r0 eq)
  · exact differs smcScRestartLast (by decide) (congrArg SmcRegs.r0 eq)

theorem trustyDevShareMemory_harmless (tdev : TrustyDev) (id : UInt64) (pinfo : NsMemPageInfo)
    (pageCount : Nat) : (trustyDevShareMemory tdev id pinfo pageCount).Uses Harmless := by
  unfold trustyDevShareMemory
  split
  next => trivial
  next =>
    refine Prog.Uses.bind ((writeShareDescriptor_uses tdev pinfo pageCount).mono ?_) fun _ =>
      Prog.Uses.bind (Prog.Uses.call ?_) fun ret => ?_
    · rintro _ ⟨off, bytes, rfl⟩
      trivial
    · exact harmless_smc rfl (by decide)
    · split
      next => trivial
      next => trivial

theorem trustyDevReclaimMemory_harmless (tdev : TrustyDev) (id : UInt64) :
    (trustyDevReclaimMemory tdev id).Uses Harmless := by
  unfold trustyDevReclaimMemory
  split
  next => trivial
  next =>
    refine Prog.Uses.bind (Prog.Uses.call (harmless_smc rfl
      (by decide))) fun ret => ?_
    split
    next => trivial
    next => trivial

/-- What making a device can leave: a device whose memory the secure OS has, or none. -/
structure Made (rc : Int) (idev' : Option TrustyIpcDev) (c : Custody) : Prop where
  fine : c.Fine
  held : rc = trustyErrNone → ∃ dev, idev' = some dev ∧ c.held = some dev.bufId

theorem Made.of_failure {rc : Int} {idev : Option TrustyIpcDev} {c : Custody} (clear : c.Clear)
    (negative : rc < 0) : Made rc idev c := by
  refine ⟨clear.fine, fun none => ?_⟩
  rw [none] at negative
  cases negative

theorem errShareMemory_made {c : Custody} (clear : c.Clear) (context vaddr size : Nat) {rc : Int}
    (negative : rc < 0) (idev : Option TrustyIpcDev) :
    CustodyTracks Custody.Fine c (errShareMemory context vaddr size rc idev)
      fun x c' => Made x.1 x.2 c' := by
  refine CustodyTracks.bind_harmless (Prog.Uses.call trivial) clear fun _ c₁ clear₁ => ?_
  refine CustodyTracks.bind_harmless (Prog.Uses.call trivial) clear₁ fun _ c₂ clear₂ => ?_
  exact Tracks.ret clear₂.fine (Made.of_failure clear₂ negative)

theorem errCreateSecDev_made {c : Custody} (clear : c.Clear) (tdev : TrustyDev)
    (context vaddr size : Nat) (id : UInt64) {rc : Int} (negative : rc < 0)
    (idev : Option TrustyIpcDev) :
    CustodyTracks Custody.Fine c (errCreateSecDev tdev context vaddr size id rc idev)
      fun x c' => Made x.1 x.2 c' := by
  refine CustodyTracks.bind_harmless (trustyDevReclaimMemory_harmless tdev id) clear ?_
  intro rc2 c₁ clear₁
  split
  next =>
    refine CustodyTracks.bind_harmless (Prog.Uses.call trivial) clear₁ fun _ c₂ clear₂ => ?_
    exact Tracks.hang clear₂.fine
  next => exact errShareMemory_made clear₁ context vaddr size negative idev

theorem Custody.answer_create {c : Custody} (id : UInt64) (size : UInt32) (rc : Int) :
    c.answer (stdCallRegs smcScTrustyIpcCreateQlDev id.toUInt32 (id >>> 32).toUInt32 size) rc =
      { c with
        command := some (stdCallRegs smcScTrustyIpcCreateQlDev id.toUInt32
          (id >>> 32).toUInt32 size)
        held := if rc = 0 then some id else c.held } := by
  have made : (stdCallRegs smcScTrustyIpcCreateQlDev id.toUInt32 (id >>> 32).toUInt32 size).r0 =
      smcScTrustyIpcCreateQlDev.toUInt64 := rfl
  rw [Custody.answer, if_pos made, namedId_command]

theorem Custody.answer_shutdown {c : Custody} (id : UInt64) (size : UInt32) (rc : Int) :
    c.answer (stdCallRegs smcScTrustyIpcShutdownQlDev id.toUInt32 (id >>> 32).toUInt32 size) rc =
      { c with
        command := some (stdCallRegs smcScTrustyIpcShutdownQlDev id.toUInt32
          (id >>> 32).toUInt32 size)
        held := if rc = 0 ∧ c.held = some id then none else c.held
        refused := c.refused || (rc ≠ 0 ∧ ¬GoesOn rc) } := by
  have other : (stdCallRegs smcScTrustyIpcShutdownQlDev id.toUInt32 (id >>> 32).toUInt32 size).r0 ≠
      smcScTrustyIpcCreateQlDev.toUInt64 :=
    show smcScTrustyIpcShutdownQlDev.toUInt64 ≠ _ by decide
  rw [Custody.answer, if_neg other, namedId_command]

/-- Nothing is freed under the secure OS while a device is made. -/
theorem trustyIpcDevCreate_custody {c : Custody} (clear : c.Clear) (tdev : TrustyDev)
    (idev : Option TrustyIpcDev) (size : Nat) :
    CustodyTracks Custody.Fine c (trustyIpcDevCreate tdev idev size)
      fun x c' => Made x.1 x.2 c' := by
  have outOfMemory : trustyErrNoMemory < 0 := by decide
  have secosErr : trustyErrSecosErr < 0 := by decide
  have generic : trustyErrGeneric < 0 := by decide
  refine CustodyTracks.bind_harmless (Prog.Uses.call trivial) clear fun dev c₁ clear₁ => ?_
  cases dev with
  | none => exact Tracks.ret clear₁.fine (Made.of_failure clear₁ outOfMemory)
  | some context =>
    refine CustodyTracks.bind_harmless (Prog.Uses.call trivial) clear₁ fun buf c₂ clear₂ => ?_
    cases buf with
    | none =>
      refine CustodyTracks.bind_harmless (Prog.Uses.call trivial) clear₂ fun _ c₃ clear₃ => ?_
      exact Tracks.ret clear₃.fine (Made.of_failure clear₃ outOfMemory)
    | some vaddr =>
      refine CustodyTracks.bind_harmless (Prog.Uses.call trivial) clear₂ fun info c₃ clear₃ => ?_
      by_cases hinfo : info.1 = 0
      · rw [if_neg (not_not_intro hinfo)]
        refine CustodyTracks.bind_harmless (trustyDevShareMemory_harmless tdev 0 info.2
          (size / pageSize)) clear₃ fun shared c₄ clear₄ => ?_
        by_cases hshared : shared.1 = 0
        · rw [if_neg (not_not_intro hshared)]
          refine Tracks.bind (trustyCall32MemBufId_custody (Or.inl rfl) shared.2 _ clear₄.fine
            fun r => ?_) ?_
          · rw [Custody.answer_create]
            exact ⟨clear₄.refused, clear₄.misfreed⟩
          · rintro rc _ ⟨_, rfl⟩
            rw [Custody.answer_create]
            by_cases hrc : rc = 0
            · rw [if_neg (not_not_intro hrc)]
              refine Tracks.ret ⟨clear₄.refused, clear₄.misfreed⟩
                ⟨⟨clear₄.refused, clear₄.misfreed⟩, fun _ => ⟨_, rfl, ?_⟩⟩
              exact if_pos hrc
            · rw [if_pos hrc]
              apply errCreateSecDev_made
              · exact ⟨(if_neg hrc).trans clear₄.held, clear₄.refused, clear₄.misfreed⟩
              · exact secosErr
        · rw [if_pos hshared]
          exact errShareMemory_made clear₄ context vaddr size secosErr idev
      · rw [if_pos hinfo]
        exact errCreateSecDev_made clear₃ tdev context vaddr size 0 generic idev

/-- Freed under the secure OS only on the older API, once it has refused to shut down. -/
def ShutdownGood (tdev : TrustyDev) (c : Custody) : Prop :=
  c.misfreed = true → tdev.ffaTx = false ∧ c.refused = true

theorem shutdownGood_calm (tdev : TrustyDev) {c : Custody} (h : c.misfreed = false) :
    ShutdownGood tdev c := by
  intro misfreed
  rw [h] at misfreed
  cases misfreed

theorem trustyDevReclaimMemory_custody {c : Custody} (calm : c.misfreed = false)
    (tdev : TrustyDev) (id : UInt64) :
    CustodyTracks (ShutdownGood tdev) c (trustyDevReclaimMemory tdev id) fun rc c' =>
      c'.misfreed = false ∧ c'.refused = c.refused ∧ (rc = 0 →
        c'.held = if tdev.ffaTx ∧ c.held = some id then none else c.held) := by
  unfold trustyDevReclaimMemory
  cases hdev : tdev.ffaTx with
  | false =>
    rw [if_pos Bool.false_ne_true]
    refine Tracks.ret (shutdownGood_calm tdev calm) ⟨calm, rfl, fun _ => ?_⟩
    rw [if_neg fun h => Bool.false_ne_true h.1]
  | true =>
    rw [if_neg (not_not_intro rfl)]
    have reclaimed : ∀ ret, c.record ⟨.smc8 ⟨smcFcFfaMemReclaim.toUInt64, id.toUInt32.toUInt64,
        id >>> 32, 0, 0, 0, 0, 0⟩, ret⟩ = { c with
          command := none
          held := if ret.r0.toUInt32 = smcFcFfaSuccess ∧ c.held = some id then none
            else c.held } := by
      intro ret
      show c.smc _ ret = _
      rw [Custody.smc, if_pos rfl, namedId_reclaim]
    refine Tracks.bind (Tracks.call (shutdownGood_calm tdev calm) fun ret => ?_) ?_
    · rw [reclaimed ret]
      exact shutdownGood_calm tdev calm
    · rintro ret _ rfl
      rw [reclaimed ret]
      by_cases ok : ret.r0.toUInt32 = smcFcFfaSuccess
      · rw [if_neg (not_not_intro ok)]
        apply Tracks.ret
        · exact shutdownGood_calm tdev calm
        · refine ⟨calm, rfl, fun _ => ?_⟩
          simp only [ok, true_and]
      · rw [if_pos (show ret.r0.toUInt32 ≠ smcFcFfaSuccess from ok)]
        apply Tracks.ret
        · exact shutdownGood_calm tdev calm
        · refine ⟨calm, rfl, ?_⟩
          intro done
          cases done

theorem trustyDevShutdownIpc_custody {c : Custody} (fine : c.Fine) {id : UInt64}
    (held : c.held = some id) (tdev : TrustyDev) (size : UInt32) :
    CustodyTracks (ShutdownGood tdev) c (trustyDevShutdownIpc id size) fun rc c' =>
      c'.misfreed = false ∧ c'.refused = decide (rc ≠ 0) ∧
        c'.held = if rc = 0 then none else some id := by
  refine (trustyCall32MemBufId_custody (Or.inr rfl) id size (shutdownGood_calm tdev fine.misfreed)
    fun r => ?_).conseq ?_
  · rw [Custody.answer_shutdown]
    exact shutdownGood_calm tdev fine.misfreed
  · rintro rc c' ⟨final, hc'⟩
    rw [Custody.answer_shutdown] at hc'
    subst hc'
    refine ⟨fine.misfreed, ?_, ?_⟩
    · simp [fine.refused, final]
    · simp [held]

theorem trustyIpcDevShutdown_custody {c : Custody} {dev : TrustyIpcDev} (fine : c.Fine)
    (held : c.held = some dev.bufId) (tdev : TrustyDev) :
    CustodyTracks (ShutdownGood tdev) c (trustyIpcDevShutdown tdev dev) fun _ c' =>
      (c'.misfreed = true ↔ tdev.ffaTx = false ∧ c'.refused = true) := by
  have calm : ∀ {c : Custody}, c.misfreed = false → ShutdownGood tdev c := shutdownGood_calm tdev
  refine Tracks.bind (trustyDevShutdownIpc_custody fine held tdev _) ?_
  rintro rc c₁ ⟨quiet₁, refused₁, held₁⟩
  refine Tracks.bind (trustyDevReclaimMemory_custody quiet₁ tdev dev.bufId) ?_
  rintro rc2 c₂ ⟨quiet, refused, released⟩
  -- on the older API the memory is still held exactly if the shutdown was refused
  have left : rc2 = 0 → (c₂.held.isSome = true ↔ tdev.ffaTx = false ∧ c₂.refused = true) := by
    intro hrc2
    rw [released hrc2, refused, refused₁, held₁]
    by_cases hrc : rc = 0
    · simp [hrc]
    · cases tdev.ffaTx with
      | false => simp [hrc]
      | true => simp [hrc]
  split
  next =>
    refine Tracks.bind (Tracks.call (calm quiet) fun _ => calm quiet) ?_
    rintro _ _ rfl
    exact Tracks.hang (calm quiet)
  next hrc2 =>
    have freed : ∀ r, (c₂.record ⟨.freePages dev.bufVaddr (bufPages dev.bufSize), r⟩).misfreed =
        c₂.held.isSome := by
      intro r
      show (c₂.misfreed || c₂.held.isSome) = _
      rw [quiet, Bool.false_or]
    have known := left (not_not.mp hrc2)
    have good : ∀ r, ShutdownGood tdev
        (c₂.record ⟨.freePages dev.bufVaddr (bufPages dev.bufSize), r⟩) := by
      intro r misfreed
      rw [freed] at misfreed
      exact known.mp misfreed
    refine Tracks.bind (Tracks.call (calm quiet) good) ?_
    rintro r _ rfl
    refine Tracks.bind (Tracks.call (good r) fun _ => good r) ?_
    rintro _ _ rfl
    refine Tracks.ret (good r) ?_
    show (c₂.record ⟨.freePages dev.bufVaddr (bufPages dev.bufSize), r⟩).misfreed = true ↔ _
    rw [freed]
    exact known

/-- Calls to make and to shut down devices, each with the device it is about. -/
abbrev DevLog := List (Nat × List TrustyEvent)

def eventsOf (k : Nat) (log : DevLog) : List TrustyEvent :=
  (log.filter fun call => call.1 = k).flatMap Prod.snd

/-- Devices are made, and shut down again, in any order; what there is now. -/
inductive Session (tdev : TrustyDev) : DevLog → (Nat → Option TrustyIpcDev) → Prop
  | start : Session tdev [] fun _ => none
  | create {log : DevLog} {devs : Nat → Option TrustyIpcDev} (k : Nat)
    {idev idev' : Option TrustyIpcDev} {size : Nat} {t : List TrustyEvent} {rc : Int}
    (before : Session tdev log devs)
    (new : ∀ call ∈ log, call.1 ≠ k)
    (run : (trustyIpcDevCreate tdev idev size).Runs t (rc, idev')) :
    Session tdev (log ++ [(k, t)])
      (Function.update devs k (if rc = trustyErrNone then idev' else none))
  | shutdown {log : DevLog} {devs : Nat → Option TrustyIpcDev} (k : Nat) {dev : TrustyIpcDev}
    {t : List TrustyEvent} (before : Session tdev log devs) (made : devs k = some dev)
    (run : (trustyIpcDevShutdown tdev dev).Runs t ()) :
    Session tdev (log ++ [(k, t)]) (Function.update devs k none)

/-- Any point of such a session: between two calls, or inside one. -/
inductive Reached (tdev : TrustyDev) : DevLog → Prop
  | between {log : DevLog} {devs : Nat → Option TrustyIpcDev} (session : Session tdev log devs) :
    Reached tdev log
  | creating {log : DevLog} {devs : Nat → Option TrustyIpcDev} (k : Nat)
    {idev : Option TrustyIpcDev} {size : Nat} {t : List TrustyEvent}
    (before : Session tdev log devs)
    (new : ∀ call ∈ log, call.1 ≠ k) (start : (trustyIpcDevCreate tdev idev size).Starts t) :
    Reached tdev (log ++ [(k, t)])
  | shuttingDown {log : DevLog} {devs : Nat → Option TrustyIpcDev} (k : Nat) {dev : TrustyIpcDev}
    {t : List TrustyEvent} (before : Session tdev log devs) (made : devs k = some dev)
    (start : (trustyIpcDevShutdown tdev dev).Starts t) : Reached tdev (log ++ [(k, t)])

/-- The pages of device `k` have not been freed under the secure OS. -/
def PagesKept (log : DevLog) (k : Nat) : Prop := (custody (eventsOf k log)).misfreed = false

/-- Memory is reclaimed, or the secure OS has not refused to shut down device `k`. -/
def ShutdownTaken (tdev : TrustyDev) (log : DevLog) (k : Nat) : Prop :=
  tdev.ffaTx = true ∨ (custody (eventsOf k log)).refused = false

theorem eventsOf_same (log : DevLog) (k : Nat) (t : List TrustyEvent) :
    custody (eventsOf k (log ++ [(k, t)])) =
      t.foldl Custody.record (custody (eventsOf k log)) := by
  have grown : eventsOf k (log ++ [(k, t)]) = eventsOf k log ++ t := by
    simp [eventsOf]
  rw [grown, custody, List.foldl_append]
  rfl

theorem eventsOf_other (log : DevLog) {k j : Nat} (h : j ≠ k) (t : List TrustyEvent) :
    eventsOf k (log ++ [(j, t)]) = eventsOf k log := by
  simp [eventsOf, h]

theorem custody_new {log : DevLog} {k : Nat} (new : ∀ call ∈ log, call.1 ≠ k) :
    (custody (eventsOf k log)).Clear := by
  have none : log.filter (fun call => call.1 = k) = [] := by
    apply List.filter_eq_nil_iff.mpr
    intro call mem
    simp [new call mem]
  rw [eventsOf, none]
  exact ⟨rfl, rfl, rfl⟩

/-- How things stand between two calls. -/
structure Between (tdev : TrustyDev) (c : Custody) (dev : Option TrustyIpcDev) : Prop where
  owned : ∀ d, dev = some d → c.Fine ∧ c.held = some d.bufId
  exact : c.misfreed = true ↔ tdev.ffaTx = false ∧ c.refused = true

theorem Between.of_fine {tdev : TrustyDev} {c : Custody} {dev : Option TrustyIpcDev} (fine : c.Fine)
    (owned : ∀ d, dev = some d → c.held = some d.bufId) : Between tdev c dev := by
  refine ⟨fun d h => ⟨fine, owned d h⟩, ?_⟩
  rw [fine.misfreed, fine.refused]
  simp

theorem Session.between {tdev : TrustyDev} {log : DevLog} {devs : Nat → Option TrustyIpcDev}
    (h : Session tdev log devs) (k : Nat) :
    Between tdev (custody (eventsOf k log)) (devs k) := by
  induction h with
  | start => exact Between.of_fine ⟨rfl, rfl⟩ nofun
  | @create log devs j idev idev' size t rc before new run ih =>
    by_cases hk : j = k
    · subst hk
      have made : Made rc idev' (t.foldl Custody.record (custody (eventsOf j log))) :=
        (trustyIpcDevCreate_custody (custody_new new) tdev idev size).2 t (rc, idev') run
      rw [eventsOf_same, Function.update_self]
      refine Between.of_fine made.fine fun d hd => ?_
      by_cases hrc : rc = trustyErrNone
      · rw [if_pos hrc] at hd
        obtain ⟨dev, hdev, held⟩ := made.held hrc
        rw [hd] at hdev
        cases hdev
        exact held
      · rw [if_neg hrc] at hd
        cases hd
    · rw [eventsOf_other log hk, Function.update_of_ne (Ne.symm hk)]
      exact ih
  | @shutdown log devs j dev t before made run ih =>
    by_cases hk : j = k
    · subst hk
      obtain ⟨fine, held⟩ := ih.owned dev made
      rw [eventsOf_same, Function.update_self]
      exact ⟨nofun, (trustyIpcDevShutdown_custody fine held tdev).2 t () run⟩
    · rw [eventsOf_other log hk, Function.update_of_ne (Ne.symm hk)]
      exact ih

/-- Freed under the secure OS, at any point, only on the older API and after a refused shutdown. -/
theorem Reached.good {tdev : TrustyDev} {log : DevLog} (h : Reached tdev log) (k : Nat) :
    ShutdownGood tdev (custody (eventsOf k log)) := by
  cases h with
  | between session => exact (session.between k).exact.mp
  | @creating log devs j idev size t before new start =>
    by_cases hk : j = k
    · subst hk
      have fine := (trustyIpcDevCreate_custody (custody_new new) tdev idev size).1 t start
      rw [eventsOf_same]
      exact shutdownGood_calm tdev fine.misfreed
    · rw [eventsOf_other log hk]
      exact (before.between k).exact.mp
  | @shuttingDown log devs j dev t before made start =>
    by_cases hk : j = k
    · subst hk
      obtain ⟨fine, held⟩ := (before.between j).owned dev made
      rw [eventsOf_same]
      exact (trustyIpcDevShutdown_custody fine held tdev).1 t start
    · rw [eventsOf_other log hk]
      exact (before.between k).exact.mp

/-- At every point of every session the pages of a device are safe as long as its shutdown is
taken; and after complete calls only then. -/
theorem pagesKept_of_shutdownTaken {tdev : TrustyDev} {log : DevLog} (reached : Reached tdev log)
    (k : Nat) : (ShutdownTaken tdev log k → PagesKept log k) ∧
      ∀ devs, Session tdev log devs → PagesKept log k → ShutdownTaken tdev log k := by
  constructor
  · intro taken
    apply Bool.eq_false_of_not_eq_true
    intro misfreed
    obtain ⟨older, refused⟩ := reached.good k misfreed
    rcases taken with ffa | accepted
    · rw [older] at ffa
      cases ffa
    · rw [refused] at accepted
      cases accepted
  · intro devs session kept
    cases ffa : tdev.ffaTx with
    | true => exact Or.inl ffa
    | false =>
      right
      apply Bool.eq_false_of_not_eq_true
      intro refused
      have misfreed := (session.between k).exact.mpr ⟨ffa, refused⟩
      rw [PagesKept, misfreed] at kept
      cases kept

/-- A device is made, and its shutdown is refused; this far a session on either API goes. -/
theorem refused_session {tdev : TrustyDev} (regs : List SmcRegs) {t₁ t₂ : List TrustyEvent}
    {dev : TrustyIpcDev} {p₁ p₂ : Platform}
    (made : (trustyIpcDevCreate tdev none 4096).exec Platform.answer 1
      { codePlatform [] with regs := regs } = some (t₁, (trustyErrNone, some dev), p₁))
    (shut : (trustyIpcDevShutdown tdev dev).exec Platform.answer 1 p₁ = some (t₂, (), p₂)) :
    Session tdev [(0, t₁), (0, t₂)] (Function.update (Function.update (fun _ => none) 0
      (some dev)) 0 none) := by
  have first : Session tdev [(0, t₁)] (Function.update (fun _ => none) 0 (some dev)) :=
    Session.create 0 .start nofun (Prog.exec_runs made)
  refine Session.shutdown 0 first ?_ (Prog.exec_runs shut)
  exact Function.update_self ..

/-- On the older API the pages are freed though the secure OS has kept its device. -/
theorem refused_shutdown_frees : ∃ log devs, Session ⟨false, 1, 0x8000⟩ log devs ∧
    (custody (eventsOf 0 log)).refused = true ∧ ¬PagesKept log 0 := by
  obtain ⟨t₁, t₂, session, seen⟩ : ∃ t₁ t₂, Session ⟨false, 1, 0x8000⟩ [(0, t₁), (0, t₂)] _ ∧
      custody (eventsOf 0 [(0, t₁), (0, t₂)]) = ⟨_, some 4096, true, true⟩ :=
    ⟨_, _, refused_session [⟨0, 0, 0, 0, 0, 0, 0, 0⟩,
      ⟨0xfffffffe, 0, 0, 0, 0, 0, 0, 0⟩] rfl rfl, rfl⟩
  refine ⟨_, _, session, congrArg Custody.refused seen, fun kept => ?_⟩
  rw [PagesKept, seen] at kept
  cases kept

/-- With memory objects the pages are reclaimed first. -/
theorem refused_shutdown_reclaims : ∃ log devs, Session ⟨true, 1, 0x8000⟩ log devs ∧
    (custody (eventsOf 0 log)).refused = true ∧ PagesKept log 0 := by
  obtain ⟨t₁, t₂, session, seen⟩ : ∃ t₁ t₂, Session ⟨true, 1, 0x8000⟩ [(0, t₁), (0, t₂)] _ ∧
      (custody (eventsOf 0 [(0, t₁), (0, t₂)])).refused = true :=
    ⟨_, _, refused_session [granted 7 0, ⟨0, 0, 0, 0, 0, 0, 0, 0⟩,
      ⟨0xfffffffe, 0, 0, 0, 0, 0, 0, 0⟩, granted 0 0] rfl rfl, rfl⟩
  exact ⟨_, _, session, seen, (pagesKept_of_shutdownTaken (.between session) 0).1 (Or.inl rfl)⟩

end ExternalTrusty.Dev
