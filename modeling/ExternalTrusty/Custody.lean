import ExternalTrusty.CreateUndoes
import Mathlib.Data.List.Induction

namespace ExternalTrusty.Dev

open CMemory CProgram

instance (r : Int) : Decidable (GoesOn r) :=
  inferInstanceAs (Decidable (_ ∨ _ ∨ _ ∨ _))

/-- What the calls about one device have come to: the command that restarts go on with, the id of
the memory that the secure OS has taken for the device, and two things that went wrong. -/
structure Custody where
  command : Option SmcRegs
  held : Option UInt64
  refused : Bool
  misfreed : Bool
  deriving DecidableEq

def Custody.empty : Custody := ⟨none, none, false, false⟩

/-- The command that the answer to a call is about: a restart goes on with the one before. -/
def commandOf (command : Option SmcRegs) (args : SmcRegs) : Option SmcRegs :=
  if args.r0 = smcScTrustyIpcCreateQlDev.toUInt64 ∨
      args.r0 = smcScTrustyIpcShutdownQlDev.toUInt64 then some args
  else if args = restartFiq ∨ args = restartLast then command else none

/-- The secure OS takes memory when it makes a device, and lets it go when it shuts one down. -/
def Custody.answer (c : Custody) (args : SmcRegs) (code : Int) : Custody :=
  if args.r0 = smcScTrustyIpcCreateQlDev.toUInt64 then
    { c with
      command := some args
      held := if code = 0 then some (namedId args) else c.held }
  else
    { c with
      command := some args
      held := if code = 0 ∧ c.held = some (namedId args) then none else c.held
      refused := c.refused || (code ≠ 0 ∧ ¬GoesOn code) }

def Custody.smc (c : Custody) (args ret : SmcRegs) : Custody :=
  if args.r0 = smcFcFfaMemReclaim.toUInt64 then
    { c with
      command := none
      held := if ret.r0.toUInt32 = smcFcFfaSuccess ∧ c.held = some (namedId args) then none
        else c.held }
  else
    match commandOf c.command args with
    | none => { c with command := none }
    | some command => c.answer command (regInt ret.r0)

def Custody.record (c : Custody) : TrustyEvent → Custody
  | ⟨.smc8 args, ret⟩ => c.smc args ret
  | ⟨.freePages _ _, _⟩ => { c with misfreed := c.misfreed || c.held.isSome }
  | _ => c

def custody (h : List TrustyEvent) : Custody := h.foldl Custody.record .empty

section Command

variable {orig : SmcRegs} {m : Custody}

/-- A command to make or to shut down a device. -/
def IsCommand (orig : SmcRegs) : Prop :=
  orig.r0 = smcScTrustyIpcCreateQlDev.toUInt64 ∨ orig.r0 = smcScTrustyIpcShutdownQlDev.toUInt64

theorem IsCommand.not_reclaim (h : IsCommand orig) : orig.r0 ≠ smcFcFfaMemReclaim.toUInt64 := by
  rcases h with h | h
  · rw [h]
    decide
  · rw [h]
    decide

/-- Where custody stands after these exchanges for a command. -/
def Custody.after (m : Custody) (orig : SmcRegs) (calls : List Exchange) : Custody :=
  match calls.getLast? with
  | none => m
  | some (_, r) => m.answer orig r

/-- Answers after which a call goes on change nothing. -/
theorem Custody.answer_goesOn {r r' : Int} (h : GoesOn r) :
    (m.answer orig r).answer orig r' = m.answer orig r' := by
  have nonzero : r ≠ 0 := by
    rintro rfl
    exact absurd h (by decide)
  unfold Custody.answer
  split
  next => simp
  next => simp [nonzero, h]

theorem commandOf_command (command : IsCommand orig) (before : Option SmcRegs) :
    commandOf before orig = some orig := if_pos command

theorem commandOf_asked {args : SmcRegs} (command : IsCommand orig)
    (h : args = orig ∨ args = restartFiq ∨ args = restartLast) :
    commandOf (some orig) args = some orig := by
  rcases h with rfl | h
  · exact commandOf_command command _
  · have plain : ¬(args.r0 = smcScTrustyIpcCreateQlDev.toUInt64 ∨
        args.r0 = smcScTrustyIpcShutdownQlDev.toUInt64) := by
      rcases h with rfl | rfl
      · decide
      · decide
    rw [commandOf, if_neg plain, if_pos h]

/-- The call that is asked for is the first one or a restart, and the code before it is not
final. -/
theorem Protocol.nextCall_eq {calls : List Exchange} {c : SmcRegs} (h : Protocol orig calls)
    (asked : nextCall calls = some c) :
    (c = orig ∨ c = restartFiq ∨ c = restartLast) ∧
      ∃ x, calls.getLast? = some x ∧ GoesOn x.2 := by
  have among : ∀ x ∈ calls, x.1 = orig ∨ x.1 = restartFiq ∨ x.1 = restartLast := by
    clear asked
    induction h with
    | first r =>
      intro x hx
      rw [List.mem_singleton.mp hx]
      exact Or.inl rfl
    | @next calls c r before asked ih =>
      refine List.forall_mem_append.mpr ⟨ih, List.forall_mem_singleton.mpr ?_⟩
      obtain ⟨x, _, ⟨_, hc⟩ | ⟨_, hc⟩ | ⟨_, recent⟩⟩ := nextCall_getLast asked
      · exact Or.inr (Or.inl hc)
      · exact Or.inr (Or.inr hc)
      · obtain ⟨y, hy, rfl, _⟩ := recentCall_eq recent
        exact ih y hy
  obtain ⟨x, last, ⟨code, hc⟩ | ⟨code, hc⟩ | ⟨code, recent⟩⟩ := nextCall_getLast asked
  · exact ⟨Or.inr (Or.inl hc), x, last, Or.inl code⟩
  · exact ⟨Or.inr (Or.inr hc), x, last, Or.inr (Or.inr code)⟩
  · obtain ⟨y, hy, rfl, _⟩ := recentCall_eq recent
    exact ⟨among y hy, x, last, Or.inr (Or.inl code)⟩

theorem Custody.answer_command (r : Int) : (m.answer orig r).command = some orig := by
  unfold Custody.answer
  split
  next => rfl
  next => rfl

theorem exists_smc_of_exchange {e : TrustyEvent} (h : exchangeOf e ≠ none) :
    ∃ args ret, e = ⟨.smc8 args, ret⟩ := by
  obtain ⟨o, r⟩ := e
  cases o with
  | smc8 args => exact ⟨args, r, rfl⟩
  | irqDisable => exact absurd rfl h
  | irqRestore => exact absurd rfl h
  | lock => exact absurd rfl h
  | unlock => exact absurd rfl h
  | idle => exact absurd rfl h
  | storeTx off bytes => exact absurd rfl h
  | calloc => exact absurd rfl h
  | allocPages count => exact absurd rfl h
  | encodePageInfo vaddr => exact absurd rfl h
  | freePages vaddr count => exact absurd rfl h
  | free addr => exact absurd rfl h
  | fatal => exact absurd rfl h

/-- Exchanges about one command, with nothing but waiting in between. -/
theorem Custody.record_exchanges (command : IsCommand orig) {t : List TrustyEvent}
    (waits : ∀ e ∈ t, exchangeOf e = none → ∀ m : Custody, m.record e = m)
    (h : exchanges t = [] ∨ Protocol orig (exchanges t)) :
    t.foldl Custody.record m = m.after orig (exchanges t) := by
  induction t using List.reverseRecOn with
  | nil => rfl
  | append_singleton t e ih =>
    have earlier : ∀ e ∈ t, exchangeOf e = none → ∀ m : Custody, m.record e = m :=
      fun e he => waits e (List.mem_append_left _ he)
    rw [List.foldl_append, List.foldl_cons, List.foldl_nil]
    by_cases other : exchangeOf e = none
    · rw [waits e (List.mem_append_right _ List.mem_cons_self) other]
      rw [exchanges_other other] at h ⊢
      exact ih earlier h
    · obtain ⟨args, r, rfl⟩ := exists_smc_of_exchange other
      rw [exchanges_smc] at h ⊢
      have protocol := h.resolve_left (by simp)
      have last : (exchanges t ++ [(args, regInt r.r0)]).getLast? = some (args, regInt r.r0) :=
        List.getLast?_concat
      have answered : m.after orig (exchanges t ++ [(args, regInt r.r0)]) =
          m.answer orig (regInt r.r0) := by
        rw [Custody.after, last]
      rw [answered]
      rcases protocol.split _ _ [] rfl with ⟨none, hargs⟩ | ⟨before, asked⟩
      · have first : args = orig := hargs
        rw [ih earlier (Or.inl none), none, first]
        show m.smc orig r = _
        rw [Custody.smc, if_neg command.not_reclaim, commandOf_command command]
      · obtain ⟨hargs, x, hx, on⟩ := before.nextCall_eq asked
        have before_eq : m.after orig (exchanges t) = m.answer orig x.2 := by
          rw [Custody.after, hx]
        rw [ih earlier (Or.inr before), before_eq]
        have plain : args.r0 ≠ smcFcFfaMemReclaim.toUInt64 := by
          rcases hargs with rfl | rfl | rfl
          · exact command.not_reclaim
          · decide
          · decide
        show (m.answer orig x.2).smc args r = _
        rw [Custody.smc, if_neg plain, Custody.answer_command, commandOf_asked command hargs]
        exact Custody.answer_goesOn on

end Command

theorem namedId_command (nr : UInt32) (id : UInt64) (size : UInt32) :
    namedId (stdCallRegs nr id.toUInt32 (id >>> 32).toUInt32 size) = id := by
  show UInt64.ofNat _ = id
  rw [stdCallRegs, stdRegs, bufId_halves]
  exact UInt64.ofNat_toNat

/-- Making or shutting down a device comes to its final answer, whatever it took. -/
theorem trustyCall32MemBufId_custody {good : Custody → Prop} {m : Custody} {smcnr : UInt32}
    (command : smcnr = smcScTrustyIpcCreateQlDev ∨ smcnr = smcScTrustyIpcShutdownQlDev)
    (id : UInt64) (size : UInt32) (hgood : good m)
    (hanswer : ∀ r, good (m.answer (stdCallRegs smcnr id.toUInt32 (id >>> 32).toUInt32 size) r)) :
    Tracks Custody.record good m (trustyCall32MemBufId smcnr id size) fun rc m' => ¬GoesOn rc ∧
      m' = m.answer (stdCallRegs smcnr id.toUInt32 (id >>> 32).toUInt32 size) rc := by
  have slow : ¬smcIsFastcall smcnr := by
    rcases command with rfl | rfl
    · decide
    · decide
  have hfiq : smcnr ≠ smcScRestartFiq := by
    rcases command with rfl | rfl
    · decide
    · decide
  have iscommand : IsCommand (stdCallRegs smcnr id.toUInt32 (id >>> 32).toUInt32 size) := by
    rcases command with rfl | rfl
    · exact Or.inl rfl
    · exact Or.inr rfl
  unfold trustyCall32MemBufId
  rw [if_neg slow]
  generalize horig : stdCallRegs smcnr id.toUInt32 (id >>> 32).toUInt32 size = orig at *
  have hne : orig ≠ restartFiq := horig ▸ stdCallRegs_ne _ _ _ hfiq 0 0 0
  have uses : (trustyStdCall32 smcnr id.toUInt32 (id >>> 32).toUInt32 size).Uses
      fun o => ∀ r, exchangeOf ⟨o, r⟩ = none → ∀ m : Custody, m.record ⟨o, r⟩ = m :=
    trustyStdCall32_uses (fun _ _ _ => rfl) (fun _ _ _ => rfl)
      (stdCallBody_uses (fun _ => nofun) (fun _ => nofun) (fun _ => nofun) (fun _ _ _ => rfl)
        (fun _ _ _ => rfl) fun _ _ _ => rfl)
  have stands : ∀ {t}, (trustyStdCall32 smcnr id.toUInt32 (id >>> 32).toUInt32 size).Starts t →
      t.foldl Custody.record m = m.after orig (exchanges t) := by
    intro t ht
    have sound := (trustyStdCall32_triple horig hne [] (due_nil _)).1 t ht
    exact Custody.record_exchanges iscommand (fun e he => uses.starts ht e he e.2) sound.protocol
  constructor
  · intro t ht
    rw [stands ht, Custody.after]
    cases (exchanges t).getLast? with
    | none => exact hgood
    | some x => exact hanswer x.2
  · intro t rc ht
    obtain ⟨⟨c, answered⟩, final⟩ := (trustyStdCall32_triple horig hne [] (due_nil _)).2 t rc ht
    refine ⟨final, ?_⟩
    obtain ⟨x, hx, hcode⟩ := Option.map_eq_some_iff.mp answered.code
    have last : (exchanges t).getLast? = some x := hx
    rw [stands ht.starts, Custody.after, last, ← hcode]

end ExternalTrusty.Dev
