import ExternalTrusty.IdleView

namespace ExternalTrusty.Asm

open Aarch64

variable {b : Board} {m m' : Machine Label} {i : Nat}

/-- CPU 0 is in an event poll, at its `wfi`, and no interrupt is there to take it out of it. -/
def Asleep (m : Machine Label) : Prop :=
  (m.cores 0).pc = some (.wfi, 0) ∧ (m.cores 0).regs (x 1) ≠ 0 ∧ m.pending 0 = []

/-- No core is in the two routines yet. -/
def Unstarted (m : Machine Label) : Prop := (∀ i, (m.cores i).pc = none) ∧ m.trace = []

theorem view_inv (start : Unstarted m) (run : Reaches b.platform (text b) (idleRely b) m m') :
    (∀ i, IdleRegs b i (m'.cores i)) ∧ Doorbell.Inv (view b m') := by
  refine run.keeps (I := fun m => (∀ i, IdleRegs b i (m.cores i)) ∧ Doorbell.Inv (view b m)) ?_ ?_
  · refine ⟨fun i => by simp [IdleRegs, start.1 i], ?_, ?_, ?_, ?_⟩
    · simp [view, start.2, raised]
    · simp [view, phase, start.1 0]
    · simp [view, start.2, rung]
    · simp [view, start.2, rung]
  · intro m m' inv step
    refine ⟨idleRegs_step inv.1 step, ?_⟩
    rcases Relation.reflGen_iff _ _ _ |>.mp (view_step inv.1 step) with same | h
    · rw [same]
      exact inv.2
    · exact inv.2.step h

theorem raised_append {later earlier : List (Executed Label)}
    (quiet : ∀ e ∈ later, isPollReturn e = false) (h : raised i earlier) :
    raised i (later ++ earlier) := by
  induction later with
  | nil => exact h
  | cons e later ih =>
    refine raised_mono (quiet e List.mem_cons_self) (ih ?_)
    exact fun e' he' => quiet e' (List.mem_cons_of_mem _ he')

theorem rung_append {later earlier : List (Executed Label)}
    (quiet : ∀ e ∈ later, isPollReturn e = false) (h : rung b i earlier) :
    rung b i (later ++ earlier) := by
  induction later with
  | nil => exact h
  | cons e later ih =>
    have hrest := ih fun e' he' => quiet e' (List.mem_cons_of_mem _ he')
    simp [rung, quiet e List.mem_cons_self, hrest]

/-- No wake-up is lost: when CPU 0 sleeps in an event poll, it has returned from one after every
store to `skip_cpu0_wfi` that was followed by that core's interrupt. -/
theorem trustyIdle_no_lost_wakeup (start : Unstarted m)
    (run : Reaches b.platform (text b) (idleRely b) m m') (asleep : Asleep m')
    (later between earlier : List (Executed Label)) (post kick : Executed Label)
    (trace : m'.trace = later ++ kick :: (between ++ post :: earlier)) (i : Nat)
    (hpost : raises i post) (hkick : rings b i kick) :
    ∃ e ∈ later ++ kick :: between, isPollReturn e := by
  obtain ⟨hpc, hpoll, hpending⟩ := asleep
  have inv := (view_inv start run).2
  have hsilent := inv.silent (by simp [view, phase, hpc, hpoll]) (by simp [view, isRung, hpending]) i
  by_contra hnone
  have quiet : ∀ e ∈ later ++ kick :: between, isPollReturn e = false := by
    intro e he
    by_contra h
    exact hnone ⟨e, he, by simpa using h⟩
  simp only [List.mem_append, List.mem_cons] at quiet
  have hret : isPollReturn post = false := by
    simp only [raises, decide_eq_true_eq] at hpost
    simp [isPollReturn, hpost.2]
  have hraised : raised i (between ++ post :: earlier) := by
    refine raised_append (fun e he => quiet e (Or.inr (Or.inr he))) ?_
    simp [raised, hret, hpost]
  have hrung : rung b i (later ++ kick :: (between ++ post :: earlier)) := by
    refine rung_append (fun e he => quiet e (Or.inl he)) ?_
    simp [rung, quiet kick (Or.inr (Or.inl rfl)), hkick, hraised]
  rw [← trace] at hrung
  simp [view, hrung] at hsilent

/-- All cores run other code, with `event_poll` already in place. -/
def idleStart : Machine Label where
  cores := fun _ => ⟨true, none, fun _ => 1, (0, 0), none⟩
  mem := ⟨fun _ _ => 0, []⟩
  pending := fun _ => []
  active := fun _ => []
  trace := []

def enterIdle (i : Nat) (m : Machine Label) : Machine Label :=
  m.update i fun c => { c with pc := some (.trustyIdle, 0) }

/-! CPU 1 wakes CPU 0, which skips its `wfi`, takes the interrupt, and then sleeps. -/

def woken : Machine Label := (playN virtBoard 1 1 10 (enterIdle 1 idleStart)).get (by decide)

def skipped : Machine Label := (playN virtBoard 1 0 10 (enterIdle 0 woken)).get (by decide)

def served : Machine Label :=
  { skipped with
    pending := Function.update skipped.pending 0 []
    active := Function.update skipped.active 0 [] }

def slept : Machine Label := (playN virtBoard 1 0 9 (enterIdle 0 served)).get (by decide)

theorem enterIdle_reaches {i : Nat} (outside : (m.cores i).Outside) :
    Reaches b.platform (text b) (idleRely b) m (enterIdle i m) :=
  .single (.enter i .trustyIdle outside (Or.inl rfl))

theorem slept_reaches :
    Reaches virtBoard.platform (text virtBoard) (idleRely virtBoard) idleStart slept := by
  have hwoken : playN virtBoard 1 1 10 (enterIdle 1 idleStart) = some woken := (Option.some_get _).symm
  have hskipped : playN virtBoard 1 0 10 (enterIdle 0 woken) = some skipped := (Option.some_get _).symm
  have hslept : playN virtBoard 1 0 9 (enterIdle 0 served) = some slept := (Option.some_get _).symm
  have hserved : Reaches virtBoard.platform (text virtBoard) (idleRely virtBoard) skipped served :=
    .single (.serve 0 [] [] ⟨by decide, by decide⟩)
  have hfirst := (enterIdle_reaches (b := virtBoard) ⟨rfl, rfl⟩).trans (reaches_play hwoken)
  have hsecond := (enterIdle_reaches (b := virtBoard) (i := 0) (m := woken)
    ⟨by decide, by decide⟩).trans (reaches_play hskipped)
  have hthird := (enterIdle_reaches (b := virtBoard) (i := 0) (m := served)
    ⟨by decide, by decide⟩).trans (reaches_play hslept)
  exact hfirst.trans (hsecond.trans (hserved.trans hthird))

theorem trustyIdle_no_lost_wakeup_slept :
    Reaches virtBoard.platform (text virtBoard) (idleRely virtBoard) idleStart slept ∧
      Asleep slept ∧ ∃ e ∈ slept.trace.take 23, isPollReturn e := by
  have hasleep : Asleep slept := ⟨by decide, by decide, by decide⟩
  refine ⟨slept_reaches, hasleep, ?_⟩
  exact trustyIdle_no_lost_wakeup ⟨fun _ => rfl, rfl⟩ slept_reaches hasleep (slept.trace.take 21)
    [slept.trace.get ⟨22, by decide⟩] (slept.trace.drop 24) (slept.trace.get ⟨23, by decide⟩)
    (slept.trace.get ⟨21, by decide⟩) rfl 1 (by decide) (by decide)

end ExternalTrusty.Asm
