import Mathlib.Tactic.ByContra

namespace Doorbell

variable {ι : Type}

/-- Where the one that waits is. It takes the flag down after it has looked at it, and the flag
stays up when another one has raised it in between: `watching` says that none has. -/
inductive Phase
  | away
  | looked (seen watching : Bool)
  | decided (seen : Bool)
  | waiting
  | leaving (seen : Bool)

/-- Nothing is watched any more. -/
def Phase.disturb : Phase → Phase
  | .looked seen _ => .looked seen false
  | p => p

/-- It has seen the flag up, and leaves without waiting. -/
def Phase.saw : Phase → Bool
  | .looked seen _ => seen
  | .decided seen => seen
  | .leaving seen => seen
  | _ => false

/-- It has seen the flag down, and is going to wait. -/
def Phase.blind : Phase → Bool
  | .looked seen _ => !seen
  | .decided seen => !seen
  | .waiting => true
  | _ => false

/-- A flag and a bell, and who has raised the flag, and rung the bell after that, since the one
that waits last left. -/
structure State (ι : Type) where
  flag : Bool
  bell : Bool
  phase : Phase
  raised : ι → Bool
  rung : ι → Bool

inductive Step : State ι → State ι → Prop
  | raise {s : State ι} (raised : ι → Bool) (more : ∀ i, s.raised i → raised i) :
    Step s { s with flag := true, phase := s.phase.disturb, raised := raised }
  | ring {s : State ι} (rung : ι → Bool) (heard : ∀ i, rung i → s.raised i) :
    Step s { s with bell := true, rung := rung }
  | noise {s : State ι} : Step s { s with bell := true }
  | away {s : State ι} (bell : Bool) (h : s.phase = .away) : Step s { s with bell := bell }
  | look {s : State ι} (h : s.phase = .away) : Step s { s with phase := .looked s.flag true }
  | takeDown {s : State ι} {seen : Bool} (h : s.phase = .looked seen true) :
    Step s { s with flag := false, phase := .decided seen }
  | leaveUp {s : State ι} {seen w : Bool} (h : s.phase = .looked seen w) :
    Step s { s with phase := .decided seen }
  | skip {s : State ι} (h : s.phase = .decided true) : Step s { s with phase := .leaving true }
  | wait {s : State ι} (h : s.phase = .decided false) : Step s { s with phase := .waiting }
  | wake {s : State ι} (h : s.phase = .waiting) : Step s { s with phase := .leaving false }
  | leave {s : State ι} {seen : Bool} (h : s.phase = .leaving seen) :
    Step s { s with phase := .away, raised := fun _ => false, rung := fun _ => false }

structure Inv (s : State ι) : Prop where
  raised : ∀ i, s.raised i → s.flag ∨ s.phase.saw
  watched : ∀ seen, s.phase = .looked seen true → seen = s.flag
  rung : ∀ i, s.rung i → s.raised i
  heard : ∀ i, s.rung i → s.phase.blind → s.bell

theorem Phase.blind_disturb (p : Phase) : p.disturb.blind = p.blind := by
  cases p <;> rfl

theorem Phase.disturb_ne (p : Phase) (seen : Bool) : p.disturb ≠ .looked seen true := by
  cases p <;> simp [disturb]

theorem Inv.step {s s' : State ι} (inv : Inv s) (h : Step s s') : Inv s' := by
  obtain ⟨hraised, hwatched, hrung, hheard⟩ := inv
  cases h with
  | raise raised more =>
    refine ⟨fun _ _ => Or.inl rfl, fun seen h => absurd h (Phase.disturb_ne _ seen), ?_, ?_⟩
    · intro i hi
      exact more i (hrung i hi)
    · intro i hi hblind
      exact hheard i hi (by simpa [Phase.blind_disturb] using hblind)
  | ring rung heard => exact ⟨hraised, hwatched, heard, fun _ _ _ => rfl⟩
  | noise => exact ⟨hraised, hwatched, hrung, fun _ _ _ => rfl⟩
  | away bell h =>
    refine ⟨hraised, hwatched, hrung, ?_⟩
    intro i _ hblind
    simp [h, Phase.blind] at hblind
  | look h =>
    have hup : ∀ i, s.raised i → s.flag := by
      intro i hi
      simpa [h, Phase.saw] using hraised i hi
    refine ⟨fun i hi => Or.inl (hup i hi), ?_, hrung, ?_⟩
    · intro seen hseen
      injection hseen with hseen
      exact hseen.symm
    · -- who rang before this look raised the flag before it, so the look saw it up
      intro i hi hblind
      simp [Phase.blind, hup i (hrung i hi)] at hblind
  | takeDown h =>
    refine ⟨?_, nofun, hrung, ?_⟩
    · intro i hi
      have hsame := hwatched _ h
      have hup := hraised i hi
      simp only [h, Phase.saw, ← hsame, or_self] at hup
      exact Or.inr hup
    · intro i hi hblind
      exact hheard i hi (by simpa [h, Phase.blind] using hblind)
  | leaveUp h =>
    refine ⟨?_, nofun, hrung, ?_⟩
    · intro i hi
      simpa [h, Phase.saw] using hraised i hi
    · intro i hi hblind
      exact hheard i hi (by simpa [h, Phase.blind] using hblind)
  | skip h =>
    refine ⟨fun _ _ => Or.inr rfl, nofun, hrung, ?_⟩
    intro i _ hblind
    simp [Phase.blind] at hblind
  | wait h =>
    refine ⟨?_, nofun, hrung, ?_⟩
    · intro i hi
      simpa [h, Phase.saw] using hraised i hi
    · intro i hi _
      exact hheard i hi (by simp [h, Phase.blind])
  | wake h =>
    refine ⟨?_, nofun, hrung, ?_⟩
    · intro i hi
      simpa [h, Phase.saw] using hraised i hi
    · intro i _ hblind
      simp [Phase.blind] at hblind
  | leave h => exact ⟨nofun, nofun, nofun, nofun⟩

/-- The one that waits while the bell is silent has been rung by nobody since it last left. -/
theorem Inv.silent {s : State ι} (inv : Inv s) (waits : s.phase = .waiting)
    (silent : s.bell = false) (i : ι) : s.rung i = false := by
  by_contra h
  have hbell := inv.heard i (by simpa using h) (by rw [waits]; rfl)
  simp [silent] at hbell

end Doorbell
