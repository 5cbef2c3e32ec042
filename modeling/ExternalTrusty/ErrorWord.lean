import ExternalTrusty.DataSafety

namespace ExternalTrusty

open CMemory

/-- The same world, with other garbage in a struct on the stack. -/
def World.withStack (w : World Script) (b : Obj) (s : Nat → UInt8) : World Script :=
  { w with mem := { w.mem with bytes := fun b' i => if b' = b then s i else w.mem.bytes b' i } }

theorem World.withStack_read (w : World Script) {b : Obj} (s : Nat → UInt8) {p : Ptr Obj}
    (h : p.block ≠ b) (n : Nat) : (w.withStack b s).mem.read p n = w.mem.read p n := by
  simp only [Mem.read, World.withStack, if_neg h]

/-- Over all garbage: success only when the frames taken carried what it should rest on, and one
result for all. -/
def ErrorChecked (w : World Script) (b : Obj) (carried : List Delivery → Prop)
    (run : World Script → Option (Int × World Script)) : Prop :=
  (∀ s w', run (w.withStack b s) = some (trustyErrNone, w') → carried (takenSince w w')) ∧
  ∀ s s', (run (w.withStack b s)).map Prod.fst = (run (w.withStack b s')).map Prod.fst

theorem errorChecked_of_fails {w : World Script} {b : Obj} {carried : List Delivery → Prop}
    {run : World Script → Option (Int × World Script)} {rc : Int} (hneg : rc < 0)
    (h : ∀ s, ∃ w', run (w.withStack b s) = some (rc, w')) : ErrorChecked w b carried run := by
  constructor
  · intro s w' hrun
    obtain ⟨w'', hrc⟩ := h s
    have heq := (Prod.mk.inj (Option.some.inj (hrc.symm.trans hrun))).1
    unfold trustyErrNone at heq
    omega
  · intro s s'
    obtain ⟨_, hs⟩ := h s
    obtain ⟨_, hs'⟩ := h s'
    rw [hs, hs']
    rfl

/-- A run that tests a response struct of which only `got` arrived is checked exactly when a
struct that can pass the test passes it with any garbage, and rightly so. -/
theorem errorChecked_iff_of_tests {w : World Script} {b : Obj} {carried : List Delivery → Prop}
    {run : World Script → Option (Int × World Script)} {ok : List UInt8 → Prop}
    [DecidablePred ok] {got : List UInt8} {p : Ptr Obj} {n : Nat} {arrived : Prop}
    (hp : p.block = b)
    (h : ∀ s, ∃ w', run (w.withStack b s) =
        some (if ok (overlay got ((w.withStack b s).mem.read p n)) then trustyErrNone
          else trustyErrGeneric, w') ∧ (carried (takenSince w w') ↔ arrived)) :
    ErrorChecked w b carried run ↔ ∀ fill : List UInt8, fill.length = n → ok (overlay got fill) →
      arrived ∧ ∀ other : List UInt8, other.length = n → ok (overlay got other) := by
  have hstack : ∀ fill : List UInt8, fill.length = n →
      ∃ s, (w.withStack b s).mem.read p n = fill := by
    intro fill hlen
    refine ⟨fun i => fill.getD (i - p.off) 0, ?_⟩
    apply List.ext_getElem
    · rw [Mem.read_length, hlen]
    · intro i hi hj
      rw [Mem.read_getElem]
      simp only [World.withStack, if_pos hp, Nat.add_sub_cancel_left]
      rw [List.getD_eq_getElem?_getD, List.getElem?_eq_getElem hj, Option.getD_some]
  have hne : trustyErrGeneric ≠ trustyErrNone := by decide
  constructor
  · rintro ⟨hcarried, hsame⟩ fill hlen hok
    obtain ⟨s, hs⟩ := hstack fill hlen
    obtain ⟨w', hrun, htaken⟩ := h s
    rw [hs, if_pos hok] at hrun
    refine ⟨htaken.mp (hcarried s w' hrun), ?_⟩
    intro other hother
    by_contra hno
    obtain ⟨s', hs'⟩ := hstack other hother
    obtain ⟨w'', hrun', _⟩ := h s'
    have heq := hsame s s'
    rw [hrun, hrun', hs', if_neg hno] at heq
    exact hne (Option.some.inj heq).symm
  · intro hall
    have hread : ∀ s, ((w.withStack b s).mem.read p n).length = n := fun s => Mem.read_length _ _ _
    constructor
    · intro s w' hrun
      obtain ⟨w'', hrc, htaken⟩ := h s
      obtain ⟨hrc', rfl⟩ := Prod.mk.inj (Option.some.inj (hrc.symm.trans hrun))
      by_cases hok : ok (overlay got ((w.withStack b s).mem.read p n))
      · exact htaken.mpr (hall _ (hread s) hok).1
      · rw [if_neg hok] at hrc'
        exact absurd hrc' hne
    · intro s s'
      obtain ⟨_, hrc, _⟩ := h s
      obtain ⟨_, hrc', _⟩ := h s'
      have hsame : ok (overlay got ((w.withStack b s).mem.read p n)) ↔
          ok (overlay got ((w.withStack b s').mem.read p n)) :=
        ⟨fun hok => (hall _ (hread s) hok).2 _ (hread s'),
          fun hok => (hall _ (hread s') hok).2 _ (hread s)⟩
      rw [hrc, hrc', Option.map_some, Option.map_some, if_congr hsame rfl rfl]

end ExternalTrusty
