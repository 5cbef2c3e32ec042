import Mathlib.Data.List.Nodup
import Mathlib.Tactic.Common

namespace CProgram

variable {α β σ : Type}

/-- The last value that the elements of a list set, if any of them sets one. -/
def lastSet (f : α → Option β) (xs : List α) : Option β := (xs.filterMap f).getLast?

section LastSet

variable {f : α → Option β}

theorem lastSet_cons (f : α → Option β) (x : α) (xs : List α) (b : β) :
    (lastSet f (x :: xs)).getD b = (lastSet f xs).getD ((f x).getD b) := by
  unfold lastSet
  cases h : f x with
  | none =>
    rw [List.filterMap_cons_none h]
    rfl
  | some c =>
    rw [List.filterMap_cons_some h, List.getLast?_cons]
    rfl

end LastSet

/-- From `x`, these are visited, each the next of the one before it, until `stop` would be next. -/
inductive Visits (next : α → α) (stop : α) : α → List α → Prop
  | last {x : α} (ends : next x = stop) : Visits next stop x [x]
  | more {x : α} {xs : List α} (on : next x ≠ stop) (rest : Visits next stop (next x) xs) :
    Visits next stop x (x :: xs)

namespace Visits

variable {next : α → α} {stop x : α} {xs ys : List α}

theorem unique (h : Visits next stop x xs) (h' : Visits next stop x ys) : xs = ys := by
  induction h generalizing ys with
  | last ends =>
    cases h' with
    | last => rfl
    | more on => exact absurd ends on
  | more on _ ih =>
    cases h' with
    | last ends => exact absurd ends on
    | more _ rest => rw [ih rest]

/-- What is visited from an element that is visited. -/
theorem from_mem (h : Visits next stop x xs) {y : α} (hy : y ∈ xs) :
    ∃ ys, Visits next stop y ys ∧ ys.length ≤ xs.length := by
  induction h with
  | last ends =>
    obtain rfl := List.mem_singleton.mp hy
    exact ⟨_, .last ends, Nat.le_refl _⟩
  | more on rest ih =>
    rcases List.mem_cons.mp hy with rfl | hy
    · exact ⟨_, .more on rest, Nat.le_refl _⟩
    · obtain ⟨ys, hvisits, hlen⟩ := ih hy
      refine ⟨ys, hvisits, ?_⟩
      rw [List.length_cons]
      omega

/-- Nothing is visited twice: the walk would go on as it did the first time. -/
theorem nodup (h : Visits next stop x xs) : xs.Nodup := by
  induction h with
  | last => exact List.nodup_singleton _
  | @more y ys on rest ih =>
    refine List.nodup_cons.mpr ⟨fun hy => ?_, ih⟩
    obtain ⟨zs, hvisits, hlen⟩ := rest.from_mem hy
    have hsame : zs = y :: ys := hvisits.unique (.more on rest)
    rw [hsame, List.length_cons] at hlen
    omega

end Visits

section Walk

variable [DecidableEq α]

/-- A loop along a chain, cut off after `fuel` turns: a step at each element, until `stop` is
next. -/
def walk (next : α → α) (stop : α) (step : σ → α → σ) : Nat → α → σ → Option σ
  | 0, _, _ => none
  | fuel + 1, x, s =>
    if next x = stop then some (step s x) else walk next stop step fuel (next x) (step s x)

variable {next : α → α} {stop : α} {step : σ → α → σ}

theorem walk_eq_some {fuel : Nat} {x : α} {s s' : σ} : walk next stop step fuel x s = some s' ↔
    ∃ xs, Visits next stop x xs ∧ xs.length ≤ fuel ∧ xs.foldl step s = s' := by
  induction fuel generalizing x s with
  | zero =>
    constructor
    · nofun
    · rintro ⟨xs, hvisits, hlen, _⟩
      cases hvisits with
      | last => simp at hlen
      | more => simp at hlen
  | succ fuel ih =>
    rw [walk]
    constructor
    · intro h
      by_cases hends : next x = stop
      · rw [if_pos hends] at h
        exact ⟨[x], .last hends, by simp, Option.some.inj h⟩
      · rw [if_neg hends] at h
        obtain ⟨xs, hvisits, hlen, hfold⟩ := ih.mp h
        exact ⟨x :: xs, .more hends hvisits, Nat.succ_le_succ hlen, hfold⟩
    · rintro ⟨xs, hvisits, hlen, hfold⟩
      cases hvisits with
      | last hends =>
        rw [if_pos hends]
        exact congrArg some hfold
      | more hon hrest =>
        rw [if_neg hon]
        exact ih.mpr ⟨_, hrest, Nat.le_of_succ_le_succ hlen, hfold⟩

end Walk

end CProgram
