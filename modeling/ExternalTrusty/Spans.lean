import Mathlib.Data.Set.Lattice
import Mathlib.Order.CompletePartialOrder
import Mathlib.Order.Interval.Set.Basic

namespace CMemory

variable {α : Type} [Preorder α]

/-- A range of addresses, from `lo` up to but without `hi`. -/
structure Span (α : Type) [LE α] where
  lo : α
  hi : α
  le : lo ≤ hi

def Span.points (s : Span α) : Set α := Set.Ico s.lo s.hi

/-- Spans that were cut off one behind another, from the first point up to the last. -/
inductive Carved : α → List (Span α) → α → Prop
  | none (u : α) : Carved u [] u
  | next (s : Span α) {ss : List (Span α)} {e : α} (rest : Carved s.hi ss e) :
    Carved s.lo (s :: ss) e

variable {u e : α} {ss : List (Span α)}

theorem Carved.le (h : Carved u ss e) : u ≤ e := by
  induction h with
  | none => exact le_rfl
  | next s _ ih => exact s.le.trans ih

theorem Carved.inside (h : Carved u ss e) {s : Span α} (hs : s ∈ ss) : u ≤ s.lo ∧ s.hi ≤ e := by
  induction h with
  | none => cases hs
  | next t hrest ih =>
    rcases List.mem_cons.mp hs with rfl | hs
    · exact ⟨le_rfl, hrest.le⟩
    · exact ⟨t.le.trans (ih hs).1, (ih hs).2⟩

theorem Span.disjoint_of_le {s t : Span α} (h : s.hi ≤ t.lo) : Disjoint s.points t.points := by
  rw [Set.disjoint_left]
  rintro x ⟨_, hlt⟩ ⟨hle, _⟩
  exact lt_irrefl x (hlt.trans_le (h.trans hle))

theorem Carved.apart (h : Carved u ss e) :
    ss.Pairwise fun s t => Disjoint s.points t.points := by
  induction h with
  | none => exact List.Pairwise.nil
  | next s hrest ih =>
    refine List.pairwise_cons.mpr ⟨?_, ih⟩
    intro t ht
    exact Span.disjoint_of_le (hrest.inside ht).1

end CMemory
