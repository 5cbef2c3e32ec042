import ExternalTrusty.ScatterGather
import Mathlib.Data.Set.Function

namespace CMemory

open Set

variable {β : Type}

/-- The contents of a memory, as one function of the object and the offset. -/
abbrev Mem.cells (m : Mem β) : β × Nat → UInt8 := Function.uncurry m.bytes

/-- The cells of `n` bytes at a location. -/
def Ptr.span (p : Ptr β) (n : Nat) : Set (β × Nat) :=
  {x | x.1 = p.block ∧ p.off ≤ x.2 ∧ x.2 < p.off + n}

theorem Ptr.span_add (p : Ptr β) (n k : Nat) : p.span (n + k) = p.span n ∪ (p.add n).span k := by
  ext x
  simp only [Ptr.span, Ptr.add_block, Ptr.add_off, mem_ofPred_eq, mem_union, ← and_or_left]
  refine and_congr_right fun _ => ?_
  omega

/-- Two memories that agree on a range read the same there. -/
theorem eqOn_span_iff {m m' : Mem β} {p : Ptr β} {n : Nat} :
    EqOn m.cells m'.cells (p.span n) ↔ m.read p n = m'.read p n := by
  constructor
  · intro same
    apply List.ext_getElem
    · simp
    · intro i hi _
      rw [Mem.read_length] at hi
      rw [Mem.read_getElem, Mem.read_getElem]
      exact @same (p.block, p.off + i) ⟨rfl, by omega, by omega⟩
  · rintro same ⟨b, i⟩ ⟨rfl, low, high⟩
    have len : i - p.off < (m.read p n).length := by
      rw [Mem.read_length]
      omega
    have at_ : ∀ (m : Mem β) (h : i - p.off < (m.read p n).length),
        (m.read p n)[i - p.off] = m.bytes p.block i := by
      intro m h
      rw [Mem.read_getElem, show p.off + (i - p.off) = i by omega]
    show m.bytes p.block i = m'.bytes p.block i
    rw [← at_ m len, ← at_ m' (by rwa [Mem.read_length] at len ⊢)]
    simp only [same]

theorem read_eq_of_eqOn {m m' : Mem β} {S : Set (β × Nat)} (same : EqOn m.cells m'.cells S)
    {p : Ptr β} {n : Nat} (inside : p.span n ⊆ S) : m.read p n = m'.read p n :=
  eqOn_span_iff.mp (same.mono inside)

theorem gather_eq_of_eqOn {m m' : Mem β} {S : Set (β × Nat)} (same : EqOn m.cells m'.cells S)
    {segs : List (Seg β)} (inside : ∀ v ∈ segs, v.base.span v.len ⊆ S) :
    gather m segs = gather m' segs :=
  gather_eq_of_reads fun v mem => read_eq_of_eqOn same (inside v mem)

variable [DecidableEq β]

/-- What is written to both memories is the same in both. -/
theorem eqOn_write {m m' : Mem β} {S : Set (β × Nat)} (same : EqOn m.cells m'.cells S) (p : Ptr β)
    (bs : List UInt8) :
    EqOn (m.write p bs).cells (m'.write p bs).cells (S ∪ p.span bs.length) := by
  rintro ⟨b, i⟩ inside
  show (m.write p bs).bytes b i = (m'.write p bs).bytes b i
  by_cases written : b = p.block ∧ p.off ≤ i ∧ i < p.off + bs.length
  · obtain ⟨rfl, low, high⟩ := written
    rw [Mem.write_bytes_in m low (by omega), Mem.write_bytes_in m' low (by omega)]
  · have out : b ≠ p.block ∨ i < p.off ∨ p.off + bs.length ≤ i := by
      by_cases block : b = p.block
      · exact Or.inr (by
          by_contra between
          exact written ⟨block, by omega, by omega⟩)
      · exact Or.inl block
    rw [Mem.write_bytes_out m out, Mem.write_bytes_out m' out]
    rcases inside with inside | inside
    · exact same inside
    · exact absurd inside written

theorem eqOn_store {m m' : Mem β} {S : Set (β × Nat)} (same : EqOn m.cells m'.cells S) (p : Ptr β)
    (n v : Nat) : EqOn (m.store p n v).cells (m'.store p n v).cells (S ∪ p.span n) := by
  have written := eqOn_write same p (leBytes n v)
  rwa [leBytes_length] at written

/-- Just after a write, the two memories agree on what was written. -/
theorem eqOn_write_self (m m' : Mem β) (p : Ptr β) (bs : List UInt8) :
    EqOn (m.write p bs).cells (m'.write p bs).cells (p.span bs.length) :=
  (eqOn_write (eqOn_empty m.cells m'.cells) p bs).mono subset_union_right

theorem eqOn_store_self (m m' : Mem β) (p : Ptr β) (n v : Nat) :
    EqOn (m.store p n v).cells (m'.store p n v).cells (p.span n) :=
  (eqOn_store (eqOn_empty m.cells m'.cells) p n v).mono subset_union_right

end CMemory
