import ExternalTrusty.Memory

namespace CMemory

variable {β : Type}

/-- An integer field of a record: where it is, and what is put there. -/
structure Field where
  off : Nat
  width : Nat
  value : Nat

/-- Fields that lie in order, none reaching into the next. -/
def Field.Before (f g : Field) : Prop := f.off + f.width ≤ g.off

theorem apart_fields (p : Ptr β) {f g : Field} (h : f.Before g ∨ g.Before f) :
    Apart (p.add f.off) f.width (p.add g.off) g.width := by
  unfold Field.Before at h
  refine Or.inr (Or.inr (Or.inr ?_))
  simp only [Ptr.add_off]
  omega

variable [DecidableEq β]

/-- Set the fields of the record at `p`, one after the other. -/
def Mem.storeFields (m : Mem β) (p : Ptr β) : List Field → Mem β
  | [] => m
  | f :: fs => (m.store (p.add f.off) f.width f.value).storeFields p fs

theorem load_storeFields_apart (m : Mem β) (p : Ptr β) {fs : List Field} {g : Field}
    (h : ∀ f ∈ fs, f.Before g ∨ g.Before f) :
    (m.storeFields p fs).load (p.add g.off) g.width = m.load (p.add g.off) g.width := by
  induction fs generalizing m with
  | nil => rfl
  | cons f fs ih =>
    obtain ⟨hf, hfs⟩ := List.forall_mem_cons.mp h
    rw [Mem.storeFields, ih _ hfs]
    exact Mem.load_store_apart m (apart_fields p hf)

/-- A field that was set has its value. -/
theorem load_storeFields_mem (m : Mem β) (p : Ptr β) {fs : List Field} {g : Field}
    (hg : g ∈ fs) (hfs : fs.Pairwise Field.Before) (hv : g.value < 256 ^ g.width) :
    (m.storeFields p fs).load (p.add g.off) g.width = g.value := by
  induction fs generalizing m with
  | nil => exact absurd hg List.not_mem_nil
  | cons f fs ih =>
    obtain ⟨hf, hrest⟩ := List.pairwise_cons.mp hfs
    rcases List.mem_cons.mp hg with rfl | hg
    · rw [Mem.storeFields, load_storeFields_apart _ p fun f hm => Or.inr (hf f hm)]
      exact Mem.load_store_self m _ hv
    · exact ih _ hg hrest

/-- Beyond the record, nothing changes. -/
theorem storeFields_bytes_out (m : Mem β) (p : Ptr β) {fs : List Field} {size i : Nat}
    (hfs : ∀ f ∈ fs, f.off + f.width ≤ size) (hi : p.off + size ≤ i) :
    (m.storeFields p fs).bytes p.block i = m.bytes p.block i := by
  induction fs generalizing m with
  | nil => rfl
  | cons f fs ih =>
    obtain ⟨hf, hrest⟩ := List.forall_mem_cons.mp hfs
    rw [Mem.storeFields, ih _ hrest]
    apply Mem.write_bytes_out
    rw [leBytes_length, Ptr.add_off]
    omega

end CMemory
