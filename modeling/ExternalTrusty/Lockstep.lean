import ExternalTrusty.SentMessages
import ExternalTrusty.SameBytes

namespace ExternalTrusty

open CMemory

/-- An append that does the same in two memories which agree on what it is given. -/
def Lockstep (append : Ptr Obj → Mem Obj → Ptr Obj × Mem Obj) (given : Set (Obj × Nat)) : Prop :=
  ∀ out m m' S, given ⊆ S → Set.EqOn m.cells m'.cells S →
    (append out m).1 = (append out m').1 ∧
      Set.EqOn (append out m).2.cells (append out m').2.cells S

/-- The cells of an argument's data. -/
def dataCells (data : Option (Ptr Obj)) (n : UInt32) : Set (Obj × Nat) :=
  {x | ∃ p ∈ data, x ∈ p.span n.toNat}

theorem span_dataCells {data : Option (Ptr Obj)} {p : Ptr Obj} (h : p ∈ data) (n : UInt32) :
    p.span n.toNat ⊆ dataCells data n := fun _ inside => ⟨p, h, inside⟩

theorem Lockstep.mono {append : Ptr Obj → Mem Obj → Ptr Obj × Mem Obj} {S T : Set (Obj × Nat)}
    (h : Lockstep append S) (sub : S ⊆ T) : Lockstep append T :=
  fun out m m' U inside => h out m m' U (sub.trans inside)

theorem Lockstep.trans {f g : Ptr Obj → Mem Obj → Ptr Obj × Mem Obj} {S : Set (Obj × Nat)}
    (hf : Lockstep f S) (hg : Lockstep g S) :
    Lockstep (fun out m => g (f out m).1 (f out m).2) S := by
  intro out m m' T inside same
  obtain ⟨place, after⟩ := hf out m m' T inside same
  simp only [place]
  exact hg _ _ _ T inside after

theorem appendUint32ToBuf_lockstep (val : UInt32) (S : Set (Obj × Nat)) :
    Lockstep (fun out m => appendUint32ToBuf out val m) S := by
  intro out m m' T _ same
  exact ⟨rfl, (eqOn_store same out 4 val.toNat).mono Set.subset_union_left⟩

theorem appendToBuf_lockstep (data : Option (Ptr Obj)) (n : UInt32) :
    Lockstep (fun out m => appendToBuf out data n.toNat m) (dataCells data n) := by
  intro out m m' S inside same
  cases data with
  | none => exact ⟨rfl, same⟩
  | some p =>
    refine ⟨rfl, ?_⟩
    have bytes := read_eq_of_eqOn same ((span_dataCells rfl n).trans inside)
    show Set.EqOn (if n.toNat ≠ 0 then (m.touch p n.toNat).write out (m.read p n.toNat)
      else m).cells (if n.toNat ≠ 0 then (m'.touch p n.toNat).write out (m'.read p n.toNat)
      else m').cells S
    by_cases some : n.toNat ≠ 0
    · have touched : Set.EqOn (m.touch p n.toNat).cells (m'.touch p n.toNat).cells S := same
      rw [if_pos some, if_pos some, bytes]
      exact (eqOn_write touched out _).mono Set.subset_union_left
    · rw [if_neg some, if_neg some]
      exact same

theorem appendSizedBufToBuf_lockstep (data : Option (Ptr Obj)) (n : UInt32) :
    Lockstep (fun out m => appendSizedBufToBuf out data n m) (dataCells data n) :=
  (appendUint32ToBuf_lockstep n _).trans (appendToBuf_lockstep data n)

namespace KmSerializable

/-- The cells of the data that is serialized. -/
def given : KmSerializable → Set (Obj × Nat)
  | bootParams p => dataCells p.verifiedBootKeyHash p.verifiedBootKeyHashSize ∪
      dataCells p.verifiedBootHash p.verifiedBootHashSize
  | attestationData d => dataCells d.data d.dataSize
  | rawBuffer b => dataCells b.data b.dataSize

def append : KmSerializable → Ptr Obj → Mem Obj → Ptr Obj × Mem Obj
  | bootParams p => appendBootParams p
  | attestationData d => appendAttestationData d
  | rawBuffer b => fun out m => appendSizedBufToBuf out b.data b.dataSize m

theorem append_lockstep (s : KmSerializable) : Lockstep s.append s.given := by
  cases s with
  | bootParams p =>
    exact (appendUint32ToBuf_lockstep p.osVersion _).trans
      ((appendUint32ToBuf_lockstep p.osPatchlevel _).trans
      ((appendUint32ToBuf_lockstep p.deviceLocked _).trans
      ((appendUint32ToBuf_lockstep p.verifiedBootState _).trans
      (((appendSizedBufToBuf_lockstep p.verifiedBootKeyHash p.verifiedBootKeyHashSize).mono
        Set.subset_union_left).trans
      ((appendSizedBufToBuf_lockstep p.verifiedBootHash p.verifiedBootHashSize).mono
        Set.subset_union_right)))))
  | attestationData d =>
    exact (appendUint32ToBuf_lockstep d.algorithm _).trans
      (appendSizedBufToBuf_lockstep d.data d.dataSize)
  | rawBuffer b => exact appendSizedBufToBuf_lockstep b.data b.dataSize

theorem serialized_eq (s : KmSerializable) (heap : Nat → Option Nat) (m : Mem Obj) :
    s.serialized heap m = serialize heap s.size s.append m := by
  cases s with
  | bootParams p => rfl
  | attestationData d => rfl
  | rawBuffer b => rfl

end KmSerializable

/-- What is allocated is zeroed, whatever was there. -/
theorem trustyCalloc_lockstep {heap : Nat → Option Nat} {n k : Nat} {m m' : Mem Obj}
    {S : Set (Obj × Nat)} (picked : heap n = some k) (same : Set.EqOn m.cells m'.cells S) :
    ∃ m₁ m₁', trustyCalloc heap n m = some (⟨.heap k, 0⟩, m₁) ∧
      trustyCalloc heap n m' = some (⟨.heap k, 0⟩, m₁') ∧
      Set.EqOn m₁.cells m₁'.cells (S ∪ Ptr.span ⟨.heap k, 0⟩ n) := by
  rw [trustyCalloc, trustyCalloc, picked]
  refine ⟨_, _, rfl, rfl, ?_⟩
  rintro ⟨b, i⟩ inside
  show (if b = .heap k ∧ i < n then 0 else m.bytes b i) =
    if b = .heap k ∧ i < n then 0 else m'.bytes b i
  by_cases zeroed : b = .heap k ∧ i < n
  · rw [if_pos zeroed, if_pos zeroed]
  · rw [if_neg zeroed, if_neg zeroed]
    rcases inside with inside | ⟨block, _, high⟩
    · exact same inside
    · have high : i < 0 + n := high
      exact absurd ⟨block, by omega⟩ zeroed

theorem serialize_outSize (heap : Nat → Option Nat) (n : Nat)
    (append : Ptr Obj → Mem Obj → Ptr Obj × Mem Obj) (m : Mem Obj) :
    (serialize heap n append m).outSize = u32 (usize n) := by
  cases picked : trustyCalloc heap (u32 (usize n)) m with
  | none => simp only [serialize, picked]
  | some block => simp only [serialize, picked]

/-- Two serializations of the same data come to the same bytes. -/
theorem serialize_lockstep {heap : Nat → Option Nat} {n : Nat}
    {append : Ptr Obj → Mem Obj → Ptr Obj × Mem Obj} {m m' : Mem Obj} {S : Set (Obj × Nat)}
    (h : Lockstep append S) (same : Set.EqOn m.cells m'.cells S) :
    (serialize heap n append m).rc = (serialize heap n append m').rc ∧
      (serialize heap n append m).out = (serialize heap n append m').out ∧
      (serialize heap n append m).outSize = (serialize heap n append m').outSize ∧
      ∀ out ∈ (serialize heap n append m).out,
        (serialize heap n append m).mem.read out (serialize heap n append m).outSize =
          (serialize heap n append m').mem.read out (serialize heap n append m).outSize := by
  cases picked : heap (u32 (usize n)) with
  | none =>
    have refused : ∀ m : Mem Obj, trustyCalloc heap (u32 (usize n)) m = none := by
      intro m
      rw [trustyCalloc, picked]
      rfl
    simp only [serialize, refused]
    refine ⟨trivial, trivial, trivial, ?_⟩
    intro out there
    cases there
  | some k =>
    obtain ⟨m₁, m₁', calloc, calloc', zeroed⟩ := trustyCalloc_lockstep picked same
    obtain ⟨_, after⟩ := h ⟨.heap k, 0⟩ m₁ m₁' _ Set.subset_union_left zeroed
    simp only [serialize, calloc, calloc']
    refine ⟨trivial, trivial, trivial, ?_⟩
    intro out there
    rw [← Option.some.inj there]
    exact read_eq_of_eqOn after Set.subset_union_right

end ExternalTrusty
