import ExternalTrusty.World

namespace ExternalTrusty

open CMemory

/-- `append_to_buf`: the place after the data, which is only copied when there is some. -/
def appendToBuf (buf : Ptr Obj) (data : Option (Ptr Obj)) (dataLen : Nat) (m : Mem Obj) :
    Ptr Obj × Mem Obj :=
  match data with
  | some p =>
    (buf.add dataLen,
      if dataLen ≠ 0 then (m.touch p dataLen).write buf (m.read p dataLen) else m)
  | none => (buf.add dataLen, m)

def appendUint32ToBuf (buf : Ptr Obj) (val : UInt32) (m : Mem Obj) : Ptr Obj × Mem Obj :=
  (buf.add 4, m.store buf 4 val.toNat)

def appendSizedBufToBuf (buf : Ptr Obj) (data : Option (Ptr Obj)) (dataLen : UInt32)
    (m : Mem Obj) : Ptr Obj × Mem Obj :=
  let (buf, m) := appendUint32ToBuf buf dataLen m
  appendToBuf buf data dataLen.toNat m

/-- `trusty_calloc`, for an allocator that picks an object for a size or has none left. -/
def trustyCalloc (heap : Nat → Option Nat) (size : Nat) (m : Mem Obj) :
    Option (Ptr Obj × Mem Obj) :=
  (heap size).map fun n => (⟨.heap n, 0⟩,
    { m with bytes := fun b i => if b = .heap n ∧ i < size then 0 else m.bytes b i })

structure KmBootParams where
  osVersion : UInt32
  osPatchlevel : UInt32
  deviceLocked : UInt32
  verifiedBootState : UInt32
  verifiedBootKeyHashSize : UInt32
  verifiedBootKeyHash : Option (Ptr Obj)
  verifiedBootHashSize : UInt32
  verifiedBootHash : Option (Ptr Obj)

structure KmAttestationData where
  algorithm : UInt32
  dataSize : UInt32
  data : Option (Ptr Obj)

structure KmRawBuffer where
  dataSize : UInt32
  data : Option (Ptr Obj)

/-- What a serialize function leaves: `*out` and `*out_size`, the size that was allocated, and
the place after the last byte it appended. -/
structure Serialized where
  rc : Int
  out : Option (Ptr Obj)
  outSize : Nat
  allocated : Nat
  tmp : Option (Ptr Obj)
  mem : Mem Obj

/-- The common course of the serialize functions, whose pointers are not null. The sum of the sizes
is a `size_t`, and `*out_size` keeps 32 bits of it. -/
def serialize (heap : Nat → Option Nat) (size : Nat)
    (append : Ptr Obj → Mem Obj → Ptr Obj × Mem Obj) (m : Mem Obj) : Serialized :=
  let outSize := u32 (usize size)
  match trustyCalloc heap outSize m with
  | none => ⟨trustyErrNoMemory, none, outSize, 0, none, m⟩
  | some (out, m) =>
    let r := append out m
    ⟨trustyErrNone, some out, outSize, outSize, some r.1, r.2⟩

def appendBootParams (params : KmBootParams) (out : Ptr Obj) (m : Mem Obj) : Ptr Obj × Mem Obj :=
  let (tmp, m) := appendUint32ToBuf out params.osVersion m
  let (tmp, m) := appendUint32ToBuf tmp params.osPatchlevel m
  let (tmp, m) := appendUint32ToBuf tmp params.deviceLocked m
  let (tmp, m) := appendUint32ToBuf tmp params.verifiedBootState m
  let (tmp, m) :=
    appendSizedBufToBuf tmp params.verifiedBootKeyHash params.verifiedBootKeyHashSize m
  appendSizedBufToBuf tmp params.verifiedBootHash params.verifiedBootHashSize m

def kmBootParamsSerialize (heap : Nat → Option Nat) (params : KmBootParams) (m : Mem Obj) :
    Serialized :=
  serialize heap (4 + 4 + 4 + 4 + 4 + 4 + params.verifiedBootKeyHashSize.toNat +
    params.verifiedBootHashSize.toNat) (appendBootParams params) m

def appendAttestationData (data : KmAttestationData) (out : Ptr Obj) (m : Mem Obj) :
    Ptr Obj × Mem Obj :=
  let (tmp, m) := appendUint32ToBuf out data.algorithm m
  appendSizedBufToBuf tmp data.data data.dataSize m

def kmAttestationDataSerialize (heap : Nat → Option Nat) (data : KmAttestationData)
    (m : Mem Obj) : Serialized :=
  serialize heap (4 + 4 + data.dataSize.toNat) (appendAttestationData data) m

def kmRawBufferSerialize (heap : Nat → Option Nat) (buf : KmRawBuffer) (m : Mem Obj) :
    Serialized :=
  serialize heap (4 + buf.dataSize.toNat)
    (fun out m => appendSizedBufToBuf out buf.data buf.dataSize m) m

/-- An append that goes `n` bytes forward and stores nothing outside them. -/
def Advances (append : Ptr Obj → Mem Obj → Ptr Obj × Mem Obj) (n : Nat) : Prop :=
  ∀ out m, (append out m).1 = out.add n ∧
    ∃ S, Footprint .store m (append out m).2 S ∧
      ∀ b i, S b i → b = out.block ∧ out.off ≤ i ∧ i < out.off + n

theorem Advances.trans {f g : Ptr Obj → Mem Obj → Ptr Obj × Mem Obj} {n k : Nat}
    (hf : Advances f n) (hg : Advances g k) :
    Advances (fun out m => g (f out m).1 (f out m).2) (n + k) := by
  intro out m
  obtain ⟨hadv, S, hS, hin⟩ := hf out m
  obtain ⟨hadv', T, hT, hin'⟩ := hg (f out m).1 (f out m).2
  rw [hadv] at hin'
  refine ⟨?_, _, hS.trans hT, ?_⟩
  · show (g (f out m).1 (f out m).2).1 = out.add (n + k)
    rw [hadv', hadv, Ptr.add_assoc]
  · intro b i h
    rcases h with ht | hs
    · obtain ⟨hb, hlo, hhi⟩ := hin' b i ht
      simp only [Ptr.add_block, Ptr.add_off] at hb hlo hhi
      exact ⟨hb, by omega, by omega⟩
    · obtain ⟨hb, hlo, hhi⟩ := hin b i hs
      exact ⟨hb, hlo, by omega⟩

theorem appendUint32ToBuf_advances (val : UInt32) :
    Advances (fun out m => appendUint32ToBuf out val m) 4 := by
  intro out m
  refine ⟨rfl, _, Footprint.store m out 4 val.toNat, ?_⟩
  rintro b i ⟨rfl, hlo, hhi⟩
  exact ⟨rfl, hlo, hhi⟩

theorem appendToBuf_advances (data : Option (Ptr Obj)) (n : Nat) :
    Advances (fun out m => appendToBuf out data n m) n := by
  intro out m
  have hnone : ∀ b i, False → b = out.block ∧ out.off ≤ i ∧ i < out.off + n := fun _ _ h => h.elim
  cases data with
  | none => exact ⟨rfl, _, Footprint.refl _ m, hnone⟩
  | some p =>
    refine ⟨rfl, ?_⟩
    simp only [appendToBuf]
    by_cases hn : n ≠ 0
    · rw [if_pos hn]
      have hstore := (Footprint.touch_stores m p n).trans
        (Footprint.write (m.touch p n) out (m.read p n))
      refine ⟨_, hstore, ?_⟩
      rintro b i (⟨rfl, hlo, hhi⟩ | hf)
      · rw [Mem.read_length] at hhi
        exact ⟨rfl, hlo, hhi⟩
      · exact hf.elim
    · rw [if_neg hn]
      exact ⟨_, Footprint.refl _ m, hnone⟩

theorem appendSizedBufToBuf_advances (data : Option (Ptr Obj)) (n : UInt32) :
    Advances (fun out m => appendSizedBufToBuf out data n m) (4 + n.toNat) :=
  (appendUint32ToBuf_advances n).trans (appendToBuf_advances data n.toNat)

/-- On success `*out_size` is what the appends go forward by and what was allocated, and they
store inside that. -/
def SerializedExactly (m : Mem Obj) (s : Serialized) : Prop :=
  s.rc = trustyErrNone → ∃ out, s.out = some out ∧ s.tmp = some (out.add s.outSize) ∧
    s.allocated = s.outSize ∧
    ∀ i, Covers .store (s.mem.since m) out.block i → out.off ≤ i ∧ i < out.off + s.outSize

theorem serialize_failed {heap : Nat → Option Nat} {n : Nat}
    {append : Ptr Obj → Mem Obj → Ptr Obj × Mem Obj} {m : Mem Obj}
    (h : heap (u32 (usize n)) = none) : SerializedExactly m (serialize heap n append m) := by
  have hnone : trustyErrNoMemory ≠ trustyErrNone := by decide
  have hcalloc : trustyCalloc heap (u32 (usize n)) m = none := by rw [trustyCalloc, h]; rfl
  intro hrc
  simp only [serialize, hcalloc] at hrc
  exact absurd hrc hnone

theorem serialize_exact_iff {heap : Nat → Option Nat} {n : Nat}
    {append : Ptr Obj → Mem Obj → Ptr Obj × Mem Obj} {m : Mem Obj} (hadv : Advances append n)
    (hn : n < 2 ^ 64) : SerializedExactly m (serialize heap n append m) ↔
      heap (u32 n) = none ∨ n < 2 ^ 32 := by
  have hsize : usize n = n := Nat.mod_eq_of_lt hn
  cases hheap : heap (u32 n) with
  | none => exact iff_of_true (serialize_failed (by rw [hsize, hheap])) (Or.inl rfl)
  | some k =>
    obtain ⟨m₁, hcalloc, hlog⟩ : ∃ m₁, trustyCalloc heap (u32 n) m = some (⟨.heap k, 0⟩, m₁) ∧
        m₁.log = m.log := by
      rw [trustyCalloc, hheap]
      exact ⟨_, rfl, rfl⟩
    obtain ⟨htmp, S, ⟨new, hnew, hcov⟩, hin⟩ := hadv ⟨.heap k, 0⟩ m₁
    rw [hlog] at hnew
    have hsince : (append ⟨.heap k, 0⟩ m₁).2.since m = new := Mem.since_eq hnew
    simp only [SerializedExactly, serialize, hsize, hcalloc, htmp, hsince]
    rw [or_iff_right nofun]
    constructor
    · intro h
      obtain ⟨out, hout, hend, _⟩ := h trivial
      have hoff := congrArg (fun p : Option (Ptr Obj) => p.map (·.off)) hend
      rw [← Option.some.inj hout] at hoff
      simp only [Option.map_some, Ptr.add_off, Option.some.injEq] at hoff
      unfold u32 at hoff
      omega
    · intro hlt _
      have hu : u32 n = n := Nat.mod_eq_of_lt hlt
      rw [hu]
      refine ⟨_, rfl, rfl, trivial, ?_⟩
      intro i hi
      exact (hin _ i ((hcov _ i).mp hi)).2

/-- What the serialize functions are given. -/
inductive KmSerializable
  | bootParams (params : KmBootParams)
  | attestationData (data : KmAttestationData)
  | rawBuffer (buf : KmRawBuffer)

def KmSerializable.serialized (heap : Nat → Option Nat) (m : Mem Obj) :
    KmSerializable → Serialized
  | .bootParams params => kmBootParamsSerialize heap params m
  | .attestationData data => kmAttestationDataSerialize heap data m
  | .rawBuffer buf => kmRawBufferSerialize heap buf m

/-- The number of bytes of the serialized form. -/
def KmSerializable.size : KmSerializable → Nat
  | .bootParams params =>
    24 + params.verifiedBootKeyHashSize.toNat + params.verifiedBootHashSize.toNat
  | .attestationData data => 8 + data.dataSize.toNat
  | .rawBuffer buf => 4 + buf.dataSize.toNat

theorem appendBootParams_advances (params : KmBootParams) :
    Advances (appendBootParams params) (KmSerializable.bootParams params).size := by
  have h := (((((appendUint32ToBuf_advances params.osVersion).trans
    (appendUint32ToBuf_advances params.osPatchlevel)).trans
    (appendUint32ToBuf_advances params.deviceLocked)).trans
    (appendUint32ToBuf_advances params.verifiedBootState)).trans
    (appendSizedBufToBuf_advances params.verifiedBootKeyHash params.verifiedBootKeyHashSize)).trans
    (appendSizedBufToBuf_advances params.verifiedBootHash params.verifiedBootHashSize)
  have hsize : (KmSerializable.bootParams params).size =
      4 + 4 + 4 + 4 + (4 + params.verifiedBootKeyHashSize.toNat) +
        (4 + params.verifiedBootHashSize.toNat) := by
    simp only [KmSerializable.size]
    omega
  rw [hsize]
  exact h

theorem appendAttestationData_advances (data : KmAttestationData) :
    Advances (appendAttestationData data) (KmSerializable.attestationData data).size := by
  have h := (appendUint32ToBuf_advances data.algorithm).trans
    (appendSizedBufToBuf_advances data.data data.dataSize)
  rw [← Nat.add_assoc] at h
  exact h

/-- Exactly when the size of a serialized form is right: it fits 32 bits, or nothing could be
allocated for what is left of it. -/
theorem kmSerializable_exact_iff (s : KmSerializable) (heap : Nat → Option Nat) (m : Mem Obj) :
    SerializedExactly m (s.serialized heap m) ↔ heap (u32 s.size) = none ∨ s.size < 2 ^ 32 := by
  cases s with
  | bootParams params =>
    have h1 := params.verifiedBootKeyHashSize.toNat_lt
    have h2 := params.verifiedBootHashSize.toNat_lt
    exact serialize_exact_iff (appendBootParams_advances params) (by omega)
  | attestationData data =>
    have h1 := data.dataSize.toNat_lt
    exact serialize_exact_iff (appendAttestationData_advances data) (by omega)
  | rawBuffer buf =>
    have h1 := buf.dataSize.toNat_lt
    exact serialize_exact_iff (appendSizedBufToBuf_advances buf.data buf.dataSize) (by omega)

/-- A key of 2³² - 1 bytes: seven bytes are allocated for the serialized form. -/
def hugeKey : KmAttestationData := ⟨1, 0xffffffff, some ⟨.caller 0, 0⟩⟩

theorem hugeKey_inexact :
    ¬SerializedExactly ⟨fun _ _ => 0, []⟩
      (kmAttestationDataSerialize (fun _ => some 0) hugeKey ⟨fun _ _ => 0, []⟩) := by
  intro h
  have hlt := (serialize_exact_iff (appendAttestationData_advances hugeKey) (by decide)).mp h
  exact absurd hlt (by decide)

end ExternalTrusty
