import ExternalTrusty.KeymasterSerializable
import ExternalTrusty.Codec

namespace ExternalTrusty

open CMemory

/-- What is serialized: the fields, and the bytes in place of pointers and sizes. -/
inductive KmValue
  | bootParams (osVersion osPatchlevel deviceLocked verifiedBootState : UInt32)
    (verifiedBootKeyHash verifiedBootHash : List UInt8)
  | attestationData (algorithm : UInt32) (data : List UInt8)
  | rawBuffer (data : List UInt8)

inductive KmFormat
  | bootParams
  | attestationData
  | rawBuffer
  deriving DecidableEq

def bootParamsCodec : Codec (UInt32 × UInt32 × UInt32 × UInt32 × List UInt8 × List UInt8) :=
  Codec.uint32.pair (Codec.uint32.pair (Codec.uint32.pair (Codec.uint32.pair
    (Codec.sized.pair Codec.sized))))

def attestationDataCodec : Codec (UInt32 × List UInt8) := Codec.uint32.pair Codec.sized

def KmValue.format : KmValue → KmFormat
  | bootParams .. => .bootParams
  | attestationData .. => .attestationData
  | rawBuffer .. => .rawBuffer

def KmValue.encode : KmValue → List UInt8
  | bootParams version patchlevel locked state keyHash hash =>
    bootParamsCodec.encode (version, patchlevel, locked, state, keyHash, hash)
  | attestationData algorithm data => attestationDataCodec.encode (algorithm, data)
  | rawBuffer data => Codec.sized.encode data

/-- The reader of a format: it takes the fields in their declared order. -/
def KmFormat.decode : KmFormat → List UInt8 → Option (KmValue × List UInt8)
  | bootParams, bs => do
    let ((version, patchlevel, locked, state, keyHash, hash), bs) ← bootParamsCodec.decode bs
    some (.bootParams version patchlevel locked state keyHash hash, bs)
  | attestationData, bs => do
    let ((algorithm, data), bs) ← attestationDataCodec.decode bs
    some (.attestationData algorithm data, bs)
  | rawBuffer, bs => do
    let (data, bs) ← Codec.sized.decode bs
    some (.rawBuffer data, bs)

/-- The bytes behind a pointer; behind a null pointer there are zeros. -/
def dataBytes (m : Mem Obj) (data : Option (Ptr Obj)) (n : UInt32) : List UInt8 :=
  match data with
  | some p => m.read p n.toNat
  | none => List.replicate n.toNat 0

namespace KmSerializable

def format : KmSerializable → KmFormat
  | bootParams _ => .bootParams
  | attestationData _ => .attestationData
  | rawBuffer _ => .rawBuffer

def value (m : Mem Obj) : KmSerializable → KmValue
  | bootParams p => .bootParams p.osVersion p.osPatchlevel p.deviceLocked p.verifiedBootState
      (dataBytes m p.verifiedBootKeyHash p.verifiedBootKeyHashSize)
      (dataBytes m p.verifiedBootHash p.verifiedBootHashSize)
  | attestationData d => .attestationData d.algorithm (dataBytes m d.data d.dataSize)
  | rawBuffer b => .rawBuffer (dataBytes m b.data b.dataSize)

/-- The data pointers, where they are not null. -/
def pointers : KmSerializable → List (Ptr Obj)
  | bootParams p => p.verifiedBootKeyHash.toList ++ p.verifiedBootHash.toList
  | attestationData d => d.data.toList
  | rawBuffer b => b.data.toList

/-- What is allocated for the serialized form is a block of its own. -/
def Fresh (s : KmSerializable) (heap : Nat → Option Nat) : Prop :=
  ∀ k, heap (u32 s.size) = some k → ∀ p ∈ s.pointers, p.block ≠ .heap k

end KmSerializable

theorem dataBytes_length (m : Mem Obj) (data : Option (Ptr Obj)) (n : UInt32) :
    (dataBytes m data n).length = n.toNat := by
  cases data with
  | none => exact List.length_replicate
  | some p => exact Mem.read_length m p n.toNat

theorem decode_value (s : KmSerializable) (m : Mem Obj) :
    s.format.decode (s.value m).encode = some (s.value m, []) := by
  have fits : ∀ (data : Option (Ptr Obj)) (n : UInt32), (dataBytes m data n).length < 2 ^ 32 := by
    intro data n
    rw [dataBytes_length]
    exact n.toNat_lt
  cases s with
  | bootParams p =>
    have back := bootParamsCodec.decode_encode (a := (p.osVersion, p.osPatchlevel, p.deviceLocked,
      p.verifiedBootState, dataBytes m p.verifiedBootKeyHash p.verifiedBootKeyHashSize,
      dataBytes m p.verifiedBootHash p.verifiedBootHashSize))
      ⟨trivial, trivial, trivial, trivial, fits _ _, fits _ _⟩
    simp only [KmSerializable.format, KmSerializable.value, KmFormat.decode, KmValue.encode, back,
      Option.bind_eq_bind, Option.bind_some]
  | attestationData d =>
    have back := attestationDataCodec.decode_encode (a := (d.algorithm,
      dataBytes m d.data d.dataSize)) ⟨trivial, fits _ _⟩
    simp only [KmSerializable.format, KmSerializable.value, KmFormat.decode, KmValue.encode, back,
      Option.bind_eq_bind, Option.bind_some]
  | rawBuffer b =>
    have back := Codec.sized.decode_encode (fits b.data b.dataSize)
    simp only [KmSerializable.format, KmSerializable.value, KmFormat.decode, KmValue.encode, back,
      Option.bind_eq_bind, Option.bind_some]

/-- An append into the fresh block leaves these bytes there: it may skip zeros. -/
def Fills (k : Nat) (m₀ : Mem Obj) (append : Ptr Obj → Mem Obj → Ptr Obj × Mem Obj)
    (bs : List UInt8) : Prop :=
  ∀ out m, out.block = .heap k →
    (∀ q n, q.block ≠ .heap k → m.read q n = m₀.read q n) →
    m.read out bs.length = List.replicate bs.length 0 →
    (append out m).1 = out.add bs.length ∧ (append out m).2.bytes = (m.write out bs).bytes

theorem Fills.trans {k : Nat} {m₀ : Mem Obj} {f g : Ptr Obj → Mem Obj → Ptr Obj × Mem Obj}
    {xs ys : List UInt8} (hf : Fills k m₀ f xs) (hg : Fills k m₀ g ys) :
    Fills k m₀ (fun out m => g (f out m).1 (f out m).2) (xs ++ ys) := by
  intro out m block given zeros
  rw [List.length_append, Mem.read_add, List.replicate_add] at zeros
  obtain ⟨left, right⟩ := List.append_inj zeros (by rw [Mem.read_length, List.length_replicate])
  obtain ⟨end₁, bytes₁⟩ := hf out m block given left
  obtain ⟨end₂, bytes₂⟩ := hg (out.add xs.length) (f out m).2 block
    (fun q n other => by
      rw [Mem.read_congr bytes₁, Mem.read_write_apart m (Or.inl (by rw [block]; exact other.symm)),
        given q n other])
    (by
      rw [Mem.read_congr bytes₁, Mem.read_write_apart m (Or.inr (by
        simp only [Ptr.add_off]
        omega)), right])
  refine ⟨?_, ?_⟩
  · show (g (f out m).1 (f out m).2).1 = _
    rw [end₁, end₂, List.length_append, Ptr.add_assoc]
  · show (g (f out m).1 (f out m).2).2.bytes = _
    rw [end₁, bytes₂, ← Mem.write_write_bytes]
    exact Mem.write_congr bytes₁ _ _

theorem appendUint32ToBuf_fills (k : Nat) (m₀ : Mem Obj) (v : UInt32) :
    Fills k m₀ (fun out m => appendUint32ToBuf out v m) (Codec.uint32.encode v) := by
  intro out m _ _ _
  exact ⟨congrArg out.add (leBytes_length 4 v.toNat).symm, rfl⟩

theorem appendToBuf_fills {k : Nat} {m₀ : Mem Obj} {data : Option (Ptr Obj)} (n : UInt32)
    (apart : ∀ p ∈ data, p.block ≠ .heap k) :
    Fills k m₀ (fun out m => appendToBuf out data n.toNat m) (dataBytes m₀ data n) := by
  intro out m block given zeros
  cases data with
  | none =>
    have same := Mem.write_read_bytes m out n.toNat
    rw [dataBytes_length] at zeros ⊢
    rw [zeros] at same
    exact ⟨rfl, same.symm⟩
  | some p =>
    have source := given p n.toNat (apart p rfl)
    have bytes : dataBytes m₀ (some p) n = m.read p n.toNat := source.symm
    rw [bytes, Mem.read_length]
    simp only [appendToBuf]
    by_cases none : n.toNat ≠ 0
    · rw [if_pos none]
      exact ⟨trivial, Mem.write_congr rfl _ _⟩
    · rw [if_neg none, not_not.mp none]
      exact ⟨trivial, (Mem.write_nil_bytes m out).symm⟩

theorem appendSizedBufToBuf_fills {k : Nat} {m₀ : Mem Obj} {data : Option (Ptr Obj)} (n : UInt32)
    (apart : ∀ p ∈ data, p.block ≠ .heap k) :
    Fills k m₀ (fun out m => appendSizedBufToBuf out data n m)
      (Codec.sized.encode (dataBytes m₀ data n)) := by
  have filled := (appendUint32ToBuf_fills k m₀ n).trans (appendToBuf_fills n apart)
  have count : Codec.sized.encode (dataBytes m₀ data n) =
      Codec.uint32.encode n ++ dataBytes m₀ data n := by
    show leBytes 4 (dataBytes m₀ data n).length ++ _ = _
    rw [dataBytes_length]
    rfl
  rw [count]
  exact filled

/-- A serialized form that fits is what its appends leave. -/
theorem serialize_fills {heap : Nat → Option Nat} {n : Nat}
    {append : Ptr Obj → Mem Obj → Ptr Obj × Mem Obj} {m : Mem Obj} {bs : List UInt8}
    (fills : ∀ k, heap (u32 n) = some k → Fills k m append bs) (len : bs.length = n)
    (small : n < 2 ^ 32) (ok : (serialize heap n append m).rc = trustyErrNone) :
    ∃ k, heap n = some k ∧ (serialize heap n append m).out = some ⟨.heap k, 0⟩ ∧
      (serialize heap n append m).outSize = bs.length ∧
      (serialize heap n append m).mem.read ⟨.heap k, 0⟩ bs.length = bs ∧
      ∀ q l, q.block ≠ .heap k → (serialize heap n append m).mem.read q l = m.read q l := by
  have size : u32 (usize n) = n := by
    rw [usize, Nat.mod_eq_of_lt (by omega), u32, Nat.mod_eq_of_lt small]
  have size₃₂ : u32 n = n := Nat.mod_eq_of_lt small
  rw [size₃₂] at fills
  cases picked : heap n with
  | none =>
    have refused : trustyCalloc heap n m = none := by rw [trustyCalloc, picked]; rfl
    simp only [serialize, size, refused] at ok
    exact absurd ok (by decide)
  | some k =>
    obtain ⟨m₁, calloc, bytes⟩ : ∃ m₁, trustyCalloc heap n m = some (⟨.heap k, 0⟩, m₁) ∧
        m₁.bytes = fun b i => if b = .heap k ∧ i < n then 0 else m.bytes b i := by
      rw [trustyCalloc, picked]
      exact ⟨_, rfl, rfl⟩
    have given : ∀ q l, q.block ≠ .heap k → m₁.read q l = m.read q l := by
      intro q l other
      simp only [Mem.read, bytes, other, false_and, if_false]
    have zeros : m₁.read ⟨.heap k, 0⟩ bs.length = List.replicate bs.length 0 := by
      rw [len]
      apply List.ext_getElem (by simp)
      intro i hi _
      rw [Mem.read_length] at hi
      simp only [Mem.read_getElem, bytes, List.getElem_replicate, Nat.zero_add, hi, and_self,
        if_true]
    obtain ⟨_, written⟩ := fills k picked ⟨.heap k, 0⟩ m₁ rfl given zeros
    simp only [serialize, size, calloc]
    refine ⟨k, rfl, rfl, len.symm, ?_, ?_⟩
    · rw [Mem.read_congr written, Mem.read_write_self]
    · intro q l other
      rw [Mem.read_congr written, Mem.read_write_apart _ (Or.inl other.symm), given q l other]

namespace KmSerializable

/-- The `*out_size` bytes at `*out`. -/
def output (heap : Nat → Option Nat) (m : Mem Obj) (s : KmSerializable) : Option (List UInt8) :=
  (s.serialized heap m).out.map fun out =>
    (s.serialized heap m).mem.read out (s.serialized heap m).outSize

theorem encode_length (s : KmSerializable) (m : Mem Obj) : (s.value m).encode.length = s.size := by
  cases s with
  | bootParams p =>
    simp only [value, KmValue.encode, bootParamsCodec, Codec.pair, Codec.uint32, Codec.sized,
      List.length_append, leBytes_length, dataBytes_length, size]
    omega
  | attestationData d =>
    simp only [value, KmValue.encode, attestationDataCodec, Codec.pair, Codec.uint32, Codec.sized,
      List.length_append, leBytes_length, dataBytes_length, size]
    omega
  | rawBuffer b =>
    simp only [value, KmValue.encode, Codec.sized, List.length_append, leBytes_length,
      dataBytes_length, size]

/-- A value that fits is serialized into a block of its own. -/
theorem serialized_written {s : KmSerializable} {heap : Nat → Option Nat} {m : Mem Obj}
    (small : s.size < 2 ^ 32) (fresh : s.Fresh heap)
    (ok : (s.serialized heap m).rc = trustyErrNone) :
    ∃ k, heap s.size = some k ∧ (s.serialized heap m).out = some ⟨.heap k, 0⟩ ∧
      (s.serialized heap m).outSize = (s.value m).encode.length ∧
      (s.serialized heap m).mem.read ⟨.heap k, 0⟩ (s.value m).encode.length =
        (s.value m).encode ∧
      ∀ q l, q.block ≠ .heap k → (s.serialized heap m).mem.read q l = m.read q l := by
  have len := s.encode_length m
  cases s with
  | bootParams p =>
    refine serialize_fills (fun k picked => ?_) len small ok
    have apart := fresh k picked
    exact (appendUint32ToBuf_fills k m p.osVersion).trans
      ((appendUint32ToBuf_fills k m p.osPatchlevel).trans
      ((appendUint32ToBuf_fills k m p.deviceLocked).trans
      ((appendUint32ToBuf_fills k m p.verifiedBootState).trans
      ((appendSizedBufToBuf_fills p.verifiedBootKeyHashSize fun q mem =>
        apart q (List.mem_append_left _ (Option.mem_toList.mpr mem))).trans
      (appendSizedBufToBuf_fills p.verifiedBootHashSize fun q mem =>
        apart q (List.mem_append_right _ (Option.mem_toList.mpr mem)))))))
  | attestationData d =>
    refine serialize_fills (fun k picked => ?_) len small ok
    exact (appendUint32ToBuf_fills k m d.algorithm).trans
      (appendSizedBufToBuf_fills d.dataSize fun q mem =>
        fresh k picked q (Option.mem_toList.mpr mem))
  | rawBuffer b =>
    refine serialize_fills (fun k picked => ?_) len small ok
    exact appendSizedBufToBuf_fills b.dataSize fun q mem =>
      fresh k picked q (Option.mem_toList.mpr mem)

/-- What a successful serialization of a value that fits leaves is the value in its format. -/
theorem output_eq {s : KmSerializable} {heap : Nat → Option Nat} {m : Mem Obj}
    (small : s.size < 2 ^ 32) (fresh : s.Fresh heap)
    (ok : (s.serialized heap m).rc = trustyErrNone) :
    s.output heap m = some (s.value m).encode := by
  obtain ⟨k, _, there, size, bytes, _⟩ := serialized_written small fresh ok
  rw [output, there, Option.map_some, size, bytes]

end KmSerializable

/-- The reader of the format takes the output to its end and gives every field and byte back, so
no two values have the same output. -/
theorem serialize_roundTrip (s : KmSerializable) (heap : Nat → Option Nat) (m : Mem Obj)
    (small : s.size < 2 ^ 32) (fresh : s.Fresh heap)
    (ok : (s.serialized heap m).rc = trustyErrNone) :
    (∃ bs, s.output heap m = some bs ∧ s.format.decode bs = some (s.value m, [])) ∧
      ∀ (s' : KmSerializable) heap' m', s'.size < 2 ^ 32 → s'.Fresh heap' →
        (s'.serialized heap' m').rc = trustyErrNone → s'.format = s.format →
        s'.output heap' m' = s.output heap m → s'.value m' = s.value m := by
  have written := KmSerializable.output_eq small fresh ok
  refine ⟨⟨_, written, decode_value s m⟩, ?_⟩
  intro s' heap' m' small' fresh' ok' format same
  rw [KmSerializable.output_eq small' fresh' ok', written] at same
  have back := decode_value s' m'
  rw [Option.some.inj same, format, decode_value s m] at back
  exact (Prod.mk.inj (Option.some.inj back)).1.symm

/-- Two bytes of attestation data. -/
def shortKey : KmSerializable := .attestationData ⟨1, 2, some ⟨.caller 0, 0⟩⟩

theorem shortKey_roundTrip : ∃ bs, shortKey.output (fun _ => some 0) ⟨fun _ _ => 7, []⟩ = some bs ∧
    bs = [1, 0, 0, 0, 2, 0, 0, 0, 7, 7] ∧
    KmFormat.attestationData.decode bs = some (.attestationData 1 [7, 7], []) := by
  have fresh : shortKey.Fresh fun _ => some 0 := by
    intro k _ p mem
    rw [List.mem_singleton.mp mem]
    nofun
  obtain ⟨bs, written, back⟩ :=
    (serialize_roundTrip shortKey (fun _ => some 0) ⟨fun _ _ => 7, []⟩ (by decide) fresh rfl).1
  refine ⟨bs, written, ?_, back⟩
  have bytes : shortKey.output (fun _ => some 0) ⟨fun _ _ => 7, []⟩ =
      some [1, 0, 0, 0, 2, 0, 0, 0, 7, 7] := by decide
  rw [bytes] at written
  exact (Option.some.inj written).symm

end ExternalTrusty
