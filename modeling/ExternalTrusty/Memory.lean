import ExternalTrusty.Bytes

namespace CMemory

/-- A location inside one object: the object and a byte offset into it. -/
structure Ptr (β : Type) where
  block : β
  off : Nat
  deriving DecidableEq

def Ptr.add {β : Type} (p : Ptr β) (n : Nat) : Ptr β := ⟨p.block, p.off + n⟩

@[simp] theorem Ptr.add_block {β : Type} (p : Ptr β) (n : Nat) : (p.add n).block = p.block := rfl

@[simp] theorem Ptr.add_off {β : Type} (p : Ptr β) (n : Nat) : (p.add n).off = p.off + n := rfl

@[simp] theorem Ptr.add_zero {β : Type} (p : Ptr β) : p.add 0 = p := rfl

theorem Ptr.add_assoc {β : Type} (p : Ptr β) (m n : Nat) : p.add (m + n) = (p.add m).add n := by
  simp only [Ptr.add, Nat.add_assoc]

inductive AccessKind
  | load
  | store
  deriving DecidableEq

/-- One bulk access: `len` bytes from offset `off` of an object. -/
structure Access (β : Type) where
  kind : AccessKind
  block : β
  off : Nat
  len : Nat
  deriving DecidableEq

/-- Byte contents of every object, with the accesses made so far, latest first.
Objects are unbounded: an access past an object's end is recorded, and touches no other object. -/
structure Mem (β : Type) where
  bytes : β → Nat → UInt8
  log : List (Access β)

variable {β : Type}

namespace Mem

def read (m : Mem β) (p : Ptr β) (n : Nat) : List UInt8 :=
  (List.range n).map fun i => m.bytes p.block (p.off + i)

def write [DecidableEq β] (m : Mem β) (p : Ptr β) (bs : List UInt8) : Mem β where
  bytes := fun b i =>
    if b = p.block ∧ p.off ≤ i then (bs[i - p.off]?).getD (m.bytes b i) else m.bytes b i
  log := ⟨.store, p.block, p.off, bs.length⟩ :: m.log

/-- Record that a range was read, as the source operand of a copy. -/
def touch (m : Mem β) (p : Ptr β) (n : Nat) : Mem β :=
  { m with log := ⟨.load, p.block, p.off, n⟩ :: m.log }

/-- The `n`-byte little-endian integer at a location. -/
def load (m : Mem β) (p : Ptr β) (n : Nat) : Nat := leNat (m.read p n)

def store [DecidableEq β] (m : Mem β) (p : Ptr β) (n v : Nat) : Mem β := m.write p (leBytes n v)

def memset [DecidableEq β] (m : Mem β) (p : Ptr β) (c : UInt8) (n : Nat) : Mem β :=
  m.write p (List.replicate n c)

end Mem

/-- Two ranges that share no byte. -/
def Apart (p : Ptr β) (n : Nat) (q : Ptr β) (k : Nat) : Prop :=
  p.block ≠ q.block ∨ n = 0 ∨ k = 0 ∨ p.off + n ≤ q.off ∨ q.off + k ≤ p.off

instance [DecidableEq β] (p : Ptr β) (n : Nat) (q : Ptr β) (k : Nat) : Decidable (Apart p n q k) :=
  inferInstanceAs (Decidable (_ ∨ _ ∨ _))

theorem Apart.symm {p q : Ptr β} {n k : Nat} (h : Apart p n q k) : Apart q k p n := by
  unfold Apart at *
  rcases h with h | h
  · exact Or.inl (Ne.symm h)
  · exact Or.inr (by omega)

theorem Apart.mono {p q : Ptr β} {n n' k : Nat} (h : Apart p n q k) (hn : n' ≤ n) :
    Apart p n' q k := by
  rcases h with h | h
  · exact Or.inl h
  · exact Or.inr (by omega)

/-- The accesses of one kind in a log reach this byte. -/
def Covers (k : AccessKind) (l : List (Access β)) (b : β) (i : Nat) : Prop :=
  ∃ a ∈ l, a.kind = k ∧ a.block = b ∧ a.off ≤ i ∧ i < a.off + a.len

theorem covers_append {k : AccessKind} {l l' : List (Access β)} {b : β} {i : Nat} :
    Covers k (l ++ l') b i ↔ Covers k l b i ∨ Covers k l' b i := by
  simp only [Covers, List.mem_append]
  constructor
  · rintro ⟨a, h | h, ha⟩
    · exact Or.inl ⟨a, h, ha⟩
    · exact Or.inr ⟨a, h, ha⟩
  · rintro (⟨a, h, ha⟩ | ⟨a, h, ha⟩)
    · exact ⟨a, Or.inl h, ha⟩
    · exact ⟨a, Or.inr h, ha⟩

theorem covers_cons {k : AccessKind} {a : Access β} {l : List (Access β)} {b : β} {i : Nat} :
    Covers k (a :: l) b i ↔
      (a.kind = k ∧ a.block = b ∧ a.off ≤ i ∧ i < a.off + a.len) ∨ Covers k l b i := by
  simp [Covers]

@[simp] theorem covers_nil {k : AccessKind} {b : β} {i : Nat} :
    ¬Covers k ([] : List (Access β)) b i := by simp [Covers]

/-- The number of bytes moved by the accesses of one kind. -/
def moved (k : AccessKind) (l : List (Access β)) : Nat :=
  ((l.filter fun a => a.kind = k).map (·.len)).sum

theorem moved_append (k : AccessKind) (l l' : List (Access β)) :
    moved k (l ++ l') = moved k l + moved k l' := by simp [moved]

/-- The accesses `m'` has made on top of those of `m`. -/
def Mem.since (m' m : Mem β) : List (Access β) :=
  m'.log.take (m'.log.length - m.log.length)

theorem Mem.since_eq {m m' : Mem β} {new : List (Access β)} (h : m'.log = new ++ m.log) :
    m'.since m = new := by
  simp [Mem.since, h]

namespace Mem

@[simp] theorem read_length (m : Mem β) (p : Ptr β) (n : Nat) : (m.read p n).length = n := by
  simp [read]

@[simp] theorem read_zero (m : Mem β) (p : Ptr β) : m.read p 0 = [] := rfl

theorem read_getElem (m : Mem β) (p : Ptr β) (n i : Nat) (h : i < (m.read p n).length) :
    (m.read p n)[i] = m.bytes p.block (p.off + i) := by
  simp [read]

theorem read_add (m : Mem β) (p : Ptr β) (a b : Nat) :
    m.read p (a + b) = m.read p a ++ m.read (p.add a) b := by
  simp only [read, List.range_add, List.map_append, List.map_map]
  congr 1
  apply List.map_congr_left
  intro i _
  simp only [Function.comp, Ptr.add, Nat.add_assoc]

theorem read_take (m : Mem β) (p : Ptr β) {k n : Nat} (h : k ≤ n) :
    (m.read p n).take k = m.read p k := by
  obtain ⟨d, rfl⟩ := Nat.exists_eq_add_of_le h
  rw [read_add, List.take_left' (by simp)]

theorem read_drop (m : Mem β) (p : Ptr β) {k n : Nat} (h : k ≤ n) :
    (m.read p n).drop k = m.read (p.add k) (n - k) := by
  obtain ⟨d, rfl⟩ := Nat.exists_eq_add_of_le h
  rw [read_add, List.drop_left' (by simp), Nat.add_sub_cancel_left]

theorem read_take_min (m : Mem β) (p : Ptr β) (k n : Nat) :
    (m.read p n).take k = m.read p (min k n) := by
  rw [← read_take m p (Nat.min_le_right k n), ← List.take_take, List.take_of_length_le (i := n)]
  exact (read_length m p n).le

theorem read_drop_min (m : Mem β) (p : Ptr β) (k n : Nat) :
    (m.read p n).drop k = m.read (p.add (min k n)) (n - min k n) := by
  rw [← read_drop m p (Nat.min_le_right k n)]
  by_cases h : k ≤ n
  · rw [Nat.min_eq_left h]
  · rw [List.drop_eq_nil_of_le (by rw [read_length]; omega), List.drop_eq_nil_of_le (by
      rw [read_length]
      omega)]

theorem read_congr {m m' : Mem β} (h : m.bytes = m'.bytes) (p : Ptr β) (n : Nat) :
    m.read p n = m'.read p n := by
  simp only [read, h]

theorem load_congr {m m' : Mem β} (h : m.bytes = m'.bytes) (p : Ptr β) (n : Nat) :
    m.load p n = m'.load p n := by
  simp only [load, read_congr h]

@[simp] theorem read_touch (m : Mem β) (p q : Ptr β) (n k : Nat) :
    (m.touch q k).read p n = m.read p n := rfl

theorem load_lt (m : Mem β) (p : Ptr β) (n : Nat) : m.load p n < 256 ^ n := by
  simpa [load] using leNat_lt (m.read p n)

variable [DecidableEq β]

@[simp] theorem write_log (m : Mem β) (p : Ptr β) (bs : List UInt8) :
    (m.write p bs).log = ⟨.store, p.block, p.off, bs.length⟩ :: m.log := rfl

/-- Reading where something was just written shows the new bytes over the old ones. -/
theorem read_write_over (m : Mem β) (p : Ptr β) {bs : List UInt8} {n : Nat} (h : bs.length ≤ n) :
    (m.write p bs).read p n = overlay bs (m.read p n) := by
  apply List.ext_getElem
  · simp [overlay]; omega
  · intro i hi hj
    simp only [read_getElem, write, overlay, List.getElem_append, List.getElem_drop]
    by_cases hb : i < bs.length
    · simp [hb]
    · have hd : bs.length + (i - bs.length) = i := by omega
      simp [hb, hd]

theorem write_bytes_in (m : Mem β) {p : Ptr β} {bs : List UInt8} {i : Nat}
    (h : p.off ≤ i) (hi : i - p.off < bs.length) :
    (m.write p bs).bytes p.block i = bs[i - p.off] := by
  simp [write, h, hi]

theorem write_bytes_out (m : Mem β) {p : Ptr β} {bs : List UInt8} {b : β} {i : Nat}
    (h : b ≠ p.block ∨ i < p.off ∨ p.off + bs.length ≤ i) :
    (m.write p bs).bytes b i = m.bytes b i := by
  simp only [write]
  split
  next hc =>
    have hlen : bs.length ≤ i - p.off := by
      rcases h with h | h | h
      · exact absurd hc.1 h
      · omega
      · omega
    rw [List.getElem?_eq_none hlen]
    rfl
  next => rfl

/-- Two adjacent writes leave the bytes of one write of both. -/
theorem write_write_bytes (m : Mem β) (p : Ptr β) (xs ys : List UInt8) :
    ((m.write p xs).write (p.add xs.length) ys).bytes = (m.write p (xs ++ ys)).bytes := by
  funext b i
  have hadd : (p.add xs.length).off = p.off + xs.length := rfl
  by_cases hin : b = p.block ∧ p.off ≤ i ∧ i < p.off + (xs ++ ys).length
  · obtain ⟨rfl, h1, h2⟩ := hin
    have hlen : (xs ++ ys).length = xs.length + ys.length := List.length_append
    rw [write_bytes_in m h1 (by omega)]
    by_cases hx : i < p.off + xs.length
    · rw [write_bytes_out _ (Or.inr (Or.inl (by omega))), write_bytes_in m h1 (by omega),
        List.getElem_append_left]
    · have hy := @write_bytes_in _ _ (m.write p xs) (p.add xs.length) ys i (by omega) (by omega)
      have hi : i - (p.add xs.length).off = i - p.off - xs.length := by omega
      rw [List.getElem_append_right (by omega)]
      simpa only [hi, Ptr.add_block] using hy
  · have hlen : (xs ++ ys).length = xs.length + ys.length := List.length_append
    have hout : b ≠ p.block ∨ i < p.off ∨ p.off + (xs ++ ys).length ≤ i := by
      by_cases hb : b = p.block
      · right
        by_contra hc
        exact hin ⟨hb, by omega, by omega⟩
      · exact Or.inl hb
    rw [write_bytes_out m hout, write_bytes_out, write_bytes_out]
    · exact hout.imp_right fun h => h.imp_right fun h => by omega
    · exact hout.imp_right fun h => by rw [hadd]; omega

theorem write_nil_bytes (m : Mem β) (p : Ptr β) : (m.write p []).bytes = m.bytes := by
  funext b i
  simp [write]

theorem write_congr {m m' : Mem β} (h : m.bytes = m'.bytes) (p : Ptr β) (bs : List UInt8) :
    (m.write p bs).bytes = (m'.write p bs).bytes := by
  simp only [write, h]

/-- Writing what is there changes nothing. -/
theorem write_read_bytes (m : Mem β) (p : Ptr β) (n : Nat) :
    (m.write p (m.read p n)).bytes = m.bytes := by
  funext b i
  simp only [write]
  split
  next inside =>
    cases there : (m.read p n)[i - p.off]? with
    | none => rfl
    | some x =>
      obtain ⟨hi, rfl⟩ := List.getElem?_eq_some_iff.mp there
      rw [Option.getD_some, read_getElem, inside.1]
      congr 1
      omega
  next => rfl

theorem read_write_self (m : Mem β) (p : Ptr β) (bs : List UInt8) :
    (m.write p bs).read p bs.length = bs := by
  rw [read_write_over m p le_rfl, overlay_full (by simp)]

theorem read_write_apart (m : Mem β) {p q : Ptr β} {bs : List UInt8} {n : Nat}
    (h : Apart p bs.length q n) : (m.write p bs).read q n = m.read q n := by
  apply List.ext_getElem
  · simp
  · intro i hi hj
    have hin : i < n := by simpa using hj
    simp only [read_getElem, write]
    split
    next hc =>
      rcases h with h | h
      · exact absurd hc.1.symm h
      · rw [List.getElem?_eq_none (by omega)]
        rfl
    next => rfl

theorem load_store_self (m : Mem β) (p : Ptr β) {n v : Nat} (hv : v < 256 ^ n) :
    (m.store p n v).load p n = v := by
  have h := read_write_self m p (leBytes n v)
  rw [leBytes_length] at h
  rw [load, store, h, leNat_leBytes, Nat.mod_eq_of_lt hv]

theorem read_store_load (m : Mem β) (p q : Ptr β) (n : Nat) :
    (m.store p n (m.load q n)).read p n = m.read q n := by
  have hbytes : leBytes n (m.load q n) = m.read q n := by
    have h := leBytes_leNat (m.read q n)
    rwa [read_length] at h
  have hself := read_write_self m p (m.read q n)
  rw [read_length] at hself
  rw [store, hbytes, hself]

theorem load_write_apart (m : Mem β) {p q : Ptr β} {bs : List UInt8} {n : Nat}
    (h : Apart p bs.length q n) : (m.write p bs).load q n = m.load q n := by
  rw [load, read_write_apart m h, load]

theorem load_store_apart (m : Mem β) {p q : Ptr β} {n k v : Nat} (h : Apart p n q k) :
    (m.store p n v).load q k = m.load q k :=
  load_write_apart m (by rwa [leBytes_length])

theorem read_write_in (m : Mem β) {p q : Ptr β} {bs : List UInt8} {k : Nat}
    (hb : q.block = p.block) (h1 : p.off ≤ q.off) (h2 : q.off + k ≤ p.off + bs.length) :
    (m.write p bs).read q k = (bs.drop (q.off - p.off)).take k := by
  apply List.ext_getElem
  · simp only [read_length, List.length_take, List.length_drop]
    omega
  · intro i hi hj
    have hik : i < k := by simpa using hi
    have hin := @write_bytes_in _ _ m p bs (q.off + i) (by omega) (by omega)
    have hoff : q.off + i - p.off = q.off - p.off + i := by omega
    rw [read_getElem, hb]
    simp only [hin, hoff, List.getElem_take, List.getElem_drop]

theorem load_memset_in (m : Mem β) {p q : Ptr β} {n k : Nat} (hb : q.block = p.block)
    (h1 : p.off ≤ q.off) (h2 : q.off + k ≤ p.off + n) : (m.memset p 0 n).load q k = 0 := by
  rw [load, memset, read_write_in m hb h1 (by simpa using h2)]
  apply leNat_eq_zero.mpr
  intro b hm
  exact List.eq_of_mem_replicate (List.mem_of_mem_drop (List.mem_of_mem_take hm))

end Mem

end CMemory
