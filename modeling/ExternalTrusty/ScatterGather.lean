import ExternalTrusty.Memory

namespace CMemory

variable {β : Type}

/-- The accesses of kind `k` that `m'` made on top of `m` reach exactly the bytes in `S`. -/
def Footprint (k : AccessKind) (m m' : Mem β) (S : β → Nat → Prop) : Prop :=
  ∃ new, m'.log = new ++ m.log ∧ ∀ b i, Covers k new b i ↔ S b i

theorem Footprint.since {k : AccessKind} {m m' : Mem β} {S : β → Nat → Prop}
    (h : Footprint k m m' S) (b : β) (i : Nat) : Covers k (m'.since m) b i ↔ S b i := by
  obtain ⟨new, hl, hs⟩ := h
  rw [Mem.since_eq hl]
  exact hs b i

theorem Footprint.refl (k : AccessKind) (m : Mem β) : Footprint k m m fun _ _ => False :=
  ⟨[], rfl, fun _ _ => by simp⟩

theorem Footprint.trans {k : AccessKind} {m m' m'' : Mem β} {S T : β → Nat → Prop}
    (h : Footprint k m m' S) (h' : Footprint k m' m'' T) :
    Footprint k m m'' fun b i => T b i ∨ S b i := by
  obtain ⟨new, hl, hs⟩ := h
  obtain ⟨new', hl', hs'⟩ := h'
  refine ⟨new' ++ new, by rw [hl', hl, List.append_assoc], ?_⟩
  intro b i
  rw [covers_append, hs, hs']

theorem Footprint.congr {k : AccessKind} {m m' : Mem β} {S T : β → Nat → Prop}
    (h : Footprint k m m' S) (he : ∀ b i, S b i ↔ T b i) : Footprint k m m' T := by
  obtain ⟨new, hl, hs⟩ := h
  exact ⟨new, hl, fun b i => (hs b i).trans (he b i)⟩

theorem Footprint.touch (m : Mem β) (p : Ptr β) (n : Nat) :
    Footprint .load m (m.touch p n) fun b i => p.block = b ∧ p.off ≤ i ∧ i < p.off + n :=
  ⟨[⟨.load, p.block, p.off, n⟩], rfl, fun b i => by simp [covers_cons]⟩

theorem Footprint.touch_stores (m : Mem β) (p : Ptr β) (n : Nat) :
    Footprint .store m (m.touch p n) fun _ _ => False :=
  ⟨[⟨.load, p.block, p.off, n⟩], rfl, fun b i => by simp [covers_cons]⟩

/-- One buffer of a scatter/gather list. -/
structure Seg (β : Type) where
  base : Ptr β
  len : Nat
  deriving DecidableEq

def total (segs : List (Seg β)) : Nat := (segs.map (·.len)).sum

/-- The concatenated contents of the buffers. -/
def gather (m : Mem β) (segs : List (Seg β)) : List UInt8 :=
  segs.flatMap fun v => m.read v.base v.len

/-- The byte that filling the buffers with `n` bytes reaches. -/
def Reaches : List (Seg β) → Nat → β → Nat → Prop
  | [], _, _, _ => False
  | v :: vs, n, b, i =>
    (v.base.block = b ∧ v.base.off ≤ i ∧ i < v.base.off + min v.len n) ∨ Reaches vs (n - v.len) b i

theorem Reaches.mem_block {segs : List (Seg β)} {n : Nat} {b : β} {i : Nat}
    (h : Reaches segs n b i) : ∃ u ∈ segs, u.base.block = b := by
  induction segs generalizing n with
  | nil => exact h.elim
  | cons v vs ih =>
    rcases h with ⟨hb, _⟩ | hr
    · exact ⟨v, by simp, hb⟩
    · obtain ⟨u, hu, hb⟩ := ih hr
      exact ⟨u, by simp [hu], hb⟩

def SegsApart (segs : List (Seg β)) : Prop :=
  segs.Pairwise fun v w => Apart v.base v.len w.base w.len

instance [DecidableEq β] (segs : List (Seg β)) : Decidable (SegsApart segs) :=
  inferInstanceAs (Decidable (List.Pairwise _ segs))

@[simp] theorem total_nil : total ([] : List (Seg β)) = 0 := rfl

@[simp] theorem total_cons (v : Seg β) (vs : List (Seg β)) :
    total (v :: vs) = v.len + total vs := by
  simp [total]

@[simp] theorem gather_length (m : Mem β) (segs : List (Seg β)) :
    (gather m segs).length = total segs := by
  induction segs with
  | nil => rfl
  | cons v vs ih => simp_all [gather]

theorem gather_cons (m : Mem β) (v : Seg β) (vs : List (Seg β)) :
    gather m (v :: vs) = m.read v.base v.len ++ gather m vs := by simp [gather]

theorem gather_congr {m m' : Mem β} (h : m.bytes = m'.bytes) (segs : List (Seg β)) :
    gather m segs = gather m' segs := by
  simp only [gather, Mem.read_congr h]

theorem gather_eq_of_reads {m m' : Mem β} {segs : List (Seg β)}
    (h : ∀ v ∈ segs, m'.read v.base v.len = m.read v.base v.len) :
    gather m' segs = gather m segs := by
  induction segs with
  | nil => rfl
  | cons v vs ih =>
    rw [gather_cons, gather_cons, h v (by simp), ih (fun w hw => h w (by simp [hw]))]

variable [DecidableEq β]

theorem Footprint.write (m : Mem β) (p : Ptr β) (bs : List UInt8) :
    Footprint .store m (m.write p bs)
      fun b i => p.block = b ∧ p.off ≤ i ∧ i < p.off + bs.length :=
  ⟨[⟨.store, p.block, p.off, bs.length⟩], rfl, fun b i => by simp [covers_cons]⟩

theorem Footprint.store (m : Mem β) (p : Ptr β) (n v : Nat) :
    Footprint .store m (m.store p n v) fun b i => p.block = b ∧ p.off ≤ i ∧ i < p.off + n := by
  have h := Footprint.write m p (leBytes n v)
  rwa [leBytes_length] at h

theorem Footprint.memset (m : Mem β) (p : Ptr β) (c : UInt8) (n : Nat) :
    Footprint .store m (m.memset p c n) fun b i => p.block = b ∧ p.off ≤ i ∧ i < p.off + n := by
  have h := Footprint.write m p (List.replicate n c)
  rwa [List.length_replicate] at h

/-- A copy that does nothing when there is nothing to copy. -/
def Mem.put (m : Mem β) (p : Ptr β) (bs : List UInt8) : Mem β :=
  if bs = [] then m else m.write p bs

/-- Fill the buffers in order from a byte string, as far as it goes. -/
def scatter (m : Mem β) : List (Seg β) → List UInt8 → Mem β
  | [], _ => m
  | v :: vs, bs => scatter (m.put v.base (bs.take v.len)) vs (bs.drop v.len)

theorem scatter_nil_bytes (m : Mem β) (segs : List (Seg β)) : scatter m segs [] = m := by
  induction segs generalizing m with
  | nil => rfl
  | cons v vs ih => simp [scatter, Mem.put, ih]

theorem Mem.put_footprint (m : Mem β) (p : Ptr β) (bs : List UInt8) :
    Footprint .store m (m.put p bs)
      fun b i => p.block = b ∧ p.off ≤ i ∧ i < p.off + bs.length := by
  unfold Mem.put
  split
  next h =>
    apply (Footprint.refl _ m).congr
    intro b i
    simp only [h, List.length_nil, false_iff]
    omega
  next => exact Footprint.write m p bs

theorem Mem.read_put_over (m : Mem β) (p : Ptr β) {bs : List UInt8} {n : Nat} (h : bs.length ≤ n) :
    (m.put p bs).read p n = overlay bs (m.read p n) := by
  unfold Mem.put
  split
  next hb => simp [hb]
  next => exact Mem.read_write_over m p h

theorem Mem.read_put_apart (m : Mem β) {p q : Ptr β} {bs : List UInt8} {k n : Nat}
    (hk : bs.length ≤ k) (h : Apart p k q n) : (m.put p bs).read q n = m.read q n := by
  unfold Mem.put
  split
  next => rfl
  next =>
    exact Mem.read_write_apart m (h.mono hk)

theorem scatter_footprint (m : Mem β) (segs : List (Seg β)) (bs : List UInt8) :
    Footprint .store m (scatter m segs bs) (Reaches segs bs.length) := by
  induction segs generalizing m bs with
  | nil => exact Footprint.refl _ m
  | cons v vs ih =>
    have hput := Mem.put_footprint m v.base (bs.take v.len)
    refine (hput.trans (ih _ (bs.drop v.len))).congr ?_
    intro b i
    simp only [Reaches, List.length_take, List.length_drop]
    exact or_comm

theorem read_scatter_apart {m : Mem β} {segs : List (Seg β)} {q : Ptr β} {n : Nat}
    (h : ∀ v ∈ segs, Apart v.base v.len q n) (bs : List UInt8) :
    (scatter m segs bs).read q n = m.read q n := by
  induction segs generalizing m bs with
  | nil => rfl
  | cons v vs ih =>
    rw [scatter, ih (fun w hw => h w (by simp [hw]))]
    exact Mem.read_put_apart m (by simp) (h v (by simp))

/-- Among disjoint buffers, each one is overlaid with its own stretch of the bytes. -/
theorem read_scatter_seg {pre post : List (Seg β)} {v : Seg β}
    (h : SegsApart (pre ++ v :: post)) (m : Mem β) (bs : List UInt8) :
    (scatter m (pre ++ v :: post) bs).read v.base v.len =
      overlay ((bs.drop (total pre)).take v.len) (m.read v.base v.len) := by
  induction pre generalizing m bs with
  | nil =>
    have hv := (List.pairwise_cons.mp h).1
    rw [List.nil_append, scatter, total_nil, List.drop_zero,
      read_scatter_apart fun w hw => (hv w hw).symm]
    exact Mem.read_put_over m v.base (by simp)
  | cons u pre ih =>
    obtain ⟨hu, hrest⟩ := List.pairwise_cons.mp h
    rw [List.cons_append, scatter, ih hrest, total_cons, List.drop_drop,
      Mem.read_put_apart m (by simp) (hu v (by simp))]

theorem scatter_append (m : Mem β) (xs ys : List (Seg β)) (bs : List UInt8) :
    scatter m (xs ++ ys) bs = scatter (scatter m xs bs) ys (bs.drop (total xs)) := by
  induction xs generalizing m bs with
  | nil => simp [scatter]
  | cons v vs ih => rw [List.cons_append, scatter, ih, List.drop_drop, total_cons, scatter]

/-- Filling disjoint buffers lays the bytes over their concatenation. -/
theorem gather_scatter {segs : List (Seg β)} (h : SegsApart segs) (m : Mem β) (bs : List UInt8) :
    gather (scatter m segs bs) segs = overlay (bs.take (total segs)) (gather m segs) := by
  induction segs generalizing m bs with
  | nil => simp [gather, scatter]
  | cons v vs ih =>
    have hv := List.pairwise_cons.mp h
    have hread : (scatter (m.put v.base (bs.take v.len)) vs (bs.drop v.len)).read v.base v.len =
        overlay (bs.take v.len) (m.read v.base v.len) := by
      rw [read_scatter_apart (fun w hw => (hv.1 w hw).symm)]
      exact Mem.read_put_over m v.base (by simp)
    have hrest : gather (m.put v.base (bs.take v.len)) vs = gather m vs :=
      gather_eq_of_reads fun w hw => Mem.read_put_apart m (by simp) (hv.1 w hw)
    rw [gather_cons, scatter, hread, ih hv.2, hrest, gather_cons, overlay_append, Mem.read_length,
      total_cons, List.take_take, Nat.min_eq_left (by omega), List.drop_take,
      Nat.add_sub_cancel_left]

end CMemory
