import ExternalTrusty.ScatterGather

namespace CMemory

variable {β : Type}

/-- `m'` holds `bs` at `p`, stored there and nowhere else in that object; besides, only
scratch objects may have changed. -/
structure Stored (m m' : Mem β) (p : Ptr β) (bs : List UInt8) (scratch : List β) : Prop where
  reads : m'.read p bs.length = bs
  frame : ∀ q n, q.block ∉ scratch → Apart p bs.length q n → m'.read q n = m.read q n
  stores : ∃ new, m'.log = new ++ m.log ∧
    ∀ i, Covers .store new p.block i ↔ p.off ≤ i ∧ i < p.off + bs.length

theorem Stored.covers {m m' : Mem β} {p : Ptr β} {bs : List UInt8} {scratch : List β}
    (h : Stored m m' p bs scratch) (i : Nat) :
    Covers .store (m'.since m) p.block i ↔ p.off ≤ i ∧ i < p.off + bs.length := by
  obtain ⟨new, hlog, hcov⟩ := h.stores
  rw [Mem.since_eq hlog]
  exact hcov i

theorem Stored.refl (m : Mem β) (p : Ptr β) (scratch : List β) : Stored m m p [] scratch := by
  refine ⟨rfl, fun _ _ _ _ => rfl, [], rfl, ?_⟩
  intro i
  simp only [covers_nil, List.length_nil, Nat.add_zero, false_iff]
  omega

theorem Stored.mono {m m' : Mem β} {p : Ptr β} {bs : List UInt8} {scratch scratch' : List β}
    (h : Stored m m' p bs scratch) (hsub : scratch ⊆ scratch') : Stored m m' p bs scratch' :=
  ⟨h.reads, fun q n hq ha => h.frame q n (fun hs => hq (hsub hs)) ha, h.stores⟩

theorem Stored.trans {m m' m'' : Mem β} {p : Ptr β} {xs ys : List UInt8} {scratch : List β}
    (hp : p.block ∉ scratch) (h : Stored m m' p xs scratch)
    (h' : Stored m' m'' (p.add xs.length) ys scratch) : Stored m m'' p (xs ++ ys) scratch := by
  refine ⟨?_, ?_, ?_⟩
  · have hkeep : m''.read p xs.length = xs := by
      rw [h'.frame p xs.length hp (Or.inr (by simp)), h.reads]
    rw [List.length_append, Mem.read_add, hkeep, h'.reads]
  · intro q n hq ha
    have hlen : (xs ++ ys).length = xs.length + ys.length := List.length_append
    rw [h'.frame q n hq, h.frame q n hq]
    · rcases ha with hb | ha
      · exact Or.inl hb
      · exact Or.inr (by omega)
    · rcases ha with hb | ha
      · exact Or.inl hb
      · right
        simp only [Ptr.add_off]
        omega
  · obtain ⟨new, hlog, hcov⟩ := h.stores
    obtain ⟨new', hlog', hcov'⟩ := h'.stores
    refine ⟨new' ++ new, by rw [hlog', hlog, List.append_assoc], ?_⟩
    intro i
    have hmore := hcov' i
    simp only [Ptr.add_block, Ptr.add_off] at hmore
    rw [covers_append, hcov, hmore, List.length_append]
    omega

/-- A longer read shows the stored bytes over what was there. -/
theorem Stored.read_over {m m' : Mem β} {p : Ptr β} {bs : List UInt8} {scratch : List β} {n : Nat}
    (h : Stored m m' p bs scratch) (hp : p.block ∉ scratch) (hn : bs.length ≤ n) :
    m'.read p n = overlay bs (m.read p n) := by
  obtain ⟨k, rfl⟩ := Nat.exists_eq_add_of_le hn
  have hrest : m'.read (p.add bs.length) k = m.read (p.add bs.length) k :=
    h.frame (p.add bs.length) k hp (Or.inr (by simp))
  rw [Mem.read_add, h.reads, hrest, overlay, Mem.read_drop m p hn, Nat.add_sub_cancel_left]

variable [DecidableEq β]

/-- Filling the last of a list of buffers, the others being scratch. -/
theorem Stored.scatter_last {m : Mem β} {pre : List (Seg β)} {v : Seg β} (bs : List UInt8)
    (h : ∀ u ∈ pre, u.base.block ≠ v.base.block) :
    Stored m (scatter m (pre ++ [v]) bs) v.base ((bs.drop (total pre)).take v.len)
      (pre.map (·.base.block)) := by
  have hout : v.base.block ∉ pre.map (·.base.block) := by
    intro hm
    obtain ⟨u, hu, heq⟩ := List.mem_map.mp hm
    exact h u hu heq
  have hput := (scatter_append m pre [v] bs).symm
  simp only [scatter] at hput
  rw [← hput]
  have hpre : Stored m (scatter m pre bs) v.base [] (pre.map (·.base.block)) := by
    refine ⟨rfl, ?_, ?_⟩
    · intro q n hq _
      apply read_scatter_apart
      intro u hu
      exact Or.inl fun heq => hq (heq ▸ List.mem_map.mpr ⟨u, hu, rfl⟩)
    · obtain ⟨new, hlog, hcov⟩ := scatter_footprint m pre bs
      refine ⟨new, hlog, ?_⟩
      intro i
      rw [hcov]
      constructor
      · intro hr
        obtain ⟨u, hu, heq⟩ := hr.mem_block
        exact absurd heq (h u hu)
      · intro hi
        simp only [List.length_nil, Nat.add_zero] at hi
        omega
  have hlast : Stored (scatter m pre bs)
      ((scatter m pre bs).put v.base ((bs.drop (total pre)).take v.len)) v.base
      ((bs.drop (total pre)).take v.len) (pre.map (·.base.block)) := by
    refine ⟨?_, ?_, ?_⟩
    · rw [Mem.read_put_over _ _ le_rfl, overlay_full (by simp)]
    · intro q n _ ha
      exact Mem.read_put_apart _ le_rfl ha
    · obtain ⟨new, hlog, hcov⟩ := Mem.put_footprint (scatter m pre bs) v.base
        ((bs.drop (total pre)).take v.len)
      refine ⟨new, hlog, ?_⟩
      intro i
      rw [hcov]
      simp only [true_and]
  exact hpre.trans hout hlast

theorem Stored.scratch_write {m : Mem β} {p q : Ptr β} {scratch : List β} (bs : List UInt8)
    (hq : q.block ∈ scratch) (hp : p.block ∉ scratch) : Stored m (m.write q bs) p [] scratch := by
  refine ⟨rfl, ?_, ?_⟩
  · intro r n hr _
    exact Mem.read_write_apart m (Or.inl fun heq => hr (heq ▸ hq))
  · obtain ⟨new, hlog, hcov⟩ := Footprint.write m q bs
    refine ⟨new, hlog, ?_⟩
    intro i
    rw [hcov]
    constructor
    · rintro ⟨heq, _⟩
      exact absurd (heq ▸ hq) hp
    · intro hi
      simp only [List.length_nil, Nat.add_zero] at hi
      omega

end CMemory
