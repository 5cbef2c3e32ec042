import ExternalTrusty.MachineInt
import ExternalTrusty.Spans
import Mathlib.Data.Int.ConditionallyCompleteOrder

namespace ExternalTrusty.TestRunner

open CMemory

/-! `test-runner-sysdeps.c` -/

def heapSize : Nat := 56 + 6 * 4
def pageCount : Nat := 3

/-- The two bump allocators: the sum of the counter and the request is taken in an unsigned type of
`bits` bits, and the counter is an `int`. -/
def bump (bits limit : Nat) (allocated : Int) (asize : Nat) : Option Int × Int :=
  let sum := ((allocated % 2 ^ bits).toNat + asize) % 2 ^ bits
  if sum > limit then (none, allocated) else (some allocated, toInt sum)

/-- The offset in `heap`, and `heap_allocated` -/
def trustyCalloc (n size : UInt64) (heapAllocated : Int) : Option Int × Int :=
  let asize := n * size
  bump 64 heapSize heapAllocated asize.toNat

/-- The number of the first page in `pages`, and `pages_allocated` -/
def trustyAllocPages (count : UInt32) (pagesAllocated : Int) : Option Int × Int :=
  bump 32 pageCount pagesAllocated count.toNat

/-! What a request comes to. -/

/-- The request gets past the check because the sum of the counter and it has wrapped around. -/
def Wraps (bits limit : Nat) (allocated : Int) (wanted : Nat) : Prop :=
  2 ^ bits ≤ allocated + wanted ∧ (allocated + wanted) % 2 ^ bits ≤ limit

instance (bits limit : Nat) (allocated : Int) (wanted : Nat) :
    Decidable (Wraps bits limit allocated wanted) :=
  inferInstanceAs (Decidable (_ ∧ _))

variable {bits limit : Nat} {allocated : Int}

/-- A request is refused, or there is room for it, or it wraps. -/
theorem bump_cases (bits wanted : Nat) (hlimit : limit < 2 ^ 31) (hlow : 0 ≤ allocated)
    (hhigh : allocated ≤ limit) :
    (limit < allocated + wanted ∧ ¬Wraps bits limit allocated wanted ∧
        bump bits limit allocated (wanted % 2 ^ bits) = (none, allocated)) ∨
      (allocated + wanted ≤ limit ∧ ¬Wraps bits limit allocated wanted ∧
        bump bits limit allocated (wanted % 2 ^ bits) =
          (some allocated, allocated + wanted)) ∨
      (Wraps bits limit allocated wanted ∧
        bump bits limit allocated (wanted % 2 ^ bits) =
          (some allocated, (allocated + wanted) % 2 ^ bits)) := by
  obtain ⟨a, rfl⟩ := Int.eq_ofNat_of_zero_le hlow
  have ha : a ≤ limit := by omega
  have hsum : (((a : Int) % 2 ^ bits).toNat + wanted % 2 ^ bits) % 2 ^ bits =
      (a + wanted) % 2 ^ bits := by
    have hcast : ((a : Int) % 2 ^ bits).toNat = a % 2 ^ bits := by
      exact_mod_cast Int.toNat_natCast (a % 2 ^ bits)
    rw [hcast, ← Nat.add_mod]
  have hcast : ((a : Int) + wanted) % 2 ^ bits = ((a + wanted) % 2 ^ bits : Nat) := by
    push_cast
    rfl
  rw [bump, hsum, Wraps, hcast]
  by_cases hover : (a + wanted) % 2 ^ bits > limit
  · refine Or.inl ⟨?_, ?_, if_pos hover⟩
    · have hle := Nat.mod_le (a + wanted) (2 ^ bits)
      omega
    · rintro ⟨_, hin⟩
      omega
  · have hint : toInt ((a + wanted) % 2 ^ bits) = ((a + wanted) % 2 ^ bits : Nat) :=
      toInt_of_lt (by omega)
    by_cases hwrap : 2 ^ bits ≤ a + wanted
    · refine Or.inr (Or.inr ⟨⟨?_, by omega⟩, ?_⟩)
      · exact_mod_cast hwrap
      · rw [if_neg hover, hint]
    · have hsame : (a + wanted) % 2 ^ bits = a + wanted := Nat.mod_eq_of_lt (by omega)
      refine Or.inr (Or.inl ⟨by omega, ?_, ?_⟩)
      · rintro ⟨hge, _⟩
        exact hwrap (by exact_mod_cast hge)
      · rw [if_neg hover, hint, hsame]
        rfl

/-- The counter stays in its range, whatever is asked for. -/
theorem bump_range (bits wanted : Nat) (hlimit : limit < 2 ^ 31) (hlow : 0 ≤ allocated)
    (hhigh : allocated ≤ limit) :
    0 ≤ (bump bits limit allocated (wanted % 2 ^ bits)).2 ∧
      (bump bits limit allocated (wanted % 2 ^ bits)).2 ≤ limit := by
  rcases bump_cases bits wanted hlimit hlow hhigh with
    ⟨_, _, hrun⟩ | ⟨hroom, _, hrun⟩ | ⟨hwraps, hrun⟩
  · rw [hrun]
    exact ⟨hlow, hhigh⟩
  · rw [hrun]
    exact ⟨by omega, hroom⟩
  · rw [hrun]
    exact ⟨Int.emod_nonneg _ (by positivity), hwraps.2⟩

/-! Any sequence of requests. -/

section Run

variable {ρ : Type} (alloc : ρ → Int → Option Int × Int) (size : ρ → Nat)

/-- The counter after these requests. -/
def countAfter (count : Int) (rs : List ρ) : Int := rs.foldl (fun c r => (alloc r c).2) count

/-- The blocks that were returned, as long as they were asked for. -/
def blocksFrom (count : Int) : List ρ → List (Span Int)
  | [] => []
  | r :: rs =>
    match (alloc r count).1 with
    | some p => ⟨p, p + size r, by omega⟩ :: blocksFrom (alloc r count).2 rs
    | none => blocksFrom (alloc r count).2 rs

/-- Every block is inside the array and apart from all others, and the counter never decreases or
leaves its range. -/
structure AllocSound (limit : Nat) (rs : List ρ) : Prop where
  inside : ∀ b ∈ blocksFrom alloc size 0 rs, 0 ≤ b.lo ∧ b.hi ≤ limit
  apart : (blocksFrom alloc size 0 rs).Pairwise fun b b' => Disjoint b.points b'.points
  range : ∀ k, 0 ≤ countAfter alloc 0 (rs.take k) ∧ countAfter alloc 0 (rs.take k) ≤ limit
  grows : ∀ k, countAfter alloc 0 (rs.take k) ≤ countAfter alloc 0 (rs.take (k + 1))

/-- No request wraps, at the counter that it finds. -/
def NoneWraps (bits limit : Nat) (count : Int) (rs : List ρ) : Prop :=
  ∀ k r, rs[k]? = some r → ¬Wraps bits limit (countAfter alloc count (rs.take k)) (size r)

variable {alloc size} {rs : List ρ} {r : ρ} {count : Int}

theorem noneWraps_cons : NoneWraps alloc size bits limit count (r :: rs) ↔
    ¬Wraps bits limit count (size r) ∧ NoneWraps alloc size bits limit (alloc r count).2 rs := by
  constructor
  · intro h
    exact ⟨h 0 r rfl, fun k x hx => h (k + 1) x hx⟩
  · rintro ⟨hfirst, hrest⟩ k x hx
    cases k with
    | zero =>
      cases hx
      exact hfirst
    | succ k => exact hrest k x hx

section Bump

variable (halloc : ∀ r c, alloc r c = bump bits limit c (size r % 2 ^ bits))
  (hlimit : limit < 2 ^ 31)

include halloc hlimit

theorem countAfter_range (rs : List ρ) (hlow : 0 ≤ count) (hhigh : count ≤ limit) :
    0 ≤ countAfter alloc count rs ∧ countAfter alloc count rs ≤ limit := by
  induction rs generalizing count with
  | nil => exact ⟨hlow, hhigh⟩
  | cons r rs ih =>
    have hrange := bump_range bits (size r) hlimit hlow hhigh
    rw [← halloc] at hrange
    exact ih hrange.1 hrange.2

/-- As long as nothing wraps, the blocks are cut off one behind another. -/
theorem blocksFrom_carved (hlow : 0 ≤ count) (hhigh : count ≤ limit)
    (h : NoneWraps alloc size bits limit count rs) :
    Carved count (blocksFrom alloc size count rs) (countAfter alloc count rs) := by
  induction rs generalizing count with
  | nil => exact .none count
  | cons r rs ih =>
    obtain ⟨hfirst, hrest⟩ := noneWraps_cons.mp h
    have hrange := bump_range bits (size r) hlimit hlow hhigh
    rw [← halloc] at hrange
    have htail := ih hrange.1 hrange.2 hrest
    rw [blocksFrom]
    change Carved count _ (countAfter alloc (alloc r count).2 rs)
    rcases bump_cases bits (size r) hlimit hlow hhigh with
      ⟨_, _, hrun⟩ | ⟨_, _, hrun⟩ | ⟨hwraps, _⟩
    · rw [halloc, hrun] at htail ⊢
      exact htail
    · rw [halloc, hrun] at htail ⊢
      exact .next ⟨count, count + size r, by omega⟩ htail
    · exact absurd hwraps hfirst

/-- A request that wraps is granted a block that the array does not hold. -/
theorem noneWraps_of_inside (hbits : limit < 2 ^ bits) (hlow : 0 ≤ count) (hhigh : count ≤ limit)
    (h : ∀ b ∈ blocksFrom alloc size count rs, b.hi ≤ limit) :
    NoneWraps alloc size bits limit count rs := by
  induction rs generalizing count with
  | nil => exact fun k r hr => absurd hr (by simp)
  | cons r rs ih =>
    have hrange := bump_range bits (size r) hlimit hlow hhigh
    rw [← halloc] at hrange
    rw [blocksFrom] at h
    rw [noneWraps_cons]
    rcases bump_cases bits (size r) hlimit hlow hhigh with
      ⟨_, hfirst, hrun⟩ | ⟨_, hfirst, hrun⟩ | ⟨hwraps, hrun⟩
    · rw [halloc, hrun] at h
      refine ⟨hfirst, ih hrange.1 hrange.2 ?_⟩
      rwa [halloc, hrun]
    · rw [halloc, hrun] at h
      refine ⟨hfirst, ih hrange.1 hrange.2 ?_⟩
      rw [halloc, hrun]
      exact (List.forall_mem_cons.mp h).2
    · rw [halloc, hrun] at h
      have hin : count + size r ≤ limit := (List.forall_mem_cons.mp h).1
      have hout := hwraps.1
      have hcast : ((limit : Nat) : Int) < 2 ^ bits := by exact_mod_cast hbits
      omega

/-- The allocator keeps to its array exactly in those runs in which no sum wraps. -/
theorem allocSound_iff (hbits : limit < 2 ^ bits) :
    AllocSound alloc size limit rs ↔ NoneWraps alloc size bits limit 0 rs := by
  have hzero : (0 : Int) ≤ limit := Int.natCast_nonneg limit
  constructor
  · intro h
    exact noneWraps_of_inside halloc hlimit hbits le_rfl hzero fun b hb => (h.inside b hb).2
  · intro h
    have hcarved := blocksFrom_carved halloc hlimit le_rfl hzero h
    have hend := countAfter_range halloc hlimit rs le_rfl hzero
    refine ⟨?_, hcarved.apart, fun k => countAfter_range halloc hlimit (rs.take k) le_rfl hzero, ?_⟩
    · intro b hb
      obtain ⟨hlo, hhi⟩ := hcarved.inside hb
      exact ⟨hlo, hhi.trans hend.2⟩
    · intro k
      by_cases hk : k < rs.length
      · rw [List.take_succ_eq_append_getElem hk, countAfter, countAfter, List.foldl_append]
        change countAfter alloc 0 (rs.take k) ≤ (alloc rs[k] (countAfter alloc 0 (rs.take k))).2
        have hrange := countAfter_range halloc hlimit (rs.take k) le_rfl hzero
        have hfirst := h k rs[k] (List.getElem?_eq_getElem hk)
        rcases bump_cases bits (size rs[k]) hlimit hrange.1 hrange.2 with
          ⟨_, _, hrun⟩ | ⟨_, _, hrun⟩ | ⟨hwraps, _⟩
        · rw [halloc, hrun]
        · rw [halloc, hrun]
          exact Int.le_add_of_nonneg_right (Int.natCast_nonneg _)
        · exact absurd hwraps hfirst
      · rw [List.take_of_length_le (by omega), List.take_of_length_le (by omega)]

end Bump

end Run

/-- The arguments of a call of `trusty_calloc` -/
structure CallocRequest where
  n : UInt64
  size : UInt64

/-- The length of the block that is asked for, which may not fit a `size_t`. -/
def CallocRequest.bytes (r : CallocRequest) : Nat := r.n.toNat * r.size.toNat

def CallocRequest.call (r : CallocRequest) : Int → Option Int × Int := trustyCalloc r.n r.size

theorem CallocRequest.call_eq (r : CallocRequest) (count : Int) :
    r.call count = bump 64 heapSize count (r.bytes % 2 ^ 64) := by
  rw [CallocRequest.call, trustyCalloc, UInt64.toNat_mul, CallocRequest.bytes]

theorem trustyCalloc_sound_iff (rs : List CallocRequest) :
    AllocSound CallocRequest.call CallocRequest.bytes heapSize rs ↔
      NoneWraps CallocRequest.call CallocRequest.bytes 64 heapSize 0 rs :=
  allocSound_iff CallocRequest.call_eq (by decide) (by decide)

/-- Half the heap, and then a size that is negative as a signed number: the counter goes back. Two
large factors: their product is a whole number of wraps, and is granted too. -/
theorem wrappedCalloc_granted :
    countAfter CallocRequest.call 0 [⟨40, 1⟩] = 40 ∧
      countAfter CallocRequest.call 0 [⟨40, 1⟩, ⟨1, 0xFFFFFFFFFFFFFFF8⟩] = 32 ∧
      ¬AllocSound CallocRequest.call CallocRequest.bytes heapSize
        [⟨40, 1⟩, ⟨1, 0xFFFFFFFFFFFFFFF8⟩] ∧
      trustyCalloc 0x100000000 0x100000000 0 = (some 0, 0) ∧
      ¬AllocSound CallocRequest.call CallocRequest.bytes heapSize [⟨0x100000000, 0x100000000⟩] := by
  refine ⟨by decide, by decide, ?_, by decide, ?_⟩
  · intro h
    exact absurd (h.grows 1) (by decide)
  · intro h
    have hblock := (h.inside ⟨0, 0x10000000000000000, by decide⟩ List.mem_cons_self).2
    exact absurd hblock (by decide)

/-- The pages are given out in the same way, and with the same wrap. -/
theorem trustyAllocPages_sound_iff (counts : List UInt32) :
    AllocSound trustyAllocPages UInt32.toNat pageCount counts ↔
      NoneWraps trustyAllocPages UInt32.toNat 32 pageCount 0 counts := by
  refine allocSound_iff ?_ (by decide) (by decide)
  intro count allocated
  rw [trustyAllocPages, Nat.mod_eq_of_lt count.toNat_lt]

end ExternalTrusty.TestRunner
