import Mathlib.Data.List.Basic
import Mathlib.Tactic.Common

namespace CProgram

variable {α R S : Type}

/-- A list cut every `width` elements: the last piece may be shorter. -/
def chunks (width : Nat) (xs : List α) : List (List α) :=
  (List.range ((xs.length + (width - 1)) / width)).map fun i => (xs.drop (i * width)).take width

theorem chunks_length (width : Nat) (xs : List α) :
    (chunks width xs).length = (xs.length + (width - 1)) / width := by
  rw [chunks, List.length_map, List.length_range]

theorem chunks_nil {width : Nat} (pos : 0 < width) : chunks width ([] : List α) = [] := by
  have none : (([] : List α).length + (width - 1)) / width = 0 :=
    Nat.div_eq_of_lt (by simp only [List.length_nil]; omega)
  rw [chunks, none, List.range_zero, List.map_nil]

theorem chunks_cons {width : Nat} (pos : 0 < width) {xs : List α} (some : xs ≠ []) :
    chunks width xs = xs.take width :: chunks width (xs.drop width) := by
  have long := List.length_pos_iff.mpr some
  have count : (xs.length + (width - 1)) / width =
      ((xs.drop width).length + (width - 1)) / width + 1 := by
    rw [List.length_drop, ← Nat.add_div_right _ pos]
    by_cases more : width ≤ xs.length
    · congr 1
      omega
    · rw [Nat.div_eq_of_lt_le (m := xs.length + (width - 1)) (k := 1) (by omega) (by omega),
        Nat.div_eq_of_lt_le (k := 1) (by omega) (by omega)]
  rw [chunks, count, List.range_succ_eq_map, List.map_cons, List.map_map, Nat.zero_mul,
    List.drop_zero, chunks]
  congr 1
  apply List.map_congr_left
  intro i _
  simp only [Function.comp_apply, List.drop_drop, Nat.succ_mul, Nat.add_comm]

/-- Nothing is lost, and the order is kept. -/
theorem chunks_flatten {width : Nat} (pos : 0 < width) (xs : List α) :
    (chunks width xs).flatten = xs := by
  induction size : xs.length using Nat.strongRecOn generalizing xs with
  | ind n ih =>
    cases xs with
    | nil => rw [chunks_nil pos, List.flatten_nil]
    | cons x xs =>
      have shorter : ((x :: xs).drop width).length < n := by
        rw [List.length_drop, size]
        rw [List.length_cons] at size
        omega
      rw [chunks_cons pos (List.cons_ne_nil x xs), List.flatten_cons, ih _ shorter _ rfl,
        List.take_append_drop]

/-- What is made of whole pieces is cut where it ends. -/
theorem chunks_append {width : Nat} (pos : 0 < width) {xs : List α} (whole : width ∣ xs.length)
    (ys : List α) : chunks width (xs ++ ys) = chunks width xs ++ chunks width ys := by
  obtain ⟨k, size⟩ := whole
  induction k generalizing xs with
  | zero =>
    rw [List.eq_nil_of_length_eq_zero size, chunks_nil pos]
    rfl
  | succ k ih =>
    rw [Nat.mul_succ] at size
    have long : width ≤ xs.length := by omega
    have some : xs ≠ [] := List.ne_nil_of_length_pos (by omega)
    have rest : (xs.drop width).length = width * k := by
      rw [List.length_drop]
      omega
    have more : xs ++ ys ≠ [] := fun none => some (List.append_eq_nil_iff.mp none).1
    rw [chunks_cons pos more, chunks_cons pos some, List.take_append_of_le_length long,
      List.drop_append_of_le_length long, ih rest, List.cons_append]

theorem chunks_mem {width : Nat} (pos : 0 < width) {xs c : List α} (mem : c ∈ chunks width xs) :
    c ≠ [] ∧ c.length ≤ width := by
  obtain ⟨i, inside, rfl⟩ := List.mem_map.mp mem
  have before : (i + 1) * width ≤ xs.length + (width - 1) :=
    (Nat.le_div_iff_mul_le pos).mp (List.mem_range.mp inside)
  rw [Nat.succ_mul] at before
  have len : ((xs.drop (i * width)).take width).length = min width (xs.length - i * width) := by
    rw [List.length_take, List.length_drop]
  refine ⟨List.ne_nil_of_length_pos (by omega), by omega⟩

/-- Requests made one after the other, each with its outcome. The relation says what an attempt at
a request, in its place in the sequence, comes to. -/
inductive Attempted : (Nat → R → S → Int → S → Prop) → List (R × Int) → S → S → Prop
  | nil (attempt) (s) : Attempted attempt [] s s
  | cons {attempt r rc done s s₁ s₂} : attempt 0 r s rc s₁ →
      Attempted (fun i => attempt (i + 1)) done s₁ s₂ → Attempted attempt ((r, rc) :: done) s s₂

theorem Attempted.one {attempt : Nat → R → S → Int → S → Prop} {r : R} {s s₁ : S} {rc : Int}
    (h : attempt 0 r s rc s₁) : Attempted attempt [(r, rc)] s s₁ :=
  .cons h (.nil _ s₁)

/-- What is done of a sequence of requests that is given up at the first failure: either all of
them succeed, or the last one that is made fails, and its error is the result. -/
inductive UntilFailure : List R → List (R × Int) → Int → Prop
  | nil : UntilFailure [] [] 0
  | failed {r reqs rc} : rc ≠ 0 → UntilFailure (r :: reqs) [(r, rc)] rc
  | next {r reqs done rc} : UntilFailure reqs done rc → UntilFailure (r :: reqs) ((r, 0) :: done) rc

namespace UntilFailure

variable {reqs : List R} {done : List (R × Int)} {rc : Int}

theorem one (r : R) (rc : Int) : UntilFailure [r] [(r, rc)] rc := by
  by_cases ok : rc = 0
  · subst ok
    exact .next .nil
  · exact .failed ok

theorem isPrefix (h : UntilFailure reqs done rc) : done.map Prod.fst <+: reqs := by
  induction h with
  | nil => exact List.prefix_rfl
  | failed _ => exact ⟨_, rfl⟩
  | next _ ih => exact List.cons_prefix_cons.mpr ⟨rfl, ih⟩

theorem success_iff (h : UntilFailure reqs done rc) :
    rc = 0 ↔ done.map Prod.fst = reqs ∧ ∀ d ∈ done, d.2 = 0 := by
  induction h with
  | nil => exact iff_of_true rfl ⟨rfl, List.forall_mem_nil _⟩
  | @failed r reqs rc bad =>
    refine iff_of_false bad fun all => bad ?_
    exact all.2 _ (List.mem_singleton_self (r, rc))
  | next _ ih =>
    rw [ih, List.map_cons, List.forall_mem_cons, List.cons_inj_right]
    exact ⟨fun all => ⟨all.1, rfl, all.2⟩, fun all => ⟨all.1, all.2.2⟩⟩

/-- A failure is the outcome of the last request made, and the first one. -/
theorem failure (h : UntilFailure reqs done rc) (bad : rc ≠ 0) :
    ∃ before r, done = before ++ [(r, rc)] ∧ ∀ d ∈ before, d.2 = 0 := by
  induction h with
  | nil => exact absurd rfl bad
  | @failed r => exact ⟨[], r, rfl, List.forall_mem_nil _⟩
  | @next r _ _ _ _ ih =>
    obtain ⟨before, last, rfl, fine⟩ := ih bad
    exact ⟨(r, 0) :: before, last, rfl, List.forall_mem_cons.mpr ⟨rfl, fine⟩⟩

end UntilFailure

end CProgram
