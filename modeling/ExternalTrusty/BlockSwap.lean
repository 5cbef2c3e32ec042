import ExternalTrusty.Bytes
import Mathlib.Data.BitVec

namespace CBits

open CMemory

variable {n bits s : Nat} {m v w : BitVec n}

theorem mod_of_block {i b q r : Nat} (h : i = b * q + r) (hr : r < b) : i % b = r := by
  rw [h, Nat.mul_add_mod, Nat.mod_eq_of_lt hr]

theorem div_of_block {i b q r : Nat} (h : i = b * q + r) (hr : r < b) : i / b = q := by
  rw [h, Nat.mul_add_div (by omega), Nat.div_eq_of_lt hr, Nat.add_zero]

/-- Whole blocks are inside a bound or outside of it. -/
theorem lt_of_same_block {b i j : Nat} (hdvd : b ∣ bits) (hsame : i / b = j / b) (hj : j < bits) :
    i < bits := by
  obtain ⟨c, rfl⟩ := hdvd
  have hb : 0 < b := Nat.pos_of_mul_pos_right (Nat.zero_lt_of_lt hj)
  rw [Nat.mul_comm, ← Nat.div_lt_iff_lt_mul hb] at hj ⊢
  rwa [hsame]

/-- Bit `i` is in the lower half of a block of `2 * s` bits. -/
def Low (s i : Nat) : Prop := i % (2 * s) < s

instance : DecidablePred (Low s) := fun _ => inferInstanceAs (Decidable (_ < _))

/-- The bit that changes places with bit `i` when the two halves of every block do. -/
def partner (s i : Nat) : Nat := if Low s i then i + s else i - s

/-- The bits of the lower halves, up to `bits`. -/
def LowMask (bits s : Nat) (m : BitVec n) : Prop :=
  ∀ i, m.getLsbD i = decide (i < bits ∧ Low s i)

/-- The two halves of every block of `2 * s` bits, in each other's place. -/
def swapHalves (m : BitVec n) (s : Nat) (v : BitVec n) : BitVec n :=
  ((v >>> s) &&& m) ||| ((v &&& m) <<< s)

theorem Low.add_mod {i : Nat} (h : Low s i) : (i + s) % (2 * s) = i % (2 * s) + s := by
  unfold Low at h
  have hsplit := Nat.div_add_mod i (2 * s)
  exact mod_of_block (q := i / (2 * s)) (by omega) (by omega)

theorem sub_mod_of_not_low {i : Nat} (h : ¬Low s i) : (i - s) % (2 * s) = i % (2 * s) - s := by
  unfold Low at h
  rcases Nat.eq_zero_or_pos s with rfl | hs
  · rfl
  · have hsplit := Nat.div_add_mod i (2 * s)
    have hlt := Nat.mod_lt i (by omega : 2 * s > 0)
    exact mod_of_block (q := i / (2 * s)) (by omega) (by omega)

theorem le_of_not_low {i : Nat} (h : ¬Low s i) : s ≤ i :=
  Nat.le_trans (Nat.not_lt.mp h) (Nat.mod_le i (2 * s))

/-- A bit is in the lower half of a half exactly when one of it and the bit `s` below it is in the
lower half of the block, and not both. -/
theorem low_halve {i : Nat} (hs : 0 < s) :
    Low s i ↔ ¬(Low (2 * s) i ↔ s ≤ i ∧ Low (2 * s) (i - s)) := by
  unfold Low
  have hsplit := Nat.div_add_mod i (2 * (2 * s))
  have hlt := Nat.mod_lt i (by omega : 2 * (2 * s) > 0)
  have hpairs : 2 * (2 * s) * (i / (2 * (2 * s))) = 2 * s * (2 * (i / (2 * (2 * s)))) := by ring
  have hodd : 2 * s * (2 * (i / (2 * (2 * s))) + 1) =
      2 * s * (2 * (i / (2 * (2 * s)))) + 2 * s := by ring
  have hhalf : i % (2 * s) = if i % (2 * (2 * s)) < 2 * s then i % (2 * (2 * s))
      else i % (2 * (2 * s)) - 2 * s := by
    split
    next hl => exact mod_of_block (q := 2 * (i / (2 * (2 * s)))) (by omega) hl
    next hh => exact mod_of_block (q := 2 * (i / (2 * (2 * s))) + 1) (by omega) (by omega)
  have hbelow : s ≤ i → (i - s) % (2 * (2 * s)) = if s ≤ i % (2 * (2 * s))
      then i % (2 * (2 * s)) - s else i % (2 * (2 * s)) + 3 * s := by
    intro hi
    split
    next hh => exact mod_of_block (q := i / (2 * (2 * s))) (by omega) (by omega)
    next hl =>
      -- the bit is in the block before
      obtain ⟨q, hq⟩ : ∃ q, i / (2 * (2 * s)) = q + 1 := by
        refine Nat.exists_eq_succ_of_ne_zero ?_
        intro hzero
        rw [hzero, Nat.mul_zero] at hsplit
        omega
      have hstep : 2 * (2 * s) * (q + 1) = 2 * (2 * s) * q + 4 * s := by ring
      rw [hq] at hsplit
      exact mod_of_block (q := q) (by omega) (by omega)
  by_cases hi : s ≤ i
  · rw [hbelow hi, hhalf]
    split
    next => split <;> omega
    next => split <;> omega
  · have hmod : i % (2 * (2 * s)) = i := Nat.mod_eq_of_lt (by omega)
    rw [hhalf, hmod, if_pos (by omega)]
    omega

/-- The mask for the first swap, which is that of the halves of all bits. -/
theorem LowMask.first (h : 2 * s ≤ n) :
    LowMask (2 * s) s (BitVec.allOnes n ^^^ (BitVec.allOnes n <<< s)) := by
  intro i
  have hlow : decide (i < 2 * s ∧ Low s i) = decide (i < s) := by
    rw [decide_eq_decide]
    unfold Low
    constructor
    · rintro ⟨hi, hl⟩
      rwa [Nat.mod_eq_of_lt hi] at hl
    · intro hi
      have hi' : i < 2 * s := by omega
      exact ⟨hi', by rwa [Nat.mod_eq_of_lt hi']⟩
  rw [BitVec.getLsbD_xor, BitVec.getLsbD_shiftLeft, BitVec.getLsbD_allOnes,
    BitVec.getLsbD_allOnes, hlow]
  by_cases hi : i < n
  · have hi' : i - s < n := by omega
    simp [hi, hi']
  · have hs : ¬i < s := by omega
    simp [hi, hs]

/-- The mask for the next swap comes from the one before. -/
theorem LowMask.halve (h : LowMask bits (2 * s) m) (hs : 0 < s) (hdvd : 2 * (2 * s) ∣ bits)
    (hbits : bits ≤ n) : LowMask bits s (m ^^^ (m <<< s)) := by
  intro i
  have hlow : decide (i < bits ∧ Low s i) =
      decide (i < bits ∧ ¬(Low (2 * s) i ↔ s ≤ i ∧ Low (2 * s) (i - s))) := by
    rw [decide_eq_decide, low_halve hs]
  rw [BitVec.getLsbD_xor, BitVec.getLsbD_shiftLeft, h i, h (i - s), hlow]
  by_cases hi : i < bits
  · have hn : i < n := by omega
    have hi' : i - s < bits := by omega
    by_cases hl : Low (2 * s) i
    · by_cases hle : s ≤ i
      · simp [hi, hn, hi', hl, hle, Nat.not_lt.mpr hle]
      · simp [hi, hl, hle, Nat.not_le.mp hle]
    · by_cases hle : s ≤ i
      · simp [hi, hn, hi', hl, hle, Nat.not_lt.mpr hle]
      · simp [hi, hl, hle, Nat.not_le.mp hle]
  · -- the lower halves of whole blocks do not get past the bound
    have hout : ¬(s ≤ i ∧ i - s < bits ∧ Low (2 * s) (i - s)) := by
      rintro ⟨hle, hlt, hlow⟩
      apply hi
      refine lt_of_same_block hdvd ?_ hlt
      unfold Low at hlow
      have hsplit := Nat.div_add_mod (i - s) (2 * (2 * s))
      exact div_of_block (r := (i - s) % (2 * (2 * s)) + s) (by omega) (by omega)
    have hshift : (decide (i < n) && !decide (i < s) &&
        decide (i - s < bits ∧ Low (2 * s) (i - s))) = false := by
      rw [Bool.and_eq_false_iff]
      by_cases hle : s ≤ i
      · refine Or.inr (decide_eq_false ?_)
        rintro ⟨hlt, hlow⟩
        exact hout ⟨hle, hlt, hlow⟩
      · refine Or.inl ?_
        rw [decide_eq_true (Nat.not_le.mp hle), Bool.not_true, Bool.and_false]
    rw [hshift]
    simp [hi]

theorem partner_lt {i : Nat} (hdvd : 2 * s ∣ bits) (hi : i < bits) : partner s i < bits := by
  unfold partner
  split
  next hl =>
    unfold Low at hl
    have hsplit := Nat.div_add_mod i (2 * s)
    exact lt_of_same_block hdvd
      (div_of_block (r := i % (2 * s) + s) (by omega) (by omega)) hi
  next => omega

/-- A swap takes every bit from its partner. -/
theorem swapHalves_getLsbD (hm : LowMask bits s m) (hs : 0 < s) (hdvd : 2 * s ∣ bits)
    (hbits : bits ≤ n) (i : Nat) :
    (swapHalves m s v).getLsbD i = (decide (i < bits) && v.getLsbD (partner s i)) := by
  rw [swapHalves, BitVec.getLsbD_or, BitVec.getLsbD_and, BitVec.getLsbD_ushiftRight,
    BitVec.getLsbD_shiftLeft, BitVec.getLsbD_and, hm i, hm (i - s), partner]
  by_cases hl : Low s i
  · have hoff : (decide (i < n) && !decide (i < s) &&
        (v.getLsbD (i - s) && decide (i - s < bits ∧ Low s (i - s)))) = false := by
      by_cases hle : s ≤ i
      · have hhigh : ¬Low s (i - s) := by
          intro hlow
          have hadd := hlow.add_mod
          unfold Low at hl
          rw [Nat.sub_add_cancel hle] at hadd
          omega
        simp [hhigh]
      · simp [Nat.not_le.mp hle]
    rw [hoff, if_pos hl, Nat.add_comm s i]
    simp [hl, Bool.and_comm]
  · have hle := le_of_not_low hl
    have hlow : Low s (i - s) := by
      have hmod := sub_mod_of_not_low hl
      have hlt := Nat.mod_lt i (by omega : 2 * s > 0)
      unfold Low at hl ⊢
      omega
    have hsame : (i < n ∧ i - s < bits) ↔ i < bits := by
      constructor
      · rintro ⟨_, hlt⟩
        have hback := partner_lt hdvd hlt
        rwa [partner, if_pos hlow, Nat.sub_add_cancel hle] at hback
      · omega
    rw [if_neg hl]
    simp [hl, hlow, Nat.not_lt.mpr hle, ← hsame, Bool.and_comm, Bool.and_left_comm]

/-- The place of bit `i` when the blocks of `s` bits are put in the opposite order. -/
def mirror (bits s i : Nat) : Nat := bits - s + 2 * (i % s) - i

/-- `w` is `v` with its blocks of `s` bits in the opposite order. -/
def Mirrored (bits s : Nat) (v w : BitVec n) : Prop :=
  ∀ i, w.getLsbD i = (decide (i < bits) && v.getLsbD (mirror bits s i))

theorem Mirrored.whole (h : v.toNat < 2 ^ bits) : Mirrored bits bits v v := by
  intro i
  by_cases hi : i < bits
  · have hsame : mirror bits bits i = i := by
      rw [mirror, Nat.mod_eq_of_lt hi]
      omega
    rw [hsame, decide_eq_true hi, Bool.true_and]
  · rw [decide_eq_false hi, Bool.false_and, ← BitVec.testBit_toNat]
    exact Nat.testBit_lt_two_pow (Nat.lt_of_lt_of_le h (Nat.pow_le_pow_right (by omega)
      (Nat.not_lt.mp hi)))

theorem mirror_partner {i : Nat} (hs : 0 < s) (hdvd : 2 * s ∣ bits) (hi : i < bits) :
    mirror bits (2 * s) (partner s i) = mirror bits s i := by
  have hle : 2 * s ≤ bits := Nat.le_of_dvd (by omega) hdvd
  have hsplit := Nat.div_add_mod i (2 * s)
  have hpairs : 2 * s * (i / (2 * s)) = s * (2 * (i / (2 * s))) := by ring
  rw [mirror, mirror, partner]
  by_cases hl : Low s i
  · have hmod : i % s = i % (2 * s) :=
      mod_of_block (q := 2 * (i / (2 * s))) (by omega) hl
    rw [if_pos hl, hl.add_mod, hmod]
    omega
  · have hodd : s * (2 * (i / (2 * s)) + 1) = s * (2 * (i / (2 * s))) + s := by ring
    have hlt := Nat.mod_lt i (by omega : 2 * s > 0)
    have hge := le_of_not_low hl
    have hmod : i % s = i % (2 * s) - s := by
      unfold Low at hl
      exact mod_of_block (q := 2 * (i / (2 * s)) + 1) (by omega) (by omega)
    rw [if_neg hl, sub_mod_of_not_low hl, hmod]
    unfold Low at hl
    omega

/-- After the swap of their halves the blocks are half as long. -/
theorem Mirrored.swap (h : Mirrored bits (2 * s) v w) (hm : LowMask bits s m) (hs : 0 < s)
    (hdvd : 2 * s ∣ bits) (hbits : bits ≤ n) : Mirrored bits s v (swapHalves m s w) := by
  intro i
  rw [swapHalves_getLsbD hm hs hdvd hbits, h]
  by_cases hi : i < bits
  · rw [mirror_partner hs hdvd hi, decide_eq_true (partner_lt hdvd hi), Bool.true_and]
  · rw [decide_eq_false hi, Bool.false_and, Bool.false_and]

/-- A bit keeps its place in its block, and the block goes to the other end. -/
theorem mirror_block {c q r : Nat} (hq : q < c) (hr : r < s) :
    mirror (s * c) s (s * q + r) = s * (c - 1 - q) + r := by
  obtain ⟨d, rfl⟩ : ∃ d, c = q + 1 + d := ⟨c - (q + 1), by omega⟩
  have hall : s * (q + 1 + d) = s * q + s + s * d := by ring
  have hrest : q + 1 + d - 1 - q = d := by omega
  rw [mirror, hall, hrest, mod_of_block rfl hr]
  omega

theorem Mirrored.lt (h : Mirrored bits s v w) : w.toNat < 2 ^ bits := by
  apply Nat.lt_pow_two_of_testBit
  intro i hi
  rw [BitVec.testBit_toNat, h i, decide_eq_false (by omega), Bool.false_and]

/-- Blocks that are put in the opposite order twice are back in their places. -/
theorem Mirrored.twice {c : Nat} {u : BitVec n} (h : Mirrored (s * c) s v w)
    (hagain : Mirrored (s * c) s w u) (hlt : v.toNat < 2 ^ (s * c)) : u = v := by
  apply BitVec.eq_of_getLsbD_eq
  intro i _
  by_cases hi : i < s * c
  · have hs : 0 < s := Nat.pos_of_mul_pos_right (Nat.zero_lt_of_lt hi)
    obtain ⟨q, r, hr, rfl⟩ : ∃ q r, r < s ∧ s * q + r = i :=
      ⟨i / s, i % s, Nat.mod_lt i hs, Nat.div_add_mod i s⟩
    have hq : q < c := by
      have hdiv : (s * q + r) / s = q := div_of_block rfl hr
      rw [← hdiv, Nat.div_lt_iff_lt_mul hs, Nat.mul_comm c]
      exact hi
    have hback : mirror (s * c) s (mirror (s * c) s (s * q + r)) = s * q + r := by
      have hsame : c - 1 - (c - 1 - q) = q := by omega
      rw [mirror_block hq hr, mirror_block (by omega) hr, hsame]
    have hin : mirror (s * c) s (s * q + r) < s * c := by
      rw [mirror_block hq hr]
      calc s * (c - 1 - q) + r < s * (c - 1 - q) + s := by omega
        _ = s * (c - 1 - q + 1) := by ring
        _ ≤ s * c := Nat.mul_le_mul_left s (by omega)
    rw [hagain, h, hback, decide_eq_true hi, decide_eq_true hin, Bool.true_and, Bool.true_and]
  · have hhigh : v.toNat.testBit i = false := Nat.testBit_lt_two_pow
      (Nat.lt_of_lt_of_le hlt (Nat.pow_le_pow_right (by omega) (Nat.not_lt.mp hi)))
    rw [hagain i, decide_eq_false hi, Bool.false_and, ← BitVec.testBit_toNat, hhigh]

theorem leBytes_getElem {k x j : Nat} (hj : j < (leBytes k x).length) :
    (leBytes k x)[j] = UInt8.ofNat (x / 256 ^ j) := by
  induction k generalizing x j with
  | zero => exact absurd hj (Nat.not_lt_zero j)
  | succ k ih =>
    cases j with
    | zero => simp [leBytes]
    | succ j =>
      have hrest := @ih (x / 256) j (Nat.lt_of_succ_lt_succ hj)
      rw [Nat.div_div_eq_div_mul, ← Nat.pow_succ'] at hrest
      exact hrest

/-- Where the bits of a number are in its bytes. -/
theorem leBytes_testBit {k x j r : Nat} (hj : j < (leBytes k x).length) (hr : r < 8) :
    ((leBytes k x)[j]).toNat.testBit r = x.testBit (8 * j + r) := by
  have hpow : 256 ^ j = 2 ^ (8 * j) := by rw [Nat.pow_mul]
  have hbyte : (UInt8.ofNat (x / 256 ^ j)).toNat = x / 256 ^ j % 2 ^ 8 := by simp
  rw [leBytes_getElem, hbyte, Nat.testBit_mod_two_pow, decide_eq_true hr, Bool.true_and, hpow,
    Nat.testBit_div_two_pow, Nat.add_comm]

/-- In memory the bytes are in the opposite order. -/
theorem Mirrored.leBytes_eq {k : Nat} (h : Mirrored (8 * k) 8 v w) :
    leBytes k w.toNat = (leBytes k v.toNat).reverse := by
  apply List.ext_getElem
  · rw [List.length_reverse, leBytes_length, leBytes_length]
  intro j hj hj'
  rw [List.getElem_reverse]
  have hk : j < k := by rwa [leBytes_length] at hj
  apply UInt8.toNat_inj.mp
  apply Nat.eq_of_testBit_eq
  intro r
  by_cases hr : r < 8
  · rw [leBytes_testBit hj hr, leBytes_testBit _ hr, BitVec.testBit_toNat, BitVec.testBit_toNat,
      h, mirror_block hk hr, leBytes_length, decide_eq_true (by omega), Bool.true_and]
  · have hbyte : ∀ b : UInt8, b.toNat.testBit r = false := by
      intro b
      exact Nat.testBit_lt_two_pow (Nat.lt_of_lt_of_le b.toNat_lt
        (Nat.pow_le_pow_right (by omega) (Nat.not_lt.mp hr)))
    rw [hbyte, hbyte]

end CBits
