import Mathlib.Data.List.Basic
import Mathlib.Tactic.Ring

namespace CMemory

/-- The value of a little-endian byte string. -/
def leNat : List UInt8 → Nat
  | [] => 0
  | b :: bs => b.toNat + 256 * leNat bs

/-- The low `n` bytes of a number, least significant first. -/
def leBytes : Nat → Nat → List UInt8
  | 0, _ => []
  | n + 1, v => UInt8.ofNat v :: leBytes n (v / 256)

/-- A region that held `old` after `bs` has been laid over its start. -/
def overlay (bs old : List UInt8) : List UInt8 :=
  bs ++ old.drop bs.length

@[simp] theorem leBytes_length (n v : Nat) : (leBytes n v).length = n := by
  induction n generalizing v with
  | zero => rfl
  | succ n ih => simp [leBytes, ih]

theorem leNat_lt (bs : List UInt8) : leNat bs < 256 ^ bs.length := by
  induction bs with
  | nil => simp [leNat]
  | cons b bs ih =>
    have hb : b.toNat < 256 := b.toNat_lt
    calc b.toNat + 256 * leNat bs < 256 + 256 * leNat bs := by omega
      _ = 256 * (leNat bs + 1) := by ring
      _ ≤ 256 * 256 ^ bs.length := Nat.mul_le_mul_left _ ih
      _ = 256 ^ (b :: bs).length := by rw [List.length_cons, Nat.pow_succ']

/-- What is read from at most `n` bytes fits in them. -/
theorem leNat_take_lt (n : Nat) (bs : List UInt8) : leNat (bs.take n) < 256 ^ n := by
  have short : (bs.take n).length ≤ n := List.length_take_le n bs
  exact lt_of_lt_of_le (leNat_lt _) (Nat.pow_le_pow_right (by omega) short)

theorem leNat_leBytes (n v : Nat) : leNat (leBytes n v) = v % 256 ^ n := by
  induction n generalizing v with
  | zero => simp [leBytes, leNat, Nat.mod_one]
  | succ n ih =>
    have hb : (UInt8.ofNat v).toNat = v % 256 := by simp
    rw [leBytes, leNat, ih, hb, Nat.pow_succ', Nat.mod_mul]

theorem leBytes_leNat (bs : List UInt8) : leBytes bs.length (leNat bs) = bs := by
  induction bs with
  | nil => rfl
  | cons b bs ih =>
    have hb : b.toNat < 256 := b.toNat_lt
    have hlow : UInt8.ofNat (b.toNat + 256 * leNat bs) = b := by
      apply UInt8.toNat_inj.mp
      simp
    have hhigh : (b.toNat + 256 * leNat bs) / 256 = leNat bs := by omega
    rw [List.length_cons, leBytes, leNat, hlow, hhigh, ih]

theorem leNat_eq_zero {bs : List UInt8} : leNat bs = 0 ↔ ∀ b ∈ bs, b = 0 := by
  induction bs with
  | nil => simp [leNat]
  | cons b bs ih =>
    have hb : b.toNat = 0 ↔ b = 0 := by rw [← UInt8.toNat_inj]; rfl
    simp only [leNat, List.mem_cons, forall_eq_or_imp, ← hb, ← ih]
    omega

@[simp] theorem overlay_nil (old : List UInt8) : overlay [] old = old := by simp [overlay]

theorem overlay_length (bs old : List UInt8) :
    (overlay bs old).length = max bs.length old.length := by
  simp only [overlay, List.length_append, List.length_drop]
  omega

theorem overlay_full {bs old : List UInt8} (h : old.length ≤ bs.length) : overlay bs old = bs := by
  simp [overlay, List.drop_eq_nil_of_le h]

/-- Laying bytes over two adjacent regions lays the first part over the first region and
what is left over the second. -/
theorem overlay_append {bs xs ys : List UInt8} :
    overlay bs (xs ++ ys) =
      overlay (bs.take xs.length) xs ++ overlay (bs.drop xs.length) ys := by
  by_cases h : bs.length ≤ xs.length
  · have hd : bs.drop xs.length = [] := List.drop_eq_nil_of_le h
    rw [hd, overlay_nil, List.take_of_length_le h]
    simp [overlay, List.drop_append, Nat.sub_eq_zero_of_le h]
  · have ht : (bs.take xs.length).length = xs.length := by
      rw [List.length_take]; omega
    rw [overlay_full (by omega : xs.length ≤ (bs.take xs.length).length)]
    simp only [overlay, List.length_drop, List.drop_append, ← List.append_assoc,
      List.take_append_drop]
    rw [List.drop_eq_nil_of_le (by omega : xs.length ≤ bs.length), List.append_nil]

end CMemory
