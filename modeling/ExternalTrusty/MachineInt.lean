import Mathlib.Data.Int.Basic
import Mathlib.Tactic.NormNum

namespace CMemory

/-- Reduction to `uint32_t`. -/
def u32 (n : Nat) : Nat := n % 2 ^ 32

/-- Reduction to a 64-bit `size_t`. -/
def usize (n : Nat) : Nat := n % 2 ^ 64

def u32Sub (a b : Nat) : Nat := (a + 2 ^ 32 - b) % 2 ^ 32

def usizeSub (a b : Nat) : Nat := (a + 2 ^ 64 - b) % 2 ^ 64

/-- Conversion of an unsigned value to a 32-bit `int`. -/
def toInt (n : Nat) : Int :=
  if n % 2 ^ 32 < 2 ^ 31 then (n % 2 ^ 32 : Nat) else (n % 2 ^ 32 : Nat) - 2 ^ 32

/-- `int` subtraction, wrapping. -/
def intSub (a b : Int) : Int := toInt ((a - b) % 2 ^ 32).toNat

/-- Conversion of an `int` to `size_t`. -/
def intToUsize (i : Int) : Nat := (i % 2 ^ 64).toNat

theorem toInt_of_lt {n : Nat} (h : n < 2 ^ 31) : toInt n = n := by
  have hm : n % 2 ^ 32 = n := Nat.mod_eq_of_lt (by omega)
  rw [toInt, hm, if_pos h]

theorem toInt_of_ge {n : Nat} (h : 2 ^ 31 ≤ n) (hb : n < 2 ^ 32) : toInt n = n - 2 ^ 32 := by
  have hm : n % 2 ^ 32 = n := Nat.mod_eq_of_lt hb
  rw [toInt, hm, if_neg (by omega)]

theorem toInt_neg {n : Nat} (h : 2 ^ 31 ≤ n) (hb : n < 2 ^ 32) : toInt n < 0 := by
  rw [toInt_of_ge h hb]
  omega

theorem toInt_emod (n : Nat) : toInt n % 2 ^ 32 = (n % 2 ^ 32 : Nat) := by
  unfold toInt
  split <;> omega

/-- The difference of two unsigned values, taken after both are converted to `int`. -/
theorem intSub_toInt {a b : Nat} (ha : a < 2 ^ 32) (h : b ≤ a) :
    intSub (toInt a) (toInt b) = toInt (a - b) := by
  have hab : (toInt a - toInt b) % 2 ^ 32 = ((a - b : Nat) : Int) := by
    have h1 := toInt_emod a
    have h2 := toInt_emod b
    omega
  rw [intSub, hab, Int.toNat_natCast]

theorem intToUsize_of_nonneg {i : Int} (h : 0 ≤ i) (hb : i < 2 ^ 64) : intToUsize i = i.toNat := by
  rw [intToUsize, Int.emod_eq_of_lt h hb]

theorem intToUsize_of_neg {i : Int} (h : i < 0) (hb : -2 ^ 64 ≤ i) :
    intToUsize i = (i + 2 ^ 64).toNat := by
  have hm : i % 2 ^ 64 = i + 2 ^ 64 := by omega
  rw [intToUsize, hm]

theorem intToUsize_lt (i : Int) : intToUsize i < 2 ^ 64 := by
  unfold intToUsize
  omega

end CMemory
