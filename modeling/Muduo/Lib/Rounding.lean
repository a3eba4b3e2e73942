import Mathlib.Data.Int.Log
import Mathlib.Data.Rat.Floor
import Mathlib.Tactic.Linarith

/-!
Rounding of exact rationals to the nearest value, of two to the even one: to an integer, and to
a binary significand of a given number of bits, the exponent being unbounded. Both keep the
order, so that a bound on a rounded value is one evaluation at the largest argument.
-/
namespace Lib

def roundEven (x : ℚ) : ℤ :=
  if 2 * (x - ⌊x⌋) < 1 then ⌊x⌋
  else if 1 < 2 * (x - ⌊x⌋) then ⌊x⌋ + 1
  else if 2 ∣ ⌊x⌋ then ⌊x⌋
  else ⌊x⌋ + 1

def ulp (p : ℕ) (x : ℚ) : ℚ := 2 ^ (Int.log 2 |x| - (p - 1 : ℤ))

def roundSignificand (p : ℕ) (x : ℚ) : ℚ := roundEven (x / ulp p x) * ulp p x

variable {p : ℕ} {x y : ℚ}

theorem floor_le_roundEven (x : ℚ) : ⌊x⌋ ≤ roundEven x := by
  unfold roundEven
  split_ifs <;> omega

theorem roundEven_le_succ (x : ℚ) : roundEven x ≤ ⌊x⌋ + 1 := by
  unfold roundEven
  split_ifs <;> omega

theorem roundEven_of_floor_eq (le : x ≤ y) (same : ⌊x⌋ = ⌊y⌋) : roundEven x ≤ roundEven y := by
  unfold roundEven
  simp only [same]
  split_ifs <;> first | omega | linarith

theorem roundEven_mono (le : x ≤ y) : roundEven x ≤ roundEven y := by
  rcases eq_or_lt_of_le (Int.floor_mono le) with same | less
  · exact roundEven_of_floor_eq le same
  · calc roundEven x
        ≤ ⌊x⌋ + 1 := roundEven_le_succ x
      _ ≤ ⌊y⌋ := less
      _ ≤ roundEven y := floor_le_roundEven y

@[simp] theorem roundEven_intCast (z : ℤ) : roundEven z = z := by
  simp [roundEven]

theorem ulp_pos (p : ℕ) (x : ℚ) : 0 < ulp p x := zpow_pos (by norm_num) _

theorem roundSignificand_le {m : ℤ} (le : x ≤ m * ulp p x) :
    roundSignificand p x ≤ m * ulp p x := by
  have positive := ulp_pos p x
  have rounded : roundEven (x / ulp p x) ≤ m := by
    have quotient : x / ulp p x ≤ m := (div_le_iff₀ positive).mpr le
    simpa using roundEven_mono quotient
  exact mul_le_mul_of_nonneg_right (by exact_mod_cast rounded) positive.le

theorem le_roundSignificand {m : ℤ} (le : m * ulp p x ≤ x) :
    m * ulp p x ≤ roundSignificand p x := by
  have positive := ulp_pos p x
  have rounded : m ≤ roundEven (x / ulp p x) := by
    have quotient : m ≤ x / ulp p x := (le_div_iff₀ positive).mpr le
    simpa using roundEven_mono quotient
  exact mul_le_mul_of_nonneg_right (by exact_mod_cast rounded) positive.le

theorem pow_mul_ulp (pos : 0 < x) (k : ℕ) :
    ((2 ^ k : ℤ) : ℚ) * ulp p x = 2 ^ (Int.log 2 x - (p - 1 : ℤ) + k) := by
  unfold ulp
  rw [abs_of_pos pos, zpow_add₀ (by norm_num), mul_comm]
  simp

theorem roundSignificand_le_pow (pos : 0 < x) : roundSignificand p x ≤ 2 ^ (Int.log 2 x + 1) := by
  have upper : ((2 ^ p : ℤ) : ℚ) * ulp p x = 2 ^ (Int.log 2 x + 1) := by
    rw [pow_mul_ulp pos]
    congr 1
    omega
  have below := Int.lt_zpow_succ_log_self (by decide : 1 < 2) x
  rw [← upper]
  apply roundSignificand_le
  rw [upper]
  exact_mod_cast below.le

theorem pow_le_roundSignificand (bits : 0 < p) (pos : 0 < x) :
    2 ^ Int.log 2 x ≤ roundSignificand p x := by
  have lower : ((2 ^ (p - 1) : ℤ) : ℚ) * ulp p x = 2 ^ Int.log 2 x := by
    rw [pow_mul_ulp pos]
    congr 1
    omega
  have above := Int.zpow_log_le_self (by decide : 1 < 2) pos
  rw [← lower]
  apply le_roundSignificand
  rw [lower]
  exact_mod_cast above

theorem roundSignificand_mono (bits : 0 < p) (pos : 0 < x) (le : x ≤ y) :
    roundSignificand p x ≤ roundSignificand p y := by
  have pos' : 0 < y := lt_of_lt_of_le pos le
  rcases eq_or_lt_of_le (Int.log_mono_right (b := 2) pos le) with same | less
  · have unit : ulp p x = ulp p y := by
      unfold ulp
      rw [abs_of_pos pos, abs_of_pos pos', same]
    have positive := ulp_pos p y
    have rounded : roundEven (x / ulp p y) ≤ roundEven (y / ulp p y) :=
      roundEven_mono (div_le_div_of_nonneg_right le positive.le)
    unfold roundSignificand
    rw [unit]
    exact mul_le_mul_of_nonneg_right (by exact_mod_cast rounded) positive.le
  · -- a power of two stands between them
    calc roundSignificand p x
        ≤ 2 ^ (Int.log 2 x + 1) := roundSignificand_le_pow pos
      _ ≤ 2 ^ Int.log 2 y := zpow_le_zpow_right₀ (by norm_num) less
      _ ≤ roundSignificand p y := pow_le_roundSignificand bits pos'

theorem roundSignificand_pos (bits : 0 < p) (pos : 0 < x) : 0 < roundSignificand p x :=
  lt_of_lt_of_le (zpow_pos (by norm_num) _) (pow_le_roundSignificand bits pos)

end Lib
