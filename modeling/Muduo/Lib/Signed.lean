import Mathlib.Algebra.Order.Ring.Nat
import Mathlib.Algebra.Order.Ring.Int
import Muduo.Lib.Checked

/-!
The integer types of C in two's complement. The value of an expression is exact or, for a
signed type, undefined; a conversion keeps the value modulo the size of the target type.
Division truncates, which for a dividend that is not negative is the Euclidean division.
-/
namespace Lib

/-- The values of a signed type of `w` bits. -/
def Fits (w : Nat) (x : Int) : Prop := -2 ^ w ≤ 2 * x ∧ 2 * x < 2 ^ w

instance (w : Nat) (x : Int) : Decidable (Fits w x) := inferInstanceAs (Decidable (_ ∧ _))

def toSigned (w : Nat) (x : Int) : Int := x.bmod (2 ^ w)

def toUnsigned (w : Nat) (x : Int) : Nat := (x % 2 ^ w).toNat

namespace Signed

abbrev int : Nat := 32
abbrev time_t : Nat := 64

/-- The value of an expression, which has to be one of its type. -/
def value (w : Nat) (x : Int) : Checked Int := do
  assertThat (Fits w x) "signed integer overflow"
  pure x

def add (w : Nat) (x y : Int) : Checked Int := value w (x + y)

def sub (w : Nat) (x y : Int) : Checked Int := value w (x - y)

def mul (w : Nat) (x y : Int) : Checked Int := value w (x * y)

def div (w : Nat) (x y : Int) : Checked Int := value w (x.tdiv y)

def rem (w : Nat) (x y : Int) : Checked Int := value w (x.tmod y)

end Signed

variable {w : Nat} {x : Int}

theorem fits_int : Fits Signed.int x ↔ -2147483648 ≤ x ∧ x ≤ 2147483647 := by
  show -2 ^ 32 ≤ 2 * x ∧ 2 * x < 2 ^ 32 ↔ _
  omega

theorem fits_time_t : Fits Signed.time_t x ↔
    -9223372036854775808 ≤ x ∧ x ≤ 9223372036854775807 := by
  show -2 ^ 64 ≤ 2 * x ∧ 2 * x < 2 ^ 64 ↔ _
  omega

theorem Signed.value_of_fits (fits : Fits w x) : value w x = .ok x := by
  rw [value, assertThat_of_true fits, ok_bind, pure_eq_ok]

theorem Signed.value_int (lower : -2147483648 ≤ x) (upper : x ≤ 2147483647) :
    value int x = .ok x := value_of_fits (fits_int.mpr ⟨lower, upper⟩)

theorem Signed.value_int_bind {α : Type} {f : Int → Checked α} (lower : -2147483648 ≤ x)
    (upper : x ≤ 2147483647) : (value int x >>= f) = f x := by
  rw [value_int lower upper, ok_bind]

theorem Signed.div_int_bind {α : Type} {f : Int → Checked α} {y : Int} (lower : 0 ≤ x)
    (upper : x ≤ 2147483647) (pos : 0 < y) : (div int x y >>= f) = f (x / y) := by
  have nonneg := Int.ediv_nonneg lower (Int.le_of_lt pos)
  have le := Int.ediv_le_self y lower
  rw [div, Int.tdiv_eq_ediv_of_nonneg lower, value_int_bind (by omega) (by omega)]

theorem Signed.value_time_t (lower : -9223372036854775808 ≤ x) (upper : x ≤ 9223372036854775807) :
    value time_t x = .ok x := value_of_fits (fits_time_t.mpr ⟨lower, upper⟩)

theorem toSigned_of_fits (fits : Fits w x) : toSigned w x = x := by
  have bounds := fits
  unfold Fits at bounds
  apply Int.bmod_eq_of_le_mul_two
  · push_cast
    omega
  · push_cast
    omega

theorem toUnsigned_of_lt (nonneg : 0 ≤ x) (lt : x < 2 ^ w) : (toUnsigned w x : Int) = x := by
  rw [toUnsigned, Int.emod_eq_of_lt nonneg lt, Int.toNat_of_nonneg nonneg]

theorem truncate_cases {y : Int} (pos : 0 < y) :
    x.tmod y < 0 ∧ x.tmod y + y = x % y ∧ x.tdiv y - 1 = x / y ∨
      0 ≤ x.tmod y ∧ x.tmod y = x % y ∧ x.tdiv y = x / y := by
  have whole := Int.mul_tdiv_add_tmod x y
  have bound := Int.tmod_lt_of_pos x pos
  have above : -y < x.tmod y := by
    have := Int.lt_tmod_of_pos x pos
    omega
  rcases Int.lt_or_le (x.tmod y) 0 with negative | nonneg
  · refine Or.inl ⟨negative, ?_⟩
    have unique := (Int.ediv_emod_unique pos (a := x) (r := x.tmod y + y) (q := x.tdiv y - 1)).mpr
      ⟨by rw [Int.mul_sub]; omega, by omega, by omega⟩
    exact ⟨unique.2.symm, unique.1.symm⟩
  · refine Or.inr ⟨nonneg, ?_⟩
    have unique := (Int.ediv_emod_unique pos (a := x) (r := x.tmod y) (q := x.tdiv y)).mpr
      ⟨by omega, nonneg, bound⟩
    exact ⟨unique.2.symm, unique.1.symm⟩

end Lib
