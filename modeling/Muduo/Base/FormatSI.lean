import Muduo.Base.LogStreamRuns
import Muduo.Lib.Rounding

/-!
formatSI of LogStream.cc. The thresholds are compared with the integer, but what is printed is
the integer rounded to a double, divided and rounded again, and then rounded to two, one or no
decimal places. Each of the three roundings keeps the order, so the longest text of a branch is
that of its largest integer.

A double is an exact rational; its exponent range is not reached. The powers of ten up to 1e18
are doubles.
-/
namespace Muduo
open Lib
namespace LogStream
variable {s : Int}

def double (x : ℚ) : ℚ := roundSignificand 53 x

/-- What the conversion %.kf shows of a number that is not negative, without the point. -/
def shown (k : Nat) (x : ℚ) : Nat := (roundEven (x * 10 ^ k)).toNat

def fixed (k : Nat) (x : ℚ) : List Char :=
  decimal (shown k x / 10 ^ k) ++
    if k = 0 then [] else '.' :: zeroPadded k (shown k x % 10 ^ k)

def scaled (k : Nat) (n d : ℚ) (unit : Char) : List Char := fixed k (double (n / d)) ++ [unit]

def formatSI (s : Int) : List Char :=
  let n := double s
  snprintf 64 <|
    if s < 1000 then integerText s
    else if s < 9995 then scaled 2 n (10 ^ 3) 'k'
    else if s < 99950 then scaled 1 n (10 ^ 3) 'k'
    else if s < 999500 then scaled 0 n (10 ^ 3) 'k'
    else if s < 9995000 then scaled 2 n (10 ^ 6) 'M'
    else if s < 99950000 then scaled 1 n (10 ^ 6) 'M'
    else if s < 999500000 then scaled 0 n (10 ^ 6) 'M'
    else if s < 9995000000 then scaled 2 n (10 ^ 9) 'G'
    else if s < 99950000000 then scaled 1 n (10 ^ 9) 'G'
    else if s < 999500000000 then scaled 0 n (10 ^ 9) 'G'
    else if s < 9995000000000 then scaled 2 n (10 ^ 12) 'T'
    else if s < 99950000000000 then scaled 1 n (10 ^ 12) 'T'
    else if s < 999500000000000 then scaled 0 n (10 ^ 12) 'T'
    else if s < 9995000000000000 then scaled 2 n (10 ^ 15) 'P'
    else if s < 99950000000000000 then scaled 1 n (10 ^ 15) 'P'
    else if s < 999500000000000000 then scaled 0 n (10 ^ 15) 'P'
    else scaled 2 n (10 ^ 18) 'E'

/-! ### The order of what is shown -/

def shownOf (k : Nat) (d : ℚ) (s : Int) : Nat := shown k (double (double s / d))

section
variable {k : Nat} {d : ℚ} {s t : Int}

theorem shown_mono {x y : ℚ} (le : x ≤ y) : shown k x ≤ shown k y := by
  have scaled : x * 10 ^ k ≤ y * 10 ^ k := mul_le_mul_of_nonneg_right le (by positivity)
  exact Int.toNat_le_toNat (roundEven_mono scaled)

theorem shownOf_mono (unit : 0 < d) (pos : 0 < s) (le : s ≤ t) :
    shownOf k d s ≤ shownOf k d t := by
  have first : double s ≤ double t :=
    roundSignificand_mono (by decide) (by exact_mod_cast pos) (by exact_mod_cast le)
  have some : 0 < double s / d :=
    div_pos (roundSignificand_pos (by decide) (by exact_mod_cast pos)) unit
  have quotient : double s / d ≤ double t / d := div_le_div_of_nonneg_right first unit.le
  exact shown_mono (roundSignificand_mono (by decide) some quotient)

/-! ### The length of the text -/

theorem length_scaled {places : Nat} (unit : Char) (some : 0 < places) (n : ℚ) :
    (scaled places n d unit).length =
      (decimal (shown places (double (n / d)) / 10 ^ places)).length + places + 2 := by
  have rest : shown places (double (n / d)) % 10 ^ places < 10 ^ places :=
    Nat.mod_lt _ (Nat.pow_pos (by decide))
  simp only [scaled, fixed, if_neg (Nat.ne_of_gt some), List.length_append, List.length_cons,
    List.length_nil, length_zeroPadded some rest]
  omega

theorem length_scaled_le {most : Int} (unit : Char) (le : k ≤ 2) (positive : 0 < d) (pos : 0 < s)
    (below : s ≤ most) (ends : shownOf k d most < if k = 0 then 10000 else 1000) :
    (scaled k (double s) d unit).length ≤ 5 := by
  have small := Nat.lt_of_le_of_lt (shownOf_mono (k := k) positive pos below) ends
  by_cases none : k = 0
  · subst none
    have short : (decimal (shownOf 0 d s)).length ≤ 4 := length_decimal_le (by decide) small
    unfold shownOf at short
    simp only [scaled, fixed, if_true, pow_zero, Nat.div_one, List.length_append,
      List.length_singleton, List.length_nil]
    omega
  · rw [if_neg none] at small
    have front : shownOf k d s / 10 ^ k < 10 ^ (3 - k) := by
      apply Nat.div_lt_of_lt_mul
      rw [← Nat.pow_add, Nat.add_sub_cancel' (by omega)]
      exact small
    have short := length_decimal_le (by omega) front
    rw [length_scaled unit (Nat.pos_of_ne_zero none)]
    unfold shownOf at short
    omega

theorem lt_length_scaled {least : Int} (unit : Char) (positive : 0 < d) (pos : 0 < least)
    (above : least ≤ s) (starts : 1000 ≤ shownOf 1 d least) :
    5 < (scaled 1 (double s) d unit).length := by
  have large := Nat.le_trans starts (shownOf_mono (k := 1) positive pos above)
  have front : 10 ^ 2 ≤ shownOf 1 d s / 10 ^ 1 := by
    rw [Nat.le_div_iff_mul_le (by decide)]
    exact large
  have long := lt_length_decimal (by decide) front
  rw [length_scaled unit (by decide)]
  unfold shownOf at long
  omega

end

theorem length_ite_le {p : Prop} [Decidable p] {yes no : List Char} {n : Nat}
    (one : p → yes.length ≤ n) (other : ¬p → no.length ≤ n) :
    (if p then yes else no).length ≤ n := by
  split
  · next holds => exact one holds
  · next fails => exact other fails

theorem length_branch_le {k : Nat} {d : ℚ} {threshold : Int} {unit : Char} {later : List Char}
    (pos : 0 < s) (le : k ≤ 2) (positive : 0 < d)
    (ends : shownOf k d (threshold - 1) < if k = 0 then 10000 else 1000)
    (other : ¬s < threshold → later.length ≤ 5) :
    (if s < threshold then scaled k (double s) d unit else later).length ≤ 5 := by
  apply length_ite_le
  · intro below
    exact length_scaled_le unit le positive pos (by omega) ends
  · exact other

/-- The integers that are below 99.95P, but are rounded to it on the way to a double. -/
def RoundsUp (s : Int) : Prop := 99949999999999992 ≤ s ∧ s ≤ 99949999999999999

theorem length_formatSI_le (nonneg : 0 ≤ s) (fits : Fits 64 s) (not_up : ¬RoundsUp s) :
    (formatSI s).length ≤ 5 := by
  unfold RoundsUp at not_up
  unfold Fits at fits
  apply Nat.le_trans (List.length_take_le' _ _)
  apply length_ite_le
  · intro below
    have digits : (decimal s.natAbs).length ≤ 3 := length_decimal_le (by decide) (by omega)
    simp only [integerText, if_neg (Int.not_lt.mpr nonneg)]
    omega
  intro above
  have pos : 0 < s := by omega
  apply length_branch_le pos (by decide) (by norm_num) (by decide +kernel)
  intro _
  apply length_branch_le pos (by decide) (by norm_num) (by decide +kernel)
  intro _
  apply length_branch_le pos (by decide) (by norm_num) (by decide +kernel)
  intro _
  apply length_branch_le pos (by decide) (by norm_num) (by decide +kernel)
  intro _
  apply length_branch_le pos (by decide) (by norm_num) (by decide +kernel)
  intro _
  apply length_branch_le pos (by decide) (by norm_num) (by decide +kernel)
  intro _
  apply length_branch_le pos (by decide) (by norm_num) (by decide +kernel)
  intro _
  apply length_branch_le pos (by decide) (by norm_num) (by decide +kernel)
  intro _
  apply length_branch_le pos (by decide) (by norm_num) (by decide +kernel)
  intro _
  apply length_branch_le pos (by decide) (by norm_num) (by decide +kernel)
  intro _
  apply length_branch_le pos (by decide) (by norm_num) (by decide +kernel)
  intro _
  apply length_branch_le pos (by decide) (by norm_num) (by decide +kernel)
  intro _
  apply length_branch_le pos (by decide) (by norm_num) (by decide +kernel)
  intro _
  -- of the integers below this threshold the last ones are rounded up to it
  apply length_ite_le
  · intro below
    have most : s ≤ 99949999999999991 := by omega
    exact length_scaled_le 'P' (by decide) (by norm_num) pos most (by decide +kernel)
  intro _
  apply length_branch_le pos (by decide) (by norm_num) (by decide +kernel)
  intro _
  have most : s ≤ 9223372036854775807 := by omega
  exact length_scaled_le 'E' (by decide) (by norm_num) pos most (by decide +kernel)

theorem formatSI_of_roundsUp (up : RoundsUp s) :
    formatSI s = snprintf 64 (scaled 1 (double s) (10 ^ 15) 'P') := by
  obtain ⟨above, below⟩ := up
  unfold formatSI
  simp (disch := omega) only [if_neg, if_pos]

theorem lt_length_formatSI (up : RoundsUp s) : 5 < (formatSI s).length := by
  have long := lt_length_scaled 'P' (by norm_num : (0 : ℚ) < 10 ^ 15) (by decide) up.1
    (by decide +kernel)
  rw [formatSI_of_roundsUp up, snprintf, List.length_take]
  omega

/-- Five characters hold every int64_t that is not negative, but for eight of them. -/
theorem formatSI_fits (s : Int) (nonneg : 0 ≤ s) (fits : Fits 64 s) :
    (formatSI s).length ≤ 5 ↔ ¬RoundsUp s := by
  constructor
  · intro short up
    exact Nat.not_lt.mpr short (lt_length_formatSI up)
  · intro not_up
    exact length_formatSI_le nonneg fits not_up

theorem formatSI_fits_largest :
    (formatSI 9223372036854775807).length ≤ 5 ∧
      formatSI 9223372036854775807 = "9.22E".toList := by
  have fits : Fits 64 9223372036854775807 := by decide
  exact ⟨(formatSI_fits 9223372036854775807 (by decide) fits).mpr (by unfold RoundsUp; decide),
    by decide +kernel⟩

/-- The integer is below 99.95P, its double is not. -/
theorem formatSI_six_characters :
    Fits 64 99949999999999999 ∧ formatSI 99949999999999999 = "100.0P".toList :=
  ⟨by decide, by decide +kernel⟩

end LogStream
end Muduo
