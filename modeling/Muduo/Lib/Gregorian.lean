import Mathlib.Algebra.Order.Ring.Int
import Mathlib.Tactic.IntervalCases

/-!
Dates of the proleptic Gregorian calendar, with years of any sign. The days are numbered
from 1 on the first of January of the year 1. The number goes up by one from each date to
the next, so that it respects the order of dates and every number is that of a date.
-/
namespace Lib
namespace Gregorian

def IsLeapYear (year : Int) : Prop := year % 4 = 0 ∧ (year % 100 ≠ 0 ∨ year % 400 = 0)

instance (year : Int) : Decidable (IsLeapYear year) := inferInstanceAs (Decidable (_ ∧ _))

def daysOfMonth (year month : Int) : Int :=
  if month = 2 then (if IsLeapYear year then 29 else 28)
  else if month = 4 ∨ month = 6 ∨ month = 9 ∨ month = 11 then 30
  else 31

def daysOfYear (year : Int) : Int := if IsLeapYear year then 366 else 365

@[ext] structure Date where
  year : Int
  month : Int
  day : Int
  month_pos : 1 ≤ month
  month_le : month ≤ 12
  day_pos : 1 ≤ day
  day_le : day ≤ daysOfMonth year month

instance : LT Date where
  lt a b := a.year < b.year ∨
    a.year = b.year ∧ (a.month < b.month ∨ a.month = b.month ∧ a.day < b.day)

def daysBeforeYear (year : Int) : Int :=
  365 * (year - 1) + (year - 1) / 4 - (year - 1) / 100 + (year - 1) / 400

def daysBeforeMonth (year month : Int) : Int :=
  (367 * month - 362) / 12 - if month ≤ 2 then 0 else if IsLeapYear year then 1 else 2

def Date.dayOfYear (d : Date) : Int := daysBeforeMonth d.year d.month + d.day

def Date.number (d : Date) : Int := daysBeforeYear d.year + d.dayOfYear

/-! ### Years and months -/

theorem daysOfMonth_bounds (year month : Int) :
    28 ≤ daysOfMonth year month ∧ daysOfMonth year month ≤ 31 := by
  unfold daysOfMonth
  split
  · split <;> omega
  · split <;> omega

theorem daysBeforeYear_succ (year : Int) :
    daysBeforeYear (year + 1) = daysBeforeYear year + daysOfYear year := by
  unfold daysBeforeYear daysOfYear
  split <;> rename_i leap <;> unfold IsLeapYear at leap <;> omega

theorem daysBeforeYear_mono {y z : Int} (le : y ≤ z) : daysBeforeYear y ≤ daysBeforeYear z := by
  unfold daysBeforeYear
  omega

theorem daysBeforeMonth_january (year : Int) : daysBeforeMonth year 1 = 0 := rfl

theorem daysBeforeMonth_december (year : Int) :
    daysBeforeMonth year 12 + daysOfMonth year 12 = daysOfYear year := by
  by_cases leap : IsLeapYear year <;> simp [daysBeforeMonth, daysOfMonth, daysOfYear, leap]

section
variable (year : Int) {m n : Int}

theorem daysBeforeMonth_succ (pos : 1 ≤ m) (le : m < 12) :
    daysBeforeMonth year (m + 1) = daysBeforeMonth year m + daysOfMonth year m := by
  by_cases leap : IsLeapYear year
  · interval_cases m <;> simp [daysBeforeMonth, daysOfMonth, leap]
  · interval_cases m <;> simp [daysBeforeMonth, daysOfMonth, leap]

theorem daysBeforeMonth_lt (pos : 1 ≤ m) (lt : m < n) (le : n ≤ 12) :
    daysBeforeMonth year m + daysOfMonth year m ≤ daysBeforeMonth year n := by
  rw [← daysBeforeMonth_succ year pos (by omega)]
  unfold daysBeforeMonth
  split <;> split <;> omega

end

/-! ### Dates -/

namespace Date
variable {a b : Date} {n : Int}

def next (d : Date) : Date :=
  if within : d.day < daysOfMonth d.year d.month then
    { d with day := d.day + 1, day_pos := by have := d.day_pos; omega, day_le := by omega }
  else if more : d.month < 12 then
    { year := d.year, month := d.month + 1, day := 1
      month_pos := by have := d.month_pos; omega
      month_le := by omega
      day_pos := by decide
      day_le := by have := (daysOfMonth_bounds d.year (d.month + 1)).1; omega }
  else
    { year := d.year + 1, month := 1, day := 1
      month_pos := by decide
      month_le := by decide
      day_pos := by decide
      day_le := by have := (daysOfMonth_bounds (d.year + 1) 1).1; omega }

theorem number_next (d : Date) : d.next.number = d.number + 1 := by
  have last := d.day_le
  unfold next number dayOfYear
  split
  · dsimp only
    omega
  · next last' =>
    split
    · next more =>
      have succ := daysBeforeMonth_succ d.year d.month_pos more
      dsimp only
      omega
    · next ended =>
      have december : d.month = 12 := by have := d.month_le; omega
      have ended := daysBeforeMonth_december d.year
      rw [december] at last last' ⊢
      dsimp only
      rw [daysBeforeYear_succ, daysBeforeMonth_january]
      omega

theorem dayOfYear_pos (d : Date) : 1 ≤ d.dayOfYear := by
  have pos := d.day_pos
  have first := d.month_pos
  unfold dayOfYear daysBeforeMonth
  split
  · omega
  · split <;> omega

theorem dayOfYear_le (d : Date) : d.dayOfYear ≤ daysOfYear d.year := by
  have last := d.day_le
  have december := daysBeforeMonth_december d.year
  have bound := daysOfMonth_bounds d.year 12
  unfold dayOfYear
  rcases Int.lt_or_eq_of_le d.month_le with before | here
  · have ended := daysBeforeMonth_lt d.year d.month_pos before (Int.le_refl 12)
    omega
  · rw [here] at last ⊢
    omega

theorem number_lt (lt : a < b) : a.number < b.number := by
  have pos := b.day_pos
  have last := a.day_le
  rcases lt with year | ⟨year, month | ⟨month, day⟩⟩
  · -- the year of a is over before that of b starts
    have ended := daysBeforeYear_mono (Int.add_one_le_of_lt year)
    rw [daysBeforeYear_succ] at ended
    have inside := a.dayOfYear_le
    have started := b.dayOfYear_pos
    unfold number
    omega
  · have ended := daysBeforeMonth_lt a.year a.month_pos month b.month_le
    unfold number dayOfYear
    rw [← year]
    omega
  · unfold number dayOfYear
    rw [← year, ← month]
    omega

theorem lt_or_eq_or_gt (a b : Date) : a < b ∨ a = b ∨ b < a := by
  rcases Int.lt_trichotomy a.year b.year with year | year | year
  · exact Or.inl (Or.inl year)
  · rcases Int.lt_trichotomy a.month b.month with month | month | month
    · exact Or.inl (Or.inr ⟨year, Or.inl month⟩)
    · rcases Int.lt_trichotomy a.day b.day with day | day | day
      · exact Or.inl (Or.inr ⟨year, Or.inr ⟨month, day⟩⟩)
      · exact Or.inr (Or.inl (Date.ext year month day))
      · exact Or.inr (Or.inr (Or.inr ⟨year.symm, Or.inr ⟨month.symm, day⟩⟩))
    · exact Or.inr (Or.inr (Or.inr ⟨year.symm, Or.inl month⟩))
  · exact Or.inr (Or.inr (Or.inl year))

theorem number_lt_iff : a.number < b.number ↔ a < b := by
  refine ⟨fun less => ?_, number_lt⟩
  rcases lt_or_eq_or_gt a b with before | same | after
  · exact before
  · rw [same] at less
    exact absurd less (Int.lt_irrefl _)
  · exact absurd less (Int.lt_asymm (number_lt after))

theorem eq_of_number (same : a.number = b.number) : a = b := by
  rcases lt_or_eq_or_gt a b with before | eq | after
  · exact absurd same (Int.ne_of_lt (number_lt before))
  · exact eq
  · exact absurd same.symm (Int.ne_of_lt (number_lt after))

def plus : Nat → Date → Date
  | 0, d => d
  | n + 1, d => plus n d.next

theorem number_plus (n : Nat) (d : Date) : (plus n d).number = d.number + n := by
  induction n generalizing d with
  | zero => simp [plus]
  | succ n ih =>
    rw [plus, ih, number_next]
    push_cast
    omega

def newYear (year : Int) : Date :=
  ⟨year, 1, 1, by decide, by decide, by decide,
    by have := (daysOfMonth_bounds year 1).1; omega⟩

def newYearsEve (year : Int) : Date :=
  ⟨year, 12, 31, by decide, by decide, by decide, by simp [daysOfMonth]⟩

theorem number_newYear (year : Int) : (newYear year).number = daysBeforeYear year + 1 := rfl

theorem sub_newYear (d : Date) : d.number - (newYear d.year).number = d.dayOfYear - 1 := by
  rw [number_newYear, number]
  omega

theorem plus_newYear (d : Date) : plus (d.dayOfYear - 1).toNat (newYear d.year) = d := by
  have pos := d.dayOfYear_pos
  have since := d.sub_newYear
  apply eq_of_number
  rw [number_plus]
  omega

theorem exists_between (lower : a.number ≤ n) (upper : n ≤ b.number) :
    ∃ d : Date, d.number = n ∧ ¬d < a ∧ ¬b < d := by
  obtain ⟨k, rfl⟩ := Int.le.dest lower
  refine ⟨plus k a, number_plus k a, ?_, ?_⟩
  · intro before
    have less := number_lt before
    rw [number_plus] at less
    omega
  · intro after
    have less := number_lt after
    rw [number_plus] at less
    omega

end Date

end Gregorian
end Lib
