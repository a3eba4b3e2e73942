import Muduo.Lib.Gregorian
import Muduo.Lib.Signed

/-!
Date.cc: dates as Julian day numbers. The arithmetic is that of int, which has 32 bits, and
an expression that does not fit is undefined. From the year -4799 to the year 1000000 all of
it fits, and the conversions number the days of the Gregorian calendar one after the other.
-/
namespace Muduo
open Lib Lib.Signed

structure YearMonthDay where
  year : Int
  month : Int
  day : Int
  deriving DecidableEq, Repr

def getJulianDayNumber (year month day : Int) : Checked Int := do
  let a ← div int (← sub int 14 month) 12
  let y ← sub int (← add int year 4800) a
  let m ← sub int (← add int month (← mul int 12 a)) 3
  let n ← add int day (← div int (← add int (← mul int 153 m) 2) 5)
  let n ← add int n (← mul int y 365)
  let n ← add int n (← div int y 4)
  let n ← sub int n (← div int y 100)
  let n ← add int n (← div int y 400)
  sub int n 32045

def getYearMonthDay (julianDayNumber : Int) : Checked YearMonthDay := do
  let a ← add int julianDayNumber 32044
  let b ← div int (← add int (← mul int 4 a) 3) 146097
  let c ← sub int a (← div int (← mul int b 146097) 4)
  let d ← div int (← add int (← mul int 4 c) 3) 1461
  let e ← sub int c (← div int (← mul int 1461 d) 4)
  let m ← div int (← add int (← mul int 5 e) 2) 153
  let day ← add int (← sub int e (← div int (← add int (← mul int 153 m) 2) 5)) 1
  let month ← sub int (← add int m 3) (← mul int 12 (← div int m 10))
  let year ← add int (← sub int (← add int (← mul int b 100) d) 4800) (← div int m 10)
  pure ⟨year, month, day⟩

structure Date where
  julianDayNumber_ : Int
  deriving DecidableEq, Repr

namespace Date

def kDaysPerWeek : Int := 7

def kJulianDayOf1970_01_01 : Checked Int := getJulianDayNumber 1970 1 1

def ofYearMonthDay (year month day : Int) : Checked Date := do
  pure ⟨← getJulianDayNumber year month day⟩

def yearMonthDay (d : Date) : Checked YearMonthDay := getYearMonthDay d.julianDayNumber_

/-- 0 is Sunday. -/
def weekDay (d : Date) : Checked Int := do
  rem int (← add int d.julianDayNumber_ 1) kDaysPerWeek

end Date

def epoch : Int := 1721425

def julianDay (d : Gregorian.Date) : Int := d.number + epoch

/-! ### Years from March to February -/

section March
open Gregorian
variable {y m e : Int}

def marchYears (y : Int) : Int := y * 365 + y / 4 - y / 100 + y / 400

theorem marchYears_eq (year : Int) : marchYears (year + 4799) = daysBeforeYear year + 1753164 := by
  unfold marchYears daysBeforeYear
  omega

theorem marchYears_bounds (lower : 0 ≤ y) (upper : y ≤ 1004801) :
    0 ≤ marchYears y ∧ marchYears y ≤ 400000000 := by
  unfold marchYears
  omega

theorem daysBeforeMonth_march {year month : Int} (late : 2 < month) (last : month ≤ 12) :
    daysBeforeMonth year month = (153 * (month - 3) + 2) / 5 + daysOfYear year - 306 := by
  by_cases leap : IsLeapYear year
  · interval_cases month <;> simp [daysBeforeMonth, daysOfYear, leap]
  · interval_cases month <;> simp [daysBeforeMonth, daysOfYear, leap]

structure InMarchYear (d : Gregorian.Date) (y m e : Int) : Prop where
  shift : d.month ≤ 2 ∧ y = d.year + 4799 ∧ m = d.month + 9 ∨
    2 < d.month ∧ y = d.year + 4800 ∧ m = d.month - 3
  day : e = d.day - 1 + (153 * m + 2) / 5

theorem julianDay_march {d : Gregorian.Date} (march : InMarchYear d y m e) :
    julianDay d = marchYears y + e - 32044 := by
  have first := d.month_pos
  have day := march.day
  unfold julianDay epoch Gregorian.Date.number Gregorian.Date.dayOfYear
  rcases march.shift with ⟨early, rfl, rfl⟩ | ⟨late, rfl, rfl⟩
  · have before : daysBeforeMonth d.year d.month = (367 * d.month - 362) / 12 := by
      rw [daysBeforeMonth, if_pos early, Int.sub_zero]
    rw [marchYears_eq, before]
    omega
  · have next := marchYears_eq (d.year + 1)
    rw [daysBeforeYear_succ, show d.year + 1 + 4799 = d.year + 4800 by omega] at next
    rw [next, daysBeforeMonth_march late d.month_le]
    omega

structure InYear (y m e : Int) : Prop where
  pos : 0 ≤ e
  le : e ≤ 365
  month : (5 * e + 2) / 153 = m
  leap : e = 365 → IsLeapYear (y + 1)

theorem InMarchYear.inYear {d : Gregorian.Date} (march : InMarchYear d y m e) :
    InYear y m e := by
  have first := d.month_pos
  have december := d.month_le
  have pos := d.day_pos
  have last := d.day_le
  have day := march.day
  have shift := march.shift
  unfold daysOfMonth at last
  generalize d.month = month at *
  by_cases february : month = 2
  · rw [if_pos february] at last
    have february_end : d.day ≤ 28 ∨ d.day = 29 ∧ IsLeapYear d.year := by
      split at last
      · next leap =>
        rcases Int.lt_or_eq_of_le last with before | here
        · exact Or.inl (by omega)
        · exact Or.inr ⟨here, leap⟩
      · exact Or.inl last
    unfold IsLeapYear at february_end
    refine ⟨by omega, by omega, by omega, ?_⟩
    intro here
    unfold IsLeapYear
    omega
  · rw [if_neg february] at last
    have short : e < 365 ∧ 0 ≤ e ∧ (5 * e + 2) / 153 = m := by
      clear march
      interval_cases month <;> simp at last shift february <;> omega
    exact ⟨short.2.1, by omega, short.2.2, fun here => by omega⟩

theorem InYear.century (inYear : InYear y m e) :
    (4 * (marchYears y + e) + 3) / 146097 = y / 100 ∧
      marchYears y + e - y / 100 * 146097 / 4 = y % 100 * 365 + y % 100 / 4 + e := by
  obtain ⟨pos, le, -, leap⟩ := inYear
  unfold IsLeapYear at leap
  obtain ⟨q, s, u, v, rfl, hs, hu, hv⟩ : ∃ q s u v : Int, y = 400 * q + 100 * s + 4 * u + v ∧
      (0 ≤ s ∧ s ≤ 3) ∧ (0 ≤ u ∧ u ≤ 24) ∧ (0 ≤ v ∧ v ≤ 3) :=
    ⟨y / 400, y % 400 / 100, y % 100 / 4, y % 4, by omega, by omega, by omega, by omega⟩
  have last : e = 365 → v = 3 ∧ (u = 24 → s = 3) := fun here => by
    have := leap here
    omega
  have fours : (400 * q + 100 * s + 4 * u + v) / 4 = 100 * q + 25 * s + u := by omega
  have hundreds : (400 * q + 100 * s + 4 * u + v) / 100 = 4 * q + s := by omega
  have all : (400 * q + 100 * s + 4 * u + v) / 400 = q := by omega
  have rest : (400 * q + 100 * s + 4 * u + v) % 100 = 4 * u + v := by omega
  clear leap
  rw [marchYears, fours, hundreds, all, rest]
  constructor
  · omega
  · omega

theorem InYear.yearOfCentury (inYear : InYear y m e) :
    (4 * (y % 100 * 365 + y % 100 / 4 + e) + 3) / 1461 = y % 100 ∧
      y % 100 * 365 + y % 100 / 4 + e - 1461 * (y % 100) / 4 = e := by
  obtain ⟨pos, le, -, leap⟩ := inYear
  have last : e = 365 → y % 100 % 4 = 3 := fun here => by
    have := (leap here).1
    omega
  generalize y % 100 = r at *
  constructor
  · omega
  · omega

end March

/-! ### The conversions -/

theorem getYearMonthDay_eq {j a b c d e m : Int} (ha : j + 32044 = a)
    (hb : (4 * a + 3) / 146097 = b) (hc : a - b * 146097 / 4 = c) (hd : (4 * c + 3) / 1461 = d)
    (he : c - 1461 * d / 4 = e) (hm : (5 * e + 2) / 153 = m)
    (a_pos : 0 ≤ a) (a_le : a ≤ 500000000) :
    getYearMonthDay j = .ok ⟨b * 100 + d - 4800 + m / 10, m + 3 - 12 * (m / 10),
      e - (153 * m + 2) / 5 + 1⟩ := by
  have b_bounds : 0 ≤ b ∧ b ≤ 14000 := by omega
  have c_bounds : 0 ≤ c ∧ c ≤ 36524 := by omega
  have d_bounds : 0 ≤ d ∧ d ≤ 100 := by clear hb hc; omega
  have e_bounds : 0 ≤ e ∧ e ≤ 365 := by clear hb hc; omega
  have m_bounds : 0 ≤ m ∧ m ≤ 11 := by clear hb hc hd he; omega
  unfold getYearMonthDay add sub mul
  simp (disch := omega) only [↓value_int_bind, ↓div_int_bind, pure_eq_ok, ha, hb, hc, hd, he, hm]

section
variable {d : Gregorian.Date}

/-- The dates for which the arithmetic fits. -/
def InRange (d : Gregorian.Date) : Prop := -4799 ≤ d.year ∧ d.year ≤ 1000000

variable (d) in
theorem exists_march : ∃ y m e, InMarchYear d y m e := by
  by_cases early : d.month ≤ 2
  · exact ⟨_, _, _, Or.inl ⟨early, rfl, rfl⟩, rfl⟩
  · exact ⟨_, _, _, Or.inr ⟨by omega, rfl, rfl⟩, rfl⟩

theorem getJulianDayNumber_eq (lower : -4799 ≤ d.year) (upper : d.year ≤ 1000001) :
    getJulianDayNumber d.year d.month d.day = .ok (julianDay d) := by
  obtain ⟨a, ha⟩ : ∃ a, (14 - d.month) / 12 = a := ⟨_, rfl⟩
  obtain ⟨y, hy⟩ : ∃ y, d.year + 4800 - a = y := ⟨_, rfl⟩
  obtain ⟨m, hm⟩ : ∃ m, d.month + 12 * a - 3 = m := ⟨_, rfl⟩
  have first := d.month_pos
  have december := d.month_le
  have pos := d.day_pos
  have last := Int.le_trans d.day_le (Gregorian.daysOfMonth_bounds d.year d.month).2
  have march : InMarchYear d y m (d.day - 1 + (153 * m + 2) / 5) := ⟨by omega, rfl⟩
  unfold getJulianDayNumber add sub mul
  simp (disch := omega) only [↓value_int_bind, ↓div_int_bind, value_int, ha, hy, hm]
  rw [julianDay_march march, marchYears]
  congr 1
  omega

theorem getYearMonthDay_julianDay (lower : -4799 ≤ d.year) (upper : d.year ≤ 1000001) :
    getYearMonthDay (julianDay d) = .ok ⟨d.year, d.month, d.day⟩ := by
  have first := d.month_pos
  have december := d.month_le
  obtain ⟨y, m, e, march⟩ := exists_march d
  have inYear := march.inYear
  obtain ⟨century, inCentury⟩ := inYear.century
  obtain ⟨year, rest⟩ := inYear.yearOfCentury
  have a_eq : julianDay d + 32044 = marchYears y + e := by
    rw [julianDay_march march]
    omega
  have day := march.day
  have shift := march.shift
  have bounds := marchYears_bounds (y := y) (by omega) (by omega)
  have pos := inYear.pos
  have le := inYear.le
  rw [getYearMonthDay_eq a_eq century inCentury year rest inYear.month (by omega) (by omega)]
  congr 2
  · omega
  · omega
  · omega

theorem InRange.upper (range : InRange d) : d.year ≤ 1000001 := by
  unfold InRange at range
  omega

theorem InRange.next (range : InRange d) : -4799 ≤ d.next.year ∧ d.next.year ≤ 1000001 := by
  have year : d.next.year = d.year ∨ d.next.year = d.year + 1 := by
    unfold Gregorian.Date.next
    split
    · exact Or.inl rfl
    · split
      · exact Or.inl rfl
      · exact Or.inr rfl
  unfold InRange at range
  omega

theorem julianDay_next (d : Gregorian.Date) : julianDay d.next = julianDay d + 1 := by
  rw [julianDay, julianDay, Gregorian.Date.number_next]
  omega

end

def firstDate : Gregorian.Date := Gregorian.Date.newYear (-4799)

def lastDate : Gregorian.Date := Gregorian.Date.newYearsEve 1000000

theorem InRange.julianDay_le {d : Gregorian.Date} (range : InRange d) :
    julianDay d ≤ 366963925 := by
  have year := Gregorian.daysBeforeYear_mono range.2
  have day := d.dayOfYear_le
  unfold Gregorian.daysBeforeYear at year
  unfold Gregorian.daysOfYear at day
  unfold julianDay epoch Gregorian.Date.number Gregorian.daysBeforeYear
  split at day <;> omega

theorem exists_julianDay {j : Int} (lower : julianDay firstDate ≤ j)
    (upper : j ≤ julianDay lastDate) :
    ∃ d, InRange d ∧ julianDay d = j := by
  unfold julianDay at lower upper
  obtain ⟨d, number, after, before⟩ :=
    Gregorian.Date.exists_between (a := firstDate) (b := lastDate) (n := j - epoch)
      (by omega) (by omega)
  refine ⟨d, ⟨?_, ?_⟩, by rw [julianDay, number]; omega⟩
  · by_contra early
    exact after (Or.inl (Int.not_le.mp early))
  · by_contra late
    exact before (Or.inl (Int.not_le.mp late))

theorem weekDay_eq {j : Int} (lower : 0 ≤ j) (upper : j < 2147483647) :
    (Date.mk j).weekDay = .ok ((j + 1) % 7) := by
  unfold Date.weekDay Date.kDaysPerWeek add rem
  dsimp only
  rw [value_int_bind (by omega) (by omega), Int.tmod_eq_emod_of_nonneg (by omega),
    value_int (by omega) (by omega)]

/-- The Julian day numbers of a calendar. -/
theorem julian_days_count_dates :
    (∀ d, InRange d → ∃ j, getJulianDayNumber d.year d.month d.day = .ok j ∧
      getYearMonthDay j = .ok ⟨d.year, d.month, d.day⟩ ∧
      getJulianDayNumber d.next.year d.next.month d.next.day = .ok (j + 1) ∧
      (0 ≤ j → ∃ w, (Date.mk j).weekDay = .ok w ∧ 0 ≤ w ∧ w < 7 ∧
        (Date.mk (j + 1)).weekDay = .ok ((w + 1) % 7))) ∧
    (∀ a b, InRange a → InRange b → ∃ j k,
      getJulianDayNumber a.year a.month a.day = .ok j ∧
      getJulianDayNumber b.year b.month b.day = .ok k ∧ (j < k ↔ a < b)) ∧
    (∃ first last, getJulianDayNumber (-4799) 1 1 = .ok first ∧
      getJulianDayNumber 1000000 12 31 = .ok last ∧ ∀ j, first ≤ j → j ≤ last →
        ∃ d, InRange d ∧ getJulianDayNumber d.year d.month d.day = .ok j) ∧
    (Date.ofYearMonthDay 1970 1 1 >>= Date.weekDay) = .ok 4 := by
  refine ⟨?_, ?_, ?_, by decide +kernel⟩
  · intro d range
    have bound := range.julianDay_le
    refine ⟨julianDay d, getJulianDayNumber_eq range.1 range.upper,
      getYearMonthDay_julianDay range.1 range.upper, ?_, ?_⟩
    · rw [← julianDay_next]
      exact getJulianDayNumber_eq range.next.1 range.next.2
    · intro nonneg
      refine ⟨(julianDay d + 1) % 7, weekDay_eq nonneg (by omega), by omega, by omega, ?_⟩
      rw [weekDay_eq (by omega) (by omega)]
      congr 1
      omega
  · intro a b first last
    refine ⟨julianDay a, julianDay b, getJulianDayNumber_eq first.1 first.upper,
      getJulianDayNumber_eq last.1 last.upper, ?_⟩
    rw [← Gregorian.Date.number_lt_iff, julianDay, julianDay]
    omega
  · refine ⟨julianDay firstDate, julianDay lastDate,
      getJulianDayNumber_eq (d := firstDate) (by decide) (by decide),
      getJulianDayNumber_eq (d := lastDate) (by decide) (by decide), ?_⟩
    intro j lower upper
    obtain ⟨d, range, rfl⟩ := exists_julianDay lower upper
    exact ⟨d, range, getJulianDayNumber_eq range.1 range.upper⟩

end Muduo
