import Muduo.Base.Date

/-!
TimeZone::toUtcTime and fromUtcTime. A time_t has 64 bits and int has 32. The division of a
negative time truncates, and the borrow makes it the division that rounds down: the day is
that of the time, and the rest are the seconds since its start.
-/
namespace Muduo
open Lib Lib.Signed
namespace TimeZone

structure Tm where
  tm_sec : Int := 0
  tm_min : Int := 0
  tm_hour : Int := 0
  tm_mday : Int := 0
  tm_mon : Int := 0
  tm_year : Int := 0
  tm_wday : Int := 0
  tm_yday : Int := 0
  tm_isdst : Int := 0
  tm_gmtoff : Int := 0
  tm_zone : Option String := none
  deriving DecidableEq, Repr

def kSecondsPerDay : Int := 24 * 60 * 60

def fillHMS (seconds : Nat) (utc : Tm) : Tm :=
  let minutes := seconds / 60
  { utc with
    tm_sec := (seconds % 60 : Nat)
    tm_min := (minutes % 60 : Nat)
    tm_hour := (minutes / 60 : Nat) }

def borrow (seconds days : Int) : Checked (Int × Int) :=
  if seconds < 0 then do pure (← add int seconds kSecondsPerDay, ← sub int days 1)
  else pure (seconds, days)

def toUtcTime (secondsSinceEpoch : Int) (yday : Bool) : Checked Tm := do
  let utc : Tm := { tm_zone := some "GMT" }
  let seconds := toSigned int (← rem time_t secondsSinceEpoch kSecondsPerDay)
  let days := toSigned int (← div time_t secondsSinceEpoch kSecondsPerDay)
  let (seconds, days) ← borrow seconds days
  let utc := fillHMS (toUnsigned int seconds) utc
  let date : Date := ⟨← add int days (← Date.kJulianDayOf1970_01_01)⟩
  let ymd ← date.yearMonthDay
  let utc := { utc with
    tm_year := ← sub int ymd.year 1900
    tm_mon := ← sub int ymd.month 1
    tm_mday := ymd.day
    tm_wday := ← date.weekDay }
  if yday then
    let startOfYear ← Date.ofYearMonthDay ymd.year 1 1
    pure { utc with
      tm_yday := ← sub int date.julianDayNumber_ startOfYear.julianDayNumber_ }
  else pure utc

def fromUtcFields (year month day hour minute seconds : Int) : Checked Int := do
  let date ← Date.ofYearMonthDay year month day
  let secondsInDay ← add int (← add int (← mul int hour 3600) (← mul int minute 60)) seconds
  let days ← sub int date.julianDayNumber_ (← Date.kJulianDayOf1970_01_01)
  add time_t (← mul time_t days kSecondsPerDay) secondsInDay

def fromUtcTime (utc : Tm) : Checked Int := do
  fromUtcFields (← add int utc.tm_year 1900) (← add int utc.tm_mon 1) utc.tm_mday utc.tm_hour
    utc.tm_min utc.tm_sec

/-! ### The day and the time of the day -/

/-- A valid date and a valid time of the day. -/
structure Tm.Reads (utc : Tm) (d : Gregorian.Date) : Prop where
  year : utc.tm_year = d.year - 1900
  month : utc.tm_mon = d.month - 1
  day : utc.tm_mday = d.day
  hour : 0 ≤ utc.tm_hour ∧ utc.tm_hour < 24
  minute : 0 ≤ utc.tm_min ∧ utc.tm_min < 60
  second : 0 ≤ utc.tm_sec ∧ utc.tm_sec < 60

def Tm.secondsInDay (utc : Tm) : Int := utc.tm_hour * 3600 + utc.tm_min * 60 + utc.tm_sec

def dayNumber (t : Int) : Int := t / 86400 + 2440588

theorem epoch_eq : Date.kJulianDayOf1970_01_01 = .ok 2440588 := by decide +kernel

def broken (d : Gregorian.Date) (rest : Int) (yday : Bool) : Tm :=
  { tm_sec := rest % 60, tm_min := rest / 60 % 60, tm_hour := rest / 60 / 60
    tm_mday := d.day, tm_mon := d.month - 1, tm_year := d.year - 1900
    tm_wday := (julianDay d + 1) % 7, tm_yday := if yday then d.dayOfYear - 1 else 0
    tm_zone := some "GMT" }

section
variable {d : Gregorian.Date} {t s : Int}

theorem fillHMS_eq (lower : 0 ≤ s) (upper : s < 86400) (utc : Tm) :
    fillHMS (toUnsigned int s) utc =
      { utc with tm_sec := s % 60, tm_min := s / 60 % 60, tm_hour := s / 60 / 60 } := by
  obtain ⟨n, rfl⟩ := Int.eq_ofNat_of_zero_le lower
  have same : (toUnsigned int (n : Int) : Int) = n := toUnsigned_of_lt lower (by norm_num; omega)
  rw [Int.ofNat_inj.mp same, fillHMS]
  push_cast
  rfl

theorem kSecondsPerDay_eq : kSecondsPerDay = 86400 := rfl

theorem borrow_eq (lower : -1000000000 ≤ t / 86400) (upper : t / 86400 ≤ 1000000000) :
    borrow (t.tmod 86400) (t.tdiv 86400) = .ok (t % 86400, t / 86400) := by
  have small := Int.emod_lt_of_pos t (b := 86400) (by decide)
  unfold borrow
  rcases truncate_cases (x := t) (y := 86400) (by decide) with
    ⟨negative, rest, days⟩ | ⟨nonneg, rest, days⟩
  · rw [if_pos negative, kSecondsPerDay_eq, add, rest, sub, days,
      value_int_bind (by omega) (by omega), value_int_bind (by omega) (by omega), pure_eq_ok]
  · rw [if_neg (Int.not_lt.mpr nonneg), rest, days, pure_eq_ok]

theorem ofYearMonthDay_eq (range : InRange d) :
    Date.ofYearMonthDay d.year d.month d.day = .ok ⟨julianDay d⟩ :=
  congrArg (· >>= _) (getJulianDayNumber_eq range.1 range.upper)

theorem sub_newYear (d : Gregorian.Date) :
    sub int (julianDay d) (julianDay (Gregorian.Date.newYear d.year)) = .ok (d.dayOfYear - 1) := by
  have since := d.sub_newYear
  have pos := d.dayOfYear_pos
  have le := d.dayOfYear_le
  have short : Gregorian.daysOfYear d.year ≤ 366 := by
    unfold Gregorian.daysOfYear
    split <;> omega
  have days : julianDay d - julianDay (Gregorian.Date.newYear d.year) = d.dayOfYear - 1 := by
    unfold julianDay
    omega
  rw [sub, days]
  exact value_int (by omega) (by omega)

theorem toUtcTime_eq (range : InRange d) (nonneg : 0 ≤ julianDay d)
    (day : dayNumber t = julianDay d) (yday : Bool) :
    toUtcTime t yday = .ok (broken d (t % 86400) yday) := by
  unfold dayNumber at day
  have bound := range.julianDay_le
  have small := Int.emod_lt_of_pos t (b := 86400) (by decide)
  have rest := Int.emod_nonneg t (b := 86400) (by decide)
  have truncated := truncate_cases (x := t) (y := 86400) (by decide)
  have rem_eq : rem time_t t kSecondsPerDay = .ok (t.tmod 86400) :=
    value_time_t (by rw [kSecondsPerDay_eq]; omega) (by rw [kSecondsPerDay_eq]; omega)
  have div_eq : div time_t t kSecondsPerDay = .ok (t.tdiv 86400) :=
    value_time_t (by rw [kSecondsPerDay_eq]; omega) (by rw [kSecondsPerDay_eq]; omega)
  have seconds : toSigned int (t.tmod 86400) = t.tmod 86400 :=
    toSigned_of_fits (fits_int.mpr (by omega))
  have days : toSigned int (t.tdiv 86400) = t.tdiv 86400 :=
    toSigned_of_fits (fits_int.mpr (by omega))
  have borrowed := borrow_eq (t := t) (by omega) (by omega)
  unfold toUtcTime
  simp only [rem_eq, div_eq, ok_bind, seconds, days, borrowed, epoch_eq, fillHMS_eq rest small]
  rw [add, day, value_int_bind (by omega) (by omega)]
  have ymd : (Date.mk (julianDay d)).yearMonthDay = .ok ⟨d.year, d.month, d.day⟩ :=
    getYearMonthDay_julianDay range.1 range.upper
  have week := weekDay_eq nonneg (by omega)
  have year : sub int d.year 1900 = .ok (d.year - 1900) :=
    value_int (by have := range.1; omega) (by have := range.2; omega)
  have month : sub int d.month 1 = .ok (d.month - 1) :=
    value_int (by have := d.month_pos; omega) (by have := d.month_le; omega)
  have start :
      Date.ofYearMonthDay d.year 1 1 = .ok ⟨julianDay (Gregorian.Date.newYear d.year)⟩ :=
    ofYearMonthDay_eq (d := Gregorian.Date.newYear d.year) range
  simp only [ymd, week, year, month, ok_bind, start]
  cases yday with
  | false => rfl
  | true =>
    rw [if_pos rfl, sub_newYear]
    rfl

theorem broken_reads (lower : 0 ≤ s) (upper : s < 86400) (yday : Bool) :
    (broken d s yday).Reads d := by
  unfold broken
  constructor <;> dsimp only <;> omega

theorem broken_secondsInDay (yday : Bool) : (broken d s yday).secondsInDay = s := by
  unfold broken Tm.secondsInDay
  dsimp only
  omega

theorem fromUtcTime_eq {utc : Tm} (range : InRange d) (nonneg : 0 ≤ julianDay d)
    (reads : utc.Reads d) :
    fromUtcTime utc = .ok ((julianDay d - 2440588) * 86400 + utc.secondsInDay) := by
  obtain ⟨year, month, day, hour, minute, second⟩ := reads
  have bound := range.julianDay_le
  have first := d.month_pos
  have december := d.month_le
  have lower := range.1
  have upper := range.2
  have year_eq : utc.tm_year + 1900 = d.year := by omega
  have month_eq : utc.tm_mon + 1 = d.month := by omega
  have date := ofYearMonthDay_eq range
  unfold fromUtcTime fromUtcFields add sub mul
  simp (disch := omega) only [↓value_int_bind, year_eq, month_eq, day, date, epoch_eq, ok_bind,
    kSecondsPerDay_eq, value_time_t, Tm.secondsInDay]

end

theorem exists_date {j : Int} (lower : 0 ≤ j) (upper : j ≤ 365000000) :
    ∃ d, InRange d ∧ julianDay d = j :=
  exists_julianDay (Int.le_trans (by decide +kernel) lower) (Int.le_trans upper (by decide +kernel))

theorem inRange_of_julianDay {d : Gregorian.Date} (lower : 0 ≤ julianDay d)
    (upper : julianDay d ≤ 365000000) : InRange d := by
  obtain ⟨d', range, same⟩ := exists_date lower upper
  obtain rfl : d' = d := by
    unfold julianDay at same
    exact Gregorian.Date.eq_of_number (by omega)
  exact range

/-- A time and its broken-down time, in both directions. -/
theorem utc_round_trip :
    (∀ t, 0 ≤ dayNumber t → dayNumber t ≤ 365000000 → ∃ utc d,
      toUtcTime t true = .ok utc ∧ utc.Reads d ∧ julianDay d = dayNumber t ∧
      0 ≤ utc.tm_wday ∧ utc.tm_wday ≤ 6 ∧
      (∃ n : Nat, utc.tm_yday = n ∧ Gregorian.Date.plus n (Gregorian.Date.newYear d.year) = d) ∧
      ∀ yday, (toUtcTime t yday >>= fromUtcTime) = .ok t) ∧
    ∀ utc d, utc.Reads d → 0 ≤ julianDay d → julianDay d ≤ 365000000 → ∃ t,
      fromUtcTime utc = .ok t ∧ dayNumber t = julianDay d ∧ ∀ yday, ∃ utc',
        toUtcTime t yday = .ok utc' ∧ utc'.tm_year = utc.tm_year ∧ utc'.tm_mon = utc.tm_mon ∧
        utc'.tm_mday = utc.tm_mday ∧ utc'.tm_hour = utc.tm_hour ∧ utc'.tm_min = utc.tm_min ∧
        utc'.tm_sec = utc.tm_sec := by
  constructor
  · intro t lower upper
    have small := Int.emod_lt_of_pos t (b := 86400) (by decide)
    have rest := Int.emod_nonneg t (b := 86400) (by decide)
    obtain ⟨d, range, day⟩ := exists_date lower upper
    have nonneg : 0 ≤ julianDay d := by omega
    have pos := d.dayOfYear_pos
    refine ⟨broken d (t % 86400) true, d, toUtcTime_eq range nonneg day.symm true,
      broken_reads rest small true, day, ?_, ?_, ⟨(d.dayOfYear - 1).toNat, ?_, d.plus_newYear⟩, ?_⟩
    · exact Int.emod_nonneg _ (by decide)
    · exact Int.le_of_lt_add_one (Int.emod_lt_of_pos _ (by decide))
    · show d.dayOfYear - 1 = _
      omega
    · intro yday
      rw [toUtcTime_eq range nonneg day.symm yday, ok_bind,
        fromUtcTime_eq range nonneg (broken_reads rest small yday), broken_secondsInDay, day]
      unfold dayNumber
      congr 1
      omega
  · intro utc d reads nonneg upper
    have range := inRange_of_julianDay nonneg upper
    obtain ⟨year, month, day, hour, minute, second⟩ := id reads
    have same : dayNumber ((julianDay d - 2440588) * 86400 + utc.secondsInDay) = julianDay d := by
      unfold dayNumber Tm.secondsInDay
      omega
    refine ⟨_, fromUtcTime_eq range nonneg reads, same, ?_⟩
    intro yday
    refine ⟨_, toUtcTime_eq range nonneg same yday, ?_⟩
    unfold broken Tm.secondsInDay
    dsimp only
    omega

example : toUtcTime (-1) true = .ok
    { tm_sec := 59, tm_min := 59, tm_hour := 23, tm_mday := 31
      tm_mon := 11, tm_year := 69, tm_wday := 3, tm_yday := 364, tm_zone := some "GMT" } := by
  decide +kernel

end TimeZone
end Muduo
