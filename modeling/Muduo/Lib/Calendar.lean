import Mathlib.Algebra.Order.Ring.Nat
import Muduo.Lib.Text

/-!
The Gregorian calendar and the broken-down time of a number of seconds since the
start of 1970, as gmtime computes it. Years and months are found the same way, by
spending days on one after the other. Different times have different broken-down
times and different texts.
-/
namespace Lib

def spend (length : Nat → Nat) : Nat → Nat → Nat → Nat × Nat
  | 0, i, n => (i, n)
  | fuel + 1, i, n =>
    if n < length i then (i, n) else spend length fuel (i + 1) (n - length i)

def before (length : Nat → Nat) : Nat → Nat
  | 0 => 0
  | i + 1 => before length i + length i

section
variable {length : Nat → Nat}

variable (length) in
theorem before_mono {i j : Nat} (le : i ≤ j) : before length i ≤ before length j := by
  induction le with
  | refl => exact Nat.le_refl _
  | step _ ih => exact Nat.le_trans ih (Nat.le_add_right _ _)

structure Spent (length : Nat → Nat) (i n : Nat) (r : Nat × Nat) : Prop where
  start : i ≤ r.1
  left : r.2 < length r.1
  total : before length r.1 + r.2 = before length i + n

theorem spend_spec (positive : ∀ i, 0 < length i) {fuel n : Nat} (enough : n < fuel) (i : Nat) :
    Spent length i n (spend length fuel i n) := by
  induction fuel generalizing i n with
  | zero => exact absurd enough (Nat.not_lt_zero _)
  | succ fuel ih =>
    unfold spend
    split
    · exact ⟨Nat.le_refl _, ‹_›, rfl⟩
    · rename_i more
      have step := positive i
      obtain ⟨start, left, total⟩ := ih (n := n - length i) (by omega) (i + 1)
      refine ⟨by omega, left, ?_⟩
      rw [total, before]
      omega

end

def isLeap (year : Nat) : Bool := year % 4 = 0 && (year % 100 ≠ 0 || year % 400 = 0)

def yearLength (year : Nat) : Nat := if isLeap year then 366 else 365

def monthLength (year month : Nat) : Nat :=
  if month = 2 then (if isLeap year then 29 else 28)
  else if month = 4 ∨ month = 6 ∨ month = 9 ∨ month = 11 then 30
  else 31

theorem yearLength_bounds (year : Nat) : 365 ≤ yearLength year ∧ yearLength year ≤ 366 := by
  unfold yearLength
  split <;> omega

theorem monthLength_bounds (year month : Nat) :
    0 < monthLength year month ∧ monthLength year month ≤ 31 := by
  unfold monthLength
  split
  · split <;> omega
  · split <;> omega

theorem before_months (year : Nat) :
    before (monthLength year) 13 = before (monthLength year) 1 + yearLength year := by
  cases leap : isLeap year <;> simp [before, monthLength, yearLength, leap]

structure CivilTime where
  year : Nat
  month : Nat
  day : Nat
  hour : Nat
  minute : Nat
  second : Nat
  deriving DecidableEq, Repr

def secondsPerDay : Nat := 24 * 60 * 60

def yearOf (days : Nat) : Nat × Nat := spend yearLength (days + 1) 1970 days

def monthOf (year day : Nat) : Nat × Nat := spend (monthLength year) (day + 1) 1 day

def civil (t : Nat) : CivilTime :=
  let year := yearOf (t / secondsPerDay)
  let month := monthOf year.1 year.2
  let rest := t % secondsPerDay
  ⟨year.1, month.1, month.2 + 1, rest / 3600, rest % 3600 / 60, rest % 60⟩

theorem yearOf_spent (days : Nat) : Spent yearLength 1970 days (yearOf days) :=
  spend_spec (fun year => Nat.lt_of_lt_of_le (by decide) (yearLength_bounds year).1)
    (Nat.lt_succ_self _) 1970

theorem monthOf_spent (year day : Nat) : Spent (monthLength year) 1 day (monthOf year day) :=
  spend_spec (fun month => (monthLength_bounds year month).1) (Nat.lt_succ_self _) 1

structure CivilTime.Valid (c : CivilTime) : Prop where
  month : c.month ≤ 12
  day : c.day ≤ 31
  hour : c.hour < 24
  minute : c.minute < 60
  second : c.second < 60

theorem civil_valid (t : Nat) : (civil t).Valid := by
  have year := yearOf_spent (t / secondsPerDay)
  have month := monthOf_spent (yearOf (t / secondsPerDay)).1 (yearOf (t / secondsPerDay)).2
  have rest : t % secondsPerDay < 86400 := Nat.mod_lt _ (by decide)
  constructor
  · by_contra late
    have late : 13 ≤ (monthOf (yearOf (t / secondsPerDay)).1 (yearOf (t / secondsPerDay)).2).1 :=
      Nat.lt_of_not_le late
    have mono := before_mono (monthLength (yearOf (t / secondsPerDay)).1) late
    have all := before_months (yearOf (t / secondsPerDay)).1
    have total := month.total
    have left := year.left
    omega
  · exact Nat.lt_of_lt_of_le month.left (monthLength_bounds _ _).2
  · simp only [civil]
    omega
  · simp only [civil]
    omega
  · simp only [civil]
    omega

theorem before_years {i j : Nat} (le : i ≤ j) :
    before yearLength i + 365 * (j - i) ≤ before yearLength j := by
  induction le with
  | refl => simp
  | @step j le ih =>
    have le : i ≤ j := le
    have long := (yearLength_bounds j).1
    have more : 365 * (j + 1 - i) = 365 * (j - i) + 365 := by omega
    calc before yearLength i + 365 * (j + 1 - i)
        = before yearLength i + 365 * (j - i) + 365 := by rw [more, Nat.add_assoc]
      _ ≤ before yearLength j + yearLength j := Nat.add_le_add ih long

theorem civil_year_lt {t : Nat} (bounded : t < 2 ^ 63) : (civil t).year < 10 ^ 12 := by
  have year := yearOf_spent (t / secondsPerDay)
  have long := before_years year.start
  have total := year.total
  have days : t / secondsPerDay < 2 ^ 63 / secondsPerDay + 1 := by
    have le := Nat.div_le_div_right (c := secondsPerDay) (Nat.le_of_lt bounded)
    omega
  have limit : 2 ^ 63 / secondsPerDay + 1 < 365 * (10 ^ 12 - 1970) := by decide
  show (yearOf (t / secondsPerDay)).1 < 10 ^ 12
  omega

theorem civil_injective {t u : Nat} (same : civil t = civil u) : t = u := by
  simp only [civil, CivilTime.mk.injEq] at same
  obtain ⟨year, month, day, hour, minute, second⟩ := same
  have year_t := (yearOf_spent (t / secondsPerDay)).total
  have year_u := (yearOf_spent (u / secondsPerDay)).total
  have month_t := (monthOf_spent (yearOf (t / secondsPerDay)).1 (yearOf (t / secondsPerDay)).2).total
  have month_u := (monthOf_spent (yearOf (u / secondsPerDay)).1 (yearOf (u / secondsPerDay)).2).total
  rw [← year] at year_u month_u month day
  rw [← month] at month_u
  have days : t / secondsPerDay = u / secondsPerDay := by omega
  have rests : t % secondsPerDay = u % secondsPerDay := by omega
  rw [← Nat.div_add_mod t secondsPerDay, ← Nat.div_add_mod u secondsPerDay, days, rests]

def twoDigits (n : Nat) : List Char := [Nat.digitChar (n / 10), Nat.digitChar (n % 10)]

theorem digitChar_injective : ∀ n k : Fin 10, Nat.digitChar n = Nat.digitChar k → n = k := by decide

theorem twoDigits_injective {n k : Nat} (bound_n : n < 100) (bound_k : k < 100)
    (same : twoDigits n = twoDigits k) : n = k := by
  simp only [twoDigits, List.cons.injEq, and_true] at same
  have tens := digitChar_injective ⟨n / 10, by omega⟩ ⟨k / 10, by omega⟩ same.1
  have ones := digitChar_injective ⟨n % 10, by omega⟩ ⟨k % 10, by omega⟩ same.2
  simp only [Fin.mk.injEq] at tens ones
  omega

/-- The fields of strftime for year, month and day, a hyphen, and the time of day. -/
def CivilTime.text (c : CivilTime) : List Char :=
  decimal c.year ++ (twoDigits c.month ++ (twoDigits c.day ++
    '-' :: (twoDigits c.hour ++ (twoDigits c.minute ++ twoDigits c.second))))

theorem CivilTime.text_injective {c d : CivilTime} (valid_c : c.Valid) (valid_d : d.Valid)
    (same : c.text = d.text) : c = d := by
  obtain ⟨years, rest⟩ := List.append_inj' same rfl
  obtain ⟨months, rest⟩ := List.append_inj rest rfl
  obtain ⟨days, rest⟩ := List.append_inj rest rfl
  obtain ⟨hours, rest⟩ := List.append_inj (List.cons.inj rest).2 rfl
  obtain ⟨minutes, seconds⟩ := List.append_inj rest rfl
  have year := decimal_injective years
  have month := twoDigits_injective (Nat.lt_of_le_of_lt valid_c.month (by decide))
    (Nat.lt_of_le_of_lt valid_d.month (by decide)) months
  have day := twoDigits_injective (Nat.lt_of_le_of_lt valid_c.day (by decide))
    (Nat.lt_of_le_of_lt valid_d.day (by decide)) days
  have hour := twoDigits_injective (Nat.lt_trans valid_c.hour (by decide))
    (Nat.lt_trans valid_d.hour (by decide)) hours
  have minute := twoDigits_injective (Nat.lt_trans valid_c.minute (by decide))
    (Nat.lt_trans valid_d.minute (by decide)) minutes
  have second := twoDigits_injective (Nat.lt_trans valid_c.second (by decide))
    (Nat.lt_trans valid_d.second (by decide)) seconds
  cases c
  cases d
  simp only at year month day hour minute second
  subst year month day hour minute second
  rfl

theorem CivilTime.length_text (c : CivilTime) : c.text.length = (decimal c.year).length + 11 := by
  simp [CivilTime.text, twoDigits]

example : (civil 1331510400).text = "20120312-000000".toList := by decide +kernel

end Lib
