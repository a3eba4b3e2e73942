import Muduo.Base.TimeZone

/-!
TimeZone::fromLocalTime, the inverse of toLocalTime in a zone with a daylight saving time of
one hour. The broken-down time and its conversions gmtime_r and timegm are those of the C
library; gmtime_r has a result only where the year fits an int, which is far from the ends of
time_t, so that the sums of a time and an offset are exact.

A local time is looked up by the local times of the transitions. From a daylight saving time
in the hour that will be repeated, the lookup finds the standard time behind it; the local
time of an hour later is then the same, which tells that an hour has to be taken back.
-/
namespace Muduo
open Lib
namespace TimeZone

section
variable {Tm : Type} (gmtime_r : Int → Tm) (timegm : Tm → Int) (tm_hour tm_min : Tm → Int)

def fromLocalTime (tz : TimeZone) (localTm : LocalTime Tm) : Checked Int := do
  assertThat tz.data_.isSome "data_ != NULL"
  let data := tz.data_.getD .empty
  let seconds := timegm localTm.tm
  let found ← findLocaltime data ⟨0, seconds, 0⟩ ⟨false⟩
  if localTm.tm_isdst then
    let tryTm ← toLocalTime gmtime_r tz (seconds - found.gmtOffset)
    if tryTm.tm_isdst = false ∧ tm_hour tryTm.tm = tm_hour localTm.tm ∧
        tm_min tryTm.tm = tm_min localTm.tm then
      pure (seconds - 3600 - found.gmtOffset)
    else pure (seconds - found.gmtOffset)
  else pure (seconds - found.gmtOffset)

end

/-! ### Daylight saving time of one hour -/

inductive Switch (before after : Localtime) : Prop where
  | starts (standard : before.isDst = false) (daylight : after.isDst = true)
      (hour : after.gmtOffset = before.gmtOffset + 3600)
  | ends (daylight : before.isDst = true) (standard : after.isDst = false)
      (hour : before.gmtOffset = after.gmtOffset + 3600)

theorem Switch.offset_le {before after : Localtime} (switch : Switch before after) :
    before.gmtOffset - 3600 ≤ after.gmtOffset := by
  cases switch with
  | starts standard daylight hour => omega
  | ends daylight standard hour => omega

structure Data.OneHour (d : Data) : Prop where
  nonempty : d.localtimes ≠ []
  apart : ∀ k a b, d.transitions[k]? = some a → d.transitions[k + 1]? = some b →
    a.gmttime + 86400 ≤ b.gmttime
  switches : ∀ k tr, d.transitions[k]? = some tr → ∃ before after,
    d.period k = some before ∧ d.period (k + 1) = some after ∧
    tr.localtime = tr.gmttime + after.gmtOffset ∧ Switch before after

def Data.Named (d : Data) : Prop :=
  ∀ type ∈ d.localtimes, type.arrbIdx ≤ d.abbreviation.length

section
variable {d : Data} {comp : Comp} {k : Nat} {t : Int}

theorem increasing_of_neighbours
    (less : ∀ k a b, d.transitions[k]? = some a → d.transitions[k + 1]? = some b →
      comp.key a < comp.key b) : d.Increasing comp := by
  refine List.pairwise_iff_getElem.mpr ?_
  intro i j first last before
  induction j with
  | zero => omega
  | succ j ih =>
    have step := less j _ _ (List.getElem?_eq_getElem (by omega)) (List.getElem?_eq_getElem last)
    rcases Nat.eq_or_lt_of_le (Nat.le_of_lt_succ before) with rfl | earlier
    · exact step
    · exact Int.lt_trans (ih (by omega) earlier) step

theorem inPeriod_succ {tr : Transition} (here : d.transitions[k]? = some tr)
    (started : comp.key tr ≤ t)
    (ends : ∀ next, d.transitions[k + 1]? = some next → t < comp.key next) :
    d.InPeriod comp t (k + 1) := by
  refine ⟨(List.getElem?_eq_some_iff.mp here).1, ?_, ends⟩
  intro j tr' same found
  cases same
  cases here.symm.trans found
  exact started

theorem period_mem {type : Localtime} (there : d.period k = some type) : type ∈ d.localtimes := by
  cases k with
  | zero => exact List.mem_of_getElem? there
  | succ k =>
    obtain ⟨tr, -, chosen⟩ := Option.bind_eq_some_iff.mp there
    exact List.mem_of_getElem? chosen

def Data.localTime {Tm : Type} (d : Data) (gmtime_r : Int → Tm) (type : Localtime) (t : Int) :
    LocalTime Tm :=
  ⟨gmtime_r (t + type.gmtOffset), type.isDst, type.gmtOffset, d.abbreviation.drop type.arrbIdx⟩

theorem toLocalTime_eq {Tm : Type} (gmtime_r : Int → Tm) (increasing : d.Increasing ⟨true⟩)
    (within : d.InPeriod ⟨true⟩ t k) {type : Localtime} (there : d.period k = some type) :
    toLocalTime gmtime_r ⟨some d⟩ t =
      if type.arrbIdx ≤ d.abbreviation.length then .ok (d.localTime gmtime_r type t)
      else .error "abbreviation[local->arrbIdx]" := by
  have found : findLocaltime d ⟨t, 0, 0⟩ ⟨true⟩ = .ok type :=
    findLocaltime_eq increasing within there rfl
  unfold toLocalTime
  simp only [Option.isSome_some, assertThat_of_true, ok_bind, Option.getD_some, found]
  split
  · next named => rw [assertThat_of_true named, ok_bind, pure_eq_ok, Data.localTime]
  · next unnamed => rw [assertThat_of_false unnamed, error_bind]

end

namespace Data.OneHour
variable {d : Data} (zone : d.OneHour) {k : Nat} {t : Int} {type : Localtime}
include zone

theorem exists_period (inside : k ≤ d.transitions.length) : ∃ type, d.period k = some type := by
  cases k with
  | zero => exact ⟨_, List.getElem?_eq_getElem (List.length_pos_iff.mpr zone.nonempty)⟩
  | succ k =>
    obtain ⟨before, after, -, there, -, -⟩ :=
      zone.switches k _ (List.getElem?_eq_getElem inside)
    exact ⟨after, there⟩

theorem increasing_gmt : d.Increasing ⟨true⟩ := by
  apply increasing_of_neighbours
  intro k a b first second
  have far := zone.apart k a b first second
  show a.gmttime < b.gmttime
  omega

theorem increasing_local : d.Increasing ⟨false⟩ := by
  apply increasing_of_neighbours
  intro k a b first second
  have far := zone.apart k a b first second
  obtain ⟨_, before, _, here, local_a, _⟩ := zone.switches k a first
  obtain ⟨before', after, here', _, local_b, switch⟩ := zone.switches (k + 1) b second
  cases here.symm.trans here'
  have offset := switch.offset_le
  show a.localtime < b.localtime
  omega

theorem local_started (within : d.InPeriod ⟨true⟩ t k) (there : d.period k = some type) (j : Nat)
    (tr : Transition) (last : j + 1 = k) (found : d.transitions[j]? = some tr) :
    Comp.key ⟨false⟩ tr ≤ t + type.gmtOffset := by
  subst last
  have gmt : tr.gmttime ≤ t := within.started j tr rfl found
  obtain ⟨_, after, _, here, local_, _⟩ := zone.switches j tr found
  cases there.symm.trans here
  show tr.localtime ≤ _
  omega

theorem repeated_period {tr : Transition} {after : Localtime} (next : d.transitions[k]? = some tr)
    (later : d.period (k + 1) = some after) (local_ : tr.localtime = tr.gmttime + after.gmtOffset)
    (hour : type.gmtOffset = after.gmtOffset + 3600) (gmt : t < tr.gmttime)
    (late : tr.localtime ≤ t + type.gmtOffset) :
    d.InPeriod ⟨false⟩ (t + type.gmtOffset) (k + 1) ∧ d.InPeriod ⟨true⟩ (t + 3600) (k + 1) := by
  constructor
  · refine inPeriod_succ next late ?_
    intro tr' found
    have far := zone.apart k tr tr' next found
    obtain ⟨_, after', here', _, local', switch'⟩ := zone.switches (k + 1) tr' found
    cases later.symm.trans here'
    have offset := switch'.offset_le
    show _ < tr'.localtime
    omega
  · have started : tr.gmttime ≤ t + 3600 := by omega
    refine inPeriod_succ next started ?_
    intro tr' found
    have far := zone.apart k tr tr' next found
    show _ < tr'.gmttime
    omega

theorem local_period (within : d.InPeriod ⟨true⟩ t k) (there : d.period k = some type) :
    d.InPeriod ⟨false⟩ (t + type.gmtOffset) k ∨
    type.isDst = true ∧ ∃ after, d.period (k + 1) = some after ∧ after.isDst = false ∧
      type.gmtOffset = after.gmtOffset + 3600 ∧
      d.InPeriod ⟨false⟩ (t + type.gmtOffset) (k + 1) ∧ d.InPeriod ⟨true⟩ (t + 3600) (k + 1) := by
  have started := zone.local_started within there
  cases next : d.transitions[k]? with
  | none => exact Or.inl ⟨within.inside, started, by simp [next]⟩
  | some tr =>
    have gmt : t < tr.gmttime := within.ends tr next
    obtain ⟨before, after, here, later, local_, switch⟩ := zone.switches k tr next
    cases there.symm.trans here
    by_cases early : t + type.gmtOffset < tr.localtime
    · refine Or.inl ⟨within.inside, started, ?_⟩
      intro tr' same
      cases next.symm.trans same
      exact early
    · cases switch with
      | starts standard daylight hour => omega
      | ends daylight standard hour =>
        have repeated := zone.repeated_period next later local_ hour gmt (Int.not_lt.mp early)
        exact Or.inr ⟨daylight, after, later, standard, hour, repeated⟩

end Data.OneHour

section
variable {Tm : Type} {gmtime_r : Int → Tm} {timegm : Tm → Int} (tm_hour tm_min : Tm → Int)
  {d : Data} {t : Int} {type : Localtime}

theorem fromLocalTime_own (inverts : ∀ x, timegm (gmtime_r x) = x)
    (found : findLocaltime d ⟨0, t + type.gmtOffset, 0⟩ ⟨false⟩ = .ok type)
    (forth : toLocalTime gmtime_r ⟨some d⟩ t = .ok (d.localTime gmtime_r type t)) :
    fromLocalTime gmtime_r timegm tm_hour tm_min ⟨some d⟩ (d.localTime gmtime_r type t) =
      .ok t := by
  simp only [fromLocalTime, Data.localTime, Option.isSome_some, assertThat_of_true, ok_bind,
    Option.getD_some, inverts, found, Int.add_sub_cancel] at forth ⊢
  cases daylight : type.isDst with
  | false => rfl
  | true =>
    rw [if_pos rfl, forth, ok_bind, if_neg (by simp [daylight]), pure_eq_ok]

theorem fromLocalTime_repeated {after : Localtime} (inverts : ∀ x, timegm (gmtime_r x) = x)
    (daylight : type.isDst = true)
    (hour : type.gmtOffset = after.gmtOffset + 3600)
    (found : findLocaltime d ⟨0, t + type.gmtOffset, 0⟩ ⟨false⟩ = .ok after) :
    fromLocalTime gmtime_r timegm tm_hour tm_min ⟨some d⟩ (d.localTime gmtime_r type t) =
      (toLocalTime gmtime_r ⟨some d⟩ (t + 3600) >>= fun tryTm =>
        if tryTm.tm_isdst = false ∧
            tm_hour tryTm.tm = tm_hour (gmtime_r (t + type.gmtOffset)) ∧
            tm_min tryTm.tm = tm_min (gmtime_r (t + type.gmtOffset)) then .ok t
        else .ok (t + 3600)) := by
  have again : t + type.gmtOffset - after.gmtOffset = t + 3600 := by omega
  have back : t + type.gmtOffset - 3600 - after.gmtOffset = t := by omega
  simp only [fromLocalTime, Data.localTime, Option.isSome_some, assertThat_of_true, ok_bind,
    Option.getD_some, inverts, found, daylight, if_true, again, back, pure_eq_ok]

variable (gmtime_r timegm) in
theorem local_time_round_trip (inverts : ∀ x, timegm (gmtime_r x) = x) (zone : d.OneHour)
    (t : Int) :
    let back := toLocalTime gmtime_r ⟨some d⟩ t >>=
      fromLocalTime gmtime_r timegm tm_hour tm_min ⟨some d⟩
    back = .ok t ∨ ¬d.Named ∧ back = .error "abbreviation[local->arrbIdx]" := by
  dsimp only
  have unnamed : ∀ {k type}, d.period k = some type →
      ¬type.arrbIdx ≤ d.abbreviation.length → ¬d.Named :=
    fun there outside named => outside (named _ (period_mem there))
  obtain ⟨k, within⟩ := exists_inPeriod d ⟨true⟩ t
  obtain ⟨type, there⟩ := zone.exists_period within.inside
  have forth := toLocalTime_eq gmtime_r zone.increasing_gmt within there
  by_cases named : type.arrbIdx ≤ d.abbreviation.length
  · rw [if_pos named] at forth
    rw [forth, ok_bind]
    rcases zone.local_period within there with
      own | ⟨daylight, after, later, standard, hour, next, gmt⟩
    · have found : findLocaltime d ⟨0, t + type.gmtOffset, 0⟩ ⟨false⟩ = .ok type :=
        findLocaltime_eq zone.increasing_local own there rfl
      exact Or.inl (fromLocalTime_own tm_hour tm_min inverts found forth)
    · have found : findLocaltime d ⟨0, t + type.gmtOffset, 0⟩ ⟨false⟩ = .ok after :=
        findLocaltime_eq zone.increasing_local next later rfl
      rw [fromLocalTime_repeated tm_hour tm_min inverts daylight hour found,
        toLocalTime_eq gmtime_r zone.increasing_gmt gmt later]
      split
      · -- an hour later the clock reads the same
        have clock : t + 3600 + after.gmtOffset = t + type.gmtOffset := by omega
        left
        rw [ok_bind, Data.localTime, clock, if_pos ⟨standard, rfl, rfl⟩]
      · next outside => exact Or.inr ⟨unnamed later outside, rfl⟩
  · right
    rw [forth, if_neg named]
    exact ⟨unnamed there named, rfl⟩

end

def summer : Data :=
  ⟨[⟨1000000, 1003600, 1⟩, ⟨2000000, 2000000, 0⟩], [⟨0, false, 0⟩, ⟨3600, true, 4⟩],
    [83, 84, 68, 0, 68, 83, 84, 0]⟩

theorem summer_oneHour : summer.OneHour where
  nonempty := by decide
  apart := by
    intro k a b first second
    match k with
    | 0 =>
      cases first
      cases second
      decide
    | 1 => cases second
    | k + 2 => cases first
  switches := by
    intro k tr there
    match k with
    | 0 =>
      cases there
      exact ⟨_, _, rfl, rfl, rfl, .starts rfl rfl rfl⟩
    | 1 =>
      cases there
      exact ⟨_, _, rfl, rfl, rfl, .ends rfl rfl rfl⟩
    | k + 2 => cases there

/-- Half an hour before daylight saving time ends. -/
theorem local_time_round_trip_of_summer : summer.OneHour ∧
    (toLocalTime id ⟨some summer⟩ 1998200 >>= fromLocalTime id id (fun x => x / 3600 % 24)
      (fun x => x / 60 % 60) ⟨some summer⟩) = .ok 1998200 := by
  refine ⟨summer_oneHour, ?_⟩
  have named : summer.Named := by
    unfold Data.Named
    decide
  rcases local_time_round_trip id id (fun x => x / 3600 % 24) (fun x => x / 60 % 60)
    (fun _ => rfl) summer_oneHour 1998200 with back | ⟨unnamed, -⟩
  · exact back
  · exact absurd named unnamed

end TimeZone
end Muduo
