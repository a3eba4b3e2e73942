import Muduo.Lib.Calendar
import Muduo.Lib.Machine
import Muduo.Base.Logging

/-!
The time that formatTime shows, compared with the one that it would show if it formatted the
second of every record, over all sequences of records and of calls of setTimeZone on a thread.
The text that a thread keeps is that of its last second in the zone of the record that made it.
So a record shows the right time exactly if its second is another one, or if the zone of now
has the same text for it. Before the first record t_lastSecond is zero and there is no text,
and a record in the first second of 1970 fails the assertion of T.
-/
namespace Muduo
open Lib
namespace Logger

inductive Event where
  | record (time : Int) (positive : 0 < time)
  | setTimeZone (tz : TimeZone)

/-- Of each record, what was shown and what should have been; none is a failed assertion, which
    ends the process. `since` is the zone that t_time was made in. -/
structure History where
  thread : Thread := {}
  g_logTimeZone : TimeZone := ⟨none⟩
  since : Option TimeZone := none
  shown : List (Option Stamp × Option Stamp) := []
  aborted : Bool := false

section
variable (gmtime_r : Int → TimeZone.Tm)

/-- formatTime without t_lastSecond. -/
def fresh (zone : TimeZone) (time : Int) : Checked Stamp := do
  let t_time ← newTime gmtime_r zone (time.tdiv 1000000)
  stamp zone t_time (time.tmod 1000000)

def History.record (h : History) (time : Int) : History :=
  let shown := fun outcome =>
    h.shown ++ [(outcome, (fresh gmtime_r h.g_logTimeZone time).toOption)]
  match formatTime gmtime_r h.g_logTimeZone h.thread time with
  | .ok (thread, text) =>
    { h with
      thread := thread
      since := if time.tdiv 1000000 ≠ h.thread.t_lastSecond then some h.g_logTimeZone else h.since
      shown := shown (some text) }
  | .error _ => { h with shown := shown none, aborted := true }

def step (h : History) (e : Event) : Option History :=
  if h.aborted then none
  else match e with
    | .record time _ => some (h.record gmtime_r time)
    | .setTimeZone tz => some { h with g_logTimeZone := tz }

def machine : Machine History Event := ⟨step gmtime_r⟩

def History.remembered (h : History) : Option (List Char) :=
  h.since.bind fun zone => (newTime gmtime_r zone h.thread.t_lastSecond).toOption

/-- A record of the last second finds that its text is the same in the zone of now. -/
def SameText (h : History) : Event → Prop
  | .record time _ => time.tdiv 1000000 = h.thread.t_lastSecond →
    h.remembered gmtime_r =
      (newTime gmtime_r h.g_logTimeZone h.thread.t_lastSecond).toOption
  | .setTimeZone _ => True

instance (h : History) (e : Event) : Decidable (SameText gmtime_r h e) :=
  match e with
  | .record time _ => inferInstanceAs (Decidable (time.tdiv 1000000 = h.thread.t_lastSecond →
      h.remembered gmtime_r =
        (newTime gmtime_r h.g_logTimeZone h.thread.t_lastSecond).toOption))
  | .setTimeZone _ => inferInstanceAs (Decidable True)

end

/-- Every record showed what a formatting of its second would have shown. -/
def Fresh (h : History) : Prop := ∀ p ∈ h.shown, p.1 = p.2

/-! ### One record -/

section
variable {gmtime_r : Int → TimeZone.Tm} {zone : TimeZone} {text : List Char} {us : Int}

theorem length_newTime {seconds : Int} (made : newTime gmtime_r zone seconds = .ok text) :
    text.length = 17 := by
  obtain ⟨tm_time, -, made⟩ := bind_eq_ok.mp made
  obtain ⟨_, sized, made⟩ := bind_eq_ok.mp made
  have length := assertThat_eq_ok.mp sized
  rw [snprintf_fits (by rw [length]; decide), pure_eq_ok] at made
  cases made
  exact length

theorem length_newTime_toOption (zone : TimeZone) (seconds : Int) :
    ∀ text ∈ (newTime gmtime_r zone seconds).toOption, text.length = 17 := by
  intro text there
  cases ran : newTime gmtime_r zone seconds with
  | error e =>
    rw [ran] at there
    cases there
  | ok text' =>
    rw [ran] at there
    cases there
    exact length_newTime ran

def suffixUs (zone : TimeZone) (us : Int) : List Char :=
  '.' :: (padded 6 us ++ if zone.valid then [' '] else ['Z', ' '])

theorem length_suffixUs (zone : TimeZone) (lower : 0 ≤ us) (upper : us < 1000000) :
    (suffixUs zone us).length = if zone.valid then 8 else 9 := by
  have digits : (padded 6 us).length = 6 := by
    rw [padded, if_neg (Int.not_lt.mpr lower)]
    exact length_zeroPadded (by decide) (by omega)
  rw [suffixUs, List.length_cons, List.length_append, digits]
  split <;> rfl

theorem stamp_eq (zone : TimeZone) (text : List Char) (lower : 0 ≤ us) (upper : us < 1000000) :
    (∀ made, stamp zone text us = .ok made ↔
      made.time = text ∧ made.us = suffixUs zone us) ∧
    (text.length = 17 → ∃ made, stamp zone text us = .ok made) := by
  have sized := length_suffixUs zone lower upper
  unfold suffixUs at sized ⊢
  unfold stamp
  dsimp only
  rw [dif_pos sized]
  constructor
  · intro made
    split
    · obtain ⟨time, us', timed, short⟩ := made
      simp only [Except.ok.injEq, Stamp.mk.injEq]
      exact ⟨fun same => ⟨same.1.symm, same.2.symm⟩, fun same => ⟨same.1.symm, same.2.symm⟩⟩
    · rename_i untimed
      constructor
      · intro same
        cases same
      · intro same
        exact absurd (same.1 ▸ made.timed) untimed
  · intro timed
    rw [dif_pos timed]
    exact ⟨_, rfl⟩

theorem stamp_injective (lower : 0 ≤ us) (upper : us < 1000000) {x y : Option (List Char)}
    (timed_x : ∀ text ∈ x, text.length = 17) (timed_y : ∀ text ∈ y, text.length = 17)
    (same : (x.bind fun text => (stamp zone text us).toOption) =
      y.bind fun text => (stamp zone text us).toOption) : x = y := by
  have total : ∀ text : List Char, text.length = 17 →
      ∃ made, (stamp zone text us).toOption = some made ∧ made.time = text := by
    intro text timed
    obtain ⟨spec, defined⟩ := stamp_eq zone text lower upper
    obtain ⟨made, ran⟩ := defined timed
    exact ⟨made, by rw [ran]; rfl, ((spec made).mp ran).1⟩
  cases x with
  | none =>
    cases y with
    | none => rfl
    | some v =>
      obtain ⟨made, ran, -⟩ := total v (timed_y v rfl)
      rw [Option.bind_none, Option.bind_some, ran] at same
      cases same
  | some w =>
    obtain ⟨made, ran, time⟩ := total w (timed_x w rfl)
    cases y with
    | none =>
      rw [Option.bind_none, Option.bind_some, ran] at same
      cases same
    | some v =>
      obtain ⟨other, ran', time'⟩ := total v (timed_y v rfl)
      rw [Option.bind_some, Option.bind_some, ran, ran'] at same
      cases same
      rw [← time, ← time']

theorem fresh_toOption (time : Int) : (fresh gmtime_r zone time).toOption =
    (newTime gmtime_r zone (time.tdiv 1000000)).toOption.bind fun text =>
      (stamp zone text (time.tmod 1000000)).toOption := by
  unfold fresh
  cases newTime gmtime_r zone (time.tdiv 1000000) with
  | error e => rfl
  | ok text => rfl

end

def Kept (gmtime_r : Int → TimeZone.Tm) (h : History) : Prop :=
  h.aborted = false →
    match h.since with
    | none => h.thread.t_time = []
    | some zone => newTime gmtime_r zone h.thread.t_lastSecond = .ok h.thread.t_time

section
variable {gmtime_r : Int → TimeZone.Tm} {h t : History} {time : Int}

theorem length_remembered : ∀ text ∈ h.remembered gmtime_r, text.length = 17 := by
  intro text there
  obtain ⟨zone, -, made⟩ := Option.bind_eq_some_iff.mp there
  exact length_newTime_toOption zone _ text made

theorem stamp_kept (kept : Kept gmtime_r h) (running : h.aborted = false) {zone : TimeZone}
    {us : Int} (lower : 0 ≤ us) (upper : us < 1000000) :
    (stamp zone h.thread.t_time us).toOption =
      (h.remembered gmtime_r).bind fun text => (stamp zone text us).toOption := by
  have kept := kept running
  unfold History.remembered
  cases since : h.since with
  | none =>
    rw [since] at kept
    dsimp only at kept
    rw [Option.bind_none, Option.bind_none, kept]
    cases ran : stamp zone [] us with
    | error e => rfl
    | ok made =>
      obtain ⟨time, -⟩ := ((stamp_eq zone [] lower upper).1 made).mp ran
      have timed := made.timed
      rw [time] at timed
      cases timed
  | some zone' =>
    rw [since] at kept
    dsimp only at kept
    rw [Option.bind_some, kept]
    rfl

theorem record_new (other : time.tdiv 1000000 ≠ h.thread.t_lastSecond) :
    Kept gmtime_r (h.record gmtime_r time) ∧ ∃ outcome,
      (h.record gmtime_r time).shown = h.shown ++ [(outcome, outcome)] := by
  unfold History.record formatTime refresh fresh
  simp only [if_pos other]
  cases made : newTime gmtime_r h.g_logTimeZone (time.tdiv 1000000) with
  | error e => exact ⟨fun running => absurd running (by simp), none, rfl⟩
  | ok text =>
    simp only [ok_bind, pure_eq_ok]
    cases stamped : stamp h.g_logTimeZone text (time.tmod 1000000) with
    | error e => exact ⟨fun running => absurd running (by simp), none, rfl⟩
    | ok shown => exact ⟨fun _ => made, some shown, rfl⟩

theorem record_last (kept : Kept gmtime_r h)
    (last : time.tdiv 1000000 = h.thread.t_lastSecond) :
    Kept gmtime_r (h.record gmtime_r time) ∧ (h.record gmtime_r time).shown = h.shown ++
      [((stamp h.g_logTimeZone h.thread.t_time (time.tmod 1000000)).toOption,
        (fresh gmtime_r h.g_logTimeZone time).toOption)] := by
  unfold History.record formatTime refresh
  simp only [if_neg (not_not.mpr last), pure_eq_ok, ok_bind]
  cases stamped : stamp h.g_logTimeZone h.thread.t_time (time.tmod 1000000) with
  | error e => exact ⟨fun running => absurd running (by simp), rfl⟩
  | ok shown => exact ⟨kept, rfl⟩

theorem forall_shown_append {h : History} {p : Option Stamp × Option Stamp}
    (shown : t.shown = h.shown ++ [p]) (before : Fresh h) : Fresh t ↔ p.1 = p.2 := by
  unfold Fresh at before ⊢
  rw [shown]
  constructor
  · intro all
    exact all p (by simp)
  · intro same q there
    rcases List.mem_append.mp there with old | new
    · exact before q old
    · rw [List.mem_singleton.mp new]
      exact same

theorem record_decides (kept : Kept gmtime_r h) (running : h.aborted = false) (before : Fresh h)
    (positive : 0 < time) : Kept gmtime_r (h.record gmtime_r time) ∧
      (Fresh (h.record gmtime_r time) ↔ SameText gmtime_r h (.record time positive)) := by
  by_cases last : time.tdiv 1000000 = h.thread.t_lastSecond
  · obtain ⟨kept', shown⟩ := record_last kept last
    have lower : 0 ≤ time.tmod 1000000 := Int.tmod_nonneg _ (Int.le_of_lt positive)
    have upper : time.tmod 1000000 < 1000000 := Int.tmod_lt_of_pos _ (by decide)
    constructor
    · exact kept'
    · rw [forall_shown_append shown before, stamp_kept kept running lower upper, fresh_toOption,
        last]
      constructor
      · intro same _
        exact stamp_injective lower upper length_remembered (length_newTime_toOption _ _) same
      · intro same
        rw [same last]
  · obtain ⟨kept', outcome, shown⟩ := record_new last
    constructor
    · exact kept'
    · rw [forall_shown_append shown before]
      exact iff_of_true rfl fun same => absurd same last

theorem step_decides {e : Event} (kept : Kept gmtime_r h) (before : Fresh h)
    (stepped : step gmtime_r h e = some t) :
    Kept gmtime_r t ∧ (Fresh t ↔ SameText gmtime_r h e) := by
  unfold step at stepped
  cases running : h.aborted with
  | true =>
    rw [running] at stepped
    cases stepped
  | false =>
    rw [running] at stepped
    cases e with
    | record time positive =>
      cases stepped
      exact record_decides kept running before positive
    | setTimeZone tz =>
      cases stepped
      exact ⟨fun _ => kept running, iff_of_true before trivial⟩

end

/-- Over every sequence of records at positive times and of changes of the zone: each record
    shows the time, and the suffix, that formatting its second in the zone of that moment gives,
    exactly if each record of the last second finds the same text in the zone of now. -/
theorem cached_time_is_fresh (gmtime_r : Int → TimeZone.Tm) (events : List Event) (h : History)
    (ran : (machine gmtime_r).run {} events = some h) :
    (machine gmtime_r).Always Fresh {} events ↔
      (machine gmtime_r).Within (SameText gmtime_r) {} events := by
  have start : Kept gmtime_r {} := fun _ => rfl
  have first : Fresh {} := by
    intro p there
    cases there
  apply (machine gmtime_r).always_iff_within (SameText gmtime_r) (Kept gmtime_r) Fresh _ _ start
    first ran
  · intro s e t kept before allowed stepped
    obtain ⟨kept', iff⟩ := step_decides kept before stepped
    exact ⟨kept', iff.mpr allowed⟩
  · intro s e t kept before refused stepped
    obtain ⟨-, iff⟩ := step_decides kept before stepped
    exact fun after => refused (iff.mp after)

def civilTm (t : Int) : TimeZone.Tm :=
  let c := civil t.toNat
  { tm_sec := c.second, tm_min := c.minute, tm_hour := c.hour, tm_mday := c.day,
    tm_mon := c.month - 1, tm_year := c.year - 1900 }

def eastOneHour : TimeZone := .fixed 3600 []

def changedInTime : List Event :=
  [.record 1500000 (by decide), .record 1600000 (by decide), .setTimeZone eastOneHour,
    .record 2000000 (by decide)]

def Stamp.text (s : Stamp) : List Char := s.time ++ s.us

def History.texts (h : History) : List (Option (List Char) × Option (List Char)) :=
  h.shown.map fun p => (p.1.map Stamp.text, p.2.map Stamp.text)

theorem cached_time_is_fresh_of_changedInTime :
    ∃ h, (machine civilTm).run {} changedInTime = some h ∧
      h.texts.map Prod.fst = [some "19700101 00:00:01.500000Z ".toList,
        some "19700101 00:00:01.600000Z ".toList, some "19700101 01:00:02.000000 ".toList] ∧
      (machine civilTm).Always Fresh {} changedInTime := by
  have computed : ((machine civilTm).run {} changedInTime).map
      (fun h => h.texts.map Prod.fst) = some [some "19700101 00:00:01.500000Z ".toList,
        some "19700101 00:00:01.600000Z ".toList, some "19700101 01:00:02.000000 ".toList] := by
    decide +kernel
  obtain ⟨h, ran, shown⟩ := Option.map_eq_some_iff.mp computed
  have within : (machine civilTm).Within (SameText civilTm) {} changedInTime :=
    (machine civilTm).within_of_check (by decide +kernel)
  exact ⟨h, ran, shown, (cached_time_is_fresh civilTm changedInTime h ran).mpr within⟩

def changedTooEarly : List Event :=
  [.record 1500000 (by decide), .setTimeZone eastOneHour, .record 1600000 (by decide)]

/-- The second record has the time of UTC and the suffix of the zone. And a thread whose first
    record is in the first second of 1970 fails. -/
theorem cached_time_is_stale :
    ((machine civilTm).run {} changedTooEarly).map History.texts = some
      [(some "19700101 00:00:01.500000Z ".toList, some "19700101 00:00:01.500000Z ".toList),
       (some "19700101 00:00:01.600000 ".toList, some "19700101 01:00:01.600000 ".toList)] ∧
    ((machine civilTm).run {} [.record 500000 (by decide)]).map History.texts = some
      [(none, some "19700101 00:00:00.500000Z ".toList)] := by
  constructor
  · decide +kernel
  · decide +kernel

end Logger
end Muduo
