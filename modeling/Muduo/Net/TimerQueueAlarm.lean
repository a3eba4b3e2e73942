import Muduo.Net.TimerQueueRuns

/-!
The alarm behind the timer queue. Outside handleRead the alarm answers for every
entry of timers_. Inside handleRead it may have been read, and the callbacks see to
the entries that reset() will not: those at or before the Epoch.
-/
namespace Muduo
open Lib
namespace TimerQueue
variable {s t : State} {l : Label} {q q' : TimerQueue}

def Covered (q : TimerQueue) (when_ : Int) : Prop :=
  ∃ alarm, q.alarm = some alarm ∧
    alarm.value = howMuchTimeFromNow alarm.expiration alarm.setAt ∧ alarm.expiration ≤ when_

def Pressing (s : State) (when_ : Int) : Prop := s.calling.isSome = true → when_ ≤ 0

structure Alarmed (s : State) : Prop where
  covered : ∀ e ∈ s.queue.timers_, Pressing s e.when_ → Covered s.queue e.when_
  positive : ∀ c, s.calling = some c → 0 < c.now

/-- gettimeofday(2) gives the time since the Epoch. -/
def AfterEpoch : Label → Prop
  | .handleRead now => 0 < now
  | _ => True

theorem pressing_of_le {x y : Int} (le : x ≤ y) (pressing : Pressing s y) : Pressing s x := by
  intro calling
  have := pressing calling
  omega

theorem covered_of_le {x y : Int} (le : x ≤ y) (covered : Covered q x) : Covered q y := by
  obtain ⟨alarm, here, value, early⟩ := covered
  exact ⟨alarm, here, value, le_trans early le⟩

theorem covered_of_same {x : Int} (same : q'.alarm = q.alarm) (covered : Covered q x) :
    Covered q' x := by
  obtain ⟨alarm, here, rest⟩ := covered
  exact ⟨alarm, same.trans here, rest⟩

theorem covered_of_set {x expiration clock : Int} (set : q.Set expiration clock)
    (le : expiration ≤ x) : Covered q x :=
  ⟨_, set, rfl, le⟩

theorem covered_added {a : Nat} {u : Timer} {clock : Int}
    (covered : ∀ e ∈ q.timers_, Pressing s e.when_ → Covered q e.when_)
    (added : Added q a u clock q') :
    ∀ e ∈ q'.timers_, Pressing s e.when_ → Covered q' e.when_ := by
  intro e member pressing
  rcases added.alarm with ⟨set, least⟩ | ⟨same, f, earlier, le⟩
  · exact covered_of_set set (least e member)
  · apply covered_of_same same
    rcases (added.timers e).mp member with rfl | old
    · exact covered_of_le le (covered f earlier (pressing_of_le le pressing))
    · exact covered e old pressing

theorem covered_cancelled {id : TimerId} {known : List TimerId}
    (covered : ∀ e ∈ q.timers_, Pressing s e.when_ → Covered q e.when_)
    (cancelled : Cancelled q id known q') :
    ∀ e ∈ q'.timers_, Pressing s e.when_ → Covered q' e.when_ := by
  cases cancelled with
  | removed was timers =>
    intro e member
    exact covered e ((timers e).mp member).1
  | noted absent calling => exact covered
  | ignored absent idle => exact covered

theorem covered_finished {ds : List Due} {now clock : Int} {c : Calling}
    (alarmed : Alarmed s) (calling : s.calling = some c) (same : c.now = now)
    (finished : Finished s.queue ds now clock q) : ∀ e ∈ q.timers_, Covered q e.when_ := by
  intro e member
  rcases finished.alarm with ⟨expiration, set, least⟩ | ⟨kept, first⟩
  · exact covered_of_set set (least e member)
  · obtain ⟨f, member', early, le⟩ := first e member
    apply covered_of_le le
    apply covered_of_same kept
    have positive := alarmed.positive c calling
    rcases finished.timers f member' with old | late
    · exact alarmed.covered f old fun _ => early
    · omega

theorem alarmed_step (sound : Sound s) (alarmed : Alarmed s) (epoch : AfterEpoch l)
    (taken : step s l = some t) : Alarmed t := by
  cases stepped sound taken with
  | newTimer free => exact ⟨alarmed.covered, alarmed.positive⟩
  | pushAdd member => exact ⟨alarmed.covered, alarmed.positive⟩
  | addReturns member => exact ⟨alarmed.covered, alarmed.positive⟩
  | pushCancel => exact ⟨alarmed.covered, alarmed.positive⟩
  | @addTimer a when_ interval clock q free owned added =>
    have before : ∀ e ∈ (s.queue.create a when_ interval).timers_,
        Pressing s e.when_ → Covered (s.queue.create a when_ interval) e.when_ := alarmed.covered
    have after := covered_added before added
    exact ⟨after, alarmed.positive⟩
  | cancel owned cancelled | runCancel phase next owned cancelled =>
    exact ⟨covered_cancelled (s := s) alarmed.covered cancelled, alarmed.positive⟩
  | fire armed =>
    refine ⟨?_, alarmed.positive⟩
    intro e member pressing
    obtain ⟨alarm, here, value, early⟩ := alarmed.covered e member pressing
    rw [armed] at here
    cases here
    exact ⟨_, rfl, value, early⟩
  | @handleRead now q ds idle events owned expired =>
    have positive : 0 < now := epoch
    refine ⟨?_, ?_⟩
    · intro e member pressing
      have late := ((expired.timers e).mp member).2
      have early := pressing rfl
      omega
    · rintro c ⟨⟩
      exact positive
  | run calling | callbackReturns calling =>
    have positive := alarmed.positive _ calling
    refine ⟨?_, ?_⟩
    · intro e member pressing
      exact alarmed.covered e member fun _ => pressing rfl
    · rintro c ⟨⟩
      exact positive
  | endHandleRead calling owned finished =>
    refine ⟨?_, ?_⟩
    · intro e member _
      exact covered_finished alarmed calling rfl finished e member
    · intro c none
      cases none
  | swapFunctors idle events => exact ⟨alarmed.covered, alarmed.positive⟩
  | runAdd phase next here number owned added =>
    exact ⟨covered_added (s := s) alarmed.covered added, alarmed.positive⟩
  | endFunctors phase done => exact ⟨alarmed.covered, alarmed.positive⟩

theorem alarmed_init : Alarmed init where
  covered e member := absurd member (OrderedSet.not_mem_empty e)
  positive c here := by cases here

/-- Whenever handleRead is not running and timers_ is not empty, the alarm is armed,
    or has gone off and is unread, for a deadline computed from an expiration that is
    not later than any in timers_. -/
theorem no_timer_is_stranded {ls : List Label} (ran : machine.run init ls = some s)
    (clock : ∀ l ∈ ls, AfterEpoch l) (returned : s.calling = none)
    (waiting : s.queue.timers_.first ≠ none) :
    ∃ alarm, s.queue.alarm = some alarm ∧
      alarm.value = howMuchTimeFromNow alarm.expiration alarm.setAt ∧
      ∀ e ∈ s.queue.timers_, alarm.expiration ≤ e.when_ := by
  have invariant : Sound s ∧ Alarmed s :=
    machine.within_invariant (fun _ l => AfterEpoch l) (fun s => Sound s ∧ Alarmed s)
      (fun _ _ _ inv epoch taken =>
        ⟨sound_step inv.1 taken, alarmed_step inv.1 inv.2 epoch taken⟩)
      ⟨sound_init, alarmed_init⟩ (machine.within_of_labels clock) ran
  obtain ⟨sound, alarmed⟩ := invariant
  have covered : ∀ e ∈ s.queue.timers_, Covered s.queue e.when_ := by
    intro e member
    apply alarmed.covered e member
    intro calling
    rw [returned] at calling
    cases calling
  obtain ⟨first, head⟩ := Option.ne_none_iff_exists'.mp waiting
  obtain ⟨alarm, here, value, early⟩ := covered first (OrderedSet.first_mem head)
  refine ⟨alarm, here, value, ?_⟩
  intro e member
  exact le_trans early (when_le_of_le (OrderedSet.first_le head member))

/-- The callback of the only Timer adds two before the Epoch; reset() leaves the alarm
    as the callback set it. -/
def invalidRun : List Label :=
  [.addTimer 1000 10 everySeven 1, .fire, .handleRead 20, .run, .addTimer 2000 (-3) once 21,
    .addTimer 3000 (-2) once 22, .callbackReturns, .endHandleRead 30, .cancel ⟨2000, 2⟩]

theorem no_timer_is_stranded_in_invalidRun :
    ∃ s, machine.run init invalidRun = some s ∧
      s.queue.timers_.elems = [⟨-2, 3000⟩, ⟨27, 1000⟩] ∧
      ∃ alarm, s.queue.alarm = some alarm ∧
        alarm.value = howMuchTimeFromNow alarm.expiration alarm.setAt ∧
        ∀ e ∈ s.queue.timers_, alarm.expiration ≤ e.when_ := by
  have outcome : (machine.run init invalidRun).map
      (fun s => (s.queue.timers_.elems, s.calling)) =
      some ([⟨-2, 3000⟩, ⟨27, 1000⟩], none) := by decide +kernel
  have clock : ∀ l ∈ invalidRun, AfterEpoch l := by
    simp [invalidRun, AfterEpoch]
  obtain ⟨s, reached, facts⟩ := Option.map_eq_some_iff.mp outcome
  simp only [Prod.mk.injEq] at facts
  have waiting : s.queue.timers_.first ≠ none := by
    simp [OrderedSet.first, facts.1]
  exact ⟨s, reached, facts.1, no_timer_is_stranded reached clock facts.2 waiting⟩

end TimerQueue
end Muduo
