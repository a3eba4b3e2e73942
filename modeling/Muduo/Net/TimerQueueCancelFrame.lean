import Muduo.Net.TimerQueueExpired

/-!
What a cancel leaves alone. cancelInLoop looks for the pair of address and sequence,
so it touches no other Timer, not even one at the same address; cancelingTimers_
decides about its own member of the batch, and the next batch starts with an empty
one. The pair is that of the Timer which addTimer made, as long as addTimer reads the
sequence while the Timer exists; in another thread it may read it too late.
-/
namespace Muduo
open Lib
namespace TimerQueue

/-- The step that executes cancelInLoop(id). -/
inductive Executes (s : State) : Label → TimerId → Prop where
  | direct (id : TimerId) : Executes s (.cancel id) id
  | queued {id : TimerId} {known : List TimerId} {functors : Batch Functor} (clock : Int)
      (next : s.functors.next = some (.cancelInLoop id known, functors)) :
      Executes s (.runFunctor clock) id

/-- What cancelInLoop(id) changes. -/
structure CancelFrame (q : TimerQueue) (id : TimerId) (q' : TimerQueue) : Prop where
  timers : ∀ e, e ∈ q'.timers_ ↔
    e ∈ q.timers_ ∧ ¬(id ∈ q.activeTimers_ ∧ e.timer = id.timer_)
  active : ∀ x, x ∈ q'.activeTimers_ ↔ x ∈ q.activeTimers_ ∧ x ≠ id
  heap : ∀ a, q'.heap a = if id ∈ q.activeTimers_ ∧ a = id.timer_ then none else q.heap a
  canceling : ∀ x, x ∈ q'.cancelingTimers_ ↔ x ∈ q.cancelingTimers_ ∨
    x = id ∧ id ∉ q.activeTimers_ ∧ q.callingExpiredTimers_ = true

variable {q q' : TimerQueue} {batch fresh : List Nat} {id : TimerId} {s u : State} {l : Label}
  {now clock : Int}

theorem entry_of_address {t : Timer} (owned : Owned q batch fresh) {e : Entry}
    (here : q.heap id.timer_ = some t) (member : e ∈ q.timers_) :
    e = ⟨t.expiration_, id.timer_⟩ ↔ e.timer = id.timer_ := by
  constructor
  · rintro rfl
    rfl
  · intro place
    obtain ⟨v, there, same, -⟩ := owned.live_of_entry member
    rw [place, here] at there
    cases there
    exact Entry.key_injective (by simp [same, place])

theorem cancelInLoop_frame {known : List TimerId} (owned : Owned q batch fresh)
    (ran : q.cancelInLoop id known = .ok q') : CancelFrame q id q' := by
  obtain ⟨_, ran', -, cancelled⟩ := cancelInLoop_spec id known owned
  obtain rfl := Except.ok.inj (ran.symm.trans ran')
  have spared (was : id ∉ q.activeTimers_) :
      ∀ x, x ∈ q.activeTimers_ ↔ x ∈ q.activeTimers_ ∧ x ≠ id := by
    intro x
    refine ⟨fun member => ⟨member, ?_⟩, fun both => both.1⟩
    rintro rfl
    exact was member
  cases cancelled with
  | removed was timers_iff active_iff here =>
    refine ⟨?_, active_iff, ?_, by simp [was]⟩
    · intro e
      rw [timers_iff]
      apply and_congr_right
      intro old
      rw [ne_eq, entry_of_address owned here old]
      simp [was]
    · intro a
      by_cases place : a = id.timer_
      · simp [was, place]
      · simp [place]
  | noted was calling =>
    refine ⟨by simp [was], spared was, by simp [was], ?_⟩
    intro x
    simp only [OrderedSet.mem_insert, was, calling, not_false_eq_true, and_true]
    exact or_comm
  | ignored was calling =>
    exact ⟨by simp [note, was], spared was, by simp [note, was], by simp [note, calling]⟩

theorem executes_ran (sound : Sound s) (taken : step s l = some u) (executes : Executes s l id) :
    ∃ known, s.queue.cancelInLoop id known = .ok u.queue ∧ u.calling = s.calling := by
  obtain ⟨-, result, acted, rfl⟩ := faults.performed_of_step taken
  cases executes with
  | direct =>
    simp only [act, Option.ite_none_right_eq_some, Option.some.injEq] at acted
    obtain ⟨-, rfl⟩ := acted
    obtain ⟨q, runs, -, -⟩ := cancelInLoop_spec id (s.queue.returnedBy id) sound.owned
    refine ⟨_, runs.trans ?_, ?_⟩
    · simp only [runs, ok_bind, pure_eq_ok, Faults.settle]
    · simp only [runs, ok_bind, pure_eq_ok, Faults.settle]
  | @queued _ known functors clock next =>
    simp only [act, next, Option.ite_none_right_eq_some, Option.some.injEq] at acted
    obtain ⟨-, rfl⟩ := acted
    obtain ⟨q, runs, -, -⟩ := cancelInLoop_spec id known sound.owned
    refine ⟨known, runs.trans ?_, ?_⟩
    · simp only [runFunctor, runs, ok_bind, pure_eq_ok, Faults.settle]
    · simp only [runFunctor, runs, ok_bind, pure_eq_ok, Faults.settle]

def Label.returning : Label → Option TimerId
  | .addReturns made _ => some made
  | _ => none

/-- addTimer reads timer->sequence() while the Timer it made still exists. -/
def ReadsLive (s : State) (l : Label) : Prop :=
  ∀ made ∈ l.returning, (s.queue.heap made.timer_).map Timer.sequence_ = some made.sequence_

instance (s : State) (l : Label) : Decidable (ReadsLive s l) :=
  inferInstanceAs (Decidable (∀ made ∈ l.returning, _ = _))

structure Named (s : State) : Prop where
  returned : ∀ made id, .returned made id ∈ s.queue.journal → made = id
  created : 0 ≤ s.queue.numCreated
  positive : ∀ id, s.queue.Live id → 0 < id.sequence_

theorem live_of_step (sound : Sound s) (taken : step s l = some u) (live : u.queue.Live id) :
    s.queue.Live id ∨ s.queue.numCreated < id.sequence_ := by
  by_cases old : id.sequence_ ≤ s.queue.numCreated
  · obtain ⟨v, there, same⟩ := live
    obtain ⟨t, here, number, -⟩ := repeat_of_step sound taken there (by rw [same]; exact old)
    exact Or.inl ⟨t, here, number.trans same⟩
  · exact Or.inr (not_le.mp old)

theorem named_step (sound : Sound s) (named : Named s) (allowed : ReadsLive s l)
    (taken : step s l = some u) : Named u := by
  refine ⟨?_, named.created.trans (numCreated_grows sound taken), ?_⟩
  · intro made id member
    rcases returned_cases sound taken member with old | ⟨stale, rfl, -, rfl⟩ | ⟨same, -⟩
    · exact named.returned made id old
    · obtain ⟨t, here, number⟩ := Option.map_eq_some_iff.mp (allowed made rfl)
      simp [sequenceAt, here, number]
    · exact same
  · intro id live
    rcases live_of_step sound taken live with old | new
    · exact named.positive id old
    · have created := named.created
      omega

theorem named_init : Named init where
  returned made id member := by cases member
  created := le_refl _
  positive id live := by
    obtain ⟨t, here, -⟩ := live
    cases here

theorem doomed_of_executed (sound : Sound s) (taken : step s l = some u)
    (executes : Executes s l id) (inBatch : InBatch s id) : Doomed u id := by
  obtain ⟨known, ran, same⟩ := executes_ran sound taken executes
  have frame := cancelInLoop_frame sound.owned ran
  obtain ⟨-, loose⟩ := (inBatch_iff sound).mp inBatch
  have absent : id ∉ s.queue.activeTimers_ := by
    intro active
    exact sound.owned.not_loose active (List.mem_append_left _ loose)
  obtain ⟨c, calling, member⟩ := inBatch
  have flag : s.queue.callingExpiredTimers_ = true := by
    rw [sound.calling, calling]
    rfl
  refine Or.inr ⟨(frame.canceling id).mpr (Or.inr ⟨rfl, absent, flag⟩), c, ?_, member⟩
  rw [same]
  exact calling

theorem doomed_run {ls : List Label} (sound : Sound s) (doomed : Doomed s id)
    (ran : machine.run s ls = some u) : Doomed u id := by
  have kept : ∀ s l u, Sound s ∧ Doomed s id → step s l = some u → Sound u ∧ Doomed u id := by
    rintro s l u ⟨sound, doomed⟩ taken
    exact ⟨sound_step sound taken, doomed_step sound taken doomed⟩
  exact (machine.run_invariant kept ⟨sound, doomed⟩ ran).2

theorem reset_decides (sound : Sound s) (taken : step s (.endHandleRead clock) = some u) :
    ∃ now expired, s.calling = some ⟨now, expired, [], false⟩ ∧
      ∀ d ∈ expired, ∃ t, s.queue.heap d.entry.timer = some t ∧
        (d.id ∈ u.queue.activeTimers_ ↔ t.repeat_ = true ∧ d.id ∉ s.queue.cancelingTimers_) := by
  obtain ⟨now, expired, calling, -, renewed⟩ := endHandleRead_renews sound taken
  refine ⟨now, expired, calling, ?_⟩
  intro d member
  obtain ⟨t, here, number⟩ := sound.due _ calling d member
  have here : s.queue.heap d.entry.timer = some t := here
  refine ⟨t, here, ?_, fun again => (renewed.again d member t here again.1 again.2).2⟩
  intro active
  by_contra ends
  have gone := renewed.gone d member t here ends
  obtain ⟨v, there, -⟩ := (sound_step sound taken).owned.active _ active
  cases gone.symm.trans there

/-- In every run in which addTimer reads the sequence of a Timer that still exists:
    cancelInLoop with an id that addTimer returned takes out the Timer made by that call, if
    it is there, and nothing else, and one of the batch is deleted with the batch; a
    default-constructed id takes out nothing; reset() puts a Timer of the batch back exactly
    when it repeats and its own id was not cancelled; and a batch starts with nothing
    cancelled. -/
theorem cancel_affects_its_own_timer {ls : List Label} (ran : machine.run init ls = some s)
    (within : machine.Within ReadsLive init ls) :
    (∀ made id l u, .returned made id ∈ s.queue.journal → step s l = some u → Executes s l id →
      CancelFrame s.queue made u.queue ∧ u.calling = s.calling ∧
      (InBatch s made → ∀ ks v, machine.run u ks = some v → v.calling = none →
        Dead v.queue made)) ∧
    (∀ l u, step s l = some u → Executes s l ⟨0, 0⟩ →
      (∀ e, e ∈ u.queue.timers_ ↔ e ∈ s.queue.timers_) ∧
      (∀ x, x ∈ u.queue.activeTimers_ ↔ x ∈ s.queue.activeTimers_) ∧
      ∀ a, u.queue.heap a = s.queue.heap a) ∧
    (∀ clock u, step s (.endHandleRead clock) = some u → ∃ now expired,
      s.calling = some ⟨now, expired, [], false⟩ ∧
      ∀ d ∈ expired, ∃ t, s.queue.heap d.entry.timer = some t ∧
        (d.id ∈ u.queue.activeTimers_ ↔ t.repeat_ = true ∧ d.id ∉ s.queue.cancelingTimers_)) ∧
    ∀ now u, step s (.handleRead now) = some u → ∀ x, x ∉ u.queue.cancelingTimers_ := by
  have invariant : Sound s ∧ Named s :=
    machine.within_invariant ReadsLive (fun s => Sound s ∧ Named s)
      (fun _ _ _ inv allowed taken =>
        ⟨sound_step inv.1 taken, named_step inv.1 inv.2 allowed taken⟩)
      ⟨sound_init, named_init⟩ within ran
  obtain ⟨sound, named⟩ := invariant
  refine ⟨?_, ?_, fun clock u taken => reset_decides sound taken, ?_⟩
  · intro made id l u returned taken executes
    obtain rfl := named.returned made id returned
    obtain ⟨known, cancelled, same⟩ := executes_ran sound taken executes
    refine ⟨cancelInLoop_frame sound.owned cancelled, same, ?_⟩
    intro inBatch ks v more finished
    have doomed := doomed_run (sound_step sound taken)
      (doomed_of_executed sound taken executes inBatch) more
    rcases doomed with dead | ⟨-, c, calling, -⟩
    · exact dead
    · cases finished.symm.trans calling
  · intro l u taken executes
    obtain ⟨known, cancelled, -⟩ := executes_ran sound taken executes
    have frame := cancelInLoop_frame sound.owned cancelled
    have absent : (⟨0, 0⟩ : TimerId) ∉ s.queue.activeTimers_ := by
      intro active
      exact absurd (named.positive _ (sound.owned.active _ active)) (lt_irrefl 0)
    refine ⟨?_, ?_, ?_⟩
    · intro e
      rw [frame.timers]
      simp [absent]
    · intro x
      rw [frame.active]
      constructor
      · exact And.left
      · intro active
        refine ⟨active, ?_⟩
        rintro rfl
        exact absent active
    · intro a
      rw [frame.heap]
      simp [absent]
  · intro now u taken x member
    cases stepped sound taken with
    | handleRead idle events owned expired =>
      rw [expired.canceling] at member
      exact OrderedSet.not_mem_empty x member

def staleIdRun : List Label :=
  [.addTimer 1000 90 once 1, .cancel ⟨1000, 1⟩, .addTimer 1000 10 everySeven 2,
    .addTimer 2000 11 everySeven 3, .fire, .handleRead 20, .run, .cancel ⟨1000, 1⟩]

theorem cancel_affects_its_own_timer_in_staleIdRun :
    ∃ s u, machine.run init staleIdRun = some s ∧ step s (.cancel ⟨2000, 3⟩) = some u ∧
      CancelFrame s.queue ⟨2000, 3⟩ u.queue ∧ ∀ ks v, machine.run u ks = some v →
        v.calling = none → Dead v.queue ⟨2000, 3⟩ := by
  have outcome : (machine.run init staleIdRun).map (fun s =>
      (decide (.returned ⟨2000, 3⟩ ⟨2000, 3⟩ ∈ s.queue.journal), s.calling)) =
      some (true, some ⟨20, [⟨⟨10, 1000⟩, 2⟩, ⟨⟨11, 2000⟩, 3⟩], [⟨⟨11, 2000⟩, 3⟩], true⟩) := by
    decide +kernel
  have cancels : ((machine.run init staleIdRun).bind
      fun s => step s (.cancel ⟨2000, 3⟩)).isSome = true := by decide +kernel
  have within : machine.checkWithin ReadsLive init staleIdRun = true := by decide +kernel
  obtain ⟨s, reached, facts⟩ := Option.map_eq_some_iff.mp outcome
  simp only [Prod.mk.injEq, decide_eq_true_eq] at facts
  obtain ⟨returned, calling⟩ := facts
  rw [reached, Option.bind_some] at cancels
  obtain ⟨u, taken⟩ := Option.isSome_iff_exists.mp cancels
  obtain ⟨own, -⟩ := cancel_affects_its_own_timer reached (machine.within_of_check within)
  obtain ⟨frame, -, deleted⟩ := own _ _ _ u returned taken (.direct ⟨2000, 3⟩)
  exact ⟨s, u, reached, taken, frame, deleted ⟨_, calling, by simp [Due.id]⟩⟩

def lateReadRun : List Label :=
  [.newTimer 1000 10 once, .pushAdd ⟨1000, 1⟩, .swapFunctors, .runFunctor 5, .endFunctors, .fire,
    .handleRead 20, .run, .callbackReturns, .endHandleRead 21, .addTimer 1000 90 once 30,
    .addReturns ⟨1000, 1⟩ 0]

/-- The id of the first Timer cancels the second. -/
theorem cancel_affects_another_timer :
    ∃ s u, machine.run init lateReadRun = some s ∧
      .returned ⟨1000, 1⟩ ⟨1000, 2⟩ ∈ s.queue.journal ∧ step s (.cancel ⟨1000, 2⟩) = some u ∧
      ⟨1000, 2⟩ ∈ s.queue.activeTimers_ ∧ ⟨1000, 2⟩ ∉ u.queue.activeTimers_ ∧
      ¬CancelFrame s.queue ⟨1000, 1⟩ u.queue := by
  have outcome : (machine.run init lateReadRun).map (fun s =>
      (decide (.returned ⟨1000, 1⟩ ⟨1000, 2⟩ ∈ s.queue.journal), s.queue.activeTimers_.elems)) =
      some (true, [⟨1000, 2⟩]) := by decide +kernel
  have cancels : ((machine.run init lateReadRun).bind
      fun s => step s (.cancel ⟨1000, 2⟩)).map (fun u => u.queue.activeTimers_.elems) =
      some [] := by decide +kernel
  obtain ⟨s, reached, facts⟩ := Option.map_eq_some_iff.mp outcome
  simp only [Prod.mk.injEq, decide_eq_true_eq] at facts
  rw [reached, Option.bind_some] at cancels
  obtain ⟨u, taken, empty⟩ := Option.map_eq_some_iff.mp cancels
  have before : (⟨1000, 2⟩ : TimerId) ∈ s.queue.activeTimers_ := by
    show _ ∈ s.queue.activeTimers_.elems
    rw [facts.2]
    simp
  have after : (⟨1000, 2⟩ : TimerId) ∉ u.queue.activeTimers_ := by
    show _ ∉ u.queue.activeTimers_.elems
    rw [empty]
    simp
  refine ⟨s, u, reached, facts.1, taken, before, after, ?_⟩
  intro frame
  exact after ((frame.active _).mpr ⟨before, by simp⟩)

end TimerQueue
end Muduo
