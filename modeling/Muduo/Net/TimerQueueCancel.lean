import Muduo.Lib.Precedes
import Muduo.Net.TimerQueueRuns

/-!
What becomes of a cancelled Timer. A cancelInLoop that finds the Timer in the queue
deletes it; one that finds it in the batch leaves a note that reset() reads, but
the loop that runs the callbacks does not. A cancelInLoop that comes before
addTimerInLoop finds nothing, and only the functor queue keeps the two in order.
-/
namespace Muduo
open Lib
namespace TimerQueue
variable {s t : State} {l : Label} {q q' : TimerQueue} {id : TimerId} {xs : List Moment}
  {known : List TimerId}

/-- The Timer has been deleted: its sequence is not given out again. -/
def Dead (q : TimerQueue) (id : TimerId) : Prop := ¬q.Live id ∧ id.sequence_ ≤ q.numCreated

/-- The Timer is deleted, or will be when reset() comes to it. -/
def Doomed (s : State) (id : TimerId) : Prop :=
  Dead s.queue id ∨ id ∈ s.queue.cancelingTimers_ ∧ InBatch s id

theorem numbered_of_live {batch fresh : List Nat} (owned : Owned q batch fresh)
    (live : q.Live id) : id.sequence_ ≤ q.numCreated := by
  obtain ⟨t, here, number⟩ := live
  rw [← number]
  exact (owned.addressed _ t here).2

theorem dead_of_back (created : q.numCreated ≤ q'.numCreated)
    (back : ∀ x, q'.Live x → x.sequence_ ≤ q.numCreated → q.Live x) (dead : Dead q id) :
    Dead q' id :=
  ⟨fun live => dead.1 (back id live dead.2), dead.2.trans created⟩

theorem back_create {a : Nat} {when_ : Int} {interval : Interval} (free : q.Free a) {x : TimerId}
    (live : (q.create a when_ interval).Live x) (old : x.sequence_ ≤ q.numCreated) : q.Live x := by
  rcases (live_create free).mp live with rfl | was
  · simp only [nextId] at old
    omega
  · exact was

theorem cancelled_numCreated (cancelled : Cancelled q id known q') :
    q'.numCreated = q.numCreated := by
  cases cancelled with
  | removed was timers => rfl
  | noted absent calling => rfl
  | ignored absent idle => rfl

theorem dead_step (sound : Sound s) (taken : step s l = some t) (dead : Dead s.queue id) :
    Dead t.queue id := by
  cases stepped sound taken with
  | newTimer free =>
    refine dead_of_back ?_ (fun x => back_create free) dead
    simp only [create]
    omega
  | @addTimer a when_ interval clock q free owned added =>
    have created : Dead (s.queue.create a when_ interval) id := by
      refine dead_of_back ?_ (fun x => back_create free) dead
      simp only [create]
      omega
    exact dead_of_back (le_of_eq added.numCreated.symm)
      (fun x live _ => (live_of_same added.heap).mp live) created
  | cancel owned cancelled | runCancel phase next owned cancelled =>
    exact dead_of_back (le_of_eq (cancelled_numCreated cancelled).symm)
      (fun x live _ => live_of_cancelled cancelled live) dead
  | handleRead idle events owned expired =>
    exact dead_of_back (le_of_eq expired.numCreated.symm)
      (fun x live _ => (live_of_same expired.heap).mp live) dead
  | endHandleRead calling owned finished =>
    exact dead_of_back (le_of_eq finished.numCreated.symm) (fun x live _ => finished.live x live)
      dead
  | runAdd phase next here number owned added =>
    exact dead_of_back (le_of_eq added.numCreated.symm)
      (fun x live _ => (live_of_same added.heap).mp live) dead
  | pushAdd _ | addReturns _ | pushCancel | fire _ | run _ | callbackReturns _
  | swapFunctors _ _ | endFunctors _ _ => exact dead

theorem canceling_of_cancelled {x : TimerId} (cancelled : Cancelled q id known q')
    (noted : x ∈ q.cancelingTimers_) :
    x ∈ q'.cancelingTimers_ := by
  cases cancelled with
  | removed was timers => exact noted
  | noted absent calling => exact OrderedSet.mem_insert.mpr (Or.inr noted)
  | ignored absent idle => exact noted

theorem doomed_step (sound : Sound s) (taken : step s l = some t) (doomed : Doomed s id) :
    Doomed t id := by
  rcases doomed with dead | ⟨noted, batch⟩
  · exact Or.inl (dead_step sound taken dead)
  · have batch' := batch
    obtain ⟨c, calling, member⟩ := batch
    cases stepped sound taken with
    | addTimer free owned added => exact Or.inr ⟨added.canceling ▸ noted, batch'⟩
    | cancel owned cancelled => exact Or.inr ⟨canceling_of_cancelled cancelled noted, batch'⟩
    | runCancel phase next owned cancelled =>
      exact Or.inr ⟨canceling_of_cancelled cancelled noted, batch'⟩
    | handleRead idle events owned expired =>
      rw [idle] at calling
      cases calling
    | run here | callbackReturns here =>
      rw [here] at calling
      cases calling
      exact Or.inr ⟨noted, _, rfl, member⟩
    | endHandleRead here owned finished =>
      rw [here] at calling
      cases calling
      obtain ⟨d, listed, rfl⟩ := List.mem_map.mp member
      have number := numbered_of_live sound.owned (sound.due _ here d listed)
      exact Or.inl ⟨finished.canceled d listed noted, finished.numCreated.symm ▸ number⟩
    | runAdd phase next here number owned added =>
      exact Or.inr ⟨added.canceling ▸ noted, batch'⟩
    | newTimer _ | pushAdd _ | addReturns _ | pushCancel | fire _ | swapFunctors _ _
    | endFunctors _ _ => exact Or.inr ⟨noted, batch'⟩

theorem doomed_of_cancelled (sound : Sound s) (inserted : .inserted id ∈ s.queue.journal)
    (cancelled : Cancelled s.queue id known q) :
    Doomed { s with queue := q } id := by
  have place := sound.owned.held id inserted
  have gone : .deleted id ∈ s.queue.journal → Dead s.queue id := sound.owned.gone id
  cases cancelled with
  | removed was timers =>
    have number := numbered_of_live sound.owned (sound.owned.active id was)
    refine Or.inl ⟨?_, number⟩
    rintro ⟨t, here, -⟩
    simp at here
  | noted absent calling =>
    rcases place with deleted | ⟨live, active | loose⟩
    · exact Or.inl (gone deleted)
    · exact absurd active absent
    · exact Or.inr ⟨OrderedSet.mem_insert.mpr (Or.inl rfl), (inBatch_iff sound).mpr ⟨live, loose⟩⟩
  | ignored absent idle =>
    rcases place with deleted | ⟨live, active | loose⟩
    · exact Or.inl (gone deleted)
    · exact absurd active absent
    · obtain ⟨c, calling, -⟩ := (inBatch_iff sound).mpr ⟨live, loose⟩
      have flag := sound.calling
      rw [idle, calling] at flag
      cases flag

def leftOf (s : State) : List TimerId := s.calling.elim [] fun c => c.left.map Due.id

def Silenced (s : State) (id : TimerId) : Prop := Doomed s id ∧ id ∉ leftOf s

theorem silenced_step (sound : Sound s) (taken : step s l = some t) (silenced : Silenced s id) :
    Silenced t id := by
  refine ⟨doomed_step sound taken silenced.1, ?_⟩
  obtain ⟨doomed, quiet⟩ := silenced
  cases stepped sound taken with
  | handleRead idle events owned expired =>
    intro member
    obtain ⟨d, listed, rfl⟩ := List.mem_map.mp member
    have live := (live_of_same expired.heap).mp (expired.live d listed)
    rcases doomed with dead | ⟨-, c, calling, -⟩
    · exact dead.1 live
    · rw [idle] at calling
      cases calling
  | run calling =>
    simp only [leftOf, calling, Option.elim_some, List.map_cons, List.mem_cons, not_or] at quiet
    exact quiet.2
  | callbackReturns calling =>
    simp only [leftOf, calling, Option.elim_some] at quiet
    exact quiet
  | endHandleRead calling owned finished =>
    intro member
    cases member
  | newTimer _ | pushAdd _ | addReturns _ | pushCancel | addTimer _ _ _ | cancel _ _ | fire _
  | swapFunctors _ _ | runAdd _ _ _ _ _ _ | runCancel _ _ _ _ | endFunctors _ _ => exact quiet

inductive Wrote (s : State) (l : Label) (t : State) : Prop where
  | plain (more : List Moment) (journal : t.queue.journal = s.queue.journal ++ more)
      (unstarted : ∀ id, .started id ∉ more) (uncancelled : ∀ id known, .cancelled id known ∉ more)
  | started (id : TimerId) (left : id ∈ leftOf s)
      (journal : t.queue.journal = s.queue.journal ++ [.started id])
  | cancelled (id : TimerId) (known : List TimerId) (more : List Moment)
      (journal : t.queue.journal = s.queue.journal ++ more ++ [.cancelled id known])
      (deletes : ∀ m ∈ more, m = .deleted id) (same : leftOf t = leftOf s)
      (caller : l = .cancel id ∧ known = s.queue.returnedBy id ∨
        leftOf s = [] ∧ ∃ functors, s.functors.next = some (.cancelInLoop id known, functors))
      (doomed : .inserted id ∈ s.queue.journal → Doomed t id)

theorem wrote_cancelled {l : Label} (sound : Sound s) (cancelled : Cancelled s.queue id known q)
    (here : t.queue = q) (batch : t.calling = s.calling)
    (caller : l = .cancel id ∧ known = s.queue.returnedBy id ∨
      leftOf s = [] ∧ ∃ functors, s.functors.next = some (.cancelInLoop id known, functors)) :
    Wrote s l t := by
  have doomed : .inserted id ∈ s.queue.journal → Doomed t id := by
    intro inserted
    have after := doomed_of_cancelled sound inserted cancelled
    simp only [Doomed, InBatch, here, batch] at after ⊢
    exact after
  have same : leftOf t = leftOf s := by simp only [leftOf, batch]
  cases cancelled with
  | removed was timers =>
    refine .cancelled id known [.deleted id] ?_ (by simp) same caller doomed
    rw [here]
  | noted absent calling =>
    refine .cancelled id known [] ?_ (by simp) same caller doomed
    rw [here, List.append_nil]
  | ignored absent idle =>
    refine .cancelled id known [] ?_ (by simp) same caller doomed
    rw [here, List.append_nil]
    rfl

theorem wrote (sound : Sound s) (taken : step s l = some t) : Wrote s l t := by
  have silent : ∀ {t : State}, t.queue.journal = s.queue.journal → Wrote s l t := by
    intro t same
    exact .plain [] (by rw [same, List.append_nil]) (by simp) (by simp)
  cases stepped sound taken with
  | addReturns member => exact .plain _ rfl (by simp) (by simp)
  | @addTimer a when_ interval clock q free owned added =>
    refine .plain [.inserted (s.queue.nextId a), .returned (s.queue.nextId a) (s.queue.nextId a)]
      ?_ (by simp) (by simp)
    simp only [note, added.journal, create, List.append_assoc, List.cons_append, List.nil_append]
    rfl
  | cancel owned cancelled => exact wrote_cancelled sound cancelled rfl rfl (Or.inl ⟨rfl, rfl⟩)
  | @run now expired left d calling =>
    refine .started d.id ?_ rfl
    simp [leftOf, calling]
  | endHandleRead calling owned finished =>
    obtain ⟨more, journal, deletes⟩ := finished.journal
    refine .plain more journal ?_ ?_
    · intro id member
      obtain ⟨x, same⟩ := deletes _ member
      cases same
    · intro id known member
      obtain ⟨x, same⟩ := deletes _ member
      cases same
  | runAdd phase next here number owned added => exact .plain _ added.journal (by simp) (by simp)
  | runCancel phase next owned cancelled =>
    refine wrote_cancelled sound cancelled rfl rfl (Or.inr ⟨?_, _, next⟩)
    simp only [leftOf, sound.outside phase, Option.elim_none]
  | handleRead idle events owned expired => exact silent expired.journal
  | newTimer _ | pushAdd _ | pushCancel | fire _ | callbackReturns _ | swapFunctors _ _
  | endFunctors _ _ => exact silent rfl

/-- cancelInLoop(id) has returned for a Timer that addTimerInLoop had inserted. -/
def CancelledAfterInsert (id : TimerId) (journal : List Moment) : Prop :=
  ∃ before known after, journal = before ++ .cancelled id known :: after ∧ .inserted id ∈ before

theorem cancelledAfterInsert_plain {ms : List Moment}
    (uncancelled : ∀ id known, .cancelled id known ∉ ms)
    (cancelled : CancelledAfterInsert id (xs ++ ms)) : CancelledAfterInsert id xs := by
  obtain ⟨before, known, after, split, inserted⟩ := cancelled
  rcases split_append split with ⟨rest, old⟩ | ⟨more, -, tail⟩
  · exact ⟨before, known, rest, old, inserted⟩
  · exact absurd (by rw [tail]; simp) (uncancelled id known)

theorem cancelledAfterInsert_snoc {m : Moment} (cancelled : CancelledAfterInsert id (xs ++ [m])) :
    CancelledAfterInsert id xs ∨ ∃ known, m = .cancelled id known ∧ .inserted id ∈ xs := by
  obtain ⟨before, known, after, split, inserted⟩ := cancelled
  rcases split_snoc split with ⟨rest, old⟩ | ⟨rfl, new⟩
  · exact Or.inl ⟨before, known, rest, old, inserted⟩
  · exact Or.inr ⟨known, new.symm, inserted⟩

def NoneStartedLate (journal : List Moment) : Prop :=
  ∀ id before after, journal = before ++ .started id :: after → ¬CancelledAfterInsert id before

theorem noneStartedLate_append {ms : List Moment} (late : NoneStartedLate xs)
    (unstarted : ∀ id, .started id ∉ ms) : NoneStartedLate (xs ++ ms) := by
  intro id before after split
  rcases split_append split with ⟨rest, old⟩ | ⟨more, -, tail⟩
  · exact late id before rest old
  · exact absurd (by rw [tail]; simp) (unstarted id)

theorem noneStartedLate_started (late : NoneStartedLate xs) (live : ¬CancelledAfterInsert id xs) :
    NoneStartedLate (xs ++ [.started id]) := by
  intro x before after split
  rcases split_snoc split with ⟨rest, old⟩ | ⟨rfl, new⟩
  · exact late x before rest old
  · cases new
    exact live

def Label.cancels : Label → Option TimerId
  | .cancel id => some id
  | _ => none

/-- cancel(id) is not called from a callback while the Timer waits for its own turn in
    the same batch. -/
def CancelsNoneLeft (s : State) (l : Label) : Prop := ∀ id ∈ l.cancels, id ∉ leftOf s

instance (s : State) (l : Label) : Decidable (CancelsNoneLeft s l) :=
  inferInstanceAs (Decidable (∀ id ∈ l.cancels, id ∉ leftOf s))

structure Quiet (s : State) : Prop where
  silenced : ∀ id, CancelledAfterInsert id s.queue.journal → Silenced s id
  late : NoneStartedLate s.queue.journal

theorem quiet_step (sound : Sound s) (quiet : Quiet s) (allowed : CancelsNoneLeft s l)
    (taken : step s l = some t) : Quiet t := by
  have kept : ∀ id, CancelledAfterInsert id s.queue.journal → Silenced t id := by
    intro id cancelled
    exact silenced_step sound taken (quiet.silenced id cancelled)
  cases wrote sound taken with
  | plain more journal unstarted uncancelled =>
    refine ⟨?_, ?_⟩
    · intro id cancelled
      rw [journal] at cancelled
      exact kept id (cancelledAfterInsert_plain uncancelled cancelled)
    · rw [journal]
      exact noneStartedLate_append quiet.late unstarted
  | started id left journal =>
    have live : ¬CancelledAfterInsert id s.queue.journal := by
      intro cancelled
      exact (quiet.silenced id cancelled).2 left
    refine ⟨?_, ?_⟩
    · intro x cancelled
      rw [journal] at cancelled
      exact kept x (cancelledAfterInsert_plain (by simp) cancelled)
    · rw [journal]
      exact noneStartedLate_started quiet.late live
  | cancelled id known more journal deletes same caller doomed =>
    have unheard : id ∉ leftOf t := by
      rw [same]
      rcases caller with ⟨rfl, -⟩ | ⟨nobody, -⟩
      · exact allowed id rfl
      · rw [nobody]
        simp
    have plain : ∀ x known, Moment.cancelled x known ∉ more := by
      intro x known member
      cases deletes _ member
    refine ⟨?_, ?_⟩
    · intro x cancelled
      rw [journal] at cancelled
      rcases cancelledAfterInsert_snoc cancelled with before | ⟨known', same, inserted⟩
      · exact kept x (cancelledAfterInsert_plain plain before)
      · cases same
        refine ⟨doomed ?_, unheard⟩
        rcases List.mem_append.mp inserted with old | new
        · exact old
        · cases deletes _ new
    · rw [journal]
      refine noneStartedLate_append (noneStartedLate_append quiet.late ?_) (by simp)
      intro x member
      cases deletes _ member

/-- In every run in which no callback cancels a Timer that is still to be run in the
    same batch, no callback is started after its Timer has been cancelled. -/
theorem cancelled_timer_is_not_started {ls : List Label} (ran : machine.run init ls = some s)
    (within : machine.Within CancelsNoneLeft init ls) :
    ∀ id before after, s.queue.journal = before ++ .started id :: after →
      ¬CancelledAfterInsert id before := by
  have start : Quiet init := by
    refine ⟨?_, ?_⟩
    · rintro id ⟨before, known, after, split, -⟩
      simp [init] at split
    · intro id before after split
      simp [init] at split
  have invariant : Sound s ∧ Quiet s :=
    machine.within_invariant CancelsNoneLeft (fun s => Sound s ∧ Quiet s)
      (fun _ _ _ inv allowed taken =>
        ⟨sound_step inv.1 taken, quiet_step inv.1 inv.2 allowed taken⟩)
      ⟨sound_init, start⟩ within ran
  exact invariant.2.late

def selfCancelRun : List Label :=
  [.addTimer 1000 10 everySeven 1, .addTimer 2000 11 everySeven 2, .fire, .handleRead 20, .run,
    .cancel ⟨1000, 1⟩, .callbackReturns, .run, .cancel ⟨1000, 1⟩, .callbackReturns,
    .endHandleRead 21, .fire, .handleRead 30, .run, .callbackReturns, .endHandleRead 31]

theorem cancelled_timer_is_not_started_in_selfCancelRun :
    ∃ s, machine.run init selfCancelRun = some s ∧
      s.queue.journal.filter (fun m => m = .started ⟨1000, 1⟩ ∨ m = .started ⟨2000, 2⟩) =
        [.started ⟨1000, 1⟩, .started ⟨2000, 2⟩, .started ⟨2000, 2⟩] ∧
      ∀ id before after, s.queue.journal = before ++ .started id :: after →
        ¬CancelledAfterInsert id before := by
  have outcome : (machine.run init selfCancelRun).map (fun s =>
      s.queue.journal.filter fun m => m = .started ⟨1000, 1⟩ ∨ m = .started ⟨2000, 2⟩) =
      some [.started ⟨1000, 1⟩, .started ⟨2000, 2⟩, .started ⟨2000, 2⟩] := by decide +kernel
  have within : machine.checkWithin CancelsNoneLeft init selfCancelRun = true := by decide +kernel
  obtain ⟨s, reached, facts⟩ := Option.map_eq_some_iff.mp outcome
  exact ⟨s, reached, facts, cancelled_timer_is_not_started reached (machine.within_of_check within)⟩

def batchCancelRun : List Label :=
  [.addTimer 1000 10 once 1, .addTimer 2000 11 once 2, .fire, .handleRead 20, .run,
    .cancel ⟨2000, 2⟩, .callbackReturns, .run]

theorem cancelled_timer_is_started :
    ∃ s, machine.run init batchCancelRun = some s ∧
      ∃ before, s.queue.journal = before ++ [.started ⟨2000, 2⟩] ∧
        CancelledAfterInsert ⟨2000, 2⟩ before := by
  have outcome : (machine.run init batchCancelRun).map (fun s => s.queue.journal) =
      some [.inserted ⟨1000, 1⟩, .returned ⟨1000, 1⟩ ⟨1000, 1⟩, .inserted ⟨2000, 2⟩,
        .returned ⟨2000, 2⟩ ⟨2000, 2⟩, .started ⟨1000, 1⟩, .cancelled ⟨2000, 2⟩ [⟨2000, 2⟩],
        .started ⟨2000, 2⟩] := by decide +kernel
  obtain ⟨s, reached, journal⟩ := Option.map_eq_some_iff.mp outcome
  refine ⟨s, reached,
    [.inserted ⟨1000, 1⟩, .returned ⟨1000, 1⟩ ⟨1000, 1⟩, .inserted ⟨2000, 2⟩,
      .returned ⟨2000, 2⟩ ⟨2000, 2⟩, .started ⟨1000, 1⟩, .cancelled ⟨2000, 2⟩ [⟨2000, 2⟩]],
    journal, ?_⟩
  exact ⟨[.inserted ⟨1000, 1⟩, .returned ⟨1000, 1⟩ ⟨1000, 1⟩, .inserted ⟨2000, 2⟩,
    .returned ⟨2000, 2⟩ ⟨2000, 2⟩, .started ⟨1000, 1⟩], [⟨2000, 2⟩], [], rfl, by simp⟩

end TimerQueue
end Muduo
