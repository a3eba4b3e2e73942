import Muduo.Net.TimerQueueCancel

/-!
addTimer and cancel from several threads. A call from another thread goes through
the functor queue, which keeps the order in which the calls were made; a call from
the loop thread does not. As long as the loop thread cancels no Timer that is still
queued, a cancel that was called after its addTimer returned is executed after it.
-/
namespace Muduo
open Lib
namespace TimerQueue
variable {s t : State} {l : Label} {q : TimerQueue} {id made : TimerId} {known : List TimerId}

def Requested (s : State) (made : TimerId) : Prop :=
  .inserted made ∈ s.queue.journal ∨ .addTimerInLoop made ∈ s.functors.waiting

def Names (q : TimerQueue) (id made : TimerId) : Prop := made = id ∨ Dead q made

theorem mem_returnedBy : made ∈ q.returnedBy id ↔ .returned made id ∈ q.journal := by
  simp only [returnedBy, List.mem_filterMap]
  constructor
  · rintro ⟨m, member, kept⟩
    cases m with
    | returned made' id' =>
      simp only [Option.ite_none_right_eq_some, Option.some.injEq] at kept
      obtain ⟨rfl, rfl⟩ := kept
      exact member
    | inserted _ | cancelled _ _ | started _ | deleted _ => cases kept
  · intro member
    exact ⟨_, member, by simp⟩

theorem journal_grows {m : Moment} (sound : Sound s) (taken : step s l = some t)
    (member : m ∈ s.queue.journal) : m ∈ t.queue.journal := by
  cases wrote sound taken with
  | plain more journal _ _ =>
    rw [journal]
    exact List.mem_append_left _ member
  | started id _ journal =>
    rw [journal]
    exact List.mem_append_left _ member
  | cancelled id known more journal _ _ _ _ =>
    rw [journal]
    exact List.mem_append_left _ (List.mem_append_left _ member)

inductive Moved (s t : State) : Prop where
  | kept (same : t.functors.waiting = s.functors.waiting)
  | pushedAdd (made : TimerId)
      (pushed : t.functors.waiting = s.functors.waiting ++ [.addTimerInLoop made])
  | pushedCancel (id : TimerId)
      (pushed : t.functors.waiting =
        s.functors.waiting ++ [.cancelInLoop id (s.queue.returnedBy id)])
  | ranAdd (made : TimerId) (popped : s.functors.waiting = .addTimerInLoop made :: t.functors.waiting)
      (inserted : .inserted made ∈ t.queue.journal)
  | ranCancel (id : TimerId) (known : List TimerId)
      (popped : s.functors.waiting = .cancelInLoop id known :: t.functors.waiting)

theorem moved (sound : Sound s) (taken : step s l = some t) : Moved s t := by
  cases stepped sound taken with
  | @pushAdd made member => exact .pushedAdd made (Batch.waiting_push _ _)
  | @pushCancel id => exact .pushedCancel id (Batch.waiting_push _ _)
  | swapFunctors idle events => exact .kept (Batch.waiting_swap (sound.emptied events))
  | @runAdd clock made functors u q phase next here number owned added =>
    refine .ranAdd made (Batch.waiting_next next) ?_
    rw [added.journal, number]
    exact List.mem_append_right _ (List.mem_singleton.mpr rfl)
  | @runCancel clock id known functors q phase next owned cancelled =>
    exact .ranCancel id known (Batch.waiting_next next)
  | newTimer _ | addReturns _ | addTimer _ _ _ | cancel _ _ | fire _ | handleRead _ _ _ _ | run _
  | callbackReturns _ | endHandleRead _ _ _ | endFunctors _ _ => exact .kept rfl

theorem requested_step (sound : Sound s) (taken : step s l = some t) (requested : Requested s made) :
    Requested t made := by
  rcases requested with inserted | waits
  · exact Or.inl (journal_grows sound taken inserted)
  · cases moved sound taken with
    | kept same => exact Or.inr (same ▸ waits)
    | pushedAdd made pushed => exact Or.inr (pushed ▸ List.mem_append_left _ waits)
    | pushedCancel id pushed => exact Or.inr (pushed ▸ List.mem_append_left _ waits)
    | ranAdd first popped inserted =>
      rw [popped] at waits
      rcases List.mem_cons.mp waits with same | later
      · cases same
        exact Or.inl inserted
      · exact Or.inr later
    | ranCancel id known popped =>
      rw [popped] at waits
      rcases List.mem_cons.mp waits with same | later
      · cases same
      · exact Or.inr later

theorem names_step (sound : Sound s) (taken : step s l = some t) (names : Names s.queue id made) :
    Names t.queue id made :=
  names.imp_right (dead_step sound taken)

structure Ordered (s : State) : Prop where
  pushed : ∀ made ∈ s.pushed, made.sequence_ ≤ s.queue.numCreated ∧ Requested s made
  returned : ∀ made id, .returned made id ∈ s.queue.journal →
    Names s.queue id made ∧ Requested s made
  queued : ∀ id known, .cancelInLoop id known ∈ s.functors.waiting → ∀ made ∈ known,
    Names s.queue id made ∧ (.inserted made ∈ s.queue.journal ∨
      Precedes (· = .addTimerInLoop made) (.cancelInLoop id known) s.functors.waiting)
  executed : ∀ id known, .cancelled id known ∈ s.queue.journal → ∀ made ∈ known, Doomed s made

theorem numCreated_grows (sound : Sound s) (taken : step s l = some t) :
    s.queue.numCreated ≤ t.queue.numCreated := by
  cases stepped sound taken with
  | newTimer free =>
    simp only [create]
    omega
  | addTimer free owned added =>
    have same := added.numCreated
    simp only [create, note] at same ⊢
    omega
  | cancel owned cancelled | runCancel phase next owned cancelled =>
    exact le_of_eq (cancelled_numCreated cancelled).symm
  | handleRead idle events owned expired => exact le_of_eq expired.numCreated.symm
  | endHandleRead calling owned finished => exact le_of_eq finished.numCreated.symm
  | runAdd phase next here number owned added => exact le_of_eq added.numCreated.symm
  | pushAdd _ | addReturns _ | pushCancel | fire _ | run _ | callbackReturns _
  | swapFunctors _ _ | endFunctors _ _ => exact le_refl _

theorem pushed_step (sound : Sound s) (ordered : Ordered s) (taken : step s l = some t) :
    ∀ made ∈ t.pushed, made.sequence_ ≤ t.queue.numCreated ∧ Requested t made := by
  have kept : ∀ made ∈ s.pushed, made.sequence_ ≤ t.queue.numCreated ∧ Requested t made := by
    intro made member
    obtain ⟨number, requested⟩ := ordered.pushed made member
    exact ⟨number.trans (numCreated_grows sound taken), requested_step sound taken requested⟩
  cases stepped sound taken with
  | @pushAdd made member =>
    intro x listed
    rcases List.mem_cons.mp listed with rfl | old
    · have live := sound.fresh x (List.mem_append_right _ member)
      refine ⟨numbered_of_live sound.owned live, Or.inr ?_⟩
      simp
    · exact kept x old
  | addReturns member =>
    intro x listed
    exact kept x (List.mem_of_mem_erase listed)
  | newTimer _ | pushCancel | addTimer _ _ _ | cancel _ _ | fire _ | handleRead _ _ _ _ | run _
  | callbackReturns _ | endHandleRead _ _ _ | swapFunctors _ _ | runAdd _ _ _ _ _ _
  | runCancel _ _ _ _ | endFunctors _ _ => exact kept

theorem names_sequenceAt {stale : Int} (number : made.sequence_ ≤ q.numCreated) :
    Names q ⟨made.timer_, q.sequenceAt made.timer_ stale⟩ made := by
  by_cases live : q.Live made
  · obtain ⟨t, here, same⟩ := live
    left
    simp [sequenceAt, here, same]
  · exact Or.inr ⟨live, number⟩

theorem returned_cancelled {x : TimerId} (cancelled : Cancelled s.queue x known q)
    (member : .returned made id ∈ q.journal) : .returned made id ∈ s.queue.journal := by
  cases cancelled with
  | removed was timers => simpa using member
  | noted absent calling => simpa using member
  | ignored absent idle => simpa [note] using member

theorem returned_cases (sound : Sound s) (taken : step s l = some t)
    (member : .returned made id ∈ t.queue.journal) :
    .returned made id ∈ s.queue.journal ∨
    (∃ stale, l = .addReturns made stale ∧ made ∈ s.pushed ∧
      id = ⟨made.timer_, s.queue.sequenceAt made.timer_ stale⟩) ∨
    made = id ∧ .inserted made ∈ t.queue.journal := by
  cases stepped sound taken with
  | @addReturns made' stale waits =>
    simp only [note, List.mem_append, List.mem_singleton] at member
    rcases member with old | new
    · exact Or.inl old
    · cases new
      exact Or.inr (Or.inl ⟨stale, rfl, waits, rfl⟩)
  | addTimer free owned added =>
    simp only [note, added.journal, create, List.append_assoc, List.mem_append,
      List.mem_singleton, reduceCtorEq, false_or] at member
    rcases member with old | new
    · exact Or.inl old
    · cases new
      refine Or.inr (Or.inr ⟨rfl, ?_⟩)
      simp only [note, added.journal, List.mem_append]
      exact Or.inl (Or.inr (List.mem_singleton.mpr rfl))
  | cancel owned cancelled => exact Or.inl (returned_cancelled cancelled member)
  | runCancel phase next owned cancelled => exact Or.inl (returned_cancelled cancelled member)
  | handleRead idle events owned expired => exact Or.inl (expired.journal ▸ member)
  | run calling => exact Or.inl (by simpa [note] using member)
  | endHandleRead calling owned finished =>
    obtain ⟨more, journal, deletes⟩ := finished.journal
    rw [journal] at member
    rcases List.mem_append.mp member with old | new
    · exact Or.inl old
    · obtain ⟨x, same⟩ := deletes _ new
      cases same
  | runAdd phase next here number owned added =>
    rw [added.journal] at member
    exact Or.inl (by simpa using member)
  | newTimer _ | pushAdd _ | pushCancel | fire _ | callbackReturns _ | swapFunctors _ _
  | endFunctors _ _ => exact Or.inl member

theorem returned_step (sound : Sound s) (ordered : Ordered s) (taken : step s l = some t) :
    ∀ made id, .returned made id ∈ t.queue.journal → Names t.queue id made ∧ Requested t made := by
  intro made id member
  rcases returned_cases sound taken member with old | ⟨stale, rfl, waits, rfl⟩ | ⟨rfl, inserted⟩
  · obtain ⟨names, requested⟩ := ordered.returned made id old
    exact ⟨names_step sound taken names, requested_step sound taken requested⟩
  · obtain ⟨number, requested⟩ := ordered.pushed made waits
    exact ⟨names_step sound taken (names_sequenceAt number), requested_step sound taken requested⟩
  · exact ⟨Or.inl rfl, Or.inl inserted⟩

theorem queued_step (sound : Sound s) (ordered : Ordered s) (taken : step s l = some t) :
    ∀ id known, .cancelInLoop id known ∈ t.functors.waiting → ∀ made ∈ known,
      Names t.queue id made ∧ (.inserted made ∈ t.queue.journal ∨
        Precedes (· = .addTimerInLoop made) (.cancelInLoop id known) t.functors.waiting) := by
  intro id known waits made member
  have kept : .cancelInLoop id known ∈ s.functors.waiting →
      Names t.queue id made ∧ (.inserted made ∈ t.queue.journal ∨
        Precedes (· = .addTimerInLoop made) (.cancelInLoop id known) s.functors.waiting) := by
    intro old
    obtain ⟨names, order⟩ := ordered.queued id known old made member
    exact ⟨names_step sound taken names, order.imp_left (journal_grows sound taken)⟩
  cases moved sound taken with
  | kept same =>
    rw [same] at waits ⊢
    exact kept waits
  | pushedAdd made' pushed =>
    rw [pushed] at waits ⊢
    obtain ⟨names, order⟩ := kept (by simpa using waits)
    exact ⟨names, order.imp_right fun order => precedes_append order (by simp)⟩
  | pushedCancel id' pushed =>
    -- The ids that count have been returned, so their adds are in the queue or done.
    have fresh : Functor.cancelInLoop id known ∈ [.cancelInLoop id' (s.queue.returnedBy id')] →
        Names s.queue id made ∧ Requested s made := by
      intro new
      simp only [List.mem_singleton, Functor.cancelInLoop.injEq] at new
      obtain ⟨rfl, rfl⟩ := new
      exact ordered.returned made id (mem_returnedBy.mp member)
    have names : Names t.queue id made := by
      rw [pushed] at waits
      rcases List.mem_append.mp waits with old | new
      · exact (kept old).1
      · exact names_step sound taken (fresh new).1
    refine ⟨names, ?_⟩
    by_cases inserted : .inserted made ∈ t.queue.journal
    · exact Or.inl inserted
    · right
      rw [pushed]
      apply precedes_append
      · by_cases old : .cancelInLoop id known ∈ s.functors.waiting
        · exact ((kept old).2).resolve_left inserted
        · intro before after split
          exact absurd (by rw [split]; simp) old
      · intro new
        refine ⟨_, ((fresh new).2).resolve_left ?_, rfl⟩
        intro early
        exact inserted (journal_grows sound taken early)
  | ranAdd made' popped inserted =>
    obtain ⟨names, order⟩ := kept (popped ▸ List.mem_cons_of_mem _ waits)
    refine ⟨names, ?_⟩
    by_cases same : made' = made
    · subst same
      exact Or.inl inserted
    · rw [popped] at order
      refine order.imp_right fun order => precedes_tail order ?_
      simpa using same
  | ranCancel id' known' popped =>
    obtain ⟨names, order⟩ := kept (popped ▸ List.mem_cons_of_mem _ waits)
    rw [popped] at order
    exact ⟨names, order.imp_right fun order => precedes_tail order (by simp)⟩

/-- The loop thread does not cancel a Timer whose addTimerInLoop is still queued. -/
def CancelsNoneQueued (s : State) (l : Label) : Prop :=
  ∀ id ∈ l.cancels, .addTimerInLoop id ∉ s.functors.waiting

instance (s : State) (l : Label) : Decidable (CancelsNoneQueued s l) :=
  inferInstanceAs (Decidable (∀ id ∈ l.cancels, .addTimerInLoop id ∉ s.functors.waiting))

theorem executed_step (sound : Sound s) (ordered : Ordered s) (allowed : CancelsNoneQueued s l)
    (taken : step s l = some t) :
    ∀ id known, .cancelled id known ∈ t.queue.journal → ∀ made ∈ known, Doomed t made := by
  intro id known member made listed
  have kept : .cancelled id known ∈ s.queue.journal → Doomed t made := by
    intro old
    exact doomed_step sound taken (ordered.executed id known old made listed)
  cases wrote sound taken with
  | plain more journal unstarted uncancelled =>
    rw [journal] at member
    rcases List.mem_append.mp member with old | new
    · exact kept old
    · exact absurd new (uncancelled id known)
  | started x left journal =>
    rw [journal] at member
    exact kept (by simpa using member)
  | cancelled id' known' more journal deletes same caller doomed =>
    rw [journal] at member
    simp only [List.mem_append, List.mem_singleton] at member
    rcases member with (old | deleted) | new
    · exact kept old
    · cases deletes _ deleted
    · cases new
      have answer : Names s.queue id made ∧ (made = id → .inserted made ∈ s.queue.journal) := by
        rcases caller with ⟨rfl, rfl⟩ | ⟨-, functors, next⟩
        · obtain ⟨names, requested⟩ := ordered.returned made id (mem_returnedBy.mp listed)
          refine ⟨names, ?_⟩
          rintro rfl
          exact requested.resolve_right (allowed made rfl)
        · have head := Batch.waiting_next next
          obtain ⟨names, order⟩ := ordered.queued id known (by rw [head]; simp) made listed
          refine ⟨names, fun _ => order.resolve_right ?_⟩
          intro order
          obtain ⟨x, nothing, -⟩ := order [] _ head
          cases nothing
      rcases answer with ⟨rfl | dead, inserted⟩
      · exact doomed (inserted rfl)
      · exact Or.inl (dead_step sound taken dead)

theorem ordered_step (sound : Sound s) (ordered : Ordered s) (allowed : CancelsNoneQueued s l)
    (taken : step s l = some t) : Ordered t :=
  ⟨pushed_step sound ordered taken, returned_step sound ordered taken,
    queued_step sound ordered taken, executed_step sound ordered allowed taken⟩

theorem ordered_init : Ordered init where
  pushed made member := by cases member
  returned made id member := by cases member
  queued id known member := by cases member
  executed id known member := by cases member

theorem not_inTimers_of_doomed (sound : Sound s) (doomed : Doomed s id) : ¬InTimers s.queue id := by
  intro inTimers
  have active := (inTimers_iff sound.owned).mp inTimers
  rcases doomed with dead | ⟨-, batch⟩
  · exact dead.1 (sound.owned.active id active)
  · have loose := ((inBatch_iff sound).mp batch).2
    exact sound.owned.not_loose active (List.mem_append_left _ loose)

/-- In every run in which the loop thread cancels no Timer that is still queued: once a
    cancel(id) that was called after addTimer had returned id has been executed, the
    Timer is not in timers_ and does not come back. -/
theorem cancel_is_not_overtaken {ls : List Label} (ran : machine.run init ls = some s)
    (within : machine.Within CancelsNoneQueued init ls)
    (cancelled : .cancelled id known ∈ s.queue.journal) (after : made ∈ known) :
    ¬InTimers s.queue made := by
  have invariant : Sound s ∧ Ordered s :=
    machine.within_invariant CancelsNoneQueued (fun s => Sound s ∧ Ordered s)
      (fun _ _ _ inv allowed taken =>
        ⟨sound_step inv.1 taken, ordered_step inv.1 inv.2 allowed taken⟩)
      ⟨sound_init, ordered_init⟩ within ran
  exact not_inTimers_of_doomed invariant.1 (invariant.2.executed id known cancelled made after)

def queuedCancelRun : List Label :=
  [.newTimer 1000 50 everySeven, .pushAdd ⟨1000, 1⟩, .addReturns ⟨1000, 1⟩ 0,
    .pushCancel ⟨1000, 1⟩, .swapFunctors, .runFunctor 7, .runFunctor 8, .endFunctors]

theorem cancel_is_not_overtaken_in_queuedCancelRun :
    ∃ s, machine.run init queuedCancelRun = some s ∧
      s.queue.journal = [.returned ⟨1000, 1⟩ ⟨1000, 1⟩, .inserted ⟨1000, 1⟩, .deleted ⟨1000, 1⟩,
        .cancelled ⟨1000, 1⟩ [⟨1000, 1⟩]] ∧
      ¬InTimers s.queue ⟨1000, 1⟩ := by
  have outcome : (machine.run init queuedCancelRun).map (fun s => s.queue.journal) =
      some [.returned ⟨1000, 1⟩ ⟨1000, 1⟩, .inserted ⟨1000, 1⟩, .deleted ⟨1000, 1⟩,
        .cancelled ⟨1000, 1⟩ [⟨1000, 1⟩]] := by decide +kernel
  have within : machine.checkWithin CancelsNoneQueued init queuedCancelRun = true := by
    decide +kernel
  obtain ⟨s, reached, journal⟩ := Option.map_eq_some_iff.mp outcome
  refine ⟨s, reached, journal, ?_⟩
  have cancelled : .cancelled ⟨1000, 1⟩ [⟨1000, 1⟩] ∈ s.queue.journal := by simp [journal]
  exact cancel_is_not_overtaken reached (machine.within_of_check within) cancelled (by simp)

def hastyCancelRun : List Label :=
  [.newTimer 1000 50 everySeven, .pushAdd ⟨1000, 1⟩, .addReturns ⟨1000, 1⟩ 0,
    .cancel ⟨1000, 1⟩, .swapFunctors, .runFunctor 7, .endFunctors]

theorem cancel_is_overtaken :
    ∃ s, machine.run init hastyCancelRun = some s ∧
      s.queue.journal = [.returned ⟨1000, 1⟩ ⟨1000, 1⟩, .cancelled ⟨1000, 1⟩ [⟨1000, 1⟩],
        .inserted ⟨1000, 1⟩] ∧
      InTimers s.queue ⟨1000, 1⟩ := by
  have outcome : (machine.run init hastyCancelRun).map
      (fun s => (s.queue.journal, decide (⟨1000, 1⟩ ∈ s.queue.activeTimers_))) =
      some ([.returned ⟨1000, 1⟩ ⟨1000, 1⟩, .cancelled ⟨1000, 1⟩ [⟨1000, 1⟩],
        .inserted ⟨1000, 1⟩], true) := by decide +kernel
  obtain ⟨s, reached, facts⟩ := Option.map_eq_some_iff.mp outcome
  simp only [Prod.mk.injEq, decide_eq_true_eq] at facts
  exact ⟨s, reached, facts.1, (inTimers_iff (sound_run reached).owned).mpr facts.2⟩

end TimerQueue
end Muduo
