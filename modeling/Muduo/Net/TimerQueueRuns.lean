import Muduo.Net.TimerQueueSpec

/-!
Runs of the timer queue. From a sound state every step passes the assertions and
deletes no Timer that is still in use; `Stepped` says what it leaves. Sound states
are kept, so that every Timer ever inserted is in the sets, in the batch of
handleRead, or deleted once.
-/
namespace Muduo
open Lib
namespace TimerQueue
variable {id : TimerId}

def batchOf (s : State) : List Nat := s.calling.elim [] fun c => addresses c.expired

def Functor.adds : Functor → Option TimerId
  | .addTimerInLoop made => some made
  | .cancelInLoop _ _ => none

def freshOf (s : State) : List TimerId := s.functors.waiting.filterMap Functor.adds ++ s.created

structure Sound (s : State) : Prop where
  running : s.fault = none
  owned : Owned s.queue (batchOf s) ((freshOf s).map TimerId.timer_)
  due : ∀ c, s.calling = some c → ∀ d ∈ c.expired, s.queue.Live d.id
  left : ∀ c, s.calling = some c → ∀ d ∈ c.left, d ∈ c.expired
  calling : s.queue.callingExpiredTimers_ = s.calling.isSome
  outside : s.callingPendingFunctors = true → s.calling = none
  emptied : s.callingPendingFunctors = false → s.functors.batch = []
  fresh : ∀ made ∈ freshOf s, s.queue.Live made

variable {s t : State} {l : Label} {q : TimerQueue}

inductive Stepped (s : State) : Label → State → Prop where
  | newTimer {a : Nat} {when_ : Int} {interval : Interval} (free : s.queue.Free a) :
      Stepped s (.newTimer a when_ interval)
        { s with
          queue := s.queue.create a when_ interval, created := s.queue.nextId a :: s.created }
  | pushAdd {made : TimerId} (member : made ∈ s.created) :
      Stepped s (.pushAdd made)
        { s with
          functors := s.functors.push (.addTimerInLoop made)
          created := s.created.erase made, pushed := made :: s.pushed }
  | addReturns {made : TimerId} {stale : Int} (member : made ∈ s.pushed) :
      Stepped s (.addReturns made stale)
        { s with
          queue :=
            s.queue.note (.returned made ⟨made.timer_, s.queue.sequenceAt made.timer_ stale⟩)
          pushed := s.pushed.erase made }
  | pushCancel {id : TimerId} :
      Stepped s (.pushCancel id)
        { s with functors := s.functors.push (.cancelInLoop id (s.queue.returnedBy id)) }
  | addTimer {a : Nat} {when_ : Int} {interval : Interval} {clock : Int} {q : TimerQueue}
      (free : s.queue.Free a) (owned : Owned q (batchOf s) ((freshOf s).map TimerId.timer_))
      (added : Added (s.queue.create a when_ interval) a
        (Timer.new when_ interval (s.queue.numCreated + 1)) clock q) :
      Stepped s (.addTimer a when_ interval clock)
        { s with queue := q.note (.returned (s.queue.nextId a) (s.queue.nextId a)) }
  | cancel {id : TimerId} {q : TimerQueue}
      (owned : Owned q (batchOf s) ((freshOf s).map TimerId.timer_))
      (cancelled : Cancelled s.queue id (s.queue.returnedBy id) q) :
      Stepped s (.cancel id) { s with queue := q }
  | fire {alarm : Alarm} (armed : s.queue.alarm = some alarm) :
      Stepped s .fire
        { s with queue := { s.queue with alarm := some { alarm with fired := true } } }
  | handleRead {now : Int} {q : TimerQueue} {ds : List Due} (idle : s.calling = none)
      (events : s.callingPendingFunctors = false)
      (owned : Owned q (addresses ds) ((freshOf s).map TimerId.timer_))
      (taken : Taken s.queue now q ds) :
      Stepped s (.handleRead now) { s with queue := q, calling := some ⟨now, ds, ds, false⟩ }
  | run {now : Int} {expired left : List Due} {d : Due}
      (calling : s.calling = some ⟨now, expired, d :: left, false⟩) :
      Stepped s .run
        { s with
          queue := s.queue.note (.started d.id), calling := some ⟨now, expired, left, true⟩ }
  | callbackReturns {now : Int} {expired left : List Due}
      (calling : s.calling = some ⟨now, expired, left, true⟩) :
      Stepped s .callbackReturns { s with calling := some ⟨now, expired, left, false⟩ }
  | endHandleRead {now clock : Int} {expired : List Due} {q : TimerQueue}
      (calling : s.calling = some ⟨now, expired, [], false⟩)
      (owned : Owned q [] ((freshOf s).map TimerId.timer_))
      (finished : Finished s.queue expired now clock q) :
      Stepped s (.endHandleRead clock) { s with queue := q, calling := none }
  | swapFunctors (idle : s.calling = none) (events : s.callingPendingFunctors = false) :
      Stepped s .swapFunctors
        { s with functors := s.functors.swap, callingPendingFunctors := true }
  | runAdd {clock : Int} {made : TimerId} {functors : Batch Functor} {t : Timer} {q : TimerQueue}
      (phase : s.callingPendingFunctors = true)
      (next : s.functors.next = some (.addTimerInLoop made, functors))
      (here : s.queue.heap made.timer_ = some t) (number : t.sequence_ = made.sequence_)
      (owned : Owned q (batchOf s)
        ((functors.waiting.filterMap Functor.adds ++ s.created).map TimerId.timer_))
      (added : Added s.queue made.timer_ t clock q) :
      Stepped s (.runFunctor clock) { s with queue := q, functors := functors }
  | runCancel {clock : Int} {id : TimerId} {known : List TimerId} {functors : Batch Functor}
      {q : TimerQueue} (phase : s.callingPendingFunctors = true)
      (next : s.functors.next = some (.cancelInLoop id known, functors))
      (owned : Owned q (batchOf s) ((freshOf s).map TimerId.timer_))
      (cancelled : Cancelled s.queue id known q) :
      Stepped s (.runFunctor clock) { s with queue := q, functors := functors }
  | endFunctors (phase : s.callingPendingFunctors = true) (done : s.functors.batch = []) :
      Stepped s .endFunctors { s with callingPendingFunctors := false }

theorem freshOf_next {f : Functor} {functors : Batch Functor}
    (next : s.functors.next = some (f, functors)) :
    freshOf s = (f.adds.toList ++ functors.waiting.filterMap Functor.adds) ++ s.created := by
  simp only [freshOf, Batch.waiting_next next, List.filterMap_cons]
  cases f.adds with
  | none => rfl
  | some made => rfl

theorem stepped (sound : Sound s) (taken : step s l = some t) : Stepped s l t := by
  obtain ⟨-, result, acted, rfl⟩ := faults.performed_of_step taken
  cases l with
  | newTimer a when_ interval =>
    simp only [act, Option.ite_none_right_eq_some, Option.some.injEq] at acted
    obtain ⟨free, rfl⟩ := acted
    exact .newTimer free
  | pushAdd made =>
    simp only [act, Option.ite_none_right_eq_some, Option.some.injEq] at acted
    obtain ⟨member, rfl⟩ := acted
    exact .pushAdd member
  | addReturns made stale =>
    simp only [act, Option.ite_none_right_eq_some, Option.some.injEq] at acted
    obtain ⟨member, rfl⟩ := acted
    exact .addReturns member
  | pushCancel id =>
    simp only [act, Option.some.injEq] at acted
    subst acted
    exact .pushCancel
  | addTimer a when_ interval clock =>
    simp only [act, Option.ite_none_right_eq_some, Option.some.injEq] at acted
    obtain ⟨⟨-, free⟩, rfl⟩ := acted
    have here : (s.queue.create a when_ interval).heap a =
        some (Timer.new when_ interval (s.queue.numCreated + 1)) := Function.update_self _ _ _
    obtain ⟨q, runs, owned, added⟩ := addTimerInLoop_spec clock (sound.owned.create free) here
    have read : q.deref a = .ok (Timer.new when_ interval (s.queue.numCreated + 1)) :=
      deref_live (added.heap ▸ here)
    simp only [runs, ok_bind, read, pure_eq_ok]
    exact .addTimer free owned added
  | cancel id =>
    simp only [act, Option.ite_none_right_eq_some, Option.some.injEq] at acted
    obtain ⟨-, rfl⟩ := acted
    obtain ⟨q, runs, owned, cancelled⟩ :=
      cancelInLoop_spec id (s.queue.returnedBy id) sound.owned
    simp only [runs, ok_bind, pure_eq_ok]
    exact .cancel owned cancelled
  | fire =>
    simp only [act] at acted
    split at acted
    case h_1 alarm armed =>
      cases acted
      exact .fire armed
    case h_2 => cases acted
  | handleRead now =>
    simp only [act, Option.ite_none_right_eq_some, Option.some.injEq] at acted
    obtain ⟨⟨idle, events⟩, rfl⟩ := acted
    have owned := sound.owned
    simp only [batchOf, idle, Option.elim_none] at owned
    obtain ⟨q, ds, runs, after, taken⟩ := takeExpired_spec now owned
    simp only [runs, ok_bind, pure_eq_ok]
    exact .handleRead idle events after taken
  | run =>
    simp only [act] at acted
    split at acted
    case h_1 now expired d left calling =>
      cases acted
      have member := sound.left _ calling d List.mem_cons_self
      obtain ⟨t, here, number⟩ := sound.due _ calling d member
      have name : (⟨d.entry.timer, t.sequence_⟩ : TimerId) = d.id := by
        rw [number]
        rfl
      have runs : s.queue.run d = .ok (s.queue.note (.started d.id)) := by
        have here : s.queue.heap d.entry.timer = some t := here
        simp [run, deref_live here, name]
      simp only [runs, ok_bind, pure_eq_ok]
      exact .run calling
    case h_2 => cases acted
  | callbackReturns =>
    simp only [act] at acted
    split at acted
    case h_1 now expired left calling =>
      cases acted
      exact .callbackReturns calling
    case h_2 => cases acted
  | endHandleRead clock =>
    simp only [act] at acted
    split at acted
    case h_1 now expired calling =>
      cases acted
      have owned := sound.owned
      simp only [batchOf, calling, Option.elim_some] at owned
      obtain ⟨q, runs, after, finished⟩ :=
        finishExpired_spec now clock owned (sound.due _ calling)
      simp only [runs, ok_bind, pure_eq_ok]
      exact .endHandleRead calling after finished
    case h_2 => cases acted
  | swapFunctors =>
    simp only [act, Option.ite_none_right_eq_some, Option.some.injEq] at acted
    obtain ⟨⟨idle, events⟩, rfl⟩ := acted
    exact .swapFunctors idle events
  | runFunctor clock =>
    simp only [act, Option.ite_none_right_eq_some] at acted
    obtain ⟨phase, acted⟩ := acted
    split at acted
    case h_1 f functors next =>
      cases acted
      cases f with
      | addTimerInLoop made =>
        obtain ⟨t, here, number⟩ := sound.fresh made (by
          rw [freshOf_next next]
          simp [Functor.adds])
        have owned := sound.owned
        rw [freshOf_next next] at owned
        obtain ⟨q, runs, after, added⟩ := addTimerInLoop_spec clock owned here
        simp only [runFunctor, runs, ok_bind, pure_eq_ok]
        exact .runAdd phase next here number after added
      | cancelInLoop id known =>
        obtain ⟨q, runs, after, cancelled⟩ := cancelInLoop_spec id known sound.owned
        simp only [runFunctor, runs, ok_bind, pure_eq_ok]
        exact .runCancel phase next after cancelled
    case h_2 => cases acted
  | endFunctors =>
    simp only [act, Option.ite_none_right_eq_some, Option.some.injEq] at acted
    obtain ⟨⟨phase, done⟩, rfl⟩ := acted
    exact .endFunctors phase done

theorem live_of_cancelled {x : TimerId} {known : List TimerId}
    (cancelled : Cancelled s.queue id known q) (live : q.Live x) : s.queue.Live x := by
  cases cancelled with
  | removed was timers =>
    by_cases place : x.timer_ = id.timer_
    · obtain ⟨u, there, -⟩ := live
      simp [place] at there
    · exact (live_update place).mp live
  | noted absent calling => exact live
  | ignored absent idle => exact live

theorem live_of_loose {q q' : TimerQueue} {batch fresh : List Nat} (owned : Owned q' batch fresh)
    (back : ∀ x, q'.Live x → q.Live x) (loose : id.timer_ ∈ batch ++ fresh) (live : q.Live id) :
    q'.Live id := by
  obtain ⟨u, there, -⟩ := owned.apart _ loose
  obtain ⟨v, here, number⟩ := live
  obtain ⟨w, here', number'⟩ := back ⟨id.timer_, u.sequence_⟩ ⟨u, there, rfl⟩
  have same : v = w := Option.some.inj (here.symm.trans here')
  refine ⟨u, there, ?_⟩
  rw [← number, same]
  exact number'.symm

theorem live_create {a : Nat} {when_ : Int} {interval : Interval} (free : q.Free a) :
    (q.create a when_ interval).Live id ↔ id = q.nextId a ∨ q.Live id := by
  by_cases place : id.timer_ = a
  · have dead : ¬q.Live id := by
      rintro ⟨t, here, -⟩
      rw [place, free.1] at here
      cases here
    have here : (q.create a when_ interval).heap id.timer_ =
        some (Timer.new when_ interval (q.numCreated + 1)) := by
      rw [place]
      exact Function.update_self _ _ _
    rw [live_iff here]
    simp only [dead, or_false]
    obtain ⟨timer, sequence⟩ := id
    have place : timer = a := place
    simp only [nextId, TimerId.mk.injEq, place, true_and]
    exact eq_comm
  · have other : id ≠ q.nextId a := by
      rintro rfl
      exact place rfl
    simp only [other, false_or]
    exact live_update place

theorem mem_batchOf {c : Calling} {d : Due} (calling : s.calling = some c)
    (member : d ∈ c.expired) : d.id.timer_ ∈ batchOf s := by
  simp only [batchOf, calling, Option.elim_some]
  exact List.mem_map_of_mem (List.mem_map_of_mem member)

theorem sound_of_queue (sound : Sound s)
    (owned : Owned q (batchOf s) ((freshOf s).map TimerId.timer_))
    (calling : q.callingExpiredTimers_ = s.queue.callingExpiredTimers_)
    (back : ∀ x, q.Live x → s.queue.Live x) : Sound { s with queue := q } where
  running := sound.running
  owned := owned
  due c here d member := by
    refine live_of_loose owned back ?_ (sound.due c here d member)
    exact List.mem_append_left _ (mem_batchOf here member)
  left := sound.left
  calling := calling.trans sound.calling
  outside := sound.outside
  emptied := sound.emptied
  fresh made member := by
    refine live_of_loose owned back ?_ (sound.fresh made member)
    exact List.mem_append_right _ (List.mem_map_of_mem member)

theorem sound_note {m : Moment} (sound : Sound s)
    (plain : ∀ id, m ≠ .inserted id ∧ m ≠ .deleted id) :
    Sound { s with queue := s.queue.note m } :=
  sound_of_queue sound (sound.owned.note plain) rfl fun _ live => live

theorem sound_progress {c c' : Calling} (sound : Sound s) (calling : s.calling = some c)
    (batch : c'.expired = c.expired) (fewer : ∀ d ∈ c'.left, d ∈ c.left) :
    Sound { s with calling := some c' } where
  running := sound.running
  owned := by
    have owned := sound.owned
    simp only [batchOf, calling, Option.elim_some, ← batch] at owned ⊢
    exact owned
  due := by
    rintro c ⟨⟩ d member
    exact sound.due _ calling d (batch ▸ member)
  left := by
    rintro c ⟨⟩ d member
    rw [batch]
    exact sound.left _ calling d (fewer d member)
  calling := by
    have flag := sound.calling
    rw [calling] at flag
    exact flag
  outside phase := by
    have none := sound.outside phase
    rw [calling] at none
    cases none
  emptied := sound.emptied
  fresh := sound.fresh

theorem sound_functors {functors : Batch Functor} (sound : Sound s)
    (same : freshOf { s with functors := functors } = freshOf s)
    (emptied : s.callingPendingFunctors = false → functors.batch = []) :
    Sound { s with functors := functors } where
  running := sound.running
  owned := by
    rw [same]
    exact sound.owned
  due := sound.due
  left := sound.left
  calling := sound.calling
  outside := sound.outside
  emptied := emptied
  fresh := by
    rw [same]
    exact sound.fresh

theorem cancelled_calling {known : List TimerId} (cancelled : Cancelled s.queue id known q) :
    q.callingExpiredTimers_ = s.queue.callingExpiredTimers_ := by
  cases cancelled with
  | removed was timers => rfl
  | noted absent calling => rfl
  | ignored absent idle => rfl

theorem sound_addTimer {a : Nat} {when_ : Int} {interval : Interval} {clock : Int}
    (sound : Sound s) (free : s.queue.Free a)
    (owned : Owned q (batchOf s) ((freshOf s).map TimerId.timer_))
    (added : Added (s.queue.create a when_ interval) a
      (Timer.new when_ interval (s.queue.numCreated + 1)) clock q) :
    Sound { s with queue := q } := by
  have live : ∀ x, s.queue.Live x → q.Live x := by
    intro x was
    rw [live_of_same added.heap, live_create free]
    exact Or.inr was
  exact
    { running := sound.running
      owned := owned
      due := fun c calling d member => live _ (sound.due c calling d member)
      left := sound.left
      calling := added.calling.trans sound.calling
      outside := sound.outside
      emptied := sound.emptied
      fresh := fun made member => live _ (sound.fresh made member) }

theorem sound_step (sound : Sound s) (taken : step s l = some t) : Sound t := by
  cases stepped sound taken with
  | @newTimer a when_ interval free =>
    have live : ∀ x, s.queue.Live x → (s.queue.create a when_ interval).Live x := by
      intro x was
      exact (live_create free).mpr (Or.inr was)
    refine ⟨sound.running, ?_, ?_, sound.left, sound.calling, sound.outside, sound.emptied, ?_⟩
    · refine (sound.owned.create free).perm (List.Perm.refl _) ?_
      simp only [freshOf, List.map_append, List.map_cons]
      exact List.perm_middle.symm
    · intro c calling d member
      exact live _ (sound.due c calling d member)
    · intro made member
      simp only [freshOf, List.mem_append, List.mem_cons] at member
      rcases member with queued | rfl | old
      · exact live _ (sound.fresh made (List.mem_append_left _ queued))
      · exact (live_create free).mpr (Or.inl rfl)
      · exact live _ (sound.fresh made (List.mem_append_right _ old))
  | @pushAdd made member =>
    have moved : (freshOf s).Perm (freshOf { s with
        functors := s.functors.push (.addTimerInLoop made)
        created := s.created.erase made, pushed := made :: s.pushed }) := by
      simp only [freshOf, Batch.waiting_push, List.filterMap_append, List.append_assoc]
      exact (List.perm_cons_erase member).append_left _
    refine ⟨sound.running, ?_, sound.due, sound.left, sound.calling, sound.outside, ?_, ?_⟩
    · exact sound.owned.perm (List.Perm.refl _) (moved.map _)
    · intro events
      exact sound.emptied events
    · intro x member
      exact sound.fresh x (moved.mem_iff.mpr member)
  | @addReturns made stale member =>
    have noted := sound_note
      (m := .returned made ⟨made.timer_, s.queue.sequenceAt made.timer_ stale⟩) sound
      fun id => ⟨by simp, by simp⟩
    exact ⟨noted.running, noted.owned, noted.due, noted.left, noted.calling, noted.outside,
      noted.emptied, noted.fresh⟩
  | pushCancel =>
    exact sound_functors sound (by simp [freshOf, Functor.adds]) sound.emptied
  | addTimer free owned added =>
    exact sound_note (sound_addTimer sound free owned added) fun id => ⟨by simp, by simp⟩
  | cancel owned cancelled =>
    exact sound_of_queue sound owned (cancelled_calling cancelled)
      fun x => live_of_cancelled cancelled
  | fire armed =>
    exact sound_of_queue sound (sound.owned.of_same rfl rfl rfl rfl rfl) rfl fun _ live => live
  | handleRead idle events owned expired =>
    refine ⟨sound.running, owned, ?_, ?_, expired.calling, ?_, sound.emptied, ?_⟩
    · rintro c ⟨⟩ d member
      exact expired.live d member
    · rintro c ⟨⟩ d member
      exact member
    · intro phase
      rw [events] at phase
      cases phase
    · intro made member
      rw [live_of_same expired.heap]
      exact sound.fresh made member
  | @run now expired left d calling =>
    have noted := sound_note (m := .started d.id) sound fun id => ⟨by simp, by simp⟩
    exact sound_progress noted calling rfl fun _ => List.mem_cons_of_mem d
  | callbackReturns calling => exact sound_progress sound calling rfl fun _ member => member
  | endHandleRead calling owned finished =>
    refine ⟨sound.running, owned, ?_, ?_, finished.calling, fun _ => rfl, sound.emptied, ?_⟩
    · intro c none
      cases none
    · intro c none
      cases none
    intro made member
    refine live_of_loose owned finished.live ?_ (sound.fresh made member)
    exact List.mem_map_of_mem member
  | swapFunctors idle events =>
    have same : freshOf { s with functors := s.functors.swap, callingPendingFunctors := true } =
        freshOf s := by
      simp only [freshOf, Batch.waiting_swap (sound.emptied events)]
    refine ⟨sound.running, ?_, sound.due, sound.left, sound.calling, fun _ => idle, ?_, ?_⟩
    · rw [same]
      exact sound.owned
    · intro events
      cases events
    · rw [same]
      exact sound.fresh
  | runAdd phase next here number owned added =>
    refine ⟨sound.running, owned, ?_, sound.left, added.calling.trans sound.calling, sound.outside,
      ?_, ?_⟩
    · intro c calling
      rw [sound.outside phase] at calling
      cases calling
    · intro events
      rw [phase] at events
      cases events
    · intro x member
      rw [live_of_same added.heap]
      apply sound.fresh
      rw [freshOf_next next]
      simp only [freshOf, List.mem_append] at member ⊢
      exact member.imp_left Or.inr
  | runCancel phase next owned cancelled =>
    have after := sound_of_queue sound owned (cancelled_calling cancelled)
      fun x => live_of_cancelled cancelled
    refine sound_functors after (freshOf_next next).symm ?_
    intro events
    cases phase.symm.trans events
  | endFunctors phase done =>
    refine ⟨sound.running, sound.owned, sound.due, sound.left, sound.calling, ?_, fun _ => done,
      sound.fresh⟩
    intro phase
    cases phase

theorem owned_init : Owned init.queue [] [] where
  entries e := by
    constructor
    · intro member
      exact absurd member (OrderedSet.not_mem_empty e)
    · rintro ⟨t, here, -⟩
      cases here
  active id member := absurd member (OrderedSet.not_mem_empty id)
  sizes := rfl
  addressed a t here := by cases here
  distinct := List.nodup_nil
  apart a loose := by cases loose
  gone id deleted := by cases deleted
  once id := Nat.zero_le _
  held id inserted := by cases inserted

theorem sound_init : Sound init where
  running := rfl
  owned := owned_init
  due c here := by cases here
  left c here := by cases here
  calling := rfl
  outside phase := by cases phase
  emptied _ := rfl
  fresh made member := by cases member

theorem sound_run {ls : List Label} (ran : machine.run init ls = some s) : Sound s :=
  machine.run_invariant (fun _ _ _ => sound_step) sound_init ran

/-- The Timer is in timers_, under its own expiration. -/
def InTimers (q : TimerQueue) (id : TimerId) : Prop :=
  ∃ t, q.heap id.timer_ = some t ∧ t.sequence_ = id.sequence_ ∧
    ⟨t.expiration_, id.timer_⟩ ∈ q.timers_

def InBatch (s : State) (id : TimerId) : Prop := ∃ c, s.calling = some c ∧ id ∈ c.expired.map Due.id

def ExactlyOne (p q r : Prop) : Prop := p ∧ ¬q ∧ ¬r ∨ ¬p ∧ q ∧ ¬r ∨ ¬p ∧ ¬q ∧ r

theorem inTimers_iff {batch fresh : List Nat} (owned : Owned q batch fresh) :
    InTimers q id ↔ id ∈ q.activeTimers_ := by
  constructor
  · rintro ⟨t, here, number, member⟩
    obtain ⟨u, there, -, active⟩ := owned.live_of_entry member
    obtain rfl : t = u := Option.some.inj (here.symm.trans there)
    rw [number] at active
    exact active
  · intro active
    exact owned.entry_of_active active

theorem inBatch_iff (sound : Sound s) :
    InBatch s id ↔ s.queue.Live id ∧ id.timer_ ∈ batchOf s := by
  constructor
  · rintro ⟨c, calling, member⟩
    obtain ⟨d, listed, rfl⟩ := List.mem_map.mp member
    exact ⟨sound.due c calling d listed, mem_batchOf calling listed⟩
  · rintro ⟨live, member⟩
    cases calling : s.calling with
    | none =>
      simp only [batchOf, calling, Option.elim_none] at member
      cases member
    | some c =>
      simp only [batchOf, calling, Option.elim_some, addresses] at member
      obtain ⟨e, entry, place⟩ := List.mem_map.mp member
      obtain ⟨d, listed, rfl⟩ := List.mem_map.mp entry
      have same : d.id = id := live_unique (sound.due c calling d listed) live place
      exact ⟨c, calling, List.mem_map.mpr ⟨d, listed, same⟩⟩

theorem one_place (sound : Sound s) (inserted : .inserted id ∈ s.queue.journal) :
    ExactlyOne (InTimers s.queue id) (InBatch s id) (.deleted id ∈ s.queue.journal) := by
  have owned := sound.owned
  rw [inTimers_iff owned, inBatch_iff sound]
  have apart : id ∈ s.queue.activeTimers_ → id.timer_ ∉ batchOf s := by
    intro active loose
    exact owned.not_loose active (List.mem_append_left _ loose)
  have alive : .deleted id ∈ s.queue.journal → ¬s.queue.Live id := by
    intro deleted
    exact (owned.gone id deleted).1
  rcases owned.held id inserted with deleted | ⟨live, active | loose⟩
  · have dead := alive deleted
    exact Or.inr (Or.inr ⟨fun active => dead (owned.active id active), fun both => dead both.1,
      deleted⟩)
  · exact Or.inl ⟨active, fun both => apart active both.2, fun deleted => alive deleted live⟩
  · exact Or.inr (Or.inl ⟨fun active => apart active loose, ⟨live, loose⟩,
      fun deleted => alive deleted live⟩)

/-- In every run no assertion fails and no deleted Timer is touched; the two sets hold
    the same Timers; a Timer that was ever inserted is in exactly one place and is
    deleted at most once; and the Timers at the addresses of the batch are the ones
    that were taken into it. -/
theorem timers_have_one_owner {ls : List Label} (ran : machine.run init ls = some s) :
    s.fault = none ∧
    (∀ e, e ∈ s.queue.timers_ ↔
      ∃ t, s.queue.heap e.timer = some t ∧ ⟨e.timer, t.sequence_⟩ ∈ s.queue.activeTimers_ ∧
        e.when_ = t.expiration_) ∧
    (∀ id, .inserted id ∈ s.queue.journal →
      ExactlyOne (InTimers s.queue id) (InBatch s id) (.deleted id ∈ s.queue.journal)) ∧
    (∀ id, s.queue.journal.count (.deleted id) ≤ 1) ∧
    ∀ c, s.calling = some c → ∀ d ∈ c.expired, s.queue.Live d.id := by
  have sound := sound_run ran
  refine ⟨sound.running, ?_, fun id => one_place sound, sound.owned.once, sound.due⟩
  intro e
  rw [sound.owned.entries]
  constructor
  · rintro ⟨t, here, same, active⟩
    exact ⟨t, here, active, same.symm⟩
  · rintro ⟨t, here, active, same⟩
    exact ⟨t, here, same.symm, active⟩

def once : Interval := ⟨0, false, by decide⟩

def everySeven : Interval := ⟨7, true, by decide⟩

def busyRun : List Label :=
  [.addTimer 1000 10 everySeven 1, .addTimer 2000 11 once 2, .newTimer 3000 90 once,
    .pushAdd ⟨3000, 3⟩, .fire, .handleRead 20, .run, .cancel ⟨2000, 2⟩, .callbackReturns, .run,
    .addTimer 4000 (-5) once 22, .callbackReturns, .endHandleRead 30, .cancel ⟨1000, 1⟩,
    .addTimer 1000 40 once 31, .cancel ⟨1000, 1⟩, .swapFunctors, .runFunctor 50]

theorem timers_have_one_owner_in_busyRun :
    ∃ s, machine.run init busyRun = some s ∧
      s.queue.timers_.elems = [⟨-5, 4000⟩, ⟨40, 1000⟩, ⟨90, 3000⟩] ∧ s.fault = none ∧
      ExactlyOne (InTimers s.queue ⟨1000, 1⟩) (InBatch s ⟨1000, 1⟩)
        (.deleted ⟨1000, 1⟩ ∈ s.queue.journal) := by
  have outcome : (machine.run init busyRun).map
      (fun s => (s.queue.timers_.elems, decide (.inserted ⟨1000, 1⟩ ∈ s.queue.journal))) =
      some ([⟨-5, 4000⟩, ⟨40, 1000⟩, ⟨90, 3000⟩], true) := by decide +kernel
  obtain ⟨s, reached, facts⟩ := Option.map_eq_some_iff.mp outcome
  simp only [Prod.mk.injEq, decide_eq_true_eq] at facts
  obtain ⟨running, -, place, -⟩ := timers_have_one_owner reached
  exact ⟨s, reached, facts.1, running, place _ facts.2⟩

end TimerQueue
end Muduo
