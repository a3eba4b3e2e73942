import Muduo.Net.EventLoop

/-!
EventLoopThread.cc: the thread that owns the object, in startLoop() and in the
destructor, beside the I/O thread in threadFunc(). The EventLoop is the machine of
EventLoop.cc; further threads may use it as they like while it exists. callback_
may do whatever the loop thread may do. A call on the EventLoop after threadFunc
has returned is marked and ends the run. Thread::start and join are taken as they
are documented.
-/
namespace Muduo
open Lib
namespace EventLoopThread
variable {F : Type}

/-- Where the owner stands: before startLoop(), waiting in it for loop_, after it, in
    the destructor before the test of loop_, before quit(), between the assignment
    and the wakeup of quit(), in join(), after it, and after a destructor that found
    loop_ null. -/
inductive Owner where
  | constructed
  | waiting
  | started
  | destroying
  | quitting
  | waking
  | joining
  | joined
  | gone
  deriving DecidableEq, Repr

/-- Where the I/O thread stands: not yet running, in callback_ with the EventLoop
    constructed, after loop_ was published, in loop(), and after threadFunc(). -/
inductive Io where
  | idle
  | callback
  | published
  | looping
  | exited
  deriving DecidableEq, Repr

structure State (F : Type) where
  loop : EventLoop.State F
  loop_ : Bool
  exiting_ : Bool
  owner : Owner
  io : Io
  dangling : Bool

inductive Label (F : Type) where
  | start
  | startLoopReturns
  | destroy
  | testLoop
  | quit
  | wakeup
  | join
  | publish
  | enterLoop
  | loopThread (l : EventLoop.Label F)
  | otherThread (l : EventLoop.Label F)
  | clear

def ownerThread : Nat := 0

/-- Which thread takes a step of the EventLoop; none for the loop thread. -/
def thread : EventLoop.Label F → Option Nat
  | .push t _ | .quit t | .wakeup t => some t
  | _ => none

def init : State F :=
  { loop := EventLoop.init, loop_ := false, exiting_ := false, owner := .constructed, io := .idle
    dangling := false }

def onLoop (s : State F) (l : EventLoop.Label F) : Option (State F) :=
  if s.io = .exited then some { s with dangling := true }
  else (EventLoop.step s.loop l).map fun loop => { s with loop := loop }

def step (s : State F) (l : Label F) : Option (State F) :=
  if s.dangling then none else
  match l with
  | .start =>
    if s.owner = .constructed then some { s with owner := .waiting, io := .callback } else none
  | .startLoopReturns =>
    if s.owner = .waiting ∧ s.loop_ = true then some { s with owner := .started } else none
  | .destroy =>
    if s.owner = .started then some { s with owner := .destroying, exiting_ := true } else none
  | .testLoop =>
    if s.owner = .destroying then
      some { s with owner := if s.loop_ then .quitting else .gone }
    else none
  | .quit =>
    if s.owner = .quitting then onLoop { s with owner := .waking } (.quit ownerThread) else none
  | .wakeup =>
    if s.owner = .waking then onLoop { s with owner := .joining } (.wakeup ownerThread) else none
  | .join =>
    if s.owner = .joining ∧ s.io = .exited then some { s with owner := .joined } else none
  | .publish =>
    if s.io = .callback ∧ s.loop.pc = .outside ∧ s.loop.loopWaking = false then
      some { s with loop_ := true, io := .published }
    else none
  | .enterLoop =>
    if s.io = .published then onLoop { s with io := .looping } .enterLoop else none
  | .loopThread l =>
    if thread l = none ∧ (s.io = .callback ∨ (s.io = .looping ∧ s.loop.pc ≠ .outside)) then
      onLoop s l
    else none
  | .otherThread l =>
    if (thread l).any (· ≠ ownerThread) ∧ s.io ≠ .idle ∧ s.io ≠ .exited then onLoop s l else none
  | .clear =>
    if s.io = .looping ∧ s.loop.pc = .outside then some { s with loop_ := false, io := .exited }
    else none

def machine (F : Type) : Machine (State F) (Label F) := ⟨step⟩

def Owner.hasQuit : Owner → Bool
  | .waking | .joining | .joined => true
  | _ => false

/-- The owner has called quit() and the I/O thread is inside the while of loop()
    with quit_ false: nothing will end that loop. -/
def Lost (s : State F) : Prop :=
  s.owner.hasQuit = true ∧ s.loop.pc ≠ .outside ∧ s.loop.quit_ = false

def Label.enters : Label F → Bool
  | .enterLoop => true
  | _ => false

/-- threadFunc enters loop(), which clears quit_, before the owner calls quit(). -/
def EntersFirst (s : State F) (l : Label F) : Prop :=
  l.enters = true → s.owner.hasQuit = false

instance (s : State F) (l : Label F) : Decidable (EntersFirst s l) :=
  inferInstanceAs (Decidable (_ → _))

variable {s t : State F} {l : Label F}

inductive Called (s : State F) (k : EventLoop.Label F) : State F → Prop where
  | dangling (exited : s.io = .exited) : Called s k { s with dangling := true }
  | ran {loop : EventLoop.State F} (exists_ : s.io ≠ .exited)
      (ran : EventLoop.step s.loop k = some loop) : Called s k { s with loop := loop }

variable {k : EventLoop.Label F}

theorem called (taken : onLoop s k = some t) : Called s k t := by
  unfold onLoop at taken
  split at taken
  case isTrue exited =>
    cases taken
    exact .dangling exited
  case isFalse exists_ =>
    obtain ⟨loop, ran, rfl⟩ := Option.map_eq_some_iff.mp taken
    exact .ran exists_ ran

theorem quit_kept {u v : EventLoop.State F} (taken : EventLoop.step u k = some v)
    (inside : k = .enterLoop → False) (quit : u.quit_ = true) : v.quit_ = true := by
  cases EventLoop.stepped taken with
  | enterLoop => exact (inside rfl).elim
  | quit | loopQuit => rfl
  | push | wakeup | loopPush | loopWakeup | leaveLoop | goOn | pollReturns | handleRead | endEvents
  | swapFunctors | startFunctor | functorReturns | endFunctors => exact quit

theorem pc_kept {u v : EventLoop.State F} (taken : EventLoop.step u k = some v)
    (other : thread k ≠ none) : v.pc = u.pc := by
  cases EventLoop.stepped taken with
  | push | quit | wakeup => rfl
  | _ => exact absurd rfl other

/-- startLoop() returns only after the I/O thread has published loop_, and the
    EventLoop is left before it is destroyed. -/
structure Placed (s : State F) : Prop where
  fresh : s.owner = .constructed → s.io = .idle
  published : s.loop_ = true → s.io ≠ .idle ∧ s.io ≠ .callback
  returned : s.owner ≠ .constructed → s.owner ≠ .waiting → s.io ≠ .idle ∧ s.io ≠ .callback
  left : s.io = .exited → s.loop.pc = .outside

theorem placed_init : Placed (init : State F) :=
  ⟨fun _ => rfl, by simp [init], by simp [init], by simp [init]⟩

inductive Stepped (s : State F) : Label F → State F → Prop where
  | start (fresh : s.owner = .constructed) :
      Stepped s .start { s with owner := .waiting, io := .callback }
  | startLoopReturns (published : s.loop_ = true) :
      Stepped s .startLoopReturns { s with owner := .started }
  | destroy (started : s.owner = .started) :
      Stepped s .destroy { s with owner := .destroying, exiting_ := true }
  | testLoop (destroying : s.owner = .destroying) :
      Stepped s .testLoop { s with owner := if s.loop_ then .quitting else .gone }
  | quit {u : State F} (quitting : s.owner = .quitting)
      (called : Called { s with owner := .waking } (.quit ownerThread) u) : Stepped s .quit u
  | wakeup {u : State F} (waking : s.owner = .waking)
      (called : Called { s with owner := .joining } (.wakeup ownerThread) u) : Stepped s .wakeup u
  | join (joining : s.owner = .joining) (exited : s.io = .exited) :
      Stepped s .join { s with owner := .joined }
  | publish (ready : s.io = .callback) (outside : s.loop.pc = .outside) :
      Stepped s .publish { s with loop_ := true, io := .published }
  | enterLoop (published : s.io = .published) {loop : EventLoop.State F}
      (ran : EventLoop.step s.loop .enterLoop = some loop) :
      Stepped s .enterLoop { s with io := .looping, loop := loop }
  | loopThread {k : EventLoop.Label F}
      (inside : s.io = .callback ∨ (s.io = .looping ∧ s.loop.pc ≠ .outside))
      {loop : EventLoop.State F} (ran : EventLoop.step s.loop k = some loop) :
      Stepped s (.loopThread k) { s with loop := loop }
  | otherThread {k : EventLoop.Label F} (other : thread k ≠ none) (alive : s.io ≠ .exited)
      {loop : EventLoop.State F} (ran : EventLoop.step s.loop k = some loop) :
      Stepped s (.otherThread k) { s with loop := loop }
  | clear (returned : s.loop.pc = .outside) (looping : s.io = .looping) :
      Stepped s .clear { s with loop_ := false, io := .exited }

theorem stepped (taken : step s l = some t) : Stepped s l t := by
  unfold step at taken
  split at taken
  · cases taken
  cases l with
  | quit =>
    simp only [Option.ite_none_right_eq_some] at taken
    exact .quit taken.1 (called taken.2)
  | wakeup =>
    simp only [Option.ite_none_right_eq_some] at taken
    exact .wakeup taken.1 (called taken.2)
  | enterLoop =>
    simp only [Option.ite_none_right_eq_some] at taken
    obtain ⟨published, taken⟩ := taken
    cases called taken with
    | dangling exited => cases exited
    | ran _ ran => exact .enterLoop published ran
  | loopThread k =>
    simp only [Option.ite_none_right_eq_some] at taken
    obtain ⟨⟨-, inside⟩, taken⟩ := taken
    cases called taken with
    | dangling exited =>
      rcases inside with callback | ⟨looping, -⟩
      · cases callback.symm.trans exited
      · cases looping.symm.trans exited
    | ran _ ran => exact .loopThread inside ran
  | otherThread k =>
    simp only [Option.ite_none_right_eq_some] at taken
    obtain ⟨⟨other, -, alive⟩, taken⟩ := taken
    have other : thread k ≠ none := by
      intro none
      rw [none] at other
      cases other
    cases called taken with
    | dangling exited => exact absurd exited alive
    | ran _ ran => exact .otherThread other alive ran
  | start | startLoopReturns | destroy | testLoop | join | publish | clear =>
    simp only [Option.ite_none_right_eq_some, Option.some.injEq] at taken
    obtain ⟨guard, rfl⟩ := taken
    first
      | exact .start guard
      | exact .startLoopReturns guard.2
      | exact .destroy guard
      | exact .testLoop guard
      | exact .join guard.1 guard.2
      | exact .publish guard.1 guard.2.1
      | exact .clear guard.2 guard.1

theorem placed_called (placed : Placed s) (called : Called s k t) :
    Placed t := by
  cases called with
  | dangling => exact ⟨placed.fresh, placed.published, placed.returned, placed.left⟩
  | ran exists_ ran =>
    exact ⟨placed.fresh, placed.published, placed.returned, fun exited => absurd exited exists_⟩

theorem placed_owner (placed : Placed s) {owner : Owner} (later : owner ≠ .constructed)
    (seen : s.io ≠ .idle ∧ s.io ≠ .callback) : Placed { s with owner := owner } :=
  ⟨fun same => absurd same later, placed.published, fun _ _ => seen, placed.left⟩

theorem placed_step (placed : Placed s) (taken : step s l = some t) : Placed t := by
  cases stepped taken with
  | start fresh =>
    refine ⟨by simp, ?_, by simp, by simp⟩
    intro published
    exact absurd (placed.fresh fresh) (placed.published published).1
  | startLoopReturns published => exact placed_owner placed (by simp) (placed.published published)
  | destroy started =>
    have seen := placed.returned (by simp [started]) (by simp [started])
    exact ⟨by simp, placed.published, fun _ _ => seen, placed.left⟩
  | testLoop destroying =>
    refine placed_owner placed (by split <;> simp) ?_
    exact placed.returned (by simp [destroying]) (by simp [destroying])
  | quit quitting called =>
    have seen := placed.returned (by simp [quitting]) (by simp [quitting])
    exact placed_called (placed_owner placed (by simp) seen) called
  | wakeup waking called =>
    have seen := placed.returned (by simp [waking]) (by simp [waking])
    exact placed_called (placed_owner placed (by simp) seen) called
  | join joining =>
    refine placed_owner placed (by simp) ?_
    exact placed.returned (by simp [joining]) (by simp [joining])
  | publish ready =>
    refine ⟨?_, by simp, by simp, by simp⟩
    intro fresh
    cases ready.symm.trans (placed.fresh fresh)
  | enterLoop published =>
    refine ⟨?_, by simp, by simp, by simp⟩
    intro fresh
    cases published.symm.trans (placed.fresh fresh)
  | loopThread inside ran =>
    refine ⟨placed.fresh, placed.published, placed.returned, ?_⟩
    intro exited
    rcases inside with callback | ⟨looping, -⟩
    · cases callback.symm.trans exited
    · cases looping.symm.trans exited
  | otherThread _ alive =>
    exact ⟨placed.fresh, placed.published, placed.returned, fun out => absurd out alive⟩
  | clear returned looping =>
    refine ⟨?_, by simp, by simp, fun _ => returned⟩
    intro fresh
    cases looping.symm.trans (placed.fresh fresh)

theorem quit_of_found (found : ¬Lost s) (asked : s.owner.hasQuit = true)
    (looping : s.loop.pc ≠ .outside) : s.loop.quit_ = true := by
  cases flag : s.loop.quit_ with
  | true => rfl
  | false => exact absurd ⟨asked, looping, flag⟩ found

theorem found_step (placed : Placed s) (found : ¬Lost s) (first : EntersFirst s l)
    (taken : step s l = some t) : ¬Lost t := by
  rintro ⟨quit, inside, cleared⟩
  cases stepped taken with
  | start | startLoopReturns | destroy => cases quit
  | testLoop =>
    split at quit
    · cases quit
    · cases quit
  | quit _ called =>
    cases called with
    | dangling exited => exact inside (placed.left exited)
    | ran _ ran =>
      simp only [EventLoop.step, Option.ite_none_right_eq_some, Option.some.injEq] at ran
      obtain ⟨-, rfl⟩ := ran
      cases cleared
  | wakeup waking called =>
    have asked : s.owner.hasQuit = true := by rw [waking]; rfl
    cases called with
    | dangling exited => exact inside (placed.left exited)
    | ran _ ran =>
      simp only [EventLoop.step, Option.ite_none_right_eq_some, Option.some.injEq] at ran
      obtain ⟨-, rfl⟩ := ran
      exact found ⟨asked, inside, cleared⟩
  | join joining exited => exact inside (placed.left exited)
  | publish _ outside => exact inside outside
  | enterLoop => cases (first rfl).symm.trans quit
  | @loopThread k within loop ran =>
    have asked : s.owner.hasQuit = true := quit
    have looping : s.loop.pc ≠ .outside := by
      rcases within with callback | ⟨-, looping⟩
      · have early := placed.returned (by intro same; rw [same] at asked; cases asked)
          (by intro same; rw [same] at asked; cases asked)
        exact absurd callback early.2
      · exact looping
    have set := quit_of_found found asked looping
    have entered : k = .enterLoop → False := by
      rintro rfl
      simp only [EventLoop.step, Option.ite_none_right_eq_some] at ran
      exact looping ran.1.1
    cases cleared.symm.trans (quit_kept ran entered set)
  | @otherThread k other _ loop ran =>
    have looping : s.loop.pc ≠ .outside := by
      rw [← pc_kept ran other]
      exact inside
    have set := quit_of_found found quit looping
    have entered : k = .enterLoop → False := by
      rintro rfl
      exact other rfl
    cases cleared.symm.trans (quit_kept ran entered set)
  | clear returned => exact inside returned

theorem lost_step (late : ¬EntersFirst s l) (taken : step s l = some t) : Lost t := by
  cases stepped taken with
  | enterLoop published ran =>
    simp only [EventLoop.step, Option.ite_none_right_eq_some, Option.some.injEq] at ran
    obtain ⟨-, rfl⟩ := ran
    have quit : s.owner.hasQuit = true := by
      simpa [EntersFirst, Label.enters] using late
    exact ⟨quit, by simp, rfl⟩
  | _ => exact absurd (by intro enters; cases enters) late

/-- In every run of the two threads and any others, no state has lost the owner's
    quit() exactly when the I/O thread enters loop() before the owner calls it. -/
theorem quit_is_not_lost_iff {ls : List (Label F)}
    (ran : (machine F).run init ls = some s) :
    (machine F).Always (fun s => ¬Lost s) init ls ↔ (machine F).Within EntersFirst init ls := by
  refine (machine F).always_iff_within EntersFirst Placed _ ?_ ?_ placed_init ?_ ran
  · intro s l t placed found first taken
    exact ⟨placed_step placed taken, found_step placed found first taken⟩
  · intro s l t _ _ late taken found
    exact found (lost_step late taken)
  · rintro ⟨quit, -⟩
    cases quit

/-- The owner destroys the object while the I/O thread is in poll; the loop ends and
    join() returns. -/
def orderlyQuit : List (Label Nat) :=
  [.start, .publish, .startLoopReturns, .enterLoop, .loopThread .testQuit, .destroy, .testLoop,
    .quit, .wakeup, .loopThread (.pollReturns true), .loopThread .handleRead,
    .loopThread .endEvents, .loopThread .swapFunctors, .loopThread .endFunctors,
    .loopThread .testQuit, .clear, .join]

theorem quit_of_orderlyQuit :
    ∃ s, (machine Nat).run init orderlyQuit = some s ∧ s.owner = .joined ∧
      (machine Nat).Always (fun s => ¬Lost s) init orderlyQuit := by
  have outcome : ((machine Nat).run init orderlyQuit).map (fun s => s.owner) = some .joined := by
    decide +kernel
  have within : (machine Nat).checkWithin EntersFirst init orderlyQuit = true := by
    decide +kernel
  obtain ⟨s, reached, joined⟩ := Option.map_eq_some_iff.mp outcome
  exact ⟨s, reached, joined, (quit_is_not_lost_iff reached).mpr ((machine Nat).within_of_check within)⟩

/-- The destructor runs between the publication of loop_ and the start of loop(). The
    wakeup ends the first poll; the second one has nothing left to end it. -/
def hastyQuit : List (Label Nat) :=
  [.start, .publish, .startLoopReturns, .destroy, .testLoop, .quit, .wakeup, .enterLoop,
    .loopThread .testQuit, .loopThread (.pollReturns true), .loopThread .handleRead,
    .loopThread .endEvents, .loopThread .swapFunctors, .loopThread .endFunctors,
    .loopThread .testQuit]

theorem quit_before_loop_is_lost :
    ∃ s, (machine Nat).run init hastyQuit = some s ∧ Lost s ∧ s.owner = .joining ∧
      s.loop.pc = .poll ∧ s.loop.wakeupCounter = 0 := by
  have outcome : ((machine Nat).run init hastyQuit).map (fun s =>
      (s.owner, s.loop.pc, s.loop.quit_, s.loop.wakeupCounter)) =
      some (.joining, .poll, false, 0) := by decide +kernel
  obtain ⟨s, reached, facts⟩ := Option.map_eq_some_iff.mp outcome
  simp only [Prod.mk.injEq] at facts
  obtain ⟨joining, polling, cleared, drained⟩ := facts
  have lost : Lost s := ⟨by rw [joining]; rfl, by rw [polling]; decide, cleared⟩
  exact ⟨s, reached, lost, joining, polling, drained⟩

end EventLoopThread
end Muduo
