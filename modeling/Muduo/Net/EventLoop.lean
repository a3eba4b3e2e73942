import Muduo.Lib.Batch
import Muduo.Lib.Machine

/-!
EventLoop.cc: loop(), queueInLoop(), quit(), wakeup(), handleRead() and
doPendingFunctors() as one machine. The loop thread and any number of other
threads take turns at the granularity of the shared accesses: the push under
mutex_ and the wakeup write of queueInLoop are two steps, and so are the
assignment and the wakeup of quit(). Functors are opaque. The record of who
queued a functor, when, and in which batch it ran is bookkeeping that no step
reads.
-/
namespace Muduo
open Lib
namespace EventLoop

/-- Where the loop thread stands. `poll` is inside poller_->poll, `takeFunctors`
    is before the swap of doPendingFunctors and `runFunctors` after it. -/
inductive Pc where
  | outside
  | whileTest
  | poll
  | handleEvents
  | takeFunctors
  | runFunctors
  deriving DecidableEq, Repr

inductive ThreadPc where
  | idle
  | pushed
  | quitting
  deriving DecidableEq, Repr

structure Queued (F : Type) where
  functor : F
  byThread : Option Nat
  whileLooping : Bool
  swapsBefore : Nat
  deriving DecidableEq, Repr

structure State (F : Type) where
  looping_ : Bool
  quit_ : Bool
  eventHandling_ : Bool
  callingPendingFunctors_ : Bool
  queue : Batch (Queued F)
  wakeupCounter : Nat
  wakeupActive : Bool
  pc : Pc
  running : Bool
  loopWaking : Bool
  threads : Nat → ThreadPc
  polled : Bool
  swaps : Nat
  pushed : List (Queued F)
  ran : List (Queued F × Nat)

inductive Label (F : Type) where
  | push (t : Nat) (f : F)
  | quit (t : Nat)
  | wakeup (t : Nat)
  | loopPush (f : F)
  | loopQuit
  | loopWakeup
  | enterLoop
  | testQuit
  | pollReturns (wakeupReady : Bool)
  | handleRead
  | endEvents
  | swapFunctors
  | startFunctor
  | functorReturns
  | endFunctors

variable {F : Type}

def init : State F :=
  { looping_ := false, quit_ := false, eventHandling_ := false
    callingPendingFunctors_ := false, queue := .empty, wakeupCounter := 0
    wakeupActive := false, pc := .outside, running := false, loopWaking := false
    threads := fun _ => .idle, polled := false, swaps := 0, pushed := [], ran := [] }

def pushFunctor (s : State F) (byThread : Option Nat) (f : F) : State F :=
  let e : Queued F := ⟨f, byThread, s.looping_, s.swaps⟩
  { s with queue := s.queue.push e, pushed := s.pushed ++ [e] }

def needsWakeup (s : State F) (inLoopThread : Bool) : Bool :=
  !inLoopThread || s.callingPendingFunctors_

/-- The loop thread executes code that may call into the loop: outside loop(), in
    an event handler, or in a functor. -/
def inUserCode (s : State F) : Bool :=
  match s.pc with
  | .outside => true
  | .handleEvents => true
  | .runFunctors => s.running
  | _ => false

def step (s : State F) : Label F → Option (State F)
  | .push t f =>
    if s.threads t = .idle then
      let s' := pushFunctor s (some t) f
      some { s' with threads :=
        Function.update s.threads t (if needsWakeup s' false then .pushed else .idle) }
    else none
  | .quit t =>
    if s.threads t = .idle then
      some { s with quit_ := true, threads := Function.update s.threads t .quitting }
    else none
  | .wakeup t =>
    if s.threads t ≠ .idle then
      some { s with
        wakeupCounter := s.wakeupCounter + 1, threads := Function.update s.threads t .idle }
    else none
  | .loopPush f =>
    if inUserCode s ∧ s.loopWaking = false then
      let s' := pushFunctor s none f
      some { s' with loopWaking := needsWakeup s' true }
    else none
  | .loopQuit =>
    if inUserCode s ∧ s.loopWaking = false then some { s with quit_ := true } else none
  | .loopWakeup =>
    if s.loopWaking then
      some { s with wakeupCounter := s.wakeupCounter + 1, loopWaking := false }
    else none
  | .enterLoop =>
    if s.pc = .outside ∧ s.looping_ = false ∧ s.loopWaking = false then
      some { s with looping_ := true, quit_ := false, pc := .whileTest, polled := false }
    else none
  | .testQuit =>
    if s.pc = .whileTest then
      if s.quit_ then some { s with looping_ := false, pc := .outside }
      else some { s with pc := .poll }
    else none
  | .pollReturns wakeupReady =>
    if s.pc = .poll ∧ (wakeupReady → 0 < s.wakeupCounter) then
      some { s with
        pc := .handleEvents, eventHandling_ := true, wakeupActive := wakeupReady, polled := true }
    else none
  | .handleRead =>
    if s.pc = .handleEvents ∧ s.wakeupActive ∧ s.loopWaking = false then
      some { s with wakeupCounter := 0, wakeupActive := false }
    else none
  | .endEvents =>
    if s.pc = .handleEvents ∧ s.wakeupActive = false ∧ s.loopWaking = false then
      some { s with pc := .takeFunctors, eventHandling_ := false, callingPendingFunctors_ := true }
    else none
  | .swapFunctors =>
    if s.pc = .takeFunctors then
      some { s with pc := .runFunctors, queue := s.queue.swap, swaps := s.swaps + 1 }
    else none
  | .startFunctor =>
    if s.pc = .runFunctors ∧ s.running = false then
      match s.queue.next with
      | some (e, q) => some { s with queue := q, running := true, ran := s.ran ++ [(e, s.swaps)] }
      | none => none
    else none
  | .functorReturns =>
    if s.pc = .runFunctors ∧ s.running ∧ s.loopWaking = false then
      some { s with running := false }
    else none
  | .endFunctors =>
    if s.pc = .runFunctors ∧ s.running = false ∧ s.queue.batch = [] then
      some { s with pc := .whileTest, callingPendingFunctors_ := false }
    else none

def machine (F : Type) : Machine (State F) (Label F) := ⟨step⟩

inductive Stepped (s : State F) : Label F → State F → Prop where
  | push {i : Nat} {f : F} (idle : s.threads i = .idle) :
      Stepped s (.push i f)
        { pushFunctor s (some i) f with threads := Function.update s.threads i .pushed }
  | quit {i : Nat} (idle : s.threads i = .idle) :
      Stepped s (.quit i)
        { s with quit_ := true, threads := Function.update s.threads i .quitting }
  | wakeup {i : Nat} (busy : s.threads i ≠ .idle) :
      Stepped s (.wakeup i)
        { s with
          wakeupCounter := s.wakeupCounter + 1, threads := Function.update s.threads i .idle }
  | loopPush {f : F} (user : inUserCode s = true) (still : s.loopWaking = false) :
      Stepped s (.loopPush f)
        { pushFunctor s none f with loopWaking := s.callingPendingFunctors_ }
  | loopQuit (user : inUserCode s = true) (still : s.loopWaking = false) :
      Stepped s .loopQuit { s with quit_ := true }
  | loopWakeup (owed : s.loopWaking = true) :
      Stepped s .loopWakeup
        { s with wakeupCounter := s.wakeupCounter + 1, loopWaking := false }
  | enterLoop (pc : s.pc = .outside) (off : s.looping_ = false) (still : s.loopWaking = false) :
      Stepped s .enterLoop
        { s with looping_ := true, quit_ := false, pc := .whileTest, polled := false }
  | leaveLoop (pc : s.pc = .whileTest) (quit : s.quit_ = true) :
      Stepped s .testQuit { s with looping_ := false, pc := .outside }
  | goOn (pc : s.pc = .whileTest) (on : s.quit_ = false) :
      Stepped s .testQuit { s with pc := .poll }
  | pollReturns {ready : Bool} (pc : s.pc = .poll) (readable : ready → 0 < s.wakeupCounter) :
      Stepped s (.pollReturns ready)
        { s with
          pc := .handleEvents, eventHandling_ := true, wakeupActive := ready, polled := true }
  | handleRead (pc : s.pc = .handleEvents) (active : s.wakeupActive = true)
      (still : s.loopWaking = false) :
      Stepped s .handleRead { s with wakeupCounter := 0, wakeupActive := false }
  | endEvents (pc : s.pc = .handleEvents) (handled : s.wakeupActive = false)
      (still : s.loopWaking = false) :
      Stepped s .endEvents
        { s with pc := .takeFunctors, eventHandling_ := false, callingPendingFunctors_ := true }
  | swapFunctors (pc : s.pc = .takeFunctors) :
      Stepped s .swapFunctors
        { s with pc := .runFunctors, queue := s.queue.swap, swaps := s.swaps + 1 }
  | startFunctor {e : Queued F} {q : Batch (Queued F)} (pc : s.pc = .runFunctors)
      (idle : s.running = false) (next : s.queue.next = some (e, q)) :
      Stepped s .startFunctor
        { s with queue := q, running := true, ran := s.ran ++ [(e, s.swaps)] }
  | functorReturns (pc : s.pc = .runFunctors) (running : s.running = true)
      (still : s.loopWaking = false) :
      Stepped s .functorReturns { s with running := false }
  | endFunctors (pc : s.pc = .runFunctors) (idle : s.running = false)
      (done : s.queue.batch = []) :
      Stepped s .endFunctors { s with pc := .whileTest, callingPendingFunctors_ := false }

theorem stepped {s t : State F} {l : Label F} (taken : step s l = some t) : Stepped s l t := by
  cases l with
  | testQuit =>
    simp only [step, Option.ite_none_right_eq_some] at taken
    obtain ⟨pc, taken⟩ := taken
    split at taken
    case isTrue quit =>
      cases taken
      exact .leaveLoop pc quit
    case isFalse on =>
      cases taken
      exact .goOn pc (Bool.eq_false_iff.mpr on)
  | startFunctor =>
    simp only [step, Option.ite_none_right_eq_some] at taken
    obtain ⟨⟨pc, idle⟩, taken⟩ := taken
    split at taken
    · rename_i e q next
      cases taken
      exact .startFunctor pc idle next
    · cases taken
  | push i f | quit i | wakeup i | loopPush f | loopQuit | loopWakeup | enterLoop
  | pollReturns ready | handleRead | endEvents | swapFunctors | functorReturns | endFunctors =>
    simp only [step, Option.ite_none_right_eq_some, Option.some.injEq] at taken
    obtain ⟨guard, rfl⟩ := taken
    constructor <;> simp_all

end EventLoop
end Muduo
