import Mathlib.Data.Prod.Lex
import Muduo.Lib.Batch
import Muduo.Lib.Faults
import Muduo.Lib.OrderedSet

/-!
TimerQueue.cc, Timer.cc and TimerId.h. Timers live in a heap of addresses; an
access to an address that holds no Timer is a failure, like a failed assertion.
The loop thread may call addTimer and cancel whenever it is not inside TimerQueue,
and inside every timer callback; between two functors of this queue it may be in
any other functor. Other threads call addTimer and cancel at any time, addTimer in
three steps: new Timer, the push of queueInLoop, and the read of sequence() after
it. The timerfd is a one-shot alarm. Timestamps are unbounded integers: that addTime
stays within an int64_t is assumed. The journal is bookkeeping that the functions do not
read.
-/
namespace Muduo
open Lib

/-- An interval in seconds as far as Timer reads it: the test against 0.0 and the
    whole microseconds that addTime adds. -/
structure Interval where
  micros : Int
  positive : Bool
  nonnegative : positive = true → 0 ≤ micros

structure Timer where
  expiration_ : Int
  interval_ : Interval
  repeat_ : Bool
  sequence_ : Int
  repeats : repeat_ = interval_.positive

namespace Timer

def new (when_ : Int) (interval : Interval) (sequence : Int) : Timer :=
  ⟨when_, interval, interval.positive, sequence, rfl⟩

def restart (t : Timer) (now : Int) : Timer :=
  { t with expiration_ := if t.repeat_ then now + t.interval_.micros else 0 }

end Timer

structure Entry where
  when_ : Int
  timer : Nat
  deriving DecidableEq, Repr

structure TimerId where
  timer_ : Nat
  sequence_ : Int
  deriving DecidableEq, Repr

theorem Entry.key_injective :
    Function.Injective fun e : Entry => toLex (e.when_, e.timer) := by
  rintro ⟨when_, timer⟩ ⟨when', timer'⟩ same
  cases same
  rfl

instance : LinearOrder Entry := LinearOrder.lift' _ Entry.key_injective

theorem TimerId.key_injective :
    Function.Injective fun id : TimerId => toLex (id.timer_, id.sequence_) := by
  rintro ⟨timer, sequence⟩ ⟨timer', sequence'⟩ same
  cases same
  rfl

instance : LinearOrder TimerId := LinearOrder.lift' _ TimerId.key_injective

structure Timespec where
  tv_sec : Int
  tv_nsec : Int
  deriving DecidableEq, Repr

/-- What timerfd_settime leaves: the relative value and whether the alarm has gone
    off and is unread. The expiration it was computed from and the time of the call
    are remembered with it. -/
structure Alarm where
  value : Timespec
  fired : Bool
  expiration : Int
  setAt : Int
  deriving DecidableEq, Repr

/-- `returned made id` is an addTimer call that created `made` and returned `id`;
    `cancelled id known` an executed cancelInLoop(id), with the Timers whose addTimer
    had returned `id` when cancel(id) was called. -/
inductive Moment where
  | returned (made id : TimerId)
  | inserted (id : TimerId)
  | cancelled (id : TimerId) (known : List TimerId)
  | started (id : TimerId)
  | deleted (id : TimerId)
  deriving DecidableEq, Repr

structure TimerQueue where
  timers_ : OrderedSet Entry
  activeTimers_ : OrderedSet TimerId
  callingExpiredTimers_ : Bool
  cancelingTimers_ : OrderedSet TimerId
  heap : Nat → Option Timer
  numCreated : Int
  alarm : Option Alarm
  journal : List Moment

namespace TimerQueue

def uintptrMax : Nat := 18446744073709551615

def howMuchTimeFromNow (when_ now : Int) : Timespec :=
  let microseconds := if when_ - now < 100 then 100 else when_ - now
  ⟨microseconds / 1000000, microseconds % 1000000 * 1000⟩

def note (q : TimerQueue) (m : Moment) : TimerQueue := { q with journal := q.journal ++ [m] }

/-- A zero value disarms the alarm, any other arms it and forgets an unread one. -/
def resetTimerfd (q : TimerQueue) (expiration clock : Int) : TimerQueue :=
  let value := howMuchTimeFromNow expiration clock
  { q with alarm := if value = ⟨0, 0⟩ then none else some ⟨value, false, expiration, clock⟩ }

/-- A read takes an alarm that has gone off and fails with EAGAIN otherwise. -/
def readTimerfd (q : TimerQueue) : TimerQueue :=
  { q with alarm := q.alarm.filter fun alarm => !alarm.fired }

def create (q : TimerQueue) (timer : Nat) (when_ : Int) (interval : Interval) : TimerQueue :=
  { q with
    heap := Function.update q.heap timer (some (Timer.new when_ interval (q.numCreated + 1)))
    numCreated := q.numCreated + 1 }

def deref (q : TimerQueue) (timer : Nat) : Checked Timer :=
  match q.heap timer with
  | some t => .ok t
  | none => .error "use after delete"

def delete (q : TimerQueue) (timer : Nat) : Checked TimerQueue := do
  let t ← q.deref timer
  pure <| { q with heap := Function.update q.heap timer none }.note (.deleted ⟨timer, t.sequence_⟩)

def assertSizes (q : TimerQueue) : Checked Unit :=
  assertThat (q.timers_.size = q.activeTimers_.size) "timers_.size() == activeTimers_.size()"

def insert (q : TimerQueue) (timer : Nat) : Checked (TimerQueue × Bool) := do
  q.assertSizes
  let t ← q.deref timer
  let earliestChanged := q.timers_.first.all fun e => t.expiration_ < e.when_
  let (timers, inserted) := q.timers_.insert ⟨t.expiration_, timer⟩
  assertThat (inserted = true) "result.second"
  let (active, inserted) := q.activeTimers_.insert ⟨timer, t.sequence_⟩
  assertThat (inserted = true) "result.second"
  let q := { q with timers_ := timers, activeTimers_ := active }
  q.assertSizes
  pure (q, earliestChanged)

def addTimerInLoop (q : TimerQueue) (timer : Nat) (clock : Int) : Checked TimerQueue := do
  let (q, earliestChanged) ← q.insert timer
  let t ← q.deref timer
  let q := q.note (.inserted ⟨timer, t.sequence_⟩)
  pure (if earliestChanged then q.resetTimerfd t.expiration_ clock else q)

def cancelInLoop (q : TimerQueue) (id : TimerId) (known : List TimerId) : Checked TimerQueue := do
  q.assertSizes
  let q ←
    if id ∈ q.activeTimers_ then do
      let t ← q.deref id.timer_
      let (timers, n) := q.timers_.erase ⟨t.expiration_, id.timer_⟩
      assertThat (n = 1) "n == 1"
      let q ← { q with timers_ := timers }.delete id.timer_
      pure { q with activeTimers_ := (q.activeTimers_.erase id).1 }
    else if q.callingExpiredTimers_ then
      pure { q with cancelingTimers_ := (q.cancelingTimers_.insert id).1 }
    else pure q
  q.assertSizes
  pure (q.note (.cancelled id known))

def eraseActive (q : TimerQueue) (e : Entry) : Checked TimerQueue := do
  let t ← q.deref e.timer
  let (active, n) := q.activeTimers_.erase ⟨e.timer, t.sequence_⟩
  assertThat (n = 1) "n == 1"
  pure { q with activeTimers_ := active }

def getExpired (q : TimerQueue) (now : Int) : Checked (TimerQueue × List Entry) := do
  q.assertSizes
  let sentry : Entry := ⟨now, uintptrMax⟩
  let rest := q.timers_.atLeast sentry
  assertThat (rest.first.all (fun e => now < e.when_) = true)
    "end == timers_.end() || now < end->first"
  let expired := q.timers_.below sentry
  let q ← expired.foldlM eraseActive { q with timers_ := rest }
  q.assertSizes
  pure (q, expired)

/-- One turn of the loop in reset(). -/
def restartOrDelete (now : Int) (q : TimerQueue) (e : Entry) : Checked TimerQueue := do
  let t ← q.deref e.timer
  if t.repeat_ = true ∧ (⟨e.timer, t.sequence_⟩ : TimerId) ∉ q.cancelingTimers_ then
    let (q, _) ← { q with heap := Function.update q.heap e.timer (some (t.restart now)) }.insert e.timer
    pure q
  else q.delete e.timer

def nextExpire (q : TimerQueue) : Checked Int :=
  match q.timers_.first with
  | none => .ok 0
  | some e => do
    let t ← q.deref e.timer
    pure t.expiration_

def reset (q : TimerQueue) (expired : List Entry) (now clock : Int) : Checked TimerQueue := do
  let q ← expired.foldlM (restartOrDelete now) q
  let next ← q.nextExpire
  pure (if 0 < next then q.resetTimerfd next clock else q)

/-- A Timer of the batch, with the sequence it had when getExpired took it. -/
structure Due where
  entry : Entry
  sequence : Int
  deriving DecidableEq, Repr

def Due.id (d : Due) : TimerId := ⟨d.entry.timer, d.sequence⟩

def due (q : TimerQueue) (e : Entry) : Due := ⟨e, (q.heap e.timer).elim 0 Timer.sequence_⟩

/-- handleRead() up to the loop over expired. -/
def takeExpired (q : TimerQueue) (now : Int) : Checked (TimerQueue × List Due) := do
  let (q, expired) ← q.readTimerfd.getExpired now
  pure ({ q with callingExpiredTimers_ := true, cancelingTimers_ := .empty }, expired.map q.due)

def run (q : TimerQueue) (d : Due) : Checked TimerQueue := do
  let t ← q.deref d.entry.timer
  pure (q.note (.started ⟨d.entry.timer, t.sequence_⟩))

/-- handleRead() after the loop. -/
def finishExpired (q : TimerQueue) (expired : List Due) (now clock : Int) : Checked TimerQueue :=
  { q with callingExpiredTimers_ := false }.reset (expired.map Due.entry) now clock

def returnedBy (q : TimerQueue) (id : TimerId) : List TimerId :=
  q.journal.filterMap fun
    | .returned made returned => if returned = id then some made else none
    | _ => none

inductive Functor where
  | addTimerInLoop (made : TimerId)
  | cancelInLoop (id : TimerId) (known : List TimerId)
  deriving DecidableEq, Repr

/-- handleRead() between takeExpired and finishExpired. -/
structure Calling where
  now : Int
  expired : List Due
  left : List Due
  inCallback : Bool
  deriving DecidableEq, Repr

/-- `created` and `pushed` are the addTimer calls of other threads that stand before
    the push and between the push and the return. -/
structure State where
  queue : TimerQueue
  calling : Option Calling
  functors : Batch Functor
  callingPendingFunctors : Bool
  created : List TimerId
  pushed : List TimerId
  fault : Option String

inductive Label where
  | newTimer (timer : Nat) (when_ : Int) (interval : Interval)
  | pushAdd (made : TimerId)
  | addReturns (made : TimerId) (stale : Int)
  | pushCancel (id : TimerId)
  | addTimer (timer : Nat) (when_ : Int) (interval : Interval) (clock : Int)
  | cancel (id : TimerId)
  | fire
  | handleRead (now : Int)
  | run
  | callbackReturns
  | endHandleRead (clock : Int)
  | swapFunctors
  | runFunctor (clock : Int)
  | endFunctors

def init : State :=
  { queue :=
      { timers_ := .empty, activeTimers_ := .empty, callingExpiredTimers_ := false
        cancelingTimers_ := .empty, heap := fun _ => none, numCreated := 0, alarm := none
        journal := [] }
    calling := none, functors := .empty, callingPendingFunctors := false
    created := [], pushed := [], fault := none }

/-- The allocator returns an address that holds no Timer; a Timer does not fit at the
    last one. -/
def Free (q : TimerQueue) (timer : Nat) : Prop := q.heap timer = none ∧ timer < uintptrMax

instance (q : TimerQueue) (timer : Nat) : Decidable (q.Free timer) :=
  match h : q.heap timer with
  | none => decidable_of_iff (timer < uintptrMax) (by simp [Free, h])
  | some _ => isFalse (by simp [Free, h])

def inUserCode (s : State) : Bool := s.calling.all Calling.inCallback

def nextId (q : TimerQueue) (timer : Nat) : TimerId := ⟨timer, q.numCreated + 1⟩

/-- timer->sequence() after runInLoop; on a deleted Timer the memory holds anything. -/
def sequenceAt (q : TimerQueue) (timer : Nat) (stale : Int) : Int :=
  (q.heap timer).elim stale Timer.sequence_

def runFunctor (q : TimerQueue) (clock : Int) : Functor → Checked TimerQueue
  | .addTimerInLoop made => q.addTimerInLoop made.timer_ clock
  | .cancelInLoop id known => q.cancelInLoop id known

def act (s : State) : Label → Option (Checked State)
  | .newTimer timer when_ interval =>
    if s.queue.Free timer then
      some (.ok { s with
        queue := s.queue.create timer when_ interval
        created := s.queue.nextId timer :: s.created })
    else none
  | .pushAdd made =>
    if made ∈ s.created then
      some (.ok { s with
        functors := s.functors.push (.addTimerInLoop made)
        created := s.created.erase made, pushed := made :: s.pushed })
    else none
  | .addReturns made stale =>
    if made ∈ s.pushed then
      some (.ok { s with
        queue := s.queue.note (.returned made ⟨made.timer_, s.queue.sequenceAt made.timer_ stale⟩)
        pushed := s.pushed.erase made })
    else none
  | .pushCancel id =>
    some (.ok { s with functors := s.functors.push (.cancelInLoop id (s.queue.returnedBy id)) })
  | .addTimer timer when_ interval clock =>
    if inUserCode s ∧ s.queue.Free timer then some do
      let q ← (s.queue.create timer when_ interval).addTimerInLoop timer clock
      let t ← q.deref timer
      pure { s with queue := q.note (.returned (s.queue.nextId timer) ⟨timer, t.sequence_⟩) }
    else none
  | .cancel id =>
    if inUserCode s then some do
      let q ← s.queue.cancelInLoop id (s.queue.returnedBy id)
      pure { s with queue := q }
    else none
  | .fire =>
    match s.queue.alarm with
    | some alarm =>
      some (.ok { s with queue := { s.queue with alarm := some { alarm with fired := true } } })
    | none => none
  | .handleRead now =>
    if s.calling = none ∧ s.callingPendingFunctors = false then some do
      let (q, expired) ← s.queue.takeExpired now
      pure { s with queue := q, calling := some ⟨now, expired, expired, false⟩ }
    else none
  | .run =>
    match s.calling with
    | some ⟨now, expired, d :: left, false⟩ => some do
      let q ← s.queue.run d
      pure { s with queue := q, calling := some ⟨now, expired, left, true⟩ }
    | _ => none
  | .callbackReturns =>
    match s.calling with
    | some ⟨now, expired, left, true⟩ => some (.ok { s with calling := some ⟨now, expired, left, false⟩ })
    | _ => none
  | .endHandleRead clock =>
    match s.calling with
    | some ⟨now, expired, [], false⟩ => some do
      let q ← s.queue.finishExpired expired now clock
      pure { s with queue := q, calling := none }
    | _ => none
  | .swapFunctors =>
    if s.calling = none ∧ s.callingPendingFunctors = false then
      some (.ok { s with functors := s.functors.swap, callingPendingFunctors := true })
    else none
  | .runFunctor clock =>
    if s.callingPendingFunctors = true then
      match s.functors.next with
      | some (f, functors) => some do
        let q ← s.queue.runFunctor clock f
        pure { s with queue := q, functors := functors }
      | none => none
    else none
  | .endFunctors =>
    if s.callingPendingFunctors = true ∧ s.functors.batch = [] then
      some (.ok { s with callingPendingFunctors := false })
    else none

def faults : Faults State := ⟨State.fault, fun s e => { s with fault := some e }⟩

def step : State → Label → Option State := faults.step act

def machine : Machine State Label := ⟨step⟩

end TimerQueue
end Muduo
