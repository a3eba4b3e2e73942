import Muduo.Net.EPollPoller
import Muduo.Net.PollPoller
import Muduo.Lib.Machine

/-!
The two pollers side by side under the operations of Channel. Channels are known by
their addresses, `fd` gives each its descriptor, and every address stands for a
channel, so any set of channels is covered. `Registry` says what a poller is for: the
channels it knows and their interest. EventLoop's own bookkeeping of active channels
is left out.
-/
namespace Muduo
open Lib

structure EPollPoller.State where
  objects : Nat → Channel
  slots : Nat → Slot

inductive ChannelOp where
  | enableReading
  | disableReading
  | enableWriting
  | disableWriting
  | disableAll
  | remove
  deriving DecidableEq, Repr

def ChannelOp.interest : ChannelOp → Events → Events
  | .enableReading, events => events.union .kReadEvent
  | .disableReading, events => events.without .kReadEvent
  | .enableWriting, events => events.union .kWriteEvent
  | .disableWriting, events => events.without .kWriteEvent
  | .disableAll, _ => .kNoneEvent
  | .remove, events => events

/-- The two calls a poller gets for a channel: updateChannel after events_ took a
    value, and removeChannel. -/
inductive Pollers.Call where
  | updateChannel (c : Nat) (events : Events)
  | removeChannel (c : Nat)
  deriving DecidableEq, Repr

def PollPoller.apply (p : PollPoller) (c : Nat) (op : ChannelOp) : Checked PollPoller :=
  if op = .remove then p.remove c else p.update c (op.interest (p.objects c).events_)

namespace EPollPoller.State

def place (e : State) (c : Nat) (r : Channel × Slot) : State :=
  { objects := Function.update e.objects c r.1, slots := Function.update e.slots r.1.fd_ r.2 }

def apply (e : State) (c : Nat) (op : ChannelOp) : Checked State := do
  let ch := e.objects c
  let slot := e.slots ch.fd_
  let r ← match op with
    | .enableReading => ch.enableReading slot
    | .disableReading => ch.disableReading slot
    | .enableWriting => ch.enableWriting slot
    | .disableWriting => ch.disableWriting slot
    | .disableAll => ch.disableAll slot
    | .remove => ch.remove ⟨false, false, false⟩ slot
  pure (e.place c r)

def call (e : State) : Pollers.Call → Checked State
  | .updateChannel c events => do
    let r ← Channel.update { e.objects c with events_ := events } (e.slots (e.objects c).fd_)
    pure (e.place c r)
  | .removeChannel c => do
    let r ← (e.objects c).remove ⟨false, false, false⟩ (e.slots (e.objects c).fd_)
    pure (e.place c r)

def Watches (e : State) (fd : Nat) (events : Events) : Prop := (e.slots fd).interest = some events

end EPollPoller.State

structure Registry where
  interest : Nat → Events
  registered : Nat → Bool
  removed : Nat → Bool

namespace Registry

def noChannels : Registry := ⟨fun _ => .kNoneEvent, fun _ => false, fun _ => false⟩

def updated (r : Registry) (c : Nat) (events : Events) : Registry :=
  { r with
    interest := Function.update r.interest c events
    registered := Function.update r.registered c true }

def without (r : Registry) (c : Nat) : Registry :=
  { r with
    registered := Function.update r.registered c false
    removed := Function.update r.removed c true }

def after (r : Registry) (c : Nat) (op : ChannelOp) : Registry :=
  if op = .remove then r.without c else r.updated c (op.interest (r.interest c))

def Watches (r : Registry) (fd : Nat → Nat) (f : Nat) (events : Events) : Prop :=
  ∃ c, fd c = f ∧ r.registered c = true ∧ r.interest c = events ∧ events ≠ .kNoneEvent

end Registry

namespace Pollers

structure State where
  poll : Checked PollPoller
  epoll : Checked EPollPoller.State
  registry : Registry

/-- Channel::remove is called on a registered channel without interest only. -/
def step (s : State) (l : Nat × ChannelOp) : Option State :=
  if l.2 = .remove → s.registry.registered l.1 = true ∧ s.registry.interest l.1 = .kNoneEvent then
    some
      { poll := s.poll >>= fun p => p.apply l.1 l.2
        epoll := s.epoll >>= fun e => e.apply l.1 l.2
        registry := s.registry.after l.1 l.2 }
  else none

def machine : Machine State (Nat × ChannelOp) := ⟨step⟩

def init (fd : Nat → Nat) : State :=
  { poll := .ok ⟨fun c => .new c (fd c), fun _ => none, []⟩
    epoll := .ok ⟨fun c => .new c (fd c), fun _ => ⟨none, none⟩⟩
    registry := .noChannels }

/-- No assertion has failed and both pollers watch exactly what is registered with an
    interest. -/
def Agree (fd : Nat → Nat) (s : State) : Prop :=
  ∃ p e, s.poll = .ok p ∧ s.epoll = .ok e ∧
    (∀ f events, p.Watches f events ↔ s.registry.Watches fd f events) ∧
    ∀ f events, e.Watches f events ↔ s.registry.Watches fd f events

/-- A channel is not used again once it was removed, and an operation leaves it
    without interest only when it had one. -/
def Plain (s : State) (l : Nat × ChannelOp) : Prop :=
  l.2 ≠ .remove → s.registry.removed l.1 = false ∧
    (l.2.interest (s.registry.interest l.1) = .kNoneEvent →
      s.registry.registered l.1 = true ∧ s.registry.interest l.1 ≠ .kNoneEvent)

instance (s : State) (l : Nat × ChannelOp) : Decidable (Plain s l) :=
  inferInstanceAs (Decidable (_ → _ ∧ (_ → _ ∧ _)))

end Pollers
end Muduo
