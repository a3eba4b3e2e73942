import Muduo.Lib.Checked

/-!
Channel.h: the interest of one file descriptor and the events last returned for
it. A mask of poll(2) is kept bit by bit; only the seven bits that the library
names exist. A channel is identified by its address, as the pollers compare
pointers. logHup_ and the debug strings are left out.
-/
namespace Muduo

structure Events where
  pollin : Bool := false
  pollpri : Bool := false
  pollout : Bool := false
  pollerr : Bool := false
  pollhup : Bool := false
  pollnval : Bool := false
  pollrdhup : Bool := false
  deriving DecidableEq, Repr

namespace Events

def union (a b : Events) : Events :=
  ⟨a.pollin || b.pollin, a.pollpri || b.pollpri, a.pollout || b.pollout, a.pollerr || b.pollerr,
    a.pollhup || b.pollhup, a.pollnval || b.pollnval, a.pollrdhup || b.pollrdhup⟩

def without (a b : Events) : Events :=
  ⟨a.pollin && !b.pollin, a.pollpri && !b.pollpri, a.pollout && !b.pollout,
    a.pollerr && !b.pollerr, a.pollhup && !b.pollhup, a.pollnval && !b.pollnval,
    a.pollrdhup && !b.pollrdhup⟩

def meets (a b : Events) : Bool :=
  (a.pollin && b.pollin) || (a.pollpri && b.pollpri) || (a.pollout && b.pollout) ||
    (a.pollerr && b.pollerr) || (a.pollhup && b.pollhup) || (a.pollnval && b.pollnval) ||
    (a.pollrdhup && b.pollrdhup)

def kNoneEvent : Events := {}
def kReadEvent : Events := { pollin := true, pollpri := true }
def kWriteEvent : Events := { pollout := true }

/-- What poll(2) and epoll(7) may return for a registered interest: nothing beyond
    it but the three conditions that are always reported, and a hang-up together
    with POLLIN when POLLIN was asked for. -/
def Returnable (interest revents : Events) : Prop :=
  (revents.pollin → interest.pollin) ∧ (revents.pollpri → interest.pollpri) ∧
    (revents.pollout → interest.pollout) ∧ (revents.pollrdhup → interest.pollrdhup) ∧
    (revents.pollhup → interest.pollin → revents.pollin)

instance (interest revents : Events) : Decidable (Returnable interest revents) := by
  unfold Returnable
  infer_instance

/-- The two tests of Channel::handleEventWithGuard that can end in handleClose. -/
def hangsUp (revents : Events) : Prop := revents.pollhup = true ∧ revents.pollin = false

def reads (revents : Events) : Prop :=
  revents.meets { pollin := true, pollpri := true, pollrdhup := true } = true

end Events

structure Channel where
  address : Nat
  fd_ : Nat
  events_ : Events
  revents_ : Events
  index_ : Int
  tied_ : Bool
  eventHandling_ : Bool
  addedToLoop_ : Bool
  deriving DecidableEq, Repr

namespace Channel

def new (address fd : Nat) : Channel :=
  { address := address, fd_ := fd, events_ := {}, revents_ := {}, index_ := -1
    tied_ := false, eventHandling_ := false, addedToLoop_ := false }

def isNoneEvent (ch : Channel) : Prop := ch.events_ = .kNoneEvent
def isWriting (ch : Channel) : Bool := ch.events_.meets .kWriteEvent
def isReading (ch : Channel) : Bool := ch.events_.meets .kReadEvent

instance (ch : Channel) : Decidable ch.isNoneEvent := inferInstanceAs (Decidable (_ = _))

def tie (ch : Channel) : Channel := { ch with tied_ := true }
def set_revents (ch : Channel) (revt : Events) : Channel := { ch with revents_ := revt }
def set_index (ch : Channel) (idx : Int) : Channel := { ch with index_ := idx }

end Channel
end Muduo
