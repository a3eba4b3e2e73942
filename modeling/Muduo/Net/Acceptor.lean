import Mathlib.Logic.Function.Basic
import Muduo.Lib.Checked
import Muduo.Lib.Machine

/-!
Acceptor.cc and sockets::accept. The acceptor shares the table of descriptors with the rest
of the process, whose threads open and close descriptors of their own at any moment, so
each system call of handleRead is a step. When accept fails for want of a descriptor, the
acceptor gives up idleFd_, accepts in its place, closes what it got and opens /dev/null
again: in between the number that idleFd_ holds belongs to nobody, or to another thread.

A descriptor that accept or open returns, and the errno of a failure, come with the label:
any free number, and EMFILE only if there is none. An idleFd_ of -1 is none.
-/
namespace Muduo
open Lib

inductive Owner where
  | acceptor
  | others
  deriving DecidableEq, Repr

namespace Acceptor

inductive Errno where
  | EAGAIN | ECONNABORTED | EINTR | EPROTO | EPERM | EMFILE
  | EBADF | EFAULT | EINVAL | ENFILE | ENOBUFS | ENOMEM | ENOTSOCK | EOPNOTSUPP
  | unknown
  deriving DecidableEq, Repr

/-- sockets::accept returns only after these; all others are LOG_FATAL. -/
def Errno.expected : Errno → Bool
  | .EAGAIN | .ECONNABORTED | .EINTR | .EPROTO | .EPERM | .EMFILE => true
  | .EBADF | .EFAULT | .EINVAL | .ENFILE | .ENOBUFS | .ENOMEM | .ENOTSOCK | .EOPNOTSUPP
  | .unknown => false

inductive Point where
  | rest
  | accepted (connfd : Nat)
  /-- accept has failed, and the failure is logged next. -/
  | failed
  /-- Before the first close(idleFd_). -/
  | closing
  /-- Before the accept into idleFd_. -/
  | accepting
  /-- Before the second close(idleFd_). -/
  | dropping
  /-- Before the open of /dev/null. -/
  | opening
  | destroyed
  | aborted
  deriving DecidableEq, Repr

end Acceptor

structure Acceptor where
  /-- Descriptors are the numbers below it. -/
  limit : Nat
  held : Nat → Option Owner
  acceptSocket_ : Nat
  idleFd_ : Option Nat
  listening_ : Bool := false
  newConnectionCallback_ : Bool := false
  point : Acceptor.Point := .rest
  backlog : Nat := 0
  -- All that came, and where they went: reset by the peer while they waited, given to
  -- the callback, closed.
  arrived : Nat := 0
  reset : Nat := 0
  given : Nat := 0
  dropped : Nat := 0
  calls : Nat := 0
  /-- Descriptors that were closed while they were not the acceptor's. -/
  stray : List Nat := []

namespace Acceptor

structure Answer where
  fd : Option Nat
  errno : Errno
  deriving DecidableEq, Repr

inductive Label where
  | connect
  | reset
  /-- Another part of the process opens or closes a descriptor. -/
  | opens (fd : Nat)
  | closes (fd : Nat)
  | setNewConnectionCallback
  | listen
  | handleRead (a : Answer)
  | destroy
  deriving DecidableEq, Repr

def Free (s : Acceptor) (fd : Nat) : Prop := fd < s.limit ∧ s.held fd = none

def Full (s : Acceptor) : Prop := ∀ fd, fd < s.limit → s.held fd ≠ none

instance (s : Acceptor) (fd : Nat) : Decidable (s.Free fd) := inferInstanceAs (Decidable (_ ∧ _))

instance (s : Acceptor) : Decidable s.Full :=
  inferInstanceAs (Decidable (∀ fd, fd < s.limit → s.held fd ≠ none))

/-- The constructor, with the descriptors that socket and open return. createNonblockingOrDie
    does not return without one. -/
def new (limit : Nat) (held : Nat → Option Owner) (acceptSocket_ : Nat) (idleFd_ : Option Nat) :
    Checked Acceptor := do
  assertThat idleFd_.isSome "idleFd_ >= 0"
  let held := Function.update held acceptSocket_ (some .acceptor)
  pure { limit, acceptSocket_, idleFd_
         held := idleFd_.elim held fun fd => Function.update held fd (some .acceptor) }

/-- ::close; of -1 it fails. -/
def close (s : Acceptor) (fd : Option Nat) : Acceptor :=
  { s with
    held := fd.elim s.held fun fd => Function.update s.held fd none
    stray := s.stray ++ fd.toList.filter fun fd => s.held fd ≠ some .acceptor }

def take (s : Acceptor) (fd : Nat) (owner : Owner) : Acceptor :=
  { s with held := Function.update s.held fd (some owner) }

def accepts (s : Acceptor) (a : Answer) : Prop :=
  match a.fd with
  | some fd => 0 < s.backlog ∧ s.Free fd
  | none => (a.errno = .EMFILE → s.Full) ∧ (a.errno = .EAGAIN → s.backlog = 0)

def reopens (s : Acceptor) (a : Answer) : Prop :=
  match a.fd with
  | some fd => s.Free fd
  | none => a.errno = .EMFILE → s.Full

instance (s : Acceptor) (a : Answer) : Decidable (s.accepts a) :=
  match a with
  | ⟨some fd, _⟩ => inferInstanceAs (Decidable (0 < s.backlog ∧ s.Free fd))
  | ⟨none, errno⟩ =>
    inferInstanceAs (Decidable ((errno = .EMFILE → s.Full) ∧ (errno = .EAGAIN → s.backlog = 0)))

instance (s : Acceptor) (a : Answer) : Decidable (s.reopens a) :=
  match a with
  | ⟨some fd, _⟩ => inferInstanceAs (Decidable (s.Free fd))
  | ⟨none, errno⟩ => inferInstanceAs (Decidable (errno = .EMFILE → s.Full))

def accept (s : Acceptor) (fd : Nat) : Acceptor :=
  { s.take fd .acceptor with backlog := s.backlog - 1 }

/-- The callback makes the descriptor its own; without one it is closed. -/
def deliver (s : Acceptor) (connfd : Nat) : Acceptor :=
  if s.newConnectionCallback_ then
    { s.take connfd .others with given := s.given + 1, point := .rest }
  else
    { s.close (some connfd) with dropped := s.dropped + 1, point := .rest }

def handleRead (s : Acceptor) (a : Answer) : Option Acceptor :=
  match s.point with
  | .rest =>
    if s.listening_ ∧ s.accepts a then
      let s := { s with calls := s.calls + 1 }
      match a.fd with
      | some connfd => some { s.accept connfd with point := .accepted connfd }
      | none => some { s with point := if a.errno.expected then .failed else .aborted }
    else none
  | .accepted connfd => some (s.deliver connfd)
  -- errno is read when LOG_SYSERR has written its line
  | .failed => some { s with point := if a.errno = .EMFILE then .closing else .rest }
  | .closing => some { s.close s.idleFd_ with point := .accepting }
  | .accepting =>
    if s.accepts a then
      match a.fd with
      | some fd => some { s.accept fd with idleFd_ := some fd, point := .dropping }
      | none => some { s with idleFd_ := none, point := .dropping }
    else none
  | .dropping =>
    some { s.close s.idleFd_ with
      dropped := s.dropped + s.idleFd_.toList.length, point := .opening }
  | .opening =>
    if s.reopens a then
      match a.fd with
      | some fd => some { s.take fd .acceptor with idleFd_ := some fd, point := .rest }
      | none => some { s with idleFd_ := none, point := .rest }
    else none
  | .destroyed | .aborted => none

def destroy (s : Acceptor) : Acceptor :=
  { (s.close s.idleFd_).close (some s.acceptSocket_) with point := .destroyed }

def step (s : Acceptor) (l : Label) : Option Acceptor :=
  if s.point = .aborted then none
  else match l with
    | .connect =>
      if s.listening_ ∧ s.point ≠ .destroyed then
        some { s with backlog := s.backlog + 1, arrived := s.arrived + 1 }
      else none
    | .reset =>
      if 0 < s.backlog then some { s with backlog := s.backlog - 1, reset := s.reset + 1 }
      else none
    | .opens fd => if s.Free fd then some (s.take fd .others) else none
    | .closes fd =>
      if s.held fd = some .others then some { s with held := Function.update s.held fd none }
      else none
    | .setNewConnectionCallback =>
      if s.point = .rest then some { s with newConnectionCallback_ := true } else none
    | .listen => if s.point = .rest then some { s with listening_ := true } else none
    | .handleRead a => s.handleRead a
    | .destroy => if s.point = .rest then some s.destroy else none

def machine : Machine Acceptor Label := ⟨step⟩

end Acceptor
end Muduo
