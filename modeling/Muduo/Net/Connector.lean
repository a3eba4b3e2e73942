import Muduo.Lib.Batch
import Muduo.Lib.Faults

/-!
Connector.cc in its event loop. A turn of the loop is poll, the events of the channels
that poll returned, and the batch of functors that were queued before. Calls of start and
stop come from any thread, restart from the loop thread, at any time. The result of
connect(2) and what a dispatch finds are in the label. A retry timer may fire in any event
phase, in that of its own turn too: the timer queue looks at the clock when it is
dispatched.

Sockets are numbered as they are created. A socket leaves the connector when it is closed
or handed to newConnectionCallback_. A connection that was handed over can close when the
resetChannel that was queued before it has run: it closes in a later turn or in a functor
that was queued behind.
-/
namespace Muduo
open Lib
namespace Connector

inductive States where
  | kDisconnected | kConnecting | kConnected
  deriving DecidableEq, Repr

def kMaxRetryDelayMs : Nat := 30 * 1000
def kInitRetryDelayMs : Nat := 500

inductive Errno where
  | zero | EINPROGRESS | EINTR | EISCONN
  | EAGAIN | EADDRINUSE | EADDRNOTAVAIL | ECONNREFUSED | ENETUNREACH
  | EACCES | EPERM | EAFNOSUPPORT | EALREADY | EBADF | EFAULT | ENOTSOCK
  | unexpected
  deriving DecidableEq, Repr

inductive Functor where
  | startInLoop | stopInLoop | resetChannel
  deriving DecidableEq, Repr

structure Channel where
  fd : Nat
  addedToLoop_ : Bool
  deriving DecidableEq, Repr

inductive Connection where
  | absent | fresh | established | closed
  deriving DecidableEq, Repr

inductive Phase where
  | events | functors
  deriving DecidableEq, Repr

end Connector

structure Connector where
  connect_ : Bool := false
  state_ : Connector.States := .kDisconnected
  channel_ : Option Connector.Channel := none
  retryDelayMs_ : Nat := Connector.kInitRetryDelayMs
  -- The loop: functors, the delays of the retry timers, and whether the channel is among
  -- the active ones that are still to be dispatched.
  queue : Batch Connector.Functor := .empty
  timers : List Nat := []
  phase : Connector.Phase := .functors
  active : Bool := false
  -- What has become of the sockets.
  created : Nat := 0
  closed : List Nat := []
  handed : List Nat := []
  connection : Connector.Connection := .absent
  fault : Option String := none

namespace Connector

def close (s : Connector) (sockfd : Nat) : Connector := { s with closed := s.closed ++ [sockfd] }

def queueInLoop (s : Connector) (f : Functor) : Connector := { s with queue := s.queue.push f }

def retry (s : Connector) (sockfd : Nat) : Connector :=
  let s := { s.close sockfd with state_ := .kDisconnected }
  if s.connect_ then
    { s with
      timers := s.timers ++ [s.retryDelayMs_]
      retryDelayMs_ := min (s.retryDelayMs_ * 2) kMaxRetryDelayMs }
  else s

def connecting (s : Connector) (sockfd : Nat) : Checked Connector := do
  assertThat s.channel_.isNone "!channel_"
  pure { s with state_ := .kConnecting, channel_ := some ⟨sockfd, true⟩ }

def connect (s : Connector) (savedErrno : Errno) : Checked Connector :=
  let sockfd := s.created
  let s := { s with created := s.created + 1 }
  match savedErrno with
  | .zero | .EINPROGRESS | .EINTR | .EISCONN => s.connecting sockfd
  | .EAGAIN | .EADDRINUSE | .EADDRNOTAVAIL | .ECONNREFUSED | .ENETUNREACH =>
    pure (s.retry sockfd)
  | .EACCES | .EPERM | .EAFNOSUPPORT | .EALREADY | .EBADF | .EFAULT | .ENOTSOCK =>
    pure (s.close sockfd)
  | .unexpected => pure (s.close sockfd)

def startInLoop (s : Connector) (savedErrno : Errno) : Checked Connector := do
  assertThat (s.state_ = .kDisconnected) "state_ == kDisconnected"
  if s.connect_ then s.connect savedErrno else pure s

def start (s : Connector) (inLoopThread : Bool) (savedErrno : Errno) : Checked Connector :=
  let s := { s with connect_ := true }
  if inLoopThread then s.startInLoop savedErrno else pure (s.queueInLoop .startInLoop)

def stop (s : Connector) : Connector := { s with connect_ := false }.queueInLoop .stopInLoop

def restart (s : Connector) (savedErrno : Errno) : Checked Connector :=
  { s with
    state_ := .kDisconnected, retryDelayMs_ := kInitRetryDelayMs, connect_ := true
    connection := .absent }.startInLoop savedErrno

def removeAndResetChannel (s : Connector) : Checked (Connector × Nat) :=
  match s.channel_ with
  | none => .error "channel_"
  | some channel =>
    let s := { s with channel_ := some { channel with addedToLoop_ := false } }
    pure (s.queueInLoop .resetChannel, channel.fd)

def stopInLoop (s : Connector) : Checked Connector :=
  if s.state_ = .kConnecting then do
    let (s, sockfd) ← { s with state_ := .kDisconnected }.removeAndResetChannel
    pure (s.retry sockfd)
  else pure s

def resetChannel (s : Connector) : Checked Connector := do
  assertThat (!s.channel_.any Channel.addedToLoop_) "!addedToLoop_"
  pure { s with
    channel_ := none
    connection := if s.connection = .fresh then .established else s.connection }

def handleWrite (s : Connector) (soError selfConnect : Bool) : Checked Connector :=
  if s.state_ = .kConnecting then do
    let (s, sockfd) ← s.removeAndResetChannel
    if soError then pure (s.retry sockfd)
    else if selfConnect then pure (s.retry sockfd)
    else
      let s := { s with state_ := .kConnected }
      if s.connect_ then
        pure { s with handed := s.handed ++ [sockfd], connection := .fresh }
      else pure (s.close sockfd)
  else do
    assertThat (s.state_ = .kDisconnected) "state_ == kDisconnected"
    pure s

def handleError (s : Connector) : Checked Connector :=
  if s.state_ = .kConnecting then do
    let (s, sockfd) ← s.removeAndResetChannel
    pure (s.retry sockfd)
  else pure s

/-- Channel::handleEvent: the error callback comes before the write callback. -/
def handleEvent (s : Connector) (error write soError selfConnect : Bool) : Checked Connector :=
  (if error then s.handleError else pure s) >>= fun s =>
    if write then s.handleWrite soError selfConnect else pure s

def runFunctor (s : Connector) (savedErrno : Errno) : Functor → Checked Connector
  | .startInLoop => s.startInLoop savedErrno
  | .stopInLoop => s.stopInLoop
  | .resetChannel => s.resetChannel

inductive Label where
  | start (inLoopThread : Bool) (savedErrno : Errno)
  | stop
  | restart (savedErrno : Errno)
  /-- poll returns, with the channel among the active ones or not. -/
  | poll (ready : Bool)
  | event (error write soError selfConnect : Bool)
  | timer (i : Nat) (savedErrno : Errno)
  | swap
  | functor (savedErrno : Errno)
  | connectionClosed
  deriving DecidableEq, Repr

def perform (s : Connector) : Label → Option (Checked Connector)
  | .start inLoopThread savedErrno => some (s.start inLoopThread savedErrno)
  | .stop => some (.ok s.stop)
  | .restart savedErrno => some (s.restart savedErrno)
  | .poll ready =>
    if s.phase = .functors ∧ s.queue.batch = [] then
      some (.ok { s with phase := .events, active := ready && s.channel_.any Channel.addedToLoop_ })
    else none
  | .event error write soError selfConnect =>
    if s.phase = .events ∧ s.active = true then
      some ({ s with active := false }.handleEvent error write soError selfConnect)
    else none
  | .timer i savedErrno =>
    if s.phase = .events ∧ i < s.timers.length then
      some ({ s with timers := s.timers.eraseIdx i }.startInLoop savedErrno)
    else none
  | .swap =>
    if s.phase = .events ∧ s.active = false then
      some (.ok { s with phase := .functors, queue := s.queue.swap })
    else none
  | .functor savedErrno =>
    if s.phase = .functors then
      s.queue.next.map fun (f, queue) => { s with queue }.runFunctor savedErrno f
    else none
  | .connectionClosed =>
    if s.connection = .established then some (.ok { s with connection := .closed }) else none

def faults : Faults Connector := ⟨Connector.fault, fun s e => { s with fault := some e }⟩

def machine : Machine Connector Label := faults.machine perform

def init : Connector := {}

end Connector
end Muduo
