import Muduo.Lib.Text
import Muduo.Net.ConnectorCalls
import Muduo.Net.TcpConnection

/-!
TcpClient.cc with its Connector and the connections that it has made. connect(), stop(),
disconnect() and enableRetry() come from any thread; the destructor runs in the loop
thread. Two pieces of the loop's work are two steps each, with room for other threads but
not for the loop in between: Connector::handleWrite reads connect_ and calls newConnection,
removeConnection reads retry_ and connect_ and restarts the connector. A program does not
call a client that it has destroyed.

A connection is known by its place among those made. Of its life the client sees the
states: established in newConnection, on the way down after shutdown or forceClose, closed
once by handleClose at a time that the loop chooses. What was destroyed is not used again:
the close callback of a connection and newConnectionCallback_ hold a pointer to the client,
the functors of the connector one to the connector. The connector is destroyed when the
client, the timer of the destructor and the retry timers have let go of it.
-/
namespace Muduo
open Lib

def Connector.Label.ofLoop : Connector.Label → Bool
  | .poll _ | .event .. | .timer .. | .swap | .functor _ => true
  | .start .. | .stop | .restart _ | .connectionClosed => false

def Connector.Label.waits : Connector.Label → Bool
  | .poll _ | .swap => true
  | _ => false

namespace TcpClient

structure Connection where
  sockfd : Nat
  name_ : List Char
  state_ : TcpConnection.StateE
  /-- closeCallback_ is detail::removeConnection and no longer that of the client. -/
  detached : Bool := false
  destroyed : Nat := 0
  deriving DecidableEq, Repr

end TcpClient

structure TcpClient where
  name_ : List Char
  connector_ : Connector := .init
  retry_ : Bool := false
  connect_ : Bool := true
  nextConnId_ : Nat := 1
  connection_ : Option Nat := none
  connections : List TcpClient.Connection := []
  /-- The connector has read connect_ and is about to call newConnection. -/
  handing : Bool := false
  /-- removeConnection is about to restart the connector. -/
  restarting : Bool := false
  destroys : List Nat := []
  alive : Bool := true
  /-- The timer of the destructor holds the connector. -/
  kept : Bool := false
  fault : Option String := none

namespace TcpClient

def connName (name peer : List Char) (id : Nat) : List Char :=
  name ++ snprintf 32 (':' :: peer ++ '#' :: decimal id)

def setState (s : TcpClient) (i : Nat) (state : TcpConnection.StateE) : TcpClient :=
  { s with connections := s.connections.modify i fun c => { c with state_ := state } }

def newConnection (s : TcpClient) (sockfd : Nat) (peer : List Char) : Checked TcpClient := do
  assertThat (s.alive = true) "the client exists"
  pure { s with
    handing := false
    nextConnId_ := s.nextConnId_ + 1
    connections := s.connections ++
      [{ sockfd, name_ := connName s.name_ peer s.nextConnId_, state_ := .kConnected }]
    connection_ := some s.connections.length }

def removeConnection (s : TcpClient) (conn : Nat) : Checked TcpClient := do
  assertThat (s.alive = true) "the client exists"
  assertThat (s.connection_ = some conn) "connection_ == conn"
  pure { s with
    connection_ := none, destroys := s.destroys ++ [conn], restarting := s.retry_ && s.connect_ }

def handleClose (s : TcpClient) (i : Nat) (c : Connection) : Checked TcpClient :=
  let s := { s with connector_ := { s.connector_ with connection := .closed } }.setState i
    .kDisconnected
  if c.detached then pure { s with destroys := s.destroys ++ [i] } else s.removeConnection i

def connect (s : TcpClient) (inLoopThread : Bool) (savedErrno : Connector.Errno) :
    Checked TcpClient := do
  let connector ← s.connector_.start inLoopThread savedErrno
  pure { s with connect_ := true, connector_ := connector }

def shutdown (connections : List Connection) : Option Nat → List Connection
  | some i => connections.modify i fun c =>
    { c with state_ := if c.state_ = .kConnected then .kDisconnecting else c.state_ }
  | none => connections

def disconnect (s : TcpClient) : TcpClient :=
  { s with connect_ := false, connections := shutdown s.connections s.connection_ }

def stop (s : TcpClient) : TcpClient :=
  { s with connect_ := false, connector_ := s.connector_.stop }

def enableRetry (s : TcpClient) : TcpClient := { s with retry_ := true }

def held (s : TcpClient) : Bool := s.alive || s.kept || !s.connector_.timers.isEmpty

/-- The destructor of the connector runs when nothing refers to it. -/
def settle (s : TcpClient) : Checked TcpClient := do
  assertThat (s.held ∨ s.connector_.channel_ = none) "!channel_"
  pure s

/-- The destructor. With a connection the connector goes with the client; otherwise it is
    stopped, and a timer keeps it. -/
def destroy (s : TcpClient) (unique : Bool) : Checked TcpClient :=
  match s.connection_ with
  | some i => settle { s with
      alive := false, connection_ := none
      connections := s.connections.modify i fun c => { c with
        detached := true
        state_ := if unique ∧ c.state_ ≠ .kDisconnected then .kDisconnecting else c.state_ } }
  | none => settle { s with alive := false, kept := true, connector_ := s.connector_.stop }

/-- What a step of the loop has made of the connector. -/
def follow (s : TcpClient) (connector : Connector) : Checked TcpClient :=
  settle { s with
    connector_ := connector
    handing := decide (connector.handed.length ≠ s.connector_.handed.length) }

/-- The loop thread is between the two steps of handleWrite or of removeConnection. -/
def busy (s : TcpClient) : Bool := s.handing || s.restarting

inductive Label where
  | connect (inLoopThread : Bool) (savedErrno : Connector.Errno)
  | disconnect
  | stop
  | enableRetry
  | loop (l : Connector.Label)
  | newConnection (peer : List Char)
  | close (i : Nat)
  | restart (savedErrno : Connector.Errno)
  | connectDestroyed
  | destroy (unique : Bool)
  | release
  deriving DecidableEq, Repr

def perform (s : TcpClient) : Label → Option (Checked TcpClient)
  | .connect inLoopThread savedErrno =>
    if s.alive then some (s.connect inLoopThread savedErrno) else none
  | .disconnect => if s.alive then some (.ok s.disconnect) else none
  | .stop => if s.alive then some (.ok s.stop) else none
  | .enableRetry => if s.alive then some (.ok s.enableRetry) else none
  | .loop l =>
    if s.busy = false ∧ l.ofLoop then (s.connector_.perform l).map fun performed => do
      assertThat (s.held ∨ l.waits) "the connector exists"
      let connector ← performed
      s.follow connector
    else none
  | .newConnection peer =>
    if s.handing then some (s.newConnection (s.connector_.handed.getLastD 0) peer) else none
  | .close i =>
    match s.connections[i]? with
    | some c =>
      if s.busy = false ∧ c.state_ ≠ .kDisconnected ∧
          s.connector_.connection = .established then some (s.handleClose i c)
      else none
    | none => none
  | .restart savedErrno =>
    if s.restarting then some do
      let connector ← s.connector_.restart savedErrno
      pure { s with connector_ := connector, restarting := false }
    else none
  | .connectDestroyed =>
    match s.destroys with
    | i :: rest => if s.busy then none else some (.ok { s with
        destroys := rest
        connections := s.connections.modify i fun c => { c with destroyed := c.destroyed + 1 } })
    | [] => none
  | .destroy unique => if s.alive ∧ s.busy = false then some (s.destroy unique) else none
  | .release => if s.kept ∧ s.busy = false then some (settle { s with kept := false }) else none

def faults : Faults TcpClient := ⟨TcpClient.fault, fun s e => { s with fault := some e }⟩

def machine : Machine TcpClient Label := faults.machine perform

def init (nameArg : List Char) : TcpClient := { name_ := nameArg }

/-- connect() is called when nothing is under way; no retry timer fires while a resetChannel
    is queued; a client with a connection is destroyed when no functor of its connector is
    queued, and by the time the timer of the destructor fires none is left either. -/
def Orderly (s : TcpClient) : Label → Prop
  | .connect .. => s.connector_.AtRest
  | .loop (.timer ..) => .resetChannel ∉ s.connector_.queue.waiting
  | .destroy _ => s.connection_ ≠ none → s.connector_.queue.waiting = []
  | .release => s.connector_.queue.waiting = []
  | _ => True

instance (s : TcpClient) (l : Label) : Decidable (Orderly s l) :=
  match l with
  | .connect .. => inferInstanceAs (Decidable s.connector_.AtRest)
  | .loop (.timer ..) =>
    inferInstanceAs (Decidable (.resetChannel ∉ s.connector_.queue.waiting))
  | .destroy _ =>
    inferInstanceAs (Decidable (s.connection_ ≠ none → s.connector_.queue.waiting = []))
  | .release => inferInstanceAs (Decidable (s.connector_.queue.waiting = []))
  | .loop (.start ..) | .loop .stop | .loop (.restart _) | .loop (.poll _) | .loop (.event ..)
  | .loop .swap | .loop (.functor _) | .loop .connectionClosed | .newConnection _ | .disconnect | .stop | .enableRetry | .close _ | .restart _ | .connectDestroyed => isTrue trivial

end TcpClient
end Muduo
