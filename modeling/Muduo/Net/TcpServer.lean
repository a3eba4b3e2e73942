import Mathlib.Data.List.AList
import Muduo.Net.InetAddress
import Muduo.Net.TcpConnection

/-!
TcpServer.cc with EventLoopThreadPool::getNextLoop, over any number of event
loops and connections. Loop 0 is the base loop. A connection is named by its
place in the order of newConnection, which stands for the pointer; its member
functions are those of TcpConnection, run on its own part of the state. User
code knows a connection from its first callback on. Code that runs in one loop
and calls a connection of another appears as one of the other threads. The
thread pool may be shared, so loops go on after the server is gone; start(),
the Acceptor's own work and object lifetime are left out.
-/
namespace Muduo
open Lib
namespace TcpServer
open TcpConnection (Conn Call ReadResult WriteResult Told Phase)

structure EventLoopThreadPool where
  loops_ : List Nat
  next_ : Nat
  valid : loops_ ≠ [] → next_ < loops_.length

def baseLoop : Nat := 0

/-- Round-robin over loops_; the base loop when there are none. -/
def EventLoopThreadPool.getNextLoop (pool : EventLoopThreadPool) : Nat × EventLoopThreadPool :=
  if some : pool.loops_ ≠ [] then
    have valid := pool.valid some
    (pool.loops_[pool.next_],
      { pool with
        next_ := if pool.loops_.length ≤ pool.next_ + 1 then 0 else pool.next_ + 1
        valid := by
          intro _
          split <;> omega })
  else (baseLoop, pool)

structure Server where
  ipPort_ : List Char
  name_ : List Char
  threadPool_ : EventLoopThreadPool
  nextConnId_ : Nat
  connections_ : AList fun _ : List Char => Nat

/-- name_ and what snprintf leaves of the rest in a buffer of 64. -/
def connName (name ipPort : List Char) (id : Nat) : List Char :=
  name ++ snprintf 64 ('-' :: ipPort ++ '#' :: decimal id)

inductive Functor where
  | connection (c : Nat) (f : TcpConnection.Functor)
  | removeConnectionInLoop (c : Nat)
  | task
  deriving DecidableEq, Repr

inductive Frame where
  | userCode
  | connection (c : Nat) (f : TcpConnection.Frame)
  | removeConnectionInLoop (c : Nat)
  | destructor (left : List Nat)
  deriving DecidableEq, Repr

def Functor.frame : Functor → Frame
  | .connection c f => .connection c (.run f)
  | .removeConnectionInLoop c => .removeConnectionInLoop c
  | .task => .userCode

def lift (c : Nat) : TcpConnection.Frame → Frame
  | .userCode => .userCode
  | f => .connection c f

structure Session where
  name_ : List Char
  loop_ : Nat
  conn : Conn
  timers : Nat
  sends : Nat
  told : List Told

structure Loop where
  queue : Batch Functor
  phase : Phase
  activeChannels_ : List Nat
  currentActiveChannel_ : Option Nat
  todo : List Nat
  stack : List Frame

inductive Life where
  | alive
  | destructing
  | dead
  deriving DecidableEq, Repr

inductive Failure where
  | connection (assertion : String)
  | server (assertion : String)
  | useAfterDestructor
  deriving DecidableEq, Repr

/-- What the journal records of a connection: that connectEstablished or
    connectDestroyed was started, an event of its channel handled, its close
    callback invoked, its entry erased, or that the destructor let go of it. -/
inductive Moment where
  | established (c : Nat)
  | event (c : Nat)
  | closeCallback (c : Nat)
  | erased (c : Nat)
  | tornDown (c : Nat)
  | destroyed (c : Nat)
  deriving DecidableEq, Repr

structure State where
  server : Server
  life : Life
  sessions : List Session
  loops : Nat → Loop
  threads : Nat → Option (Nat × TcpConnection.Functor)
  fault : Option Failure
  late : Nat
  journal : List Moment

def updateLoop (s : State) (i : Nat) (f : Loop → Loop) : State :=
  { s with loops := Function.update s.loops i (f (s.loops i)) }

def enter (s : State) (i : Nat) (frames : List Frame) : State :=
  updateLoop s i fun loop => { loop with stack := frames ++ loop.stack }

def queueInLoop (s : State) (i : Nat) (f : Functor) : State :=
  updateLoop s i fun loop => { loop with queue := loop.queue.push f }

def runInLoop (s : State) (here i : Nat) (f : Functor) : State :=
  if here = i then enter s i [f.frame] else queueInLoop s i f

def note (s : State) (moments : List Moment) : State := { s with journal := s.journal ++ moments }

/-- newConnection, for a socket and the callbacks the server has set. The new
    connection is numbered by the sessions before it. -/
def newConnection (s : State) (setup : TcpConnection.Setup) : State :=
  let next := s.server.threadPool_.getNextLoop
  let name := connName s.server.name_ s.server.ipPort_ s.server.nextConnId_
  let c := s.sessions.length
  let server :=
    { s.server with
      threadPool_ := next.2
      nextConnId_ := s.server.nextConnId_ + 1
      connections_ := s.server.connections_.insert name c }
  let session : Session := ⟨name, next.1, .new setup, 0, 0, []⟩
  runInLoop { s with server := server, sessions := s.sessions ++ [session] } baseLoop next.1
    (.connection c .connectEstablished)

def useAfterDestructor (s : State) : State :=
  { s with late := s.late + 1, fault := some .useAfterDestructor }

def removeConnection (s : State) (here c : Nat) : State :=
  if s.life = .dead then useAfterDestructor s
  else runInLoop s here baseLoop (.removeConnectionInLoop c)

def removeConnectionInLoop (s : State) (c : Nat) (session : Session) : State :=
  if s.life = .dead then useAfterDestructor s
  else
    let n := if session.name_ ∈ s.server.connections_ then 1 else 0
    let server := { s.server with connections_ := s.server.connections_.erase session.name_ }
    if n = 1 then
      note (queueInLoop { s with server := server } session.loop_ (.connection c .connectDestroyed))
        [.erased c]
    else { s with server := server, fault := some (.server "n == 1") }

/-- A connection as its member functions see it; what they put on the stack or into
    the queue is then moved to the loop. -/
def view (session : Session) (loop : Loop) (c : Nat) : TcpConnection.State :=
  { conn := session.conn
    queue := .empty
    timers := session.timers
    threads := fun _ => none
    phase := loop.phase
    active := c ∈ loop.activeChannels_
    current := loop.currentActiveChannel_ = some c
    todo := false
    stack := []
    home := session.loop_ = baseLoop
    introduced := true
    owned := true
    torn := false
    sends := session.sends
    fault := none
    hist := .empty }

def Session.absorb (session : Session) (t : TcpConnection.State) : Session :=
  { session with
    conn := t.conn
    timers := t.timers
    sends := t.sends
    told := session.told ++ t.hist.told }

def absorb (s : State) (i c : Nat) (session : Session) (t : TcpConnection.State) : State :=
  updateLoop { s with sessions := s.sessions.set c (session.absorb t) } i fun loop =>
    { loop with
      queue := (t.queue.waiting.map (Functor.connection c)).foldl Batch.push loop.queue
      stack := t.stack.map (lift c) ++ loop.stack }

def moments (c : Nat) : TcpConnection.Frame → List Moment
  | .run .connectEstablished => [.established c]
  | .run .connectDestroyed => [.destroyed c]
  | .closeCallback => [.closeCallback c]
  | _ => []

def pop (s : State) (i : Nat) : State :=
  updateLoop s i fun loop => { loop with stack := loop.stack.tail }

/-- A frame of connection `c`; closeCallback_ is bound to removeConnection. -/
def execConnection (s : State) (i c : Nat) (session : Session) (w : WriteResult) (r : ReadResult)
    (f : TcpConnection.Frame) : State :=
  match TcpConnection.execFrame (view session (s.loops i) c) w r f with
  | .error e => { s with fault := some (.connection e) }
  | .ok t =>
    let s := note (absorb (pop s i) i c session t) (moments c f)
    if f = .closeCallback then removeConnection s i c else s

inductive Label where
  | accept (setup : TcpConnection.Setup)
  | destroy
  | tearDown (c : Nat)
  | threadCall (n c : Nat) (call : Call)
  | threadPush (n : Nat)
  | queueTask (i : Nat)
  | poll (i : Nat) (active : List (Nat × Events))
  | otherCode (i : Nat)
  | dispatch (i : Nat)
  | fireTimer (i c : Nat)
  | endHandling (i : Nat)
  | nextFunctor (i : Nat)
  | endFunctors (i : Nat)
  | call (i c : Nat) (call : Call)
  | ret (i : Nat)
  | exec (i : Nat) (w : WriteResult) (r : ReadResult)

/-- The poller of loop `i` may return these events for this connection. -/
def mayReturn (s : State) (i : Nat) (a : Nat × Events) : Bool :=
  s.sessions[a.1]?.any fun session =>
    session.loop_ = i && session.conn.slot.interest.any fun interest => interest.Returnable a.2

def setRevents (active : List (Nat × Events)) (c : Nat) (session : Session) : Session :=
  match active.lookup c with
  | some ev => { session with conn :=
      { session.conn with channel_ := session.conn.channel_.set_revents ev } }
  | none => session

/-- The part of a frame's execution that depends on the frame; userCode and a
    destructor with connections left do not execute. -/
def exec (s : State) (i : Nat) (w : WriteResult) (r : ReadResult) : Frame → Option State
  | .userCode => none
  | .connection c f =>
    match s.sessions[c]? with
    | none => none
    | some session =>
      if f ≠ .userCode ∧ w.Possible (TcpConnection.writeLength (view session (s.loops i) c) f) then
        some (execConnection s i c session w r f)
      else none
  | .removeConnectionInLoop c =>
    (s.sessions[c]?).map fun session => removeConnectionInLoop (pop s i) c session
  | .destructor [] => some { pop s i with life := .dead }
  | .destructor (_ :: _) => none

def loopCall (s : State) (i c : Nat) (session : Session) (call : Call) : State :=
  absorb s i c session (TcpConnection.loopCall (view session (s.loops i) c) call)

/-- One step of the destructor's loop over connections_, in any order. -/
def tearDown (s : State) (c : Nat) (session : Session) (left : List Nat) (rest : List Frame) : State :=
  let s := updateLoop s baseLoop fun loop => { loop with stack := .destructor (left.erase c) :: rest }
  note (runInLoop s baseLoop session.loop_ (.connection c .connectDestroyed)) [.tornDown c]

/-- The tests of Channel::handleEventWithGuard, in their order. -/
def handleEvent (c : Nat) : List Frame :=
  [.connection c .hangUpTest, .connection c .errorTest, .connection c .readTest,
    .connection c .writeTest, .connection c .eventDone]

def dispatch (s : State) (i c : Nat) (session : Session) (todo : List Nat) : State :=
  let channel := { session.conn.channel_ with eventHandling_ := true }
  let session := { session with conn := { session.conn with channel_ := channel } }
  let s := updateLoop { s with sessions := s.sessions.set c session } i fun loop =>
    { loop with
      todo := todo
      currentActiveChannel_ := some c
      stack := handleEvent c ++ loop.stack }
  note s [.event c]

def step (s : State) (l : Label) : Option State :=
  if s.fault.isSome then none else
  match l with
  | .accept setup =>
    -- nextConnId_ is an int: at its largest value the increment is undefined
    if (s.loops baseLoop).phase = .handling ∧ (s.loops baseLoop).stack = [] ∧ s.life = .alive ∧
        s.server.nextConnId_ < 2 ^ 31 - 1 then
      some (newConnection
        (updateLoop s baseLoop fun loop => { loop with currentActiveChannel_ := none }) setup)
    else none
  | .destroy =>
    match (s.loops baseLoop).stack with
    | .userCode :: _ =>
      if s.life = .alive then
        some (enter { s with life := .destructing } baseLoop
          [.destructor (s.server.connections_.entries.map Sigma.snd)])
      else none
    | _ => none
  | .tearDown c =>
    match (s.loops baseLoop).stack, s.sessions[c]? with
    | .destructor left :: rest, some session =>
      if c ∈ left then some (tearDown s c session left rest) else none
    | _, _ => none
  | .threadCall n c call =>
    match s.threads n, s.sessions[c]? with
    | none, some session =>
      if session.told ≠ [] then
        let r := TcpConnection.checkAndSet (view session (s.loops session.loop_) c) (.other n) call
        some { s with
          sessions := s.sessions.set c (session.absorb r.1)
          threads := Function.update s.threads n (r.2.map fun q => (c, q.functor)) }
      else none
    | _, _ => none
  | .threadPush n =>
    match s.threads n with
    | none => none
    | some (c, f) => (s.sessions[c]?).map fun session =>
      queueInLoop { s with threads := Function.update s.threads n none } session.loop_
        (.connection c f)
  | .queueTask i => some (queueInLoop s i .task)
  | .poll i active =>
    if (s.loops i).phase = .polling ∧ (s.loops i).stack = [] ∧ (active.map Prod.fst).Nodup ∧
        active.all (mayReturn s i) = true then
      some (updateLoop { s with sessions := s.sessions.mapIdx (setRevents active) } i fun loop =>
        { loop with
          phase := .handling
          activeChannels_ := active.map Prod.fst
          todo := active.map Prod.fst })
    else none
  | .otherCode i =>
    if (s.loops i).phase ≠ .functors ∧ (s.loops i).stack = [] then
      some (updateLoop s i fun loop =>
        { loop with currentActiveChannel_ := none, stack := [.userCode] })
    else none
  | .dispatch i =>
    match (s.loops i).todo with
    | [] => none
    | c :: todo =>
      if (s.loops i).phase = .handling ∧ (s.loops i).stack = [] then
        (s.sessions[c]?).map fun session => dispatch s i c session todo
      else none
  | .fireTimer i c =>
    match s.sessions[c]? with
    | none => none
    | some session =>
      if (s.loops i).phase = .handling ∧ (s.loops i).stack = [] ∧ session.loop_ = i ∧
          0 < session.timers then
        let s := updateLoop s i fun loop => { loop with currentActiveChannel_ := none }
        some (loopCall s i c { session with timers := session.timers - 1 } .forceClose)
      else none
  | .endHandling i =>
    if (s.loops i).phase = .handling ∧ (s.loops i).stack = [] ∧ (s.loops i).todo = [] then
      some (updateLoop s i fun loop =>
        { loop with phase := .functors, currentActiveChannel_ := none, queue := loop.queue.swap })
    else none
  | .nextFunctor i =>
    if (s.loops i).phase = .functors ∧ (s.loops i).stack = [] then
      (s.loops i).queue.next.map fun next =>
        updateLoop s i fun loop => { loop with queue := next.2, stack := [next.1.frame] }
    else none
  | .endFunctors i =>
    if (s.loops i).phase = .functors ∧ (s.loops i).stack = [] ∧ (s.loops i).queue.batch = [] then
      some (updateLoop s i fun loop => { loop with phase := .polling })
    else none
  | .call i c call =>
    match (s.loops i).stack, s.sessions[c]? with
    | .userCode :: _, some session =>
      if session.loop_ = i ∧ session.told ≠ [] then some (loopCall s i c session call) else none
    | _, _ => none
  | .ret i =>
    match (s.loops i).stack with
    | .userCode :: _ => some (pop s i)
    | _ => none
  | .exec i w r =>
    match (s.loops i).stack with
    | [] => none
    | frame :: _ => exec s i w r frame

def machine : Machine State Label := ⟨step⟩

structure Setup where
  name_ : List Char
  listenAddr : InetAddress
  numThreads : Nat

def Loop.new : Loop := ⟨.empty, .polling, [], none, [], []⟩

/-- A started server whose pool has loops 1, 2, ..., numThreads. -/
def init (setup : Setup) : State :=
  { server :=
      { ipPort_ := setup.listenAddr.toIpPort
        name_ := setup.name_
        threadPool_ := ⟨(List.range setup.numThreads).map (· + 1), 0, by
          intro some
          exact List.length_pos_iff.mpr some⟩
        nextConnId_ := 1
        connections_ := ∅ }
    life := .alive
    sessions := []
    loops := fun _ => .new
    threads := fun _ => none
    fault := none
    late := 0
    journal := [] }

end TcpServer
end Muduo
