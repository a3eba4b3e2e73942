import Muduo.Lib.Batch
import Muduo.Lib.Machine
import Muduo.Net.Buffer
import Muduo.Net.EPollPoller

/-!
TcpConnection.cc, with the part of Channel::handleEventWithGuard and EventLoop
that drives it. `Conn` is the object; the functions on it are the member
functions that run in the loop thread, given what the kernel answers. `State` is
one connection inside its event loop: the loop thread works through a stack of
frames, one frame for each point at which user code may run or another thread
may be seen, and other threads enter the API at any moment. Logging, socket
options, addresses and object lifetime are left out; the bytes read go to
inputBuffer_, which no function here looks at.
-/
namespace Muduo
open Lib
namespace TcpConnection

inductive StateE where
  | kDisconnected
  | kConnecting
  | kConnected
  | kDisconnecting
  deriving DecidableEq, Repr

inductive Caller where
  | loop
  | other (t : Nat)
  deriving DecidableEq, Repr

/-- A send() call with its bytes; the id counts the calls of a run. -/
structure Message where
  caller : Caller
  id : Nat
  bytes : List UInt8
  deriving DecidableEq, Repr

/-- What loop_ can hold for this connection; `task` is any functor of others. -/
inductive Functor where
  | sendInLoop (message : Message)
  | shutdownInLoop
  | forceCloseInLoop
  | startReadInLoop
  | stopReadInLoop
  | addTimerInLoop
  | connectEstablished
  | connectDestroyed
  | writeCompleteCallback
  | highWaterMarkCallback (size : Nat)
  | task
  deriving DecidableEq, Repr

inductive Errno where
  | EWOULDBLOCK
  | EPIPE
  | ECONNRESET
  | other (code : Nat)
  deriving DecidableEq, Repr

inductive WriteResult where
  | written (n : Nat)
  | failed (e : Errno)
  deriving DecidableEq, Repr

inductive ReadResult where
  | data
  | endOfFile
  | failed
  deriving DecidableEq, Repr

def Errno.fatal (e : Errno) : Bool := e = .EPIPE || e = .ECONNRESET

def WriteResult.Possible (w : WriteResult) (len : Nat) : Prop :=
  match w with
  | .written n => n ≤ len
  | .failed _ => True

instance (w : WriteResult) (len : Nat) : Decidable (w.Possible len) := by
  cases w <;> simp only [WriteResult.Possible] <;> infer_instance

structure Conn where
  state_ : StateE
  reading_ : Bool
  channel_ : Channel
  slot : Slot
  outputBuffer_ : Buffer
  highWaterMark_ : Nat
  writeCompleteCallback_ : Bool
  highWaterMarkCallback_ : Bool
  deriving DecidableEq, Repr

/-- What a member function does besides changing the object: bytes the socket took,
    a fatal write error, functors queued in loop_, calls of updateChannel. -/
structure Output where
  accepted : List UInt8 := []
  broken : Bool := false
  queued : List Functor := []
  updates : Nat := 0

def Output.also (a b : Output) : Output :=
  ⟨a.accepted ++ b.accepted, a.broken || b.broken, a.queued ++ b.queued, a.updates + b.updates⟩

namespace Conn

def alive (c : Conn) : Prop := c.state_ = .kConnected ∨ c.state_ = .kDisconnecting

instance (c : Conn) : Decidable c.alive := inferInstanceAs (Decidable (_ ∨ _))

def setChannel (c : Conn) (r : Channel × Slot) : Conn := { c with channel_ := r.1, slot := r.2 }

def writeComplete (c : Conn) : List Functor :=
  if c.writeCompleteCallback_ then [.writeCompleteCallback] else []

def highWater (c : Conn) (remaining : Nat) : List Functor :=
  let oldLen := c.outputBuffer_.readableBytes
  if c.highWaterMark_ ≤ oldLen + remaining ∧ oldLen < c.highWaterMark_ ∧
      c.highWaterMarkCallback_ = true then
    [.highWaterMarkCallback (oldLen + remaining)]
  else []

def tryWrite (c : Conn) (data : List UInt8) (w : WriteResult) : Nat × Bool × Output :=
  if c.channel_.isWriting = false ∧ c.outputBuffer_.readableBytes = 0 then
    match w with
    | .written n =>
      let remaining := data.length - n
      (n, false,
        { accepted := data.take n, queued := if remaining = 0 then c.writeComplete else [] })
    | .failed e => (0, e.fatal, { broken := e.fatal })
  else (0, false, {})

/-- The second half of sendInLoop: what was not written goes to outputBuffer_. -/
def bufferRest (c : Conn) (rest : List UInt8) : Checked (Conn × Output) := do
  let queued := c.highWater rest.length
  let buffer ← c.outputBuffer_.append rest
  let c := { c with outputBuffer_ := buffer }
  if c.channel_.isWriting = false then
    let r ← c.channel_.enableWriting c.slot
    pure (c.setChannel r, { queued := queued, updates := 1 })
  else
    pure (c, { queued := queued })

def sendInLoop (c : Conn) (data : List UInt8) (w : WriteResult) : Checked (Conn × Output) := do
  if c.state_ = .kDisconnected then
    pure (c, {})
  else
    let (nwrote, faultError, out) := c.tryWrite data w
    let remaining := data.length - nwrote
    assertThat (remaining ≤ data.length) "remaining <= len"
    if faultError = false ∧ 0 < remaining then
      let (c, more) ← c.bufferRest (data.drop nwrote)
      pure (c, out.also more)
    else
      pure (c, out)

/-- The flag says that outputBuffer_ was drained, so that state_ is tested next. -/
def handleWrite (c : Conn) (w : WriteResult) : Checked (Conn × Output × Bool) := do
  if c.channel_.isWriting then
    match w with
    | .written (n + 1) =>
      let took := c.outputBuffer_.readable.take (n + 1)
      let buffer ← c.outputBuffer_.retrieve (n + 1)
      let c := { c with outputBuffer_ := buffer }
      if buffer.readableBytes = 0 then
        let r ← c.channel_.disableWriting c.slot
        pure (c.setChannel r,
          { accepted := took, queued := c.writeComplete, updates := 1 }, true)
      else
        pure (c, { accepted := took }, false)
    | .written 0 => pure (c, {}, false)
    | .failed e => pure (c, { broken := e.fatal }, false)
  else
    pure (c, {}, false)

def startReadInLoop (c : Conn) : Checked (Conn × Output) := do
  if c.reading_ = false ∨ c.channel_.isReading = false then
    let r ← c.channel_.enableReading c.slot
    pure ({ c.setChannel r with reading_ := true }, { updates := 1 })
  else
    pure (c, {})

def stopReadInLoop (c : Conn) : Checked (Conn × Output) := do
  if c.reading_ = true ∨ c.channel_.isReading = true then
    let r ← c.channel_.disableReading c.slot
    pure ({ c.setChannel r with reading_ := false }, { updates := 1 })
  else
    pure (c, {})

/-- connectEstablished up to the call of connectionCallback_. -/
def connectEstablished (c : Conn) : Checked (Conn × Output) := do
  assertThat (c.state_ = .kConnecting) "state_ == kConnecting"
  let r ← c.channel_.tie.enableReading c.slot
  pure ({ c.setChannel r with state_ := .kConnected }, { updates := 1 })

def disconnect (c : Conn) : Checked (Conn × Output) := do
  let r ← c.channel_.disableAll c.slot
  pure ({ c.setChannel r with state_ := .kDisconnected }, { updates := 1 })

/-- handleClose up to the call of connectionCallback_. -/
def handleClose (c : Conn) : Checked (Conn × Output) := do
  assertThat c.alive "state_ == kConnected || state_ == kDisconnecting"
  c.disconnect

end Conn

inductive Told where
  | up
  | down
  deriving DecidableEq, Repr

inductive Frame where
  | userCode
  | run (f : Functor)
  | queueForceClose
  | hangUpTest
  | errorTest
  | readTest
  | writeTest
  | eventDone
  | connectionCallback (told : Told)
  | closeCallback
  | drainedTest
  | removeChannel
  deriving DecidableEq, Repr

inductive Phase where
  | polling
  | handling
  | functors
  deriving DecidableEq, Repr

/-- The situation in which shutdownWrite() was called on the socket. -/
structure HalfClose where
  promised : List Message
  ran : List Message
  accepted : List UInt8
  deriving DecidableEq, Repr

/-- Bookkeeping that no step reads: the send() calls that found kConnected, those
    that returned, those whose sendInLoop has run, the bytes the socket took, the
    invocations of the callbacks, and the send() calls that had returned when
    shutdown() found kConnected. -/
structure History where
  called : List Message
  returned : List Message
  ran : List Message
  accepted : List UInt8
  broken : Bool
  told : List Told
  closes : Nat
  closed : Bool
  removals : Nat
  lateUpdates : Nat
  promised : List Message
  halfCloses : List HalfClose
  deriving DecidableEq, Repr

structure State where
  conn : Conn
  queue : Batch Functor
  timers : Nat
  threads : Nat → Option Functor
  phase : Phase
  active : Bool
  current : Bool
  todo : Bool
  stack : List Frame
  home : Bool
  introduced : Bool
  owned : Bool
  torn : Bool
  sends : Nat
  fault : Option String
  hist : History

inductive Call where
  | send (bytes : List UInt8)
  | shutdown
  | forceClose
  | forceCloseWithDelay
  | startRead
  | stopRead
  deriving DecidableEq, Repr

inductive Request where
  | runInLoop (f : Functor)
  | queueForceClose
  deriving DecidableEq, Repr

/-- The part of an API function before loop_ is called: its check-and-set of
    state_ is one step. -/
def checkAndSet (s : State) (caller : Caller) : Call → State × Option Request
  | .send bytes =>
    if s.conn.state_ = .kConnected then
      let m : Message := ⟨caller, s.sends, bytes⟩
      ({ s with sends := s.sends + 1, hist := { s.hist with called := s.hist.called ++ [m] } },
        some (.runInLoop (.sendInLoop m)))
    else (s, none)
  | .shutdown =>
    if s.conn.state_ = .kConnected then
      ({ s with
          conn := { s.conn with state_ := .kDisconnecting }
          hist := { s.hist with promised := s.hist.returned } },
        some (.runInLoop .shutdownInLoop))
    else (s, none)
  | .forceClose =>
    if s.conn.alive then
      ({ s with conn := { s.conn with state_ := .kDisconnecting } },
        some .queueForceClose)
    else (s, none)
  | .forceCloseWithDelay =>
    if s.conn.alive then
      ({ s with conn := { s.conn with state_ := .kDisconnecting } },
        some (.runInLoop .addTimerInLoop))
    else (s, none)
  | .startRead => (s, some (.runInLoop .startReadInLoop))
  | .stopRead => (s, some (.runInLoop .stopReadInLoop))

def Request.frame : Request → Frame
  | .runInLoop f => .run f
  | .queueForceClose => .queueForceClose

def Request.functor : Request → Functor
  | .runInLoop f => f
  | .queueForceClose => .forceCloseInLoop

def loopCall (s : State) (c : Call) : State :=
  let r := checkAndSet s .loop c
  { r.1 with stack := (r.2.map Request.frame).toList ++ r.1.stack }

def pushFunctor (s : State) (f : Functor) : State := { s with queue := s.queue.push f }

/-- Take over what a member function did. Updates after handleClose and before
    the removal of the channel are counted. -/
def deliver (s : State) (r : Conn × Output) : State :=
  let late := if s.hist.closed = true ∧ s.hist.removals = 0 then r.2.updates else 0
  { s with
    conn := r.1
    queue := r.2.queued.foldl Batch.push s.queue
    hist := { s.hist with
      accepted := s.hist.accepted ++ r.2.accepted
      broken := s.hist.broken || r.2.broken
      lateUpdates := s.hist.lateUpdates + late } }

def enter (s : State) (frames : List Frame) : State := { s with stack := frames ++ s.stack }

def handleClose (s : State) : Checked State := do
  let r ← s.conn.handleClose
  let s := deliver s r
  pure (enter { s with hist := { s.hist with closed := true } }
    [.connectionCallback .down, .closeCallback])

def shutdownInLoop (s : State) : State :=
  if s.conn.channel_.isWriting = false then
    let now : HalfClose := ⟨s.hist.promised, s.hist.ran, s.hist.accepted⟩
    { s with hist := { s.hist with halfCloses := s.hist.halfCloses ++ [now] } }
  else s

def connectDestroyed (s : State) : Checked State := do
  if s.conn.state_ = .kConnected then
    let r ← s.conn.disconnect
    pure (enter (deliver s r) [.connectionCallback .down, .removeChannel])
  else
    pure (enter s [.removeChannel])

/-- send() returns to a loop-thread caller when its sendInLoop has run. -/
def noteRan (h : History) (m : Message) : History :=
  { h with
    ran := h.ran ++ [m]
    returned := if m.caller = .loop then h.returned ++ [m] else h.returned }

def runFunctor (s : State) (w : WriteResult) : Functor → Checked State
  | .sendInLoop m => do
    let r ← s.conn.sendInLoop m.bytes w
    let s := deliver s r
    pure { s with hist := noteRan s.hist m }
  | .shutdownInLoop => pure (shutdownInLoop s)
  | .forceCloseInLoop => if s.conn.alive then handleClose s else pure s
  | .startReadInLoop => do
    let r ← s.conn.startReadInLoop
    pure (deliver s r)
  | .stopReadInLoop => do
    let r ← s.conn.stopReadInLoop
    pure (deliver s r)
  | .addTimerInLoop => pure { s with timers := s.timers + 1 }
  | .connectEstablished => do
    let r ← s.conn.connectEstablished
    pure (enter (deliver s r) [.connectionCallback .up])
  | .connectDestroyed => connectDestroyed s
  | .writeCompleteCallback => pure (enter s [.userCode])
  | .highWaterMarkCallback _ => pure (enter s [.userCode])
  | .task => pure (enter s [.userCode])

def loopView (s : State) : Channel.LoopView :=
  ⟨s.phase = .handling, s.current, s.active⟩

/-- One frame of the loop thread, already taken off the stack. handleError only
    reads SO_ERROR for the log. -/
def execFrame (s : State) (w : WriteResult) (r : ReadResult) : Frame → Checked State
  | .userCode => pure s
  | .run f => runFunctor s w f
  | .queueForceClose => pure (pushFunctor s .forceCloseInLoop)
  | .hangUpTest =>
    if s.conn.channel_.revents_.pollhup ∧ s.conn.channel_.revents_.pollin = false then
      handleClose s
    else pure s
  | .errorTest => pure s
  | .readTest =>
    if s.conn.channel_.revents_.meets { pollin := true, pollpri := true, pollrdhup := true } then
      match r with
      | .data => pure (enter s [.userCode])
      | .endOfFile => handleClose s
      | .failed => pure s
    else pure s
  | .writeTest =>
    if s.conn.channel_.revents_.pollout then do
      let (c, out, drained) ← s.conn.handleWrite w
      pure (enter (deliver s (c, out)) (if drained then [.drainedTest] else []))
    else pure s
  | .eventDone =>
    let c := { s.conn with channel_ := { s.conn.channel_ with eventHandling_ := false } }
    pure { s with conn := c }
  | .connectionCallback told =>
    pure (enter { s with hist := { s.hist with told := s.hist.told ++ [told] } } [.userCode])
  | .closeCallback => pure { s with hist := { s.hist with closes := s.hist.closes + 1 } }
  | .drainedTest => if s.conn.state_ = .kDisconnecting then pure (shutdownInLoop s) else pure s
  | .removeChannel => do
    let r ← s.conn.channel_.remove (loopView s) s.conn.slot
    pure { s with
      conn := s.conn.setChannel r
      hist := { s.hist with removals := s.hist.removals + 1 } }

/-- The length the frame would pass to write(2), were it to write. -/
def writeLength (s : State) : Frame → Nat
  | .run (.sendInLoop m) => m.bytes.length
  | _ => s.conn.outputBuffer_.readableBytes

inductive Label where
  | threadCall (t : Nat) (c : Call)
  | threadPush (t : Nat)
  | queueTask
  | introduce
  | ownerRemoves
  | ownerTearsDown
  | poll (revents : Option Events)
  | otherCode
  | dispatch
  | fireTimer
  | endHandling
  | nextFunctor
  | endFunctors
  | call (c : Call)
  | ret
  | exec (w : WriteResult) (r : ReadResult)
  deriving DecidableEq, Repr

def threadPush (s : State) (t : Nat) (f : Functor) : State :=
  let s := pushFunctor { s with threads := Function.update s.threads t none } f
  match f with
  | .sendInLoop m => { s with hist := { s.hist with returned := s.hist.returned ++ [m] } }
  | _ => s

/-- TcpServer runs a functor in the loop of the connection: at once from its own
    code when that is the same loop, queued otherwise. -/
def ownerRuns (s : State) (f : Functor) : Option State :=
  if s.home then
    match s.stack with
    | .userCode :: _ => some (enter s [.run f])
    | _ => none
  else some (pushFunctor s f)

def settle (s : State) : Checked State → State
  | .ok t => t
  | .error e => { s with fault := some e }

def step (s : State) (l : Label) : Option State :=
  if s.fault.isSome then none else
  match l with
  | .threadCall t c =>
    if s.threads t = none then
      let r := checkAndSet s (.other t) c
      some { r.1 with threads := Function.update s.threads t (r.2.map Request.functor) }
    else none
  | .threadPush t => (s.threads t).map (threadPush s t)
  | .queueTask => some (pushFunctor s .task)
  | .introduce =>
    if s.introduced = false then ownerRuns { s with introduced := true } .connectEstablished
    else none
  | .ownerRemoves =>
    if s.owned = true ∧ 0 < s.hist.closes then
      some (pushFunctor { s with owned := false } .connectDestroyed)
    else none
  | .ownerTearsDown =>
    if s.owned = true ∧ s.introduced = true then
      ownerRuns { s with owned := false, torn := true } .connectDestroyed
    else none
  | .poll revents =>
    if s.phase = .polling ∧ s.stack = [] then
      match revents, s.conn.slot.interest with
      | none, _ => some { s with phase := .handling, active := false, todo := false }
      | some ev, some interest =>
        if interest.Returnable ev then
          let c := { s.conn with channel_ := s.conn.channel_.set_revents ev }
          some { s with conn := c, phase := .handling, active := true, todo := true }
        else none
      | some _, none => none
    else none
  | .otherCode =>
    if s.phase ≠ .functors ∧ s.stack = [] then
      some (enter { s with current := false } [.userCode])
    else none
  | .dispatch =>
    if s.phase = .handling ∧ s.stack = [] ∧ s.todo = true then
      let c := { s.conn with channel_ := { s.conn.channel_ with eventHandling_ := true } }
      some (enter { s with conn := c, todo := false, current := true }
        [.hangUpTest, .errorTest, .readTest, .writeTest, .eventDone])
    else none
  | .fireTimer =>
    if s.phase = .handling ∧ s.stack = [] ∧ 0 < s.timers then
      some (loopCall { s with timers := s.timers - 1, current := false } .forceClose)
    else none
  | .endHandling =>
    if s.phase = .handling ∧ s.stack = [] ∧ s.todo = false then
      some { s with phase := .functors, current := false, queue := s.queue.swap }
    else none
  | .nextFunctor =>
    if s.phase = .functors ∧ s.stack = [] then
      s.queue.next.map fun e => enter { s with queue := e.2 } [.run e.1]
    else none
  | .endFunctors =>
    if s.phase = .functors ∧ s.stack = [] ∧ s.queue.batch = [] then
      some { s with phase := .polling }
    else none
  | .call c =>
    match s.stack with
    | .userCode :: _ => some (loopCall s c)
    | _ => none
  | .ret =>
    match s.stack with
    | .userCode :: rest => some { s with stack := rest }
    | _ => none
  | .exec w r =>
    match s.stack with
    | [] => none
    | .userCode :: _ => none
    | frame :: rest =>
      if w.Possible (writeLength s frame) then
        some (settle s (execFrame { s with stack := rest } w r frame))
      else none

def machine : Machine State Label := ⟨step⟩

/-- What is fixed before connectEstablished: whether the owner lives in the same
    loop, which callbacks are set, and the descriptor. -/
structure Setup where
  home : Bool
  writeCompleteCallback_ : Bool := false
  highWaterMarkCallback_ : Bool := false
  highWaterMark_ : Nat := 64 * 1024 * 1024
  address : Nat := 0
  fd : Nat := 0

/-- The constructor of TcpConnection; outputBuffer_ is what Buffer's own constructor
    makes of its default size. -/
def Conn.new (setup : Setup) : Conn :=
  { state_ := .kConnecting
    reading_ := true
    channel_ := .new setup.address setup.fd
    slot := ⟨none, none⟩
    outputBuffer_ := ⟨Buffer.resize [] (Buffer.kCheapPrepend + Buffer.kInitialSize),
      Buffer.kCheapPrepend, Buffer.kCheapPrepend⟩
    highWaterMark_ := setup.highWaterMark_
    writeCompleteCallback_ := setup.writeCompleteCallback_
    highWaterMarkCallback_ := setup.highWaterMarkCallback_ }

theorem Conn.new_outputBuffer (setup : Setup) :
    Buffer.new Buffer.kInitialSize = .ok (Conn.new setup).outputBuffer_ := by
  simp [Buffer.new, Conn.new, Buffer.readableBytes, Buffer.writableBytes,
    Buffer.prependableBytes]

def History.empty : History :=
  { called := [], returned := [], ran := [], accepted := [], broken := false, told := []
    closes := 0, closed := false, removals := 0, lateUpdates := 0, promised := []
    halfCloses := [] }

/-- The owner holds a new connection and has not yet run connectEstablished. -/
def init (setup : Setup) : State :=
  { conn := .new setup
    queue := .empty
    timers := 0
    threads := fun _ => none
    phase := .polling
    active := false
    current := false
    todo := false
    stack := []
    home := setup.home
    introduced := false
    owned := true
    torn := false
    sends := 0
    fault := none
    hist := .empty }

end TcpConnection
end Muduo
