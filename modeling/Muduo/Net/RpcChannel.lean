import Mathlib.Algebra.Group.Nat.Defs
import Mathlib.Logic.Function.Basic
import Muduo.Lib.Faults

/-!
RpcChannel.cc: two channels joined by a reliable stream of messages in each direction.
Both sides may call and serve. CallMethod is three steps, between which other calls and the
loop thread may run: it takes an id, it registers the call, it sends the REQUEST. The loop
thread handles one message at a time; after it has taken a call out of the map it touches
only the objects of that call, so that handling a message is one step. A service that was
called runs its done closure once, at any later time, with any response.

The descriptors and the parsing of protobuf are parameters. An id is the int64_t that both
sides convert the fixed64 of the message to. A response object and a done closure are
known by the number of the call that they were given to; a null pointer is none. The
number of the call goes along with each message and is not read.
-/
namespace Muduo
open Lib
namespace Rpc

inductive MessageType where
  | REQUEST | RESPONSE | ERROR
  deriving DecidableEq, Repr

inductive ErrorCode where
  | NO_ERROR | WRONG_PROTO | NO_SERVICE | NO_METHOD | INVALID_REQUEST | INVALID_RESPONSE | TIMEOUT
  deriving DecidableEq, Repr

structure RpcMessage where
  type : MessageType
  id : Int
  service : Option String := none
  method : Option String := none
  request : Option (List UInt8) := none
  response : Option (List UInt8) := none
  error : Option ErrorCode := none
  deriving DecidableEq, Repr

structure Services where
  service : String → Bool
  method : String → String → Bool
  parses : String → String → List UInt8 → Bool

structure OutstandingCall where
  response : Option Nat
  done : Option Nat
  deriving DecidableEq, Repr

inductive Point where
  | numbered | registered | sent
  deriving DecidableEq, Repr

structure Call where
  service : String
  method : String
  request : List UInt8
  response : Bool
  done : Bool
  id : Int := 0
  point : Point := .numbered
  filled : Option (List UInt8) := none
  ran : Nat := 0
  deriving DecidableEq, Repr

/-- The side of a channel that calls. The calls whose REQUEST was sent and those whose
    RESPONSE was handled are recorded by number. -/
structure Caller where
  id_ : Int := 0
  outstandings_ : Int → Option OutstandingCall := fun _ => none
  calls : List Call := []
  sent : List Nat := []
  processed : List Nat := []

structure Execution where
  call : Nat
  request : RpcMessage
  deriving DecidableEq, Repr

structure Reply where
  call : Nat
  request : RpcMessage
  response : RpcMessage
  deriving DecidableEq, Repr

/-- The side of a channel that serves. The REQUESTs that were handled, the executions that
    ran their done closure, with the response, and the RESPONSEs that were sent are recorded. -/
structure Server where
  received : List Nat := []
  executions : List Execution := []
  finished : List (Execution × List UInt8) := []
  replies : List Reply := []

structure Packet where
  call : Nat
  message : RpcMessage
  deriving DecidableEq, Repr

structure Side where
  caller : Caller := {}
  server : Server := {}
  inbox : List Packet := []

def incrementAndGet (value : Int) : Int := Int.bmod (value + 1) (2 ^ 64)

def Call.requestMessage (c : Call) : RpcMessage :=
  { type := .REQUEST, id := c.id, service := some c.service, method := some c.method
    request := some c.request }

def Call.outstanding (c : Call) (k : Nat) : OutstandingCall :=
  ⟨if c.response then some k else none, if c.done then some k else none⟩

namespace Caller

def number (s : Caller) (c : Call) : Caller :=
  { s with
    id_ := incrementAndGet s.id_
    calls := s.calls ++ [{ c with
      id := incrementAndGet s.id_, point := .numbered, filled := none, ran := 0 }] }

def register (s : Caller) (k : Nat) (c : Call) : Caller :=
  { s with
    outstandings_ := Function.update s.outstandings_ c.id (some (c.outstanding k))
    calls := s.calls.modify k fun c => { c with point := .registered } }

def send (s : Caller) (k : Nat) : Caller :=
  { s with
    calls := s.calls.modify k fun c => { c with point := .sent }
    sent := s.sent ++ [k] }

def fill (s : Caller) (object : Nat) (bytes : List UInt8) : Caller :=
  { s with calls := s.calls.modify object fun c => { c with filled := some bytes } }

def run (s : Caller) (closure : Nat) : Caller :=
  { s with calls := s.calls.modify closure fun c => { c with ran := c.ran + 1 } }

def finish (s : Caller) (out : OutstandingCall) (message : RpcMessage) : Caller :=
  match out.response with
  | none => s
  | some object =>
    let s := match message.response with
      | some bytes => s.fill object bytes
      | none => s
    match out.done with
    | some closure => s.run closure
    | none => s

def onResponse (s : Caller) (message : RpcMessage) : Checked Caller := do
  assertThat (message.response.isSome ∨ message.error.isSome)
    "message.has_response() || message.has_error()"
  match s.outstandings_ message.id with
  | none => pure s
  | some out =>
    let s := { s with outstandings_ := Function.update s.outstandings_ message.id none }
    pure (s.finish out message)

end Caller

def lookup (services_ : Option Services) (message : RpcMessage) : ErrorCode :=
  let service := message.service.getD ""
  let method := message.method.getD ""
  match services_ with
  | none => .NO_SERVICE
  | some services =>
    if services.service service then
      if services.method service method then
        if services.parses service method (message.request.getD []) then .NO_ERROR
        else .INVALID_REQUEST
      else .NO_METHOD
    else .NO_SERVICE

namespace Server

def reply (s : Server) (call : Nat) (request response : RpcMessage) : Server × Packet :=
  ({ s with replies := s.replies ++ [⟨call, request, response⟩] }, ⟨call, response⟩)

def onRequest (s : Server) (services_ : Option Services) (call : Nat) (message : RpcMessage) :
    Server × List Packet :=
  let s := { s with received := s.received ++ [call] }
  let error := lookup services_ message
  if error = .NO_ERROR then
    ({ s with executions := s.executions ++ [⟨call, message⟩] }, [])
  else
    let (s, packet) := s.reply call message
      { type := .RESPONSE, id := message.id, error := some error }
    (s, [packet])

def doneCallback (s : Server) (i : Nat) (e : Execution) (response : List UInt8) : Server × Packet :=
  { s with
    executions := s.executions.eraseIdx i
    finished := s.finished ++ [(e, response)] }.reply e.call e.request
    { type := .RESPONSE, id := e.request.id, response := some response }

end Server

structure System where
  side : Bool → Side := fun _ => {}
  fault : Option String := none

inductive Label where
  | number (b : Bool) (c : Call)
  | register (b : Bool) (k : Nat)
  | send (b : Bool) (k : Nat)
  | receive (b : Bool)
  | done (b : Bool) (i : Nat) (response : List UInt8)

namespace System

def setCaller (s : System) (b : Bool) (caller : Caller) : System :=
  { s with side := Function.update s.side b { s.side b with caller } }

def setServer (s : System) (b : Bool) (server : Server) : System :=
  { s with side := Function.update s.side b { s.side b with server } }

def setInbox (s : System) (b : Bool) (inbox : List Packet) : System :=
  { s with side := Function.update s.side b { s.side b with inbox } }

def deliver (s : System) (b : Bool) (packets : List Packet) : System :=
  s.setInbox (!b) ((s.side !b).inbox ++ packets)

end System

variable (services : Bool → Option Services)

def onRpcMessage (s : System) (b : Bool) (p : Packet) : Checked System :=
  match p.message.type with
  | .RESPONSE => do
    let caller ← (s.side b).caller.onResponse p.message
    pure (s.setCaller b { caller with processed := caller.processed ++ [p.call] })
  | .REQUEST =>
    let (server, packets) := (s.side b).server.onRequest (services b) p.call p.message
    pure ((s.setServer b server).deliver b packets)
  | .ERROR => pure s

def perform (s : System) : Label → Option (Checked System)
  | .number b c => some (.ok (s.setCaller b ((s.side b).caller.number c)))
  | .register b k =>
    match (s.side b).caller.calls[k]? with
    | some c =>
      if c.point = .numbered then some (.ok (s.setCaller b ((s.side b).caller.register k c)))
      else none
    | none => none
  | .send b k =>
    match (s.side b).caller.calls[k]? with
    | some c =>
      if c.point = .registered then
        some (.ok ((s.setCaller b ((s.side b).caller.send k)).deliver b [⟨k, c.requestMessage⟩]))
      else none
    | none => none
  | .receive b =>
    match (s.side b).inbox with
    | p :: rest => some (onRpcMessage services (s.setInbox b rest) b p)
    | [] => none
  | .done b i response =>
    match (s.side b).server.executions[i]? with
    | some e =>
      let (server, packet) := (s.side b).server.doneCallback i e response
      some (.ok ((s.setServer b server).deliver b [packet]))
    | none => none

def faults : Faults System := ⟨System.fault, fun s e => { s with fault := some e }⟩

def machine : Machine System Label := faults.machine (perform services)

end Rpc
end Muduo
