import Muduo.Net.ProtobufCodecLiteStream
import Muduo.Net.ProtobufCodecLiteWire
import Muduo.Net.RpcChannelRuns

/-!
Two channels of RpcChannel.cc joined by byte streams. codec_.send writes the frame of a
message behind the bytes that are under way to the other side. Any number of these bytes
may come at a time; they are appended to the inputBuffer_ of that side, the codec takes the
complete frames out of it, and onRpcMessage runs for each message. What a channel sends
meanwhile goes to the other stream, so that the buffer may be brought up to date first.

The conversions of protobuf and the checksum are parameters. The packets that were sent and
those that were handled are recorded, with the numbers of the calls, which are not read.
The error callback is recorded; the shutdown that it asks for is left out.
-/
namespace Muduo
open Lib
namespace Rpc

structure Protobuf where
  parseFromArray : List UInt8 → Option RpcMessage
  serialize : RpcMessage → List UInt8
  adler32 : List UInt8 → BitVec 32

def Protobuf.codec_ (p : Protobuf) : ProtobufCodecLite RpcMessage :=
  ⟨[82, 80, 67, 48], none, p.parseFromArray, p.serialize, p.adler32⟩

/-- Two channels and the two streams, each known by the side that it leads to. -/
structure Joint where
  channel : System := {}
  pipe : Bool → List UInt8 := fun _ => []
  inputBuffer_ : Bool → Buffer
  sent : Bool → List Packet := fun _ => []
  handled : Bool → List Packet := fun _ => []
  errors : Bool → List ProtobufCodecLite.ErrorCode := fun _ => []

def numbered : List Nat → List RpcMessage → List Packet
  | _, [] => []
  | [], m :: ms => ⟨0, m⟩ :: numbered [] ms
  | call :: calls, m :: ms => ⟨call, m⟩ :: numbered calls ms

namespace Joint

def flying (s : Joint) (b : Bool) : List Packet := (s.sent b).drop (s.handled b).length

variable (services : Bool → Option Services) (protobuf : Protobuf)

def put (s : Joint) (b : Bool) (p : Packet) : Checked Joint := do
  let bytes ← protobuf.codec_.encode p.message
  pure { s with
    pipe := Function.update s.pipe b (s.pipe b ++ bytes)
    sent := Function.update s.sent b (s.sent b ++ [p]) }

def putAll (b : Bool) : List Packet → Joint → Checked Joint
  | [], s => pure s
  | p :: ps, s => do
    let s ← s.put protobuf b p
    putAll b ps s

def post (s : Joint) (channel : System) (b : Bool) : Checked Joint :=
  putAll protobuf b (channel.side b).inbox { s with channel := channel.setInbox b [] }

def handle (b : Bool) : List Packet → Joint → Checked Joint
  | [], s => pure s
  | p :: ps, s => do
    let channel ← onRpcMessage services s.channel b p
    let s ← s.post protobuf channel !b
    handle b ps s

def read (s : Joint) (b : Bool) (n : Nat) (buf : Buffer) (packets : List Packet)
    (errors : List ProtobufCodecLite.ErrorCode) : Joint :=
  { s with
    pipe := Function.update s.pipe b ((s.pipe b).drop n)
    inputBuffer_ := Function.update s.inputBuffer_ b buf
    handled := Function.update s.handled b (s.handled b ++ packets)
    errors := Function.update s.errors b (s.errors b ++ errors) }

/-- The next bytes come to side b, and RpcChannel::onMessage runs. -/
def arrive (s : Joint) (b : Bool) (n : Nat) : Checked Joint := do
  let buf ← (s.inputBuffer_ b).append ((s.pipe b).take n)
  match ← protobuf.codec_.onMessage buf with
  | none => .error "onMessage does not return"
  | some session =>
    let packets := numbered ((s.flying b).map Packet.call)
      (ProtobufCodecLite.messages session.events)
    handle services protobuf b packets
      (s.read b n session.buf packets (ProtobufCodecLite.errors session.events))

end Joint

def Label.side : Label → Bool
  | .number b _ => b
  | .register b _ => b
  | .send b _ => b
  | .receive b => b
  | .done b _ _ => b

namespace Joint

inductive Label where
  | act (l : Rpc.Label)
  | arrive (b : Bool) (n : Nat)

variable (services : Bool → Option Services) (protobuf : Protobuf)

def perform (s : Joint) : Label → Option (Checked Joint)
  | .act l => (Rpc.perform services s.channel l).map fun performed => do
    let channel ← performed
    s.post protobuf channel !l.side
  | .arrive b n =>
    if 0 < n ∧ n ≤ (s.pipe b).length then some (s.arrive services protobuf b n) else none

def faults : Faults Joint :=
  ⟨fun s => s.channel.fault, fun s e => { s with channel := Rpc.faults.fail s.channel e }⟩

def machine : Machine Joint Label := faults.machine (perform services protobuf)

end Joint
end Rpc
end Muduo
