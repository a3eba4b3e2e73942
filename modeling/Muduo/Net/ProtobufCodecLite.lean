import Muduo.Lib.Loop
import Muduo.Net.BufferInt

/-!
ProtobufCodecLite.cc. The message type, its parsing and serialisation, and zlib's
adler32 are parameters; adler32 is a function of the bytes and the number of bytes
that a message is written in is the ByteSize() of that message. messageCallback_ and
errorCallback_ are recorded in the order of the calls, and so are the pointers and
lengths that rawCb_, validateChecksum, memcmp and parseFromBuffer are handed, as
positions relative to peek(). Int sums of tag_.size() are exact.
-/
namespace Muduo
open Lib

structure ProtobufCodecLite (M : Type) where
  tag_ : List UInt8
  rawCb_ : Option (List UInt8 → Bool)
  parseFromArray : List UInt8 → Option M
  serialize : M → List UInt8
  adler32 : List UInt8 → BitVec 32

namespace ProtobufCodecLite
variable {M : Type}

def kHeaderLen : Nat := 4
def kChecksumLen : Nat := 4
def kMaxMessageLen : Nat := 64 * 1024 * 1024

def kMinMessageLen (c : ProtobufCodecLite M) : Nat := c.tag_.length + kChecksumLen

inductive ErrorCode where
  | kNoError
  | kInvalidLength
  | kCheckSumError
  | kInvalidNameLen
  | kUnknownMessageType
  | kParseError
  deriving DecidableEq, Repr

inductive Event (M : Type) where
  | message (m : M)
  | error (e : ErrorCode)
  deriving DecidableEq, Repr

structure Span where
  start : Int
  length : Int
  deriving DecidableEq, Repr

def bytesAt (content : List UInt8) (s : Span) : List UInt8 :=
  (content.drop s.start.toNat).take s.length.toNat

def int32 (bytes : List UInt8) : BitVec 32 := BitVec.ofNat 32 (ofBigEndian bytes)

def asInt32 (content : List UInt8) (buf : Int) : BitVec 32 × List Span :=
  (int32 (bytesAt content ⟨buf, 4⟩), [⟨buf, 4⟩])

def checksum (c : ProtobufCodecLite M) (content : List UInt8) (buf len : Int) :
    BitVec 32 × List Span :=
  (c.adler32 (bytesAt content ⟨buf, len⟩), [⟨buf, len⟩])

def validateChecksum (c : ProtobufCodecLite M) (content : List UInt8) (buf len : Int) :
    Bool × List Span :=
  let (expectedCheckSum, read) := asInt32 content (buf + len - kChecksumLen)
  let (checkSum, read') := c.checksum content buf (len - kChecksumLen)
  (checkSum == expectedCheckSum, read ++ read')

def parse (c : ProtobufCodecLite M) (content : List UInt8) (buf len : Int) :
    Except ErrorCode M × List Span :=
  let (valid, read) := c.validateChecksum content buf len
  if valid then
    let tag : Span := ⟨buf, c.tag_.length⟩
    if bytesAt content tag = c.tag_ then
      let data : Span := ⟨buf + c.tag_.length, len - kChecksumLen - c.tag_.length⟩
      match c.parseFromArray (bytesAt content data) with
      | some m => (.ok m, read ++ [tag, data])
      | none => (.error .kParseError, read ++ [tag, data])
    else (.error .kUnknownMessageType, read ++ [tag])
  else (.error .kCheckSumError, read)

/-- Bytes that were passed on: for a frame of which size, with how many bytes in the
    buffer. -/
structure Passed where
  present : Nat
  frame : Int
  span : Span
  deriving DecidableEq, Repr

structure Session (M : Type) where
  buf : Buffer
  events : List (Event M)
  passed : List Passed

def Session.pass (s : Session M) (frame : Int) (spans : List Span) : Session M :=
  { s with passed := s.passed ++ spans.map fun span => ⟨s.buf.readableBytes, frame, span⟩ }

def onFrame (c : ProtobufCodecLite M) (s : Session M) (len : Int) :
    Checked (Session M × Bool) := do
  let s := s.pass (kHeaderLen + len) (c.rawCb_.toList.map fun _ => ⟨0, kHeaderLen + len⟩)
  if c.rawCb_.any fun raw => !raw (bytesAt s.buf.readable ⟨0, kHeaderLen + len⟩) then
    let buf ← s.buf.retrieve (kHeaderLen + len).toNat
    pure ({ s with buf := buf }, true)
  else
    let (parsed, spans) := c.parse s.buf.readable kHeaderLen len
    let s := s.pass (kHeaderLen + len) spans
    match parsed with
    | .ok m =>
      let buf ← s.buf.retrieve (kHeaderLen + len).toNat
      pure ({ s with buf := buf, events := s.events ++ [.message m] }, true)
    | .error e => pure ({ s with events := s.events ++ [.error e] }, false)

def turn (c : ProtobufCodecLite M) (s : Session M) : Checked (Session M × Bool) := do
  if c.kMinMessageLen + kHeaderLen ≤ s.buf.readableBytes then
    let len ← s.buf.peekInt32
    let len := len.toInt
    if kMaxMessageLen < len ∨ len < c.kMinMessageLen then
      pure ({ s with events := s.events ++ [.error .kInvalidLength] }, false)
    else if (kHeaderLen + len).toNat ≤ s.buf.readableBytes then c.onFrame s len
    else pure (s, false)
  else pure (s, false)

/-- Every turn that goes on takes bytes out of the buffer. -/
def onMessage (c : ProtobufCodecLite M) (buf : Buffer) : Checked (Option (Session M)) :=
  whileLoop c.turn (buf.readableBytes + 1) ⟨buf, [], []⟩

def serializeToBuffer (c : ProtobufCodecLite M) (message : M) (buf : Buffer) :
    Checked (Buffer × Nat) := do
  let byte_size := (c.serialize message).length
  let buf ← buf.ensureWritableBytes (byte_size + kChecksumLen)
  let buf ← buf.writeThenHasWritten (c.serialize message)
  pure (buf, byte_size)

def fillEmptyBuffer (c : ProtobufCodecLite M) (buf : Buffer) (message : M) : Checked Buffer := do
  assertThat (buf.readableBytes = 0) "buf->readableBytes() == 0"
  let buf ← buf.append c.tag_
  let (buf, byte_size) ← c.serializeToBuffer message buf
  let (checkSum, _) := c.checksum buf.readable 0 (BitVec.ofNat 32 buf.readableBytes).toInt
  let buf ← buf.appendInt32 checkSum
  assertThat (buf.readableBytes = c.tag_.length + byte_size + kChecksumLen)
    "buf->readableBytes() == tag_.size() + byte_size + kChecksumLen"
  buf.prepend (bigEndian 4 (BitVec.ofNat 32 buf.readableBytes).toNat)

end ProtobufCodecLite
end Muduo
