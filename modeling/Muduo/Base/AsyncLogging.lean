import Muduo.Lib.Faults
import Muduo.Lib.Text

/-!
AsyncLogging.cc and the FixedBuffer of LogStream.h. The callers of append and the back end
threadFunc run in any interleaving; what a party does under mutex_ is one step. The back
end steps from one program point to the next: the test of running_, the locked section,
the wait in it, during which mutex_ is free, the notice about dropped buffers, and one
step for each buffer that is written. Any time at all may end the wait. A run begins when
start() has returned.

A buffer is the list of the lines that were copied into it since it was last reset. A
moved-from pointer is none. The output is what LogFile::append has been given.
-/
namespace Muduo
open Lib

structure FixedBuffer (SIZE : Nat) where
  lines : List (List Char)
  fits : lines.flatten.length ≤ SIZE

namespace FixedBuffer
variable {SIZE : Nat}

def data (b : FixedBuffer SIZE) : List Char := b.lines.flatten

def length (b : FixedBuffer SIZE) : Nat := b.data.length

def avail (b : FixedBuffer SIZE) : Nat := SIZE - b.length

def empty : FixedBuffer SIZE := ⟨[], Nat.zero_le SIZE⟩

/-- A line that does not fit is not copied. -/
def append (b : FixedBuffer SIZE) (buf : List Char) : FixedBuffer SIZE :=
  if short : buf.length < b.avail then
    ⟨b.lines ++ [buf], by
      simp only [avail, length, data] at short
      simp only [List.flatten_append, List.flatten_cons, List.flatten_nil, List.append_nil,
        List.length_append]
      omega⟩
  else b

def reset (_ : FixedBuffer SIZE) : FixedBuffer SIZE := empty

end FixedBuffer

namespace AsyncLogging

def kLargeBuffer : Nat := 4000 * 1000

inductive Point where
  /-- Before the test of running_. -/
  | top
  /-- Before the locked section. -/
  | locking
  /-- In waitForSeconds. -/
  | asleep
  /-- Behind the locked section. -/
  | taken
  /-- In the loop over buffersToWrite, before the buffer of this index. -/
  | writing (i : Nat)
  | exited
  deriving DecidableEq, Repr

/-- What an iteration has taken in the locked section, and its notice if it gave one. -/
structure Iteration (SIZE : Nat) where
  batch : List (FixedBuffer SIZE)
  notice : List Char

/-- The variables of threadFunc, with the iterations that are over and the one that goes
    on. -/
structure BackEnd (SIZE : Nat) where
  point : Point := .top
  newBuffer1 : Option (FixedBuffer SIZE) := some .empty
  newBuffer2 : Option (FixedBuffer SIZE) := some .empty
  buffersToWrite : List (FixedBuffer SIZE) := []
  output : List Char := []
  stderr : List Char := []
  past : List (Iteration SIZE) := []
  present : Iteration SIZE := ⟨[], []⟩

end AsyncLogging

structure AsyncLogging (SIZE : Nat) where
  running_ : Bool := true
  currentBuffer_ : Option (FixedBuffer SIZE) := some .empty
  nextBuffer_ : Option (FixedBuffer SIZE) := some .empty
  buffers_ : List (FixedBuffer SIZE) := []
  backEnd : AsyncLogging.BackEnd SIZE := {}
  -- The lines in the order of append, and how many there were when stop() was called.
  appended : List (List Char) := []
  atStop : Option Nat := none
  joined : Bool := false
  fault : Option String := none

namespace AsyncLogging
variable {SIZE : Nat}

def start : AsyncLogging SIZE := {}

def append (s : AsyncLogging SIZE) (logline : List Char) : Checked (AsyncLogging SIZE) :=
  match s.currentBuffer_ with
  | none => .error "currentBuffer_"
  | some current =>
    let s := { s with appended := s.appended ++ [logline] }
    if logline.length < current.avail then
      pure { s with currentBuffer_ := some (current.append logline) }
    else
      -- nextBuffer_ is moved from if it is there, and a new buffer is made if not.
      pure { s with
        buffers_ := s.buffers_ ++ [current]
        currentBuffer_ := some ((s.nextBuffer_.getD .empty).append logline)
        nextBuffer_ := none }

def stop (s : AsyncLogging SIZE) : AsyncLogging SIZE :=
  { s with running_ := false, atStop := some s.appended.length }

namespace BackEnd

def loopTest (t : BackEnd SIZE) (running_ : Bool) : Checked (BackEnd SIZE) :=
  if running_ then do
    assertThat (t.newBuffer1.any fun b => b.length = 0) "newBuffer1 && newBuffer1->length() == 0"
    assertThat (t.newBuffer2.any fun b => b.length = 0) "newBuffer2 && newBuffer2->length() == 0"
    assertThat t.buffersToWrite.isEmpty "buffersToWrite.empty()"
    pure { t with point := .locking }
  else pure { t with point := .exited }

/-- Timestamp::toFormattedString fills at most 63 characters. -/
def droppedNotice (now : List Char) (larger : Nat) : List Char :=
  snprintf 256 ("Dropped log messages at ".toList ++ snprintf 64 now ++ ", ".toList ++
    decimal larger ++ " larger buffers\n".toList)

def dropLarger (t : BackEnd SIZE) (now : List Char) : Checked (BackEnd SIZE) := do
  assertThat (!t.buffersToWrite.isEmpty) "!buffersToWrite.empty()"
  if 25 < t.buffersToWrite.length then
    let buf := droppedNotice now (t.buffersToWrite.length - 2)
    pure { t with
      stderr := t.stderr ++ buf, output := t.output ++ buf
      buffersToWrite := t.buffersToWrite.take 2
      present := { t.present with notice := buf }, point := .writing 0 }
  else pure { t with point := .writing 0 }

/-- A newBuffer that was moved from takes the last buffer that was written. -/
def refill (newBuffer : Option (FixedBuffer SIZE)) (buffersToWrite : List (FixedBuffer SIZE)) :
    Checked (Option (FixedBuffer SIZE) × List (FixedBuffer SIZE)) := do
  if newBuffer.isNone then
    assertThat (!buffersToWrite.isEmpty) "!buffersToWrite.empty()"
    pure (buffersToWrite.getLast?.map FixedBuffer.reset, buffersToWrite.dropLast)
  else pure (newBuffer, buffersToWrite)

def recycle (t : BackEnd SIZE) : Checked (BackEnd SIZE) := do
  let kept := if 2 < t.buffersToWrite.length then t.buffersToWrite.take 2 else t.buffersToWrite
  let (newBuffer1, kept) ← refill t.newBuffer1 kept
  let (newBuffer2, _) ← refill t.newBuffer2 kept
  pure { t with
    newBuffer1, newBuffer2, buffersToWrite := []
    past := t.past ++ [t.present], present := ⟨[], []⟩, point := .top }

def write (t : BackEnd SIZE) (i : Nat) : Checked (BackEnd SIZE) :=
  match t.buffersToWrite[i]? with
  | some buffer => pure { t with output := t.output ++ buffer.data, point := .writing (i + 1) }
  | none => t.recycle

end BackEnd

def takeBuffers (s : AsyncLogging SIZE) : Checked (AsyncLogging SIZE) :=
  match s.currentBuffer_ with
  | none => .error "currentBuffer_"
  | some current =>
    let t := { s.backEnd with
      buffersToWrite := s.buffers_ ++ [current], newBuffer1 := none
      present := ⟨s.buffers_ ++ [current], []⟩, point := .taken }
    let s := { s with
      buffers_ := s.backEnd.buffersToWrite, currentBuffer_ := s.backEnd.newBuffer1 }
    if s.nextBuffer_.isNone then
      pure { s with nextBuffer_ := t.newBuffer2, backEnd := { t with newBuffer2 := none } }
    else pure { s with backEnd := t }

def lock (s : AsyncLogging SIZE) : Checked (AsyncLogging SIZE) :=
  if s.buffers_.isEmpty then pure { s with backEnd := { s.backEnd with point := .asleep } }
  else s.takeBuffers

def threadFunc (s : AsyncLogging SIZE) (now : List Char) : Option (Checked (AsyncLogging SIZE)) :=
  let continues (t : Checked (BackEnd SIZE)) := t.map fun t => { s with backEnd := t }
  match s.backEnd.point with
  | .top => some (continues (s.backEnd.loopTest s.running_))
  | .locking => some s.lock
  | .asleep => some s.takeBuffers
  | .taken => some (continues (s.backEnd.dropLarger now))
  | .writing i => some (continues (s.backEnd.write i))
  | .exited => none

inductive Label where
  | append (logline : List Char)
  | stop
  | join
  /-- The back end; the text is the time of day for the notice. -/
  | thread (now : List Char)
  deriving DecidableEq, Repr

def perform (s : AsyncLogging SIZE) : Label → Option (Checked (AsyncLogging SIZE))
  | .append logline => some (s.append logline)
  | .stop => if s.atStop = none then some (.ok s.stop) else none
  | .join =>
    if s.atStop ≠ none ∧ s.joined = false ∧ s.backEnd.point = .exited then
      some (.ok { s with joined := true })
    else none
  | .thread now => s.threadFunc now

def faults : Faults (AsyncLogging SIZE) :=
  ⟨AsyncLogging.fault, fun s e => { s with fault := some e }⟩

def machine : Machine (AsyncLogging SIZE) Label := faults.machine perform

end AsyncLogging
end Muduo
