import Muduo.Lib.Checked
import Muduo.Lib.Search
import Muduo.Lib.Window

/-!
Buffer.h: a byte vector with a reader and a writer index. Every operation is the
body of the member function, with its assertions; a pointer into the vector is
an index from begin(). The accessors readableBytes, writableBytes and
prependableBytes are the three segments of the class diagram. size_t sums are
unbounded Nat here, so the results hold of runs in which no size_t sum overflows.
-/
namespace Muduo
open Lib

structure Buffer where
  buffer_ : List UInt8
  readerIndex_ : Nat
  writerIndex_ : Nat
  deriving DecidableEq, Repr

namespace Buffer
variable {b : Buffer} {bytes data : List UInt8} {i len : Nat}

def kCheapPrepend : Nat := 8
def kInitialSize : Nat := 1024

def readableBytes (b : Buffer) : Nat := b.writerIndex_ - b.readerIndex_
def writableBytes (b : Buffer) : Nat := b.buffer_.length - b.writerIndex_
def prependableBytes (b : Buffer) : Nat := b.readerIndex_

/-- std::vector::resize: the tail is cut off or filled with zero bytes. -/
def resize (xs : List UInt8) (n : Nat) : List UInt8 :=
  xs.take n ++ List.replicate (n - xs.length) 0

def new (initialSize : Nat) : Checked Buffer := do
  let b : Buffer := ⟨resize [] (kCheapPrepend + initialSize), kCheapPrepend, kCheapPrepend⟩
  assertThat (b.readableBytes = 0) "readableBytes() == 0"
  assertThat (b.writableBytes = initialSize) "writableBytes() == initialSize"
  assertThat (b.prependableBytes = kCheapPrepend) "prependableBytes() == kCheapPrepend"
  pure b

def peek (b : Buffer) : Nat := b.readerIndex_
def beginWrite (b : Buffer) : Nat := b.writerIndex_

def swap (b rhs : Buffer) : Buffer × Buffer :=
  (⟨rhs.buffer_, rhs.readerIndex_, rhs.writerIndex_⟩, ⟨b.buffer_, b.readerIndex_, b.writerIndex_⟩)

def kCRLF : List UInt8 := [13, 10]

def findCRLF (b : Buffer) : Option Nat :=
  let crlf := b.peek + search kCRLF (window b.buffer_ b.peek b.beginWrite)
  if crlf = b.beginWrite then none else some crlf

def retrieveAll (b : Buffer) : Buffer :=
  { b with readerIndex_ := kCheapPrepend, writerIndex_ := kCheapPrepend }

def retrieve (b : Buffer) (len : Nat) : Checked Buffer := do
  assertThat (len ≤ b.readableBytes) "len <= readableBytes()"
  if len < b.readableBytes then
    pure { b with readerIndex_ := b.readerIndex_ + len }
  else
    pure b.retrieveAll

def retrieveUntil (b : Buffer) (stop : Nat) : Checked Buffer := do
  assertThat (b.peek ≤ stop) "peek() <= end"
  assertThat (stop ≤ b.beginWrite) "end <= beginWrite()"
  b.retrieve (stop - b.peek)

def retrieveAsString (b : Buffer) (len : Nat) : Checked (List UInt8 × Buffer) := do
  assertThat (len ≤ b.readableBytes) "len <= readableBytes()"
  let result := window b.buffer_ b.peek (b.peek + len)
  let rest ← b.retrieve len
  pure (result, rest)

def retrieveAllAsString (b : Buffer) : Checked (List UInt8 × Buffer) :=
  b.retrieveAsString b.readableBytes

def moveToFront (b : Buffer) : Checked Buffer := do
  assertThat (kCheapPrepend < b.readerIndex_) "kCheapPrepend < readerIndex_"
  let readable := b.readableBytes
  let moved : Buffer :=
    ⟨copyForward b.buffer_ b.readerIndex_ kCheapPrepend (b.writerIndex_ - b.readerIndex_),
      kCheapPrepend, kCheapPrepend + readable⟩
  assertThat (readable = moved.readableBytes) "readable == readableBytes()"
  pure moved

def makeSpace (b : Buffer) (len : Nat) : Checked Buffer :=
  if b.writableBytes + b.prependableBytes < len + kCheapPrepend then
    pure { b with buffer_ := resize b.buffer_ (b.writerIndex_ + len) }
  else
    b.moveToFront

def ensureWritableBytes (b : Buffer) (len : Nat) : Checked Buffer := do
  let grown ← if b.writableBytes < len then b.makeSpace len else pure b
  assertThat (len ≤ grown.writableBytes) "writableBytes() >= len"
  pure grown

def hasWritten (b : Buffer) (len : Nat) : Checked Buffer := do
  assertThat (len ≤ b.writableBytes) "len <= writableBytes()"
  pure { b with writerIndex_ := b.writerIndex_ + len }

def append (b : Buffer) (data : List UInt8) : Checked Buffer := do
  let b ← b.ensureWritableBytes data.length
  hasWritten { b with buffer_ := storeAt b.buffer_ b.beginWrite data } data.length

def writeThenHasWritten (b : Buffer) (data : List UInt8) : Checked Buffer :=
  hasWritten { b with buffer_ := storeAt b.buffer_ b.beginWrite data } data.length

def unwrite (b : Buffer) (len : Nat) : Checked Buffer := do
  assertThat (len ≤ b.readableBytes) "len <= readableBytes()"
  pure { b with writerIndex_ := b.writerIndex_ - len }

def prepend (b : Buffer) (data : List UInt8) : Checked Buffer := do
  assertThat (data.length ≤ b.prependableBytes) "len <= prependableBytes()"
  let b := { b with readerIndex_ := b.readerIndex_ - data.length }
  pure { b with buffer_ := storeAt b.buffer_ b.readerIndex_ data }

/-- The diagram 0 <= readerIndex <= writerIndex <= size, with room for one
    cheap prepend in the vector. -/
structure Valid (b : Buffer) : Prop where
  cheap : kCheapPrepend ≤ b.buffer_.length
  ordered : b.readerIndex_ ≤ b.writerIndex_
  bounded : b.writerIndex_ ≤ b.buffer_.length

structure Indexed (b : Buffer) : Prop where
  ordered : b.readerIndex_ ≤ b.writerIndex_
  bounded : b.writerIndex_ ≤ b.buffer_.length

theorem Valid.indexed (valid : b.Valid) : b.Indexed := ⟨valid.ordered, valid.bounded⟩

theorem Indexed.valid (indexed : b.Indexed) (cheap : kCheapPrepend ≤ b.buffer_.length) : b.Valid :=
  ⟨cheap, indexed.ordered, indexed.bounded⟩

def readable (b : Buffer) : List UInt8 := window b.buffer_ b.readerIndex_ b.writerIndex_

theorem readable_length (valid : b.Valid) :
    b.readable.length = b.readableBytes :=
  length_window valid.bounded

@[simp] theorem length_resize (xs : List UInt8) (n : Nat) : (resize xs n).length = n := by
  simp only [resize, List.length_append, List.length_take, List.length_replicate]
  omega

theorem resize_of_le {xs : List UInt8} {n : Nat} (le : xs.length ≤ n) :
    resize xs n = xs ++ List.replicate (n - xs.length) 0 := by
  simp [resize, List.take_of_length_le le]

theorem new_spec (initialSize : Nat) :
    ∃ b, new initialSize = .ok b ∧ b.Valid ∧ b.readable = [] ∧
      b.writableBytes = initialSize ∧ b.prependableBytes = kCheapPrepend := by
  refine ⟨⟨resize [] (kCheapPrepend + initialSize), kCheapPrepend, kCheapPrepend⟩,
    ?_, ?_, window_empty _ (Nat.le_refl _), ?_, rfl⟩
  · simp [new, readableBytes, writableBytes, prependableBytes]
  · exact ⟨by simp, Nat.le_refl _, by simp⟩
  · simp [writableBytes]

def lineEnd (bytes : List UInt8) : Option Nat :=
  if search kCRLF bytes = bytes.length then none else some (search kCRLF bytes)

theorem lineEnd_eq_some :
    lineEnd bytes = some i ↔ search kCRLF bytes < bytes.length ∧ search kCRLF bytes = i := by
  have le := search_le kCRLF bytes
  unfold lineEnd
  split
  · simp only [reduceCtorEq, false_iff, not_and]
    omega
  · rw [Option.some.injEq]
    omega

theorem lineEnd_fits (ends : lineEnd bytes = some i) :
    i + 2 ≤ bytes.length := by
  obtain ⟨found, rfl⟩ := lineEnd_eq_some.mp ends
  exact search_fits found

theorem lineEnd_append (ends : lineEnd bytes = some i) (more : List UInt8) :
    lineEnd (bytes ++ more) = some i := by
  obtain ⟨found, rfl⟩ := lineEnd_eq_some.mp ends
  apply lineEnd_eq_some.mpr
  refine ⟨?_, search_append found more⟩
  rw [search_append found more, List.length_append]
  omega

def OneLine (line : List UInt8) : Prop := ¬kCRLF <:+: line

instance (line : List UInt8) : Decidable (OneLine line) :=
  inferInstanceAs (Decidable (¬kCRLF <:+: line))

theorem lineEnd_split (ends : lineEnd bytes = some i) :
    OneLine (bytes.take i) ∧ bytes = bytes.take i ++ kCRLF ++ bytes.drop (i + 2) := by
  obtain ⟨found, rfl⟩ := lineEnd_eq_some.mp ends
  refine ⟨search_first (by decide) bytes, ?_⟩
  obtain ⟨rest, here⟩ := search_found found
  rw [← List.drop_drop, ← here, List.append_assoc]
  have behind : (kCRLF ++ rest).drop 2 = rest := rfl
  rw [behind, here, List.take_append_drop]

theorem lineEnd_line {line : List UInt8} (oneLine : OneLine line) (behind : List UInt8) :
    lineEnd (line ++ kCRLF ++ behind) = some line.length := by
  have found : search kCRLF (line ++ kCRLF ++ behind) = line.length :=
    search_of_absent (by decide) oneLine behind
  refine lineEnd_eq_some.mpr ⟨?_, found⟩
  rw [found, List.length_append, List.length_append]
  have two : kCRLF.length = 2 := rfl
  omega

theorem findCRLF_spec (valid : b.Valid) :
    b.findCRLF = (lineEnd b.readable).map fun i => b.peek + i := by
  have length := readable_length valid
  have ordered := valid.ordered
  have found : b.peek + search kCRLF b.readable = b.beginWrite ↔
      search kCRLF b.readable = b.readable.length := by
    rw [length]
    simp only [readableBytes, peek, beginWrite]
    omega
  have content : window b.buffer_ b.peek b.beginWrite = b.readable := rfl
  simp only [findCRLF, lineEnd, content, found]
  split
  · rfl
  · rfl

theorem retrieveAll_spec (valid : b.Valid) :
    b.retrieveAll.Valid ∧ b.retrieveAll.readable = [] :=
  ⟨⟨valid.cheap, Nat.le_refl _, valid.cheap⟩, window_empty _ (Nat.le_refl _)⟩

theorem retrieve_spec (valid : b.Valid) (enough : len ≤ b.readableBytes) :
    ∃ b', b.retrieve len = .ok b' ∧ b'.Valid ∧ b'.readable = b.readable.drop len := by
  by_cases part : len < b.readableBytes
  · refine ⟨{ b with readerIndex_ := b.readerIndex_ + len }, ?_, ?_, ?_⟩
    · simp [retrieve, enough, part]
    · refine ⟨valid.cheap, ?_, valid.bounded⟩
      simp only [readableBytes] at part
      simp only
      omega
    · simp [readable, drop_window]
  · have all := retrieveAll_spec valid
    refine ⟨b.retrieveAll, ?_, all.1, ?_⟩
    · simp [retrieve, enough, part]
    · rw [all.2, List.drop_eq_nil_of_le]
      rw [readable_length valid]
      omega

theorem retrieveUntil_spec {offset : Nat} (valid : b.Valid) (enough : offset ≤ b.readableBytes) :
    ∃ b', b.retrieveUntil (b.peek + offset) = .ok b' ∧ b'.Valid ∧
      b'.readable = b.readable.drop offset := by
  have below : b.peek + offset ≤ b.beginWrite := by
    have := valid.ordered
    simp only [readableBytes, peek, beginWrite] at *
    omega
  obtain ⟨b', ran, valid', left⟩ := retrieve_spec valid enough
  refine ⟨b', ?_, valid', left⟩
  simp [retrieveUntil, below, ran]

theorem retrieveAsString_spec (valid : b.Valid) (enough : len ≤ b.readableBytes) :
    ∃ b', b.retrieveAsString len = .ok (b.readable.take len, b') ∧ b'.Valid ∧
      b'.readable = b.readable.drop len := by
  obtain ⟨b', ran, valid', left⟩ := retrieve_spec valid enough
  refine ⟨b', ?_, valid', left⟩
  have text : window b.buffer_ b.peek (b.peek + len) = b.readable.take len := by
    refine (take_window _ _ _ _ ?_).symm
    have := valid.ordered
    simp only [readableBytes, peek] at enough ⊢
    omega
  simp [retrieveAsString, enough, ran, text]

theorem unwrite_spec (valid : b.Valid) (enough : len ≤ b.readableBytes) :
    ∃ b', b.unwrite len = .ok b' ∧ b'.Valid ∧
      b'.readable = b.readable.take (b.readable.length - len) := by
  have ordered := valid.ordered
  have bounded := valid.bounded
  refine ⟨{ b with writerIndex_ := b.writerIndex_ - len }, ?_, ?_, ?_⟩
  · simp [unwrite, enough]
  · simp only [readableBytes] at enough
    exact ⟨valid.cheap, by simp only; omega, by simp only; omega⟩
  · rw [readable_length valid]
    simp only [readableBytes] at enough ⊢
    simp only [readable]
    rw [take_window _ _ _ _ (by omega)]
    congr 1
    omega

theorem hasWritten_indexed (indexed : b.Indexed) (room : data.length ≤ b.writableBytes) :
    ∃ b', b.writeThenHasWritten data = .ok b' ∧ b'.Indexed ∧
      b'.readable = b.readable ++ data ∧ b'.buffer_.length = b.buffer_.length := by
  have ordered := indexed.ordered
  have bounded := indexed.bounded
  have room' := room
  simp only [writableBytes] at room'
  refine ⟨⟨storeAt b.buffer_ b.beginWrite data, b.readerIndex_,
    b.writerIndex_ + data.length⟩, ?_, ?_, ?_, ?_⟩
  · simp [writeThenHasWritten, hasWritten, writableBytes, room']
  · exact ⟨by simp only; omega, by simp only [length_storeAt]; omega⟩
  · have fits : b.writerIndex_ + data.length ≤ b.buffer_.length := by omega
    exact window_storeAt_back ordered fits
  · exact length_storeAt _ _ _

theorem hasWritten_spec (valid : b.Valid) (room : data.length ≤ b.writableBytes) :
    ∃ b', b.writeThenHasWritten data = .ok b' ∧ b'.Valid ∧
      b'.readable = b.readable ++ data := by
  obtain ⟨b', ran, indexed, text, same⟩ := hasWritten_indexed valid.indexed room
  exact ⟨b', ran, indexed.valid (Nat.le_trans valid.cheap (Nat.le_of_eq same.symm)), text⟩

theorem makeSpace_indexed (indexed : b.Indexed) (short : b.writableBytes < len) :
    ∃ b', b.makeSpace len = .ok b' ∧ b'.Indexed ∧ b'.readable = b.readable ∧
      len ≤ b'.writableBytes ∧ b.buffer_.length ≤ b'.buffer_.length := by
  have ordered := indexed.ordered
  have bounded := indexed.bounded
  by_cases grow : b.writableBytes + b.prependableBytes < len + kCheapPrepend
  · refine ⟨{ b with buffer_ := resize b.buffer_ (b.writerIndex_ + len) }, ?_, ?_, ?_, ?_, ?_⟩
    · simp [makeSpace, grow]
    · exact ⟨ordered, by simp⟩
    · simp only [writableBytes] at short
      simp only [readable]
      rw [resize_of_le (by omega), window_append_left bounded]
    · simp [writableBytes]
    · simp only [writableBytes] at short
      simp only [length_resize]
      omega
  · have beyond : kCheapPrepend < b.readerIndex_ := by
      simp only [prependableBytes] at grow
      omega
    refine ⟨⟨copyForward b.buffer_ b.readerIndex_ kCheapPrepend (b.writerIndex_ - b.readerIndex_),
      kCheapPrepend, kCheapPrepend + b.readableBytes⟩, ?_, ?_, ?_, ?_, ?_⟩
    · simp [makeSpace, moveToFront, grow, beyond, readableBytes]
    · refine ⟨Nat.le_add_right _ _, ?_⟩
      simp only [length_copyForward, readableBytes]
      omega
    · have back : b.readerIndex_ + (b.writerIndex_ - b.readerIndex_) = b.writerIndex_ := by omega
      simp only [readable, readableBytes]
      rw [window_copyForward (Nat.le_of_lt beyond) (by omega), back]
    · simp only [writableBytes, prependableBytes, readableBytes, length_copyForward] at *
      omega
    · simp only [length_copyForward]
      exact Nat.le_refl _

theorem ensureWritableBytes_indexed (indexed : b.Indexed) (len : Nat) :
    ∃ b', b.ensureWritableBytes len = .ok b' ∧ b'.Indexed ∧ b'.readable = b.readable ∧
      len ≤ b'.writableBytes ∧ b.buffer_.length ≤ b'.buffer_.length := by
  by_cases short : b.writableBytes < len
  · obtain ⟨b', ran, indexed', same, room, grown⟩ := makeSpace_indexed indexed short
    exact ⟨b', by simp [ensureWritableBytes, short, ran, room], indexed', same, room, grown⟩
  · have room : len ≤ b.writableBytes := by omega
    exact ⟨b, by simp [ensureWritableBytes, short, room], indexed, rfl, room, Nat.le_refl _⟩

theorem ensureWritableBytes_spec (valid : b.Valid) (len : Nat) :
    ∃ b', b.ensureWritableBytes len = .ok b' ∧ b'.Valid ∧ b'.readable = b.readable ∧
      len ≤ b'.writableBytes := by
  obtain ⟨b', ran, indexed, same, room, grown⟩ := ensureWritableBytes_indexed valid.indexed len
  exact ⟨b', ran, indexed.valid (Nat.le_trans valid.cheap grown), same, room⟩

theorem ensureWritableBytes_made {b' : Buffer} (ran : b.ensureWritableBytes len = .ok b') :
    b' = b ∨ b.makeSpace len = .ok b' := by
  unfold ensureWritableBytes at ran
  split at ran
  · obtain ⟨grown, grew, ran⟩ := bind_eq_ok.mp ran
    obtain ⟨-, -, ran⟩ := bind_eq_ok.mp ran
    cases ran
    exact Or.inr grew
  · obtain ⟨same, grew, ran⟩ := bind_eq_ok.mp ran
    obtain ⟨-, -, ran⟩ := bind_eq_ok.mp ran
    cases ran
    cases grew
    exact Or.inl rfl

theorem append_indexed (indexed : b.Indexed) (data : List UInt8) :
    ∃ b', b.append data = .ok b' ∧ b'.Indexed ∧ b'.readable = b.readable ++ data ∧
      b.buffer_.length ≤ b'.buffer_.length := by
  obtain ⟨grown, ran, indexed', same, room, longer⟩ :=
    ensureWritableBytes_indexed indexed data.length
  obtain ⟨b', wrote, indexed'', text, kept⟩ := hasWritten_indexed indexed' room
  refine ⟨b', ?_, indexed'', by rw [text, same], Nat.le_trans longer (Nat.le_of_eq kept.symm)⟩
  simp only [append, ran, ok_bind]
  exact wrote

theorem append_spec (valid : b.Valid) (data : List UInt8) :
    ∃ b', b.append data = .ok b' ∧ b'.Valid ∧ b'.readable = b.readable ++ data := by
  obtain ⟨b', ran, indexed, text, longer⟩ := append_indexed valid.indexed data
  exact ⟨b', ran, indexed.valid (Nat.le_trans valid.cheap longer), text⟩

theorem exists_readable (bytes : List UInt8) : ∃ b : Buffer, b.Valid ∧ b.readable = bytes := by
  obtain ⟨fresh, -, valid, empty, -, -⟩ := new_spec 0
  obtain ⟨b, -, valid', content⟩ := append_spec valid bytes
  exact ⟨b, valid', by rw [content, empty, List.nil_append]⟩

theorem prepend_spec (valid : b.Valid) (room : data.length ≤ b.prependableBytes) :
    ∃ b', b.prepend data = .ok b' ∧ b'.Valid ∧ b'.readable = data ++ b.readable := by
  have ordered := valid.ordered
  refine ⟨⟨storeAt b.buffer_ (b.readerIndex_ - data.length) data,
    b.readerIndex_ - data.length, b.writerIndex_⟩, ?_, ?_, ?_⟩
  · simp [prepend, room]
  · exact ⟨by simpa using valid.cheap, by simp only; omega, by simpa using valid.bounded⟩
  · exact window_storeAt_front room ordered valid.bounded

end Buffer
end Muduo
