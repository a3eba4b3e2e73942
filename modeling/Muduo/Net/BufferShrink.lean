import Muduo.Lib.Signed
import Muduo.Net.BufferInt

/-!
Buffer::shrink. The content goes into a new Buffer through a StringPiece, whose length is
an int: readableBytes() is converted to int by toStringPiece and back to size_t by append.
A StringPiece into a vector has an index from begin() for its pointer; bytes outside of a
vector cannot be copied. The reserve is any size_t, so the sums of makeSpace are taken in
size_t here, and a vector is refused more than its max_size(); memory does not run out.
-/
namespace Muduo
open Lib

structure StringPiece where
  ptr_ : Nat
  length_ : Int
  deriving DecidableEq, Repr

def StringPiece.size (s : StringPiece) : Int := s.length_

namespace Buffer

def toStringPiece (b : Buffer) : StringPiece := ⟨b.peek, toSigned 32 b.readableBytes⟩

def bytesFrom (memory : List UInt8) (data len : Nat) : Checked (List UInt8) := do
  assertThat (data + len ≤ memory.length) "copy of [data, data+len)"
  pure (window memory data (data + len))

/-- max_size() of std::vector<char>: the distance of two iterators is a ptrdiff_t. -/
def maxSize : Nat := 2 ^ 63 - 1

namespace Word

def writableBytes (b : Buffer) : Nat := toUnsigned 64 (b.buffer_.length - b.writerIndex_)

def makeSpace (b : Buffer) (len : Nat) : Checked Buffer :=
  if (writableBytes b + b.prependableBytes) % 2 ^ 64 < (len + kCheapPrepend) % 2 ^ 64 then do
    let size := (b.writerIndex_ + len) % 2 ^ 64
    assertThat (size ≤ maxSize) "length_error"
    pure { b with buffer_ := resize b.buffer_ size }
  else
    b.moveToFront

def ensureWritableBytes (b : Buffer) (len : Nat) : Checked Buffer := do
  let grown ← if writableBytes b < len then makeSpace b len else pure b
  assertThat (len ≤ writableBytes grown) "writableBytes() >= len"
  pure grown

/-- append(const char*, size_t), with the vector that data points into. -/
def append (b : Buffer) (memory : List UInt8) (data len : Nat) : Checked Buffer := do
  let b ← ensureWritableBytes b len
  let bytes ← bytesFrom memory data len
  hasWritten { b with buffer_ := storeAt b.buffer_ b.beginWrite bytes } len

def appendPiece (b : Buffer) (memory : List UInt8) (str : StringPiece) : Checked Buffer :=
  append b memory str.ptr_ (toUnsigned 64 str.size)

end Word

def shrink (b : Buffer) (reserve : Nat) : Checked Buffer := do
  let other ← new kInitialSize
  let other ← Word.ensureWritableBytes other ((b.readableBytes + reserve) % 2 ^ 64)
  let other ← Word.appendPiece other b.buffer_ b.toStringPiece
  pure (b.swap other).1

variable {b b' : Buffer} {len : Nat}

def pieceLength (r : Nat) : Nat := toUnsigned 64 (toSigned 32 r)

theorem pieceLength_eq (r : Nat) :
    pieceLength r = if r % 2 ^ 32 < 2 ^ 31 then r % 2 ^ 32 else 2 ^ 64 - 2 ^ 32 + r % 2 ^ 32 := by
  simp only [pieceLength, toUnsigned, toSigned, Int.bmod_def]
  split
  · rw [if_pos (by omega)]
    omega
  · rw [if_neg (by omega)]
    omega

theorem pieceLength_of_small {r : Nat} (small : r < 2 ^ 31) : pieceLength r = r := by
  rw [pieceLength_eq, if_pos (by omega), Nat.mod_eq_of_lt (by omega)]

theorem pieceLength_ne {r : Nat} (large : 2 ^ 31 ≤ r) (vector : r < 2 ^ 63) :
    pieceLength r ≠ r := by
  rw [pieceLength_eq]
  split
  · omega
  · omega

section Word

theorem writableBytes_word (indexed : b.Indexed) (vector : b.buffer_.length ≤ maxSize) :
    Word.writableBytes b = b.writableBytes := by
  have bounded := indexed.bounded
  simp only [maxSize] at vector
  simp only [Word.writableBytes, writableBytes, toUnsigned]
  omega

theorem makeSpace_word (indexed : b.Indexed) (vector : b.buffer_.length ≤ maxSize)
    (fits : b.writerIndex_ + len ≤ maxSize) (cheap : kCheapPrepend + len ≤ maxSize) :
    Word.makeSpace b len = b.makeSpace len := by
  have ordered := indexed.ordered
  have bounded := indexed.bounded
  have room : b.writableBytes + b.prependableBytes < 2 ^ 64 := by
    simp only [maxSize] at vector
    simp only [writableBytes, prependableBytes]
    omega
  simp only [maxSize] at fits cheap
  rw [Word.makeSpace, makeSpace, writableBytes_word indexed vector, Nat.mod_eq_of_lt room,
    Nat.mod_eq_of_lt (by omega : len + kCheapPrepend < 2 ^ 64),
    Nat.mod_eq_of_lt (by omega : b.writerIndex_ + len < 2 ^ 64)]
  simp only [assertThat_of_true (show b.writerIndex_ + len ≤ maxSize from fits), ok_bind]

theorem makeSpace_length (ran : b.makeSpace len = .ok b') :
    b'.buffer_.length = b.writerIndex_ + len ∨ b'.buffer_.length = b.buffer_.length := by
  unfold makeSpace at ran
  split at ran
  · cases ran
    exact Or.inl (length_resize _ _)
  · obtain ⟨-, -, ran⟩ := bind_eq_ok.mp ran
    obtain ⟨-, -, ran⟩ := bind_eq_ok.mp ran
    cases ran
    exact Or.inr (length_copyForward _ _ _ _)

structure Blank (b : Buffer) : Prop where
  valid : b.Valid
  reader : b.readerIndex_ = kCheapPrepend
  writer : b.writerIndex_ = kCheapPrepend
  vector : b.buffer_.length ≤ maxSize

theorem Blank.readable (blank : Blank b) : b.readable = [] := by
  simp [Buffer.readable, blank.reader, blank.writer, window]

theorem blank_new : ∃ b, new kInitialSize = .ok b ∧ Blank b := by
  obtain ⟨b, made, valid, -, room, -⟩ := new_spec kInitialSize
  obtain ⟨_, -, rest⟩ := bind_eq_ok.mp made
  obtain ⟨_, -, rest⟩ := bind_eq_ok.mp rest
  obtain ⟨_, -, rest⟩ := bind_eq_ok.mp rest
  cases rest
  refine ⟨_, made, valid, rfl, rfl, ?_⟩
  rw [length_resize]
  decide

theorem ensureWritableBytes_room (blank : Blank b) (room : len ≤ b.writableBytes) :
    Word.ensureWritableBytes b len = .ok b := by
  have writable := writableBytes_word blank.valid.indexed blank.vector
  have room' : len ≤ Word.writableBytes b := writable.symm ▸ room
  rw [Word.ensureWritableBytes, if_neg (Nat.not_lt.mpr room')]
  simp only [pure_eq_ok, ok_bind, assertThat_of_true room']

theorem ensureWritableBytes_blank (blank : Blank b) (fits : kCheapPrepend + len ≤ maxSize) :
    ∃ b', Word.ensureWritableBytes b len = .ok b' ∧ Blank b' ∧ len ≤ b'.writableBytes := by
  by_cases short : b.writableBytes < len
  · have indexed := blank.valid.indexed
    have fits' : b.writerIndex_ + len ≤ maxSize := by rwa [blank.writer]
    obtain ⟨b', made, indexed', same, room, longer⟩ := makeSpace_indexed indexed short
    have vector : b'.buffer_.length ≤ maxSize := by
      rcases makeSpace_length made with grown | kept
      · exact grown ▸ fits'
      · exact kept ▸ blank.vector
    have reader : b'.readerIndex_ = kCheapPrepend := by
      rcases makeSpace_reader made with kept | moved
      · exact kept.trans blank.reader
      · exact moved
    have writer : b'.writerIndex_ = kCheapPrepend := by
      have none_ := readable_length (indexed'.valid (blank.valid.cheap.trans longer))
      have ordered := indexed'.ordered
      rw [same, blank.readable, List.length_nil, readableBytes] at none_
      omega
    have room' := Nat.le_trans room (Nat.le_of_eq (writableBytes_word indexed' vector).symm)
    rw [Word.ensureWritableBytes, writableBytes_word indexed blank.vector, if_pos short,
      makeSpace_word indexed blank.vector fits' fits, made]
    simp only [ok_bind, assertThat_of_true room', pure_eq_ok]
    exact ⟨b', rfl, ⟨indexed'.valid (blank.valid.cheap.trans longer), reader, writer, vector⟩, room⟩
  · have room := Nat.not_lt.mp short
    exact ⟨b, ensureWritableBytes_room blank room, blank, room⟩

theorem ensureWritableBytes_refused (blank : Blank b) (size_t : len < 2 ^ 64)
    (large : maxSize < kCheapPrepend + len) (b' : Buffer) :
    Word.ensureWritableBytes b len ≠ .ok b' := by
  have indexed := blank.valid.indexed
  have vector := blank.vector
  have cheap := blank.valid.cheap
  have room : b.writableBytes + b.prependableBytes = b.buffer_.length := by
    simp only [writableBytes, prependableBytes, blank.reader, blank.writer]
    omega
  have short : b.writableBytes < len := by
    simp only [prependableBytes, blank.reader] at room
    omega
  intro ran
  rw [Word.ensureWritableBytes, writableBytes_word indexed vector, if_pos short] at ran
  obtain ⟨grown, made, -⟩ := bind_eq_ok.mp ran
  rw [Word.makeSpace, writableBytes_word indexed vector, room, blank.writer] at made
  split at made
  · rename_i grow
    obtain ⟨_, allowed, -⟩ := bind_eq_ok.mp made
    have allowed := assertThat_eq_ok.mp allowed
    simp only [maxSize, kCheapPrepend] at large vector cheap allowed grow
    omega
  · obtain ⟨_, beyond, -⟩ := bind_eq_ok.mp made
    have beyond := assertThat_eq_ok.mp beyond
    rw [blank.reader] at beyond
    exact absurd beyond (Nat.lt_irrefl _)

theorem ensureWritableBytes_result (blank : Blank b) (size_t : len < 2 ^ 64)
    (ran : Word.ensureWritableBytes b len = .ok b') :
    kCheapPrepend + len ≤ maxSize ∧ Blank b' ∧ len ≤ b'.writableBytes := by
  by_cases fits : kCheapPrepend + len ≤ maxSize
  · obtain ⟨grown, ensured, kept⟩ := ensureWritableBytes_blank blank fits
    rw [ran] at ensured
    cases ensured
    exact ⟨fits, kept⟩
  · exact absurd ran (ensureWritableBytes_refused blank size_t (Nat.not_le.mp fits) b')

theorem bytesFrom_readable {len : Nat} (valid : b.Valid) (inside : len ≤ b.readableBytes) :
    bytesFrom b.buffer_ b.peek len = .ok (b.readable.take len) := by
  have ordered := valid.ordered
  have bounded := valid.bounded
  simp only [readableBytes] at inside
  simp only [peek]
  rw [bytesFrom, assertThat_of_true (by omega), ok_bind, pure_eq_ok, readable,
    take_window _ _ _ _ (by omega)]

theorem bytesFrom_length {memory data : List UInt8} {start len : Nat}
    (read : bytesFrom memory start len = .ok data) : data.length = len := by
  obtain ⟨_, inside, cut⟩ := bind_eq_ok.mp read
  cases cut
  rw [length_window (assertThat_eq_ok.mp inside), Nat.add_sub_cancel_left]

theorem append_blank {memory bytes : List UInt8} {data : Nat} (blank : Blank b)
    (read : bytesFrom memory data len = .ok bytes) (room : len ≤ b.writableBytes) :
    ∃ b', Word.append b memory data len = .ok b' ∧ b'.Valid ∧ b'.readable = bytes ∧
      b'.prependableBytes = kCheapPrepend ∧ b'.writableBytes + len = b.writableBytes := by
  obtain rfl := bytesFrom_length read
  obtain ⟨b', wrote, valid', content⟩ := hasWritten_spec blank.valid room
  refine ⟨b', ?_, valid', ?_, (hasWritten_reader wrote).trans blank.reader, ?_⟩
  · rw [Word.append, ensureWritableBytes_room blank room, ok_bind, read, ok_bind]
    exact wrote
  · rw [content, blank.readable, List.nil_append]
  · obtain ⟨-, -, stored⟩ := bind_eq_ok.mp wrote
    cases stored
    simp only [writableBytes, length_storeAt] at room ⊢
    omega

theorem pieceLength_lt (r : Nat) : pieceLength r < 2 ^ 64 := by
  rw [pieceLength_eq]
  split
  · omega
  · omega

end Word

theorem swap_fst (b other : Buffer) : (b.swap other).1 = other := rfl

theorem appendPiece_mk (b : Buffer) (memory : List UInt8) (ptr_ : Nat) (length_ : Int) :
    Word.appendPiece b memory ⟨ptr_, length_⟩ =
      Word.append b memory ptr_ (toUnsigned 64 length_) := rfl

theorem appendPiece_eq (b source : Buffer) :
    Word.appendPiece b source.buffer_ source.toStringPiece =
      Word.append b source.buffer_ source.peek (pieceLength source.readableBytes) :=
  appendPiece_mk b source.buffer_ source.peek (toSigned 32 source.readableBytes)

theorem shrink_eq (b : Buffer) (reserve : Nat) : b.shrink reserve = (do
    let other ← new kInitialSize
    let other ← Word.ensureWritableBytes other ((b.readableBytes + reserve) % 2 ^ 64)
    Word.append other b.buffer_ b.peek (pieceLength b.readableBytes)) := by
  unfold shrink
  simp only [appendPiece_eq, swap_fst, bind_pure]

theorem shrink_spec {reserve : Nat} (valid : b.Valid)
    (fits : kCheapPrepend + (b.readableBytes + reserve) ≤ maxSize)
    (size : pieceLength b.readableBytes = len) (inside : len ≤ b.readableBytes) :
    ∃ b', b.shrink reserve = .ok b' ∧ b'.Valid ∧ b'.readable = b.readable.take len ∧
      b.readableBytes + reserve ≤ b'.writableBytes + len ∧
      b'.prependableBytes = kCheapPrepend := by
  obtain ⟨fresh, made, blank₀⟩ := blank_new
  obtain ⟨grown, ensured, blank, room⟩ := ensureWritableBytes_blank blank₀ fits
  obtain ⟨b', copied, valid', content, cheap, writable⟩ :=
    append_blank blank (bytesFrom_readable valid inside) (by omega)
  refine ⟨b', ?_, valid', content, by omega, cheap⟩
  have sum : (b.readableBytes + reserve) % 2 ^ 64 = b.readableBytes + reserve := by
    simp only [maxSize] at fits
    omega
  rw [shrink_eq, made, ok_bind, sum, ensured, ok_bind, size, copied]

theorem shrink_result {reserve : Nat} (ran : b.shrink reserve = .ok b') :
    kCheapPrepend + (b.readableBytes + reserve) % 2 ^ 64 ≤ maxSize ∧ b'.Valid ∧
      b'.prependableBytes = kCheapPrepend ∧
      b'.readable.length = pieceLength b.readableBytes := by
  obtain ⟨fresh, made, blank₀⟩ := blank_new
  rw [shrink_eq, made, ok_bind] at ran
  obtain ⟨grown, ensured, ran⟩ := bind_eq_ok.mp ran
  obtain ⟨fits, blank, -⟩ := ensureWritableBytes_result blank₀ (Nat.mod_lt _ (by decide)) ensured
  obtain ⟨wide, ensured', rest⟩ := bind_eq_ok.mp ran
  obtain ⟨-, blank', room⟩ := ensureWritableBytes_result blank (pieceLength_lt _) ensured'
  obtain ⟨bytes, read, wrote⟩ := bind_eq_ok.mp rest
  have length := bytesFrom_length read
  rw [← length] at room wrote
  obtain ⟨valid', content⟩ := holds_of_ok (hasWritten_spec blank'.valid room) wrote
  refine ⟨fits, valid', (hasWritten_reader wrote).trans blank'.reader, ?_⟩
  rw [content, blank'.readable, List.nil_append, length]

structure Shrunk (b : Buffer) (reserve : Nat) (b' : Buffer) : Prop where
  valid : b'.Valid
  content : b'.readable = b.readable
  room : reserve ≤ b'.writableBytes
  cheap : b'.prependableBytes = kCheapPrepend

/-- shrink keeps the content exactly when its length is an int and the vector can have the
    length that is asked for. -/
theorem shrink_keeps_content (valid : b.Valid) (vector : b.buffer_.length ≤ maxSize)
    (reserve : Nat) (size_t : b.readableBytes + reserve < 2 ^ 64) :
    (∃ b', b.shrink reserve = .ok b' ∧ Shrunk b reserve b') ↔
      b.readableBytes ≤ 2 ^ 31 - 1 ∧ kCheapPrepend + (b.readableBytes + reserve) ≤ maxSize := by
  constructor
  · rintro ⟨b', ran, shrunk⟩
    obtain ⟨fits, -, -, length⟩ := shrink_result ran
    rw [Nat.mod_eq_of_lt size_t] at fits
    refine ⟨?_, fits⟩
    rw [shrunk.content, readable_length valid] at length
    have bounded := valid.bounded
    by_contra large
    refine pieceLength_ne (by omega) ?_ length.symm
    simp only [maxSize] at vector
    simp only [readableBytes]
    omega
  · rintro ⟨small, fits⟩
    have length := pieceLength_of_small (Nat.lt_of_le_of_lt small (by decide))
    obtain ⟨b', ran, valid', content, room, cheap⟩ :=
      shrink_spec valid fits length (Nat.le_refl _)
    refine ⟨b', ran, valid', ?_, by omega, cheap⟩
    rw [content, ← readable_length valid, List.take_length]

theorem shrink_keeps_content_of_three : ∃ b', (⟨List.replicate 40 7, 20, 23⟩ : Buffer).shrink 5 =
    .ok b' ∧ Shrunk ⟨List.replicate 40 7, 20, 23⟩ 5 b' :=
  (shrink_keeps_content ⟨by decide, by decide, by decide⟩ (by decide) 5 (by decide)).mpr
    ⟨by decide, by decide⟩

theorem shrink_empties (valid : b.Valid) (long : b.readableBytes = 2 ^ 32) :
    ∃ b', b.shrink 0 = .ok b' ∧ b'.readable = [] := by
  have none_ : pieceLength b.readableBytes = 0 := by
    rw [pieceLength_eq, long]
    rfl
  have fits : kCheapPrepend + (b.readableBytes + 0) ≤ maxSize := by
    rw [long]
    decide
  obtain ⟨b', ran, -, content, -, -⟩ := shrink_spec valid fits none_ (Nat.zero_le _)
  exact ⟨b', ran, by rw [content, List.take_zero]⟩

theorem shrink_loses_content : ∃ b : Buffer, b.Valid ∧ b.buffer_.length ≤ maxSize ∧
    b.readable ≠ [] ∧ ∃ b', b.shrink 0 = .ok b' ∧ b'.readable = [] := by
  have length : (List.replicate (2 ^ 32 + 8) (0 : UInt8)).length = 2 ^ 32 + 8 :=
    List.length_replicate
  have valid : (⟨List.replicate (2 ^ 32 + 8) 0, 8, 2 ^ 32 + 8⟩ : Buffer).Valid := by
    constructor
    · show 8 ≤ (List.replicate (2 ^ 32 + 8) (0 : UInt8)).length
      omega
    · exact Nat.le_add_left 8 (2 ^ 32)
    · exact Nat.le_of_eq length.symm
  have long : (⟨List.replicate (2 ^ 32 + 8) 0, 8, 2 ^ 32 + 8⟩ : Buffer).readableBytes = 2 ^ 32 :=
    Nat.add_sub_cancel (2 ^ 32) 8
  refine ⟨_, valid, ?_, ?_, shrink_empties valid long⟩
  · show (List.replicate (2 ^ 32 + 8) (0 : UInt8)).length ≤ 2 ^ 63 - 1
    omega
  · intro none_
    have size := readable_length valid
    rw [none_, long] at size
    cases size

end Buffer
end Muduo
