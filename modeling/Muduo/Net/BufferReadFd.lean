import Muduo.Net.Buffer

/-!
Buffer::readFd. One readv(2) call fills the tail of the vector and, when that is
short, a buffer on the stack, which is then appended. readv reports an error, or
how many bytes it stored, first area first; it stores no more than the areas
hold. The append finds the vector full, so it grows or slides what was just read.
-/
namespace Muduo
open Lib
namespace Buffer

def extrabufSize : Nat := 65536

def iovcnt (b : Buffer) : Nat := if b.writableBytes < extrabufSize then 2 else 1

def offered (b : Buffer) : Nat :=
  if b.iovcnt = 2 then b.writableBytes + extrabufSize else b.writableBytes

inductive Readv where
  | failed (errno : Int)
  | stored (data : List UInt8)
  deriving DecidableEq

structure Reading where
  buffer : Buffer
  n : Int
  savedErrno : Option Int
  deriving DecidableEq

/-- The stack buffer holds arbitrary bytes before the call. -/
def readFd (b : Buffer) (extrabuf : List UInt8) : Readv → Checked Reading
  | .failed errno => pure ⟨b, -1, some errno⟩
  | .stored data => do
    let writable := b.writableBytes
    let filled := { b with buffer_ := storeAt b.buffer_ b.writerIndex_ (data.take writable) }
    let extra := storeAt extrabuf 0 (data.drop writable)
    if data.length ≤ writable then
      pure ⟨{ filled with writerIndex_ := filled.writerIndex_ + data.length }, data.length, none⟩
    else
      let full := { filled with writerIndex_ := filled.buffer_.length }
      let appended ← full.append (extra.take (data.length - writable))
      pure ⟨appended, data.length, none⟩

variable {b : Buffer} {extrabuf data : List UInt8}

theorem drop_fits (offer : data.length ≤ b.offered) :
    (data.drop b.writableBytes).length ≤ extrabufSize := by
  unfold offered at offer
  rw [List.length_drop]
  split at offer
  · omega
  · omega

theorem take_storeAt_zero {xs ys : List UInt8} (fits : ys.length ≤ xs.length) :
    (storeAt xs 0 ys).take ys.length = ys := by
  have stored : window (storeAt xs 0 ys) 0 (0 + ys.length) = window xs 0 0 ++ ys :=
    window_storeAt_back (Nat.le_refl 0) (by omega)
  simpa [window] using stored

theorem filled_full (indexed : b.Indexed) (more : b.writableBytes ≤ data.length) :
    let full : Buffer :=
      ⟨storeAt b.buffer_ b.writerIndex_ (data.take b.writableBytes), b.readerIndex_,
        b.buffer_.length⟩
    full.Indexed ∧ full.readable = b.readable ++ data.take b.writableBytes := by
  have ordered := indexed.ordered
  have bounded := indexed.bounded
  have length : (data.take b.writableBytes).length = b.writableBytes := by
    rw [List.length_take]
    omega
  have fits : b.writerIndex_ + (data.take b.writableBytes).length = b.buffer_.length := by
    rw [length]
    simp only [writableBytes]
    omega
  refine ⟨⟨by simp only; omega, by simp only [length_storeAt]; exact Nat.le_refl _⟩, ?_⟩
  simp only [readable]
  conv_lhs => rw [← fits]
  exact window_storeAt_back ordered (Nat.le_of_eq fits)

theorem readFd_stored (indexed : b.Indexed) (stack : extrabuf.length = extrabufSize)
    (offer : data.length ≤ b.offered) :
    ∃ b', b.readFd extrabuf (.stored data) = .ok ⟨b', data.length, none⟩ ∧ b'.Indexed ∧
      b'.readable = b.readable ++ data ∧ b.buffer_.length ≤ b'.buffer_.length := by
  by_cases enough : data.length ≤ b.writableBytes
  · have whole : data.take b.writableBytes = data := List.take_of_length_le enough
    obtain ⟨b', wrote, indexed', text, same⟩ := hasWritten_indexed indexed enough
    refine ⟨b', ?_, indexed', text, Nat.le_of_eq same.symm⟩
    -- hasWritten has the same effect as the assignment, after its assertion
    have wrote : b' = ⟨storeAt b.buffer_ b.writerIndex_ data, b.readerIndex_,
        b.writerIndex_ + data.length⟩ := by
      have room := enough
      simp only [writableBytes] at room
      simpa [writeThenHasWritten, hasWritten, writableBytes, room, beginWrite, eq_comm] using wrote
    simp only [readFd, enough, if_true, whole, wrote, pure_eq_ok]
  · obtain ⟨full, text⟩ := filled_full indexed (Nat.le_of_not_le enough)
    have rest : (storeAt extrabuf 0 (data.drop b.writableBytes)).take
        (data.length - b.writableBytes) = data.drop b.writableBytes := by
      rw [← List.length_drop]
      exact take_storeAt_zero (by rw [stack]; exact drop_fits offer)
    obtain ⟨b', ran, indexed', text', longer⟩ :=
      append_indexed full (data.drop b.writableBytes)
    refine ⟨b', ?_, indexed', ?_, ?_⟩
    · simp only [readFd, enough, if_false, rest, length_storeAt, ran, ok_bind, pure_eq_ok]
    · rw [text', text, List.append_assoc, List.take_append_drop]
    · simpa only [length_storeAt] using longer

/-- A successful readFd leaves the readable bytes that append leaves, whatever the
    indices are and whichever areas were filled; a failed one leaves the Buffer as it
    is and saves errno. -/
theorem readFd_is_append (b : Buffer) (ordered : b.readerIndex_ ≤ b.writerIndex_)
    (bounded : b.writerIndex_ ≤ b.buffer_.length) (extrabuf : List UInt8)
    (stack : extrabuf.length = 65536) :
    (∀ data : List UInt8,
      (if b.writableBytes < 65536 then data.length ≤ b.writableBytes + 65536
        else data.length ≤ b.writableBytes) →
      ∃ b' appended, b.readFd extrabuf (.stored data) = .ok ⟨b', data.length, none⟩ ∧
        b.append data = .ok appended ∧
        b'.readable = b.readable ++ data ∧ b'.readable = appended.readable ∧
        b'.readerIndex_ ≤ b'.writerIndex_ ∧ b'.writerIndex_ ≤ b'.buffer_.length ∧
        (b.Valid → b'.Valid)) ∧
    ∀ errno, b.readFd extrabuf (.failed errno) = .ok ⟨b, -1, some errno⟩ := by
  have indexed : b.Indexed := ⟨ordered, bounded⟩
  refine ⟨?_, fun errno => rfl⟩
  intro data given
  have offer : data.length ≤ b.offered := by
    simp only [offered, iovcnt, extrabufSize]
    split at given
    case isTrue short => simpa [short] using given
    case isFalse enough => simpa [enough] using given
  obtain ⟨b', ran, indexed', text, longer⟩ := readFd_stored indexed stack offer
  obtain ⟨appended, copied, -, same, -⟩ := append_indexed indexed data
  refine ⟨b', appended, ran, copied, text, ?_, indexed'.ordered, indexed'.bounded, ?_⟩
  · rw [text, same]
  · intro valid
    exact indexed'.valid (Nat.le_trans valid.cheap longer)

/-- Two writable bytes, three read: the third goes through the stack, and the append
    slides the content to the front. -/
theorem readFd_is_append_past_the_end :
    ∃ b' appended,
      (⟨List.replicate 20 7, 17, 18⟩ : Buffer).readFd (List.replicate 65536 0)
        (.stored [1, 2, 3]) = .ok ⟨b', 3, none⟩ ∧
      (⟨List.replicate 20 7, 17, 18⟩ : Buffer).append [1, 2, 3] = .ok appended ∧
      b'.readable = [7, 1, 2, 3] ∧ b'.readable = appended.readable ∧ b'.Valid := by
  have stack : (List.replicate 65536 (0 : UInt8)).length = 65536 := List.length_replicate
  obtain ⟨reads, -⟩ := readFd_is_append ⟨List.replicate 20 7, 17, 18⟩ (by decide) (by decide)
    (List.replicate 65536 0) stack
  obtain ⟨b', appended, ran, copied, text, same, -, -, valid⟩ := reads [1, 2, 3] (by decide)
  exact ⟨b', appended, ran, copied, text.trans (by decide), same,
    valid ⟨by decide, by decide, by decide⟩⟩

end Buffer
end Muduo
