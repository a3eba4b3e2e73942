import Muduo.Lib.BigEndian
import Muduo.Net.Buffer

/-!
The integers of Buffer.h. hostToNetwork followed by the copy of the bytes stores the
bytes in network order whatever the order of the host, and the other way round.
-/
namespace Muduo
open Lib
namespace Buffer
variable {b' : Buffer}

def appendInt {n : Nat} (b : Buffer) (x : BitVec (8 * n)) : Checked Buffer :=
  b.append (bigEndian n x.toNat)

def peekInt (n : Nat) (type : String) (b : Buffer) : Checked (BitVec (8 * n)) := do
  assertThat (n ≤ b.readableBytes) ("readableBytes() >= sizeof(" ++ type ++ ")")
  pure (BitVec.ofNat (8 * n) (ofBigEndian (window b.buffer_ b.peek (b.peek + n))))

def appendInt32 (b : Buffer) (x : BitVec 32) : Checked Buffer := appendInt (n := 4) b x

def peekInt32 (b : Buffer) : Checked (BitVec 32) := peekInt 4 "int32_t" b

variable {b : Buffer}

theorem appendInt_spec {n : Nat} (valid : b.Valid) (x : BitVec (8 * n)) :
    ∃ b', b.appendInt x = .ok b' ∧ b'.Valid ∧ b'.readable = b.readable ++ bigEndian n x.toNat :=
  append_spec valid _

theorem peekInt_spec {n : Nat} {type : String} (valid : b.Valid) (enough : n ≤ b.readableBytes) :
    b.peekInt n type = .ok (BitVec.ofNat (8 * n) (ofBigEndian (b.readable.take n))) := by
  have text : window b.buffer_ b.peek (b.peek + n) = b.readable.take n := by
    refine (take_window _ _ _ _ ?_).symm
    have := valid.ordered
    simp only [readableBytes, peek] at enough ⊢
    omega
  simp [peekInt, enough, text]

theorem makeSpace_reader {len : Nat} (ran : b.makeSpace len = .ok b') :
    b'.readerIndex_ = b.readerIndex_ ∨ b'.readerIndex_ = kCheapPrepend := by
  unfold makeSpace at ran
  split at ran
  · cases ran
    exact Or.inl rfl
  · obtain ⟨-, -, ran⟩ := bind_eq_ok.mp ran
    obtain ⟨-, -, ran⟩ := bind_eq_ok.mp ran
    cases ran
    exact Or.inr rfl

theorem ensureWritableBytes_reader {len : Nat} (ran : b.ensureWritableBytes len = .ok b') :
    b'.readerIndex_ = b.readerIndex_ ∨ b'.readerIndex_ = kCheapPrepend := by
  rcases ensureWritableBytes_made ran with rfl | grew
  · exact Or.inl rfl
  · exact makeSpace_reader grew

theorem hasWritten_reader {len : Nat} (ran : b.hasWritten len = .ok b') :
    b'.readerIndex_ = b.readerIndex_ := by
  obtain ⟨-, -, ran⟩ := bind_eq_ok.mp ran
  cases ran
  rfl

theorem prepend_room {data : List UInt8} (ran : b.prepend data = .ok b') :
    data.length ≤ b.prependableBytes ∧
      b'.prependableBytes = b.prependableBytes - data.length := by
  obtain ⟨_, room, stored⟩ := bind_eq_ok.mp ran
  cases stored
  exact ⟨assertThat_eq_ok.mp room, rfl⟩

theorem append_reader {data : List UInt8} (ran : b.append data = .ok b') :
    b'.readerIndex_ = b.readerIndex_ ∨ b'.readerIndex_ = kCheapPrepend := by
  obtain ⟨grown, grew, ran⟩ := bind_eq_ok.mp ran
  have moved := ensureWritableBytes_reader grew
  rw [hasWritten_reader ran]
  exact moved

end Buffer
end Muduo
