import Muduo.Net.BufferInt

/-!
Runs of appendInt8 to appendInt64 and prependInt8 to prependInt64, and reading them
back. An intN_t is a BitVec of its bits, whose value is the signed one. The 8-bit
members copy the byte as it is; the others go through hostToNetwork and networkToHost.
-/
namespace Muduo
open Lib
namespace Buffer
variable {rest : List UInt8}

def prependInt {n : Nat} (b : Buffer) (x : BitVec (8 * n)) : Checked Buffer :=
  b.prepend (bigEndian n x.toNat)

def readInt (n : Nat) (type : String) (b : Buffer) : Checked (BitVec (8 * n) × Buffer) := do
  let result ← b.peekInt n type
  let rest ← b.retrieve n
  pure (result, rest)

def appendInt64 (b : Buffer) (x : BitVec 64) : Checked Buffer := appendInt (n := 8) b x
def appendInt16 (b : Buffer) (x : BitVec 16) : Checked Buffer := appendInt (n := 2) b x
def appendInt8 (b : Buffer) (x : BitVec 8) : Checked Buffer := b.append [UInt8.ofBitVec x]

def prependInt64 (b : Buffer) (x : BitVec 64) : Checked Buffer := prependInt (n := 8) b x
def prependInt32 (b : Buffer) (x : BitVec 32) : Checked Buffer := prependInt (n := 4) b x
def prependInt16 (b : Buffer) (x : BitVec 16) : Checked Buffer := prependInt (n := 2) b x
def prependInt8 (b : Buffer) (x : BitVec 8) : Checked Buffer := b.prepend [UInt8.ofBitVec x]

def peekInt64 (b : Buffer) : Checked (BitVec 64) := peekInt 8 "int64_t" b
def peekInt16 (b : Buffer) : Checked (BitVec 16) := peekInt 2 "int16_t" b

def peekInt8 (b : Buffer) : Checked (BitVec 8) := do
  assertThat (1 ≤ b.readableBytes) "readableBytes() >= sizeof(int8_t)"
  pure (b.buffer_.getD b.peek 0).toBitVec

def readInt64 (b : Buffer) : Checked (BitVec 64 × Buffer) := readInt 8 "int64_t" b
def readInt32 (b : Buffer) : Checked (BitVec 32 × Buffer) := readInt 4 "int32_t" b
def readInt16 (b : Buffer) : Checked (BitVec 16 × Buffer) := readInt 2 "int16_t" b

def readInt8 (b : Buffer) : Checked (BitVec 8 × Buffer) := do
  let result ← b.peekInt8
  let rest ← b.retrieve 1
  pure (result, rest)

inductive Width where
  | int8 | int16 | int32 | int64
  deriving DecidableEq, Repr

def Width.bytes : Width → Nat
  | .int8 => 1
  | .int16 => 2
  | .int32 => 4
  | .int64 => 8

structure Number where
  width : Width
  bits : BitVec (8 * width.bytes)
  deriving DecidableEq

namespace Number

def value (x : Number) : Int := x.bits.toInt

def wire (x : Number) : List UInt8 := bigEndian x.width.bytes x.bits.toNat

@[simp] theorem length_wire (x : Number) : x.wire.length = x.width.bytes := length_bigEndian _ _

theorem ofBigEndian_wire (x : Number) : ofBigEndian x.wire = x.bits.toNat := by
  have small : x.bits.toNat < 256 ^ x.width.bytes := by
    have bound := x.bits.isLt
    rwa [Nat.pow_mul] at bound
  rw [wire, ofBigEndian_bigEndian, Nat.mod_eq_of_lt small]

theorem wire_value (x : Number) :
    (ofBigEndian x.wire : Int) = x.value % (2 ^ (8 * x.width.bytes) : Nat) := by
  have bound : (x.bits.toNat : Int) < (2 ^ (8 * x.width.bytes) : Nat) :=
    Int.ofNat_lt.mpr x.bits.isLt
  rw [ofBigEndian_wire, value, BitVec.toInt_eq_toNat_bmod, Int.bmod_emod,
    Int.emod_eq_of_lt (Int.natCast_nonneg _) bound]

end Number

def appendIntN (b : Buffer) : Number → Checked Buffer
  | ⟨.int8, x⟩ => b.appendInt8 x
  | ⟨.int16, x⟩ => b.appendInt16 x
  | ⟨.int32, x⟩ => b.appendInt32 x
  | ⟨.int64, x⟩ => b.appendInt64 x

def prependIntN (b : Buffer) : Number → Checked Buffer
  | ⟨.int8, x⟩ => b.prependInt8 x
  | ⟨.int16, x⟩ => b.prependInt16 x
  | ⟨.int32, x⟩ => b.prependInt32 x
  | ⟨.int64, x⟩ => b.prependInt64 x

def peekIntN (b : Buffer) : (w : Width) → Checked (BitVec (8 * w.bytes))
  | .int8 => b.peekInt8
  | .int16 => b.peekInt16
  | .int32 => b.peekInt32
  | .int64 => b.peekInt64

def readIntN (b : Buffer) : (w : Width) → Checked (BitVec (8 * w.bytes) × Buffer)
  | .int8 => b.readInt8
  | .int16 => b.readInt16
  | .int32 => b.readInt32
  | .int64 => b.readInt64

variable {b b' : Buffer}

theorem wire_int8 (x : BitVec 8) : bigEndian 1 x.toNat = [UInt8.ofBitVec x] := by
  have byte : UInt8.ofNat x.toNat = UInt8.ofBitVec x := by
    apply UInt8.toNat_inj.mp
    rw [UInt8.toNat_ofNat', Nat.mod_eq_of_lt x.isLt]
    rfl
  simp [bigEndian, byte]

theorem appendIntN_eq (b : Buffer) (x : Number) : b.appendIntN x = b.append x.wire := by
  obtain ⟨width, bits⟩ := x
  cases width with
  | int8 => exact congrArg b.append (wire_int8 bits).symm
  | int16 => rfl
  | int32 => rfl
  | int64 => rfl

theorem prependIntN_eq (b : Buffer) (x : Number) : b.prependIntN x = b.prepend x.wire := by
  obtain ⟨width, bits⟩ := x
  cases width with
  | int8 => exact congrArg b.prepend (wire_int8 bits).symm
  | int16 => rfl
  | int32 => rfl
  | int64 => rfl

theorem peekInt8_eq (valid : b.Valid) : b.peekInt8 = peekInt 1 "int8_t" b := by
  by_cases some_ : 1 ≤ b.readableBytes
  · have inside : b.peek < b.buffer_.length := by
      have bounded := valid.bounded
      simp only [readableBytes, peek] at some_ ⊢
      omega
    have first : window b.buffer_ b.peek (b.peek + 1) = [b.buffer_[b.peek]] := by
      rw [window, List.drop_take, Nat.add_sub_cancel_left, List.drop_eq_getElem_cons inside]
      rfl
    have byte : b.buffer_.getD b.peek 0 = b.buffer_[b.peek] := by
      rw [List.getD_eq_getElem?_getD, List.getElem?_eq_getElem inside, Option.getD_some]
    have number : (b.buffer_[b.peek]).toBitVec =
        BitVec.ofNat (8 * 1) (ofBigEndian [b.buffer_[b.peek]]) := by
      apply BitVec.eq_of_toNat_eq
      simp [ofBigEndian]
    simp only [peekInt8, peekInt, assertThat_of_true some_, ok_bind, byte, number, first]
  · simp only [peekInt8, peekInt, assertThat_of_false some_]
    rfl

theorem peekIntN_spec {x : Number} (valid : b.Valid) (content : b.readable = x.wire ++ rest) :
    b.peekIntN x.width = .ok x.bits := by
  have enough : x.width.bytes ≤ b.readableBytes := by
    rw [← readable_length valid, content, List.length_append, x.length_wire]
    omega
  have front : b.readable.take x.width.bytes = x.wire := by
    rw [content, ← x.length_wire, List.take_left']
    rfl
  have peeked : ∀ type, peekInt x.width.bytes type b = .ok x.bits := by
    intro type
    rw [peekInt_spec valid enough, front, x.ofBigEndian_wire, BitVec.ofNat_toNat,
      BitVec.setWidth_eq]
  obtain ⟨width, bits⟩ := x
  cases width with
  | int8 => exact (peekInt8_eq valid).trans (peeked _)
  | int16 => exact peeked _
  | int32 => exact peeked _
  | int64 => exact peeked _

theorem readIntN_eq (b : Buffer) (w : Width) : b.readIntN w = (do
    let result ← b.peekIntN w
    let rest ← b.retrieve w.bytes
    pure (result, rest)) := by
  cases w with
  | int8 => rfl
  | int16 => rfl
  | int32 => rfl
  | int64 => rfl

theorem readIntN_spec {x : Number} (valid : b.Valid) (content : b.readable = x.wire ++ rest) :
    ∃ b', b.readIntN x.width = .ok (x.bits, b') ∧ b'.Valid ∧ b'.readable = rest := by
  have enough : x.width.bytes ≤ b.readableBytes := by
    rw [← readable_length valid, content, List.length_append, x.length_wire]
    omega
  obtain ⟨b', retrieved, valid', left⟩ := retrieve_spec valid enough
  refine ⟨b', ?_, valid', ?_⟩
  · rw [readIntN_eq, peekIntN_spec valid content, ok_bind, retrieved, ok_bind, pure_eq_ok]
  · rw [left, content, ← x.length_wire, List.drop_left']
    rfl

theorem peekIntN_asserts (b : Buffer) (w : Width) : ∃ text value,
    b.peekIntN w = assertThat (w.bytes ≤ b.readableBytes) text >>= fun _ => .ok value := by
  cases w with
  | int8 => exact ⟨_, _, rfl⟩
  | int16 => exact ⟨_, _, rfl⟩
  | int32 => exact ⟨_, _, rfl⟩
  | int64 => exact ⟨_, _, rfl⟩

theorem peekIntN_agrees (b : Buffer) (w : Width) :
    b.peekIntN w = (b.readIntN w).map Prod.fst := by
  obtain ⟨text, value, peeked⟩ := peekIntN_asserts b w
  rw [readIntN_eq, peeked]
  by_cases enough : w.bytes ≤ b.readableBytes
  · rw [assertThat_of_true enough, ok_bind, ok_bind, retrieve, assertThat_of_true enough, ok_bind]
    split
    · rfl
    · rfl
  · rw [assertThat_of_false enough]
    rfl

def readIntNs : List Width → Buffer → Checked (List Number × Buffer)
  | [], b => pure ([], b)
  | w :: ws, b => do
    let (bits, b) ← b.readIntN w
    let (others, b) ← readIntNs ws b
    pure (⟨w, bits⟩ :: others, b)

def wires (xs : List Number) : List UInt8 := xs.flatMap Number.wire

theorem readIntNs_spec {xs : List Number} (valid : b.Valid)
    (content : b.readable = wires xs ++ rest) :
    ∃ b', readIntNs (xs.map Number.width) b = .ok (xs, b') ∧ b'.Valid ∧ b'.readable = rest := by
  induction xs generalizing b with
  | nil => exact ⟨b, rfl, valid, content⟩
  | cons x xs ih =>
    rw [wires, List.flatMap_cons, List.append_assoc] at content
    obtain ⟨b₁, first, valid₁, left⟩ := readIntN_spec valid content
    obtain ⟨b₂, others, valid₂, left₂⟩ := ih valid₁ left
    refine ⟨b₂, ?_, valid₂, left₂⟩
    simp only [List.map_cons, readIntNs, first, others, ok_bind, pure_eq_ok]

inductive Put where
  | append (x : Number)
  | prepend (x : Number)

def put (b : Buffer) : Put → Checked Buffer
  | .append x => b.appendIntN x
  | .prepend x => b.prependIntN x

def putAll (b : Buffer) (puts : List Put) : Checked Buffer := puts.foldlM put b

def appended : List Put → List Number
  | [] => []
  | .append x :: puts => x :: appended puts
  | .prepend _ :: puts => appended puts

def prepended : List Put → List Number
  | [] => []
  | .append _ :: puts => prepended puts
  | .prepend x :: puts => prepended puts ++ [x]

theorem putAll_spec {puts : List Put} (valid : b.Valid) (ran : b.putAll puts = .ok b') :
    b'.Valid ∧ b'.readable = wires (prepended puts) ++ b.readable ++ wires (appended puts) := by
  induction puts generalizing b with
  | nil =>
    cases ran
    exact ⟨valid, by simp [wires, prepended, appended]⟩
  | cons p puts ih =>
    rw [putAll, List.foldlM_cons] at ran
    obtain ⟨b₁, first, rest⟩ := bind_eq_ok.mp ran
    cases p with
    | append x =>
      rw [put, appendIntN_eq] at first
      obtain ⟨valid₁, content⟩ := holds_of_ok (append_spec valid x.wire) first
      obtain ⟨valid', all⟩ := ih valid₁ rest
      refine ⟨valid', ?_⟩
      rw [all, content]
      simp [wires, prepended, appended]
    | prepend x =>
      rw [put, prependIntN_eq] at first
      obtain ⟨valid₁, content⟩ := holds_of_ok (prepend_spec valid (prepend_room first).1) first
      obtain ⟨valid', all⟩ := ih valid₁ rest
      refine ⟨valid', ?_⟩
      rw [all, content]
      simp [wires, prepended, appended]

theorem putAll_append (valid : b.Valid) (xs : List Number) :
    ∃ b', b.putAll (xs.map .append) = .ok b' := by
  induction xs generalizing b with
  | nil => exact ⟨b, rfl⟩
  | cons x xs ih =>
    obtain ⟨b₁, stored, valid₁, -⟩ := append_spec valid x.wire
    obtain ⟨b', rest⟩ := ih valid₁
    refine ⟨b', ?_⟩
    rw [putAll, List.map_cons, List.foldlM_cons, put, appendIntN_eq, stored, ok_bind]
    exact rest

def totalBytes : List Number → Nat
  | [] => 0
  | x :: xs => x.width.bytes + totalBytes xs

theorem putAll_prepend {xs : List Number} (valid : b.Valid)
    (room : totalBytes xs ≤ b.prependableBytes) : ∃ b', b.putAll (xs.map .prepend) = .ok b' := by
  induction xs generalizing b with
  | nil => exact ⟨b, rfl⟩
  | cons x xs ih =>
    rw [totalBytes] at room
    have fits : x.wire.length ≤ b.prependableBytes := by
      rw [x.length_wire]
      omega
    obtain ⟨b₁, stored, valid₁, -⟩ := prepend_spec valid fits
    have left := (prepend_room stored).2
    rw [x.length_wire] at left
    obtain ⟨b', rest⟩ := ih valid₁ (by omega)
    refine ⟨b', ?_⟩
    rw [putAll, List.map_cons, List.foldlM_cons, put, prependIntN_eq, stored, ok_bind]
    exact rest

/-- The buffer gives back the integers in front, the bytes between and the integers behind. -/
structure ReadsBack (b : Buffer) (front : List Number) (middle : List UInt8)
    (back : List Number) : Prop where
  valid : b.Valid
  content : b.readable = wires front ++ middle ++ wires back
  reads : ∃ b₁ b₂ b₃, readIntNs (front.map Number.width) b = .ok (front, b₁) ∧
    b₁.retrieveAsString middle.length = .ok (middle, b₂) ∧
    readIntNs (back.map Number.width) b₂ = .ok (back, b₃) ∧ b₃.readable = []

theorem readsBack_of_content {front back : List Number} {middle : List UInt8} (valid : b.Valid)
    (content : b.readable = wires front ++ middle ++ wires back) :
    ReadsBack b front middle back := by
  refine ⟨valid, content, ?_⟩
  rw [List.append_assoc] at content
  obtain ⟨b₁, first, valid₁, left₁⟩ := readIntNs_spec valid content
  have enough : middle.length ≤ b₁.readableBytes := by
    rw [← readable_length valid₁, left₁, List.length_append]
    omega
  obtain ⟨b₂, second, valid₂, left₂⟩ := retrieveAsString_spec valid₁ enough
  rw [left₁, List.take_left] at second
  rw [left₁, List.drop_left] at left₂
  have remains : b₂.readable = wires back ++ [] := by rw [left₂, List.append_nil]
  obtain ⟨b₃, third, -, left₃⟩ := readIntNs_spec valid₂ remains
  exact ⟨b₁, b₂, b₃, first, second, third, left₃⟩

/-- Appends always succeed, and prepends that fit do. What any run of them has put into the
    buffer is read back, around the bytes that were there. -/
theorem integers_read_back (valid : b.Valid) :
    (∀ xs : List Number, ∃ b', b.putAll (xs.map .append) = .ok b') ∧
    (∀ xs : List Number, totalBytes xs ≤ b.prependableBytes →
      ∃ b', b.putAll (xs.map .prepend) = .ok b') ∧
    (∀ puts b', b.putAll puts = .ok b' →
      ReadsBack b' (prepended puts) b.readable (appended puts)) ∧
    (∀ x : Number, x.wire.length = x.width.bytes ∧
      (ofBigEndian x.wire : Int) = x.value % (2 ^ (8 * x.width.bytes) : Nat)) ∧
    ∀ (c : Buffer) (w : Width), c.peekIntN w = (c.readIntN w).map Prod.fst := by
  refine ⟨putAll_append valid, fun xs => putAll_prepend valid, ?_, ?_, peekIntN_agrees⟩
  · intro puts b' ran
    obtain ⟨valid', content⟩ := putAll_spec valid ran
    exact readsBack_of_content valid' content
  · intro x
    exact ⟨x.length_wire, x.wire_value⟩

def mixedPuts : List Put :=
  [.append ⟨.int16, -2⟩, .prepend ⟨.int8, -1⟩, .append ⟨.int64, 5⟩, .prepend ⟨.int32, -70000⟩]

theorem integers_read_back_mixed : ∃ b',
    (⟨List.replicate 12 7, 9, 10⟩ : Buffer).putAll mixedPuts = .ok b' ∧
    ReadsBack b' [⟨.int32, -70000⟩, ⟨.int8, -1⟩] [7] [⟨.int16, -2⟩, ⟨.int64, 5⟩] := by
  have valid : (⟨List.replicate 12 7, 9, 10⟩ : Buffer).Valid :=
    ⟨by decide, by decide, by decide⟩
  obtain ⟨b', ran⟩ : ∃ b', (⟨List.replicate 12 7, 9, 10⟩ : Buffer).putAll mixedPuts = .ok b' :=
    ⟨_, rfl⟩
  exact ⟨b', ran, (integers_read_back valid).2.2.1 mixedPuts b' ran⟩

end Buffer
end Muduo
