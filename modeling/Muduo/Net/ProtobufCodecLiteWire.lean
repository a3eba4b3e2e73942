import Muduo.Net.ProtobufCodecLiteEncode

/-!
Messages as the bytes that stand between two codecs. Any first part of the bytes of a
list of messages is read as the first of these messages and a part of the next one.
-/
namespace Muduo
open Lib
namespace ProtobufCodecLite
variable {M : Type} {c : ProtobufCodecLite M} {m : M} {ms : List M} {bytes tail : List UInt8}

/-- What fillEmptyBuffer writes, whatever the size of the message. -/
def wire (c : ProtobufCodecLite M) (m : M) : List UInt8 :=
  bigEndian 4 (BitVec.ofNat 32 (c.size m)).toNat ++ (c.tag_ ++ c.serialize m ++
    bigEndian 4 (c.checksum (c.tag_ ++ c.serialize m) 0
      (BitVec.ofNat 32 (c.tag_.length + (c.serialize m).length)).toInt).1.toNat)

def wireAll (c : ProtobufCodecLite M) (ms : List M) : List UInt8 := (ms.map c.wire).flatten

@[simp] theorem wireAll_nil : c.wireAll [] = [] := rfl

@[simp] theorem wireAll_cons : c.wireAll (m :: ms) = c.wire m ++ c.wireAll ms := rfl

@[simp] theorem wireAll_append (ms ns : List M) :
    c.wireAll (ms ++ ns) = c.wireAll ms ++ c.wireAll ns := by
  simp [wireAll]

theorem encode_eq_wire (c : ProtobufCodecLite M) (m : M) : c.encode m = .ok (c.wire m) := by
  obtain ⟨b, ran, valid, empty, -, cheap⟩ := Buffer.new_spec Buffer.kInitialSize
  obtain ⟨b', filled, text⟩ :=
    fillEmptyBuffer_runs (c := c) (m := m) valid empty (Nat.le_of_eq cheap.symm)
  simp only [encode, ran, ok_bind, filled, text, pure_eq_ok]
  rfl

theorem wire_pos (c : ProtobufCodecLite M) (m : M) : 0 < (c.wire m).length := by
  rw [wire, List.length_append, length_bigEndian]
  omega

structure Carried (c : ProtobufCodecLite M) (m : M) : Prop where
  fits : c.size m ≤ kMaxMessageLen
  inverts : c.parseFromArray (c.serialize m) = some m

theorem wire_eq_frame (carried : c.Carried m) : c.wire m = c.frame (c.serialize m) := by
  have small : c.size m < 2147483648 := by
    have fits := carried.fits
    simp only [kMaxMessageLen] at fits
    omega
  have encoded := encode_spec small
  rw [encode_eq_wire] at encoded
  exact Except.ok.inj encoded

/-- The bytes held back are too few for the next message. -/
def Short (c : ProtobufCodecLite M) (left : List UInt8) (ms : List M) : Prop :=
  ∀ m ∈ ms.head?, left.length < (c.wire m).length

theorem short_nil (ms : List M) : c.Short [] ms := by
  intro m _
  exact c.wire_pos m

theorem short_append {left : List UInt8} {ns : List M} (short : c.Short left ms)
    (whole : left <+: c.wireAll ms) : c.Short left (ms ++ ns) := by
  cases ms with
  | nil =>
    rw [List.prefix_nil.mp whole]
    exact short_nil _
  | cons m ms => exact short

theorem parses_of_prefix (noRaw : c.rawCb_ = none) (carried : ∀ m ∈ ms, c.Carried m)
    (whole : bytes ++ tail = c.wireAll ms) :
    ∃ got rest left, ms = got ++ rest ∧ Parses c bytes (got.map .message) left ∧
      left ++ tail = c.wireAll rest ∧ c.Short left rest := by
  induction ms generalizing bytes with
  | nil =>
    obtain ⟨rfl, -⟩ := List.append_eq_nil_iff.mp whole
    exact ⟨[], [], [], rfl, .waits (.short (Nat.succ_pos _)), whole, short_nil _⟩
  | cons m ms ih =>
    have first := carried m List.mem_cons_self
    have frame := wire_eq_frame first
    have ahead : c.wire m <+: bytes ++ tail := ⟨c.wireAll ms, whole.symm⟩
    by_cases proper : bytes.length < (c.wire m).length
    · -- the first frame has not all come
      have part : bytes <+: c.wire m :=
        List.prefix_of_prefix_length_le ⟨tail, rfl⟩ ahead (Nat.le_of_lt proper)
      refine ⟨[], m :: ms, bytes, rfl, .waits ?_, whole, ?_⟩
      · rw [frame] at part proper
        apply waits_of_prefix (inRange_size first.fits) part
        rintro rfl
        exact Nat.lt_irrefl _ proper
      · intro m' head
        obtain rfl : m = m' := by simpa using head
        exact proper
    · obtain ⟨more, rfl⟩ := List.prefix_of_prefix_length_le ahead ⟨tail, rfl⟩ (Nat.not_lt.mp proper)
      rw [wireAll_cons, List.append_assoc] at whole
      obtain ⟨got, rest, left, rfl, parses, behind, short⟩ :=
        ih (fun m member => carried m (List.mem_cons_of_mem _ member))
          (List.append_cancel_left whole)
      refine ⟨m :: got, rest, left, rfl, ?_, behind, short⟩
      have heard : c.Heard (c.frame (c.serialize m)) := by
        intro raw rawCb
        rw [noRaw] at rawCb
        cases rawCb
      rw [frame]
      exact .message (inRange_size first.fits) heard first.inverts parses

end ProtobufCodecLite
end Muduo
