import Muduo.Net.ProtobufCodecLite

/-!
The wire format of ProtobufCodecLite.h as a relation between the bytes of a buffer,
what a reader of the format does with them, and the bytes it leaves. Nothing here
refers to onMessage.
-/
namespace Muduo
open Lib
namespace ProtobufCodecLite
variable {M : Type} {c : ProtobufCodecLite M} {bytes : List UInt8}

def frame (c : ProtobufCodecLite M) (payload : List UInt8) : List UInt8 :=
  bigEndian 4 (c.tag_.length + payload.length + 4) ++ c.tag_ ++ payload ++
    bigEndian 4 (c.adler32 (c.tag_ ++ payload)).toNat

def announced (bytes : List UInt8) : Int := (int32 (bytes.take 4)).toInt

def InRange (c : ProtobufCodecLite M) (size : Int) : Prop :=
  c.kMinMessageLen ≤ size ∧ size ≤ kMaxMessageLen

def Heard (c : ProtobufCodecLite M) (frame : List UInt8) : Prop := ∀ raw ∈ c.rawCb_, raw frame = true

inductive Waits (c : ProtobufCodecLite M) (bytes : List UInt8) : Prop where
  | short (few : bytes.length < c.kMinMessageLen + 4)
  | incomplete (inRange : c.InRange (announced bytes))
      (more : (bytes.length : Int) < 4 + announced bytes)

/-- The leading frame is at fault, for the first reason that applies. -/
inductive Refuses (c : ProtobufCodecLite M) : List UInt8 → ErrorCode → Prop where
  | invalidLength {bytes : List UInt8} (enough : c.kMinMessageLen + 4 ≤ bytes.length)
      (outside : ¬c.InRange (announced bytes)) : Refuses c bytes .kInvalidLength
  | checkSum {covered sum rest : List UInt8} (inRange : c.InRange (covered.length + 4))
      (heard : c.Heard (bigEndian 4 (covered.length + 4) ++ covered ++ sum)) (four : sum.length = 4)
      (wrong : sum ≠ bigEndian 4 (c.adler32 covered).toNat) :
      Refuses c (bigEndian 4 (covered.length + 4) ++ covered ++ sum ++ rest) .kCheckSumError
  | unknownMessageType {covered rest : List UInt8} (inRange : c.InRange (covered.length + 4))
      (heard : c.Heard (bigEndian 4 (covered.length + 4) ++ covered ++
        bigEndian 4 (c.adler32 covered).toNat))
      (other : ¬c.tag_ <+: covered) :
      Refuses c (bigEndian 4 (covered.length + 4) ++ covered ++
        bigEndian 4 (c.adler32 covered).toNat ++ rest) .kUnknownMessageType
  | parseError {payload rest : List UInt8} (inRange : c.InRange (c.tag_.length + payload.length + 4))
      (heard : c.Heard (c.frame payload)) (unparsable : c.parseFromArray payload = none) :
      Refuses c (c.frame payload ++ rest) .kParseError

/-- `Parses c bytes events left`: a reader of the format that is given `bytes` does
    `events` and leaves `left`. -/
inductive Parses (c : ProtobufCodecLite M) :
    List UInt8 → List (Event M) → List UInt8 → Prop where
  | waits {bytes : List UInt8} (waits : c.Waits bytes) : Parses c bytes [] bytes
  | refuses {bytes : List UInt8} {e : ErrorCode} (refuses : c.Refuses bytes e) :
      Parses c bytes [.error e] bytes
  | message {payload rest left : List UInt8} {m : M} {events : List (Event M)}
      (inRange : c.InRange (c.tag_.length + payload.length + 4))
      (heard : c.Heard (c.frame payload)) (parsed : c.parseFromArray payload = some m)
      (further : Parses c rest events left) :
      Parses c (c.frame payload ++ rest) (.message m :: events) left
  | skipped {body rest left : List UInt8} {events : List (Event M)} {raw : List UInt8 → Bool}
      (inRange : c.InRange body.length) (rawCb : raw ∈ c.rawCb_)
      (refused : raw (bigEndian 4 body.length ++ body) = false) (further : Parses c rest events left) :
      Parses c (bigEndian 4 body.length ++ body ++ rest) events left

theorem int32_bigEndian (x : BitVec 32) : int32 (bigEndian 4 x.toNat) = x := by
  apply BitVec.eq_of_toNat_eq
  rw [int32, ofBigEndian_bigEndian, BitVec.toNat_ofNat]
  have small := x.isLt
  omega

theorem bigEndian_int32 (four : bytes.length = 4) : bigEndian 4 (int32 bytes).toNat = bytes := by
  have small := ofBigEndian_lt bytes
  rw [four] at small
  rw [int32, BitVec.toNat_ofNat, Nat.mod_eq_of_lt (by omega), bigEndian_ofBigEndian four]

theorem take_header (n : Nat) (rest : List UInt8) : (bigEndian 4 n ++ rest).take 4 = bigEndian 4 n := by
  rw [List.take_append_of_le_length (by simp), List.take_of_length_le (by simp)]

theorem announced_header {n : Nat} (small : n < 2147483648) (rest : List UInt8) :
    announced (bigEndian 4 n ++ rest) = n := by
  rw [announced, take_header]
  have value : (int32 (bigEndian 4 n)).toNat = n := by
    rw [int32, BitVec.toNat_ofNat, ofBigEndian_bigEndian]
    omega
  rw [BitVec.toInt_eq_toNat_cond, value]
  split
  · rfl
  · omega

theorem header_of_announced (enough : 4 ≤ bytes.length) (positive : 0 ≤ announced bytes) :
    bytes = bigEndian 4 (announced bytes).toNat ++ bytes.drop 4 := by
  have value : (announced bytes).toNat = (int32 (bytes.take 4)).toNat := by
    have small := (int32 (bytes.take 4)).isLt
    rw [announced, BitVec.toInt_eq_toNat_cond] at positive ⊢
    split at positive
    · rename_i low
      rw [if_pos low]
      rfl
    · omega
  have four : (bytes.take 4).length = 4 := by
    rw [List.length_take]
    omega
  rw [value, bigEndian_int32 four, List.take_append_drop]

theorem small_of_inRange {size : Int} (inRange : c.InRange size) :
    4 ≤ size ∧ size ≤ 67108864 ∧ (c.tag_.length : Int) + 4 ≤ size := by
  obtain ⟨low, high⟩ := inRange
  simp only [kMinMessageLen, kChecksumLen, kMaxMessageLen] at low high
  omega

theorem length_frame (payload : List UInt8) :
    (c.frame payload).length = 4 + (c.tag_.length + payload.length + 4) := by
  simp only [frame, List.length_append, length_bigEndian]
  omega

theorem cut_frame (inRange : c.InRange (announced bytes))
    (complete : 4 + announced bytes ≤ bytes.length) :
    ∃ covered sum rest, bytes = bigEndian 4 (covered.length + 4) ++ covered ++ sum ++ rest ∧
      sum.length = 4 ∧ (covered.length : Int) + 4 = announced bytes := by
  obtain ⟨low, high, -⟩ := small_of_inRange inRange
  have enough : 4 ≤ bytes.length := by omega
  have header := header_of_announced enough (by omega)
  obtain ⟨size, size_eq⟩ : ∃ size : Nat, announced bytes = size + 4 :=
    ⟨(announced bytes - 4).toNat, by omega⟩
  let tail := bytes.drop 4
  have long : size + 4 ≤ tail.length := by
    simp only [tail, List.length_drop]
    omega
  have length : (tail.take size).length = size := by
    rw [List.length_take]
    omega
  refine ⟨tail.take size, (tail.drop size).take 4, (tail.drop size).drop 4, ?_, ?_, ?_⟩
  · rw [List.append_assoc, List.take_append_drop, List.append_assoc, List.take_append_drop, length]
    have number : (announced bytes).toNat = size + 4 := by omega
    rw [number] at header
    exact header
  · rw [List.length_take, List.length_drop]
    omega
  · rw [length, size_eq]

theorem parses_total (c : ProtobufCodecLite M) (bytes : List UInt8) :
    ∃ events left, Parses c bytes events left := by
  induction length : bytes.length using Nat.strong_induction_on generalizing bytes with
  | _ n ih =>
    by_cases few : bytes.length < c.kMinMessageLen + 4
    · exact ⟨[], bytes, .waits (.short few)⟩
    by_cases inRange : c.InRange (announced bytes)
    case neg => exact ⟨_, bytes, .refuses (.invalidLength (by omega) inRange)⟩
    by_cases complete : 4 + announced bytes ≤ bytes.length
    case neg => exact ⟨[], bytes, .waits (.incomplete inRange (by omega))⟩
    obtain ⟨covered, sum, rest, rfl, four, size⟩ := cut_frame inRange complete
    rw [← size] at inRange
    have shorter : rest.length < n := by
      simp only [List.length_append, length_bigEndian] at length
      omega
    obtain ⟨events, left, further⟩ := ih rest.length shorter rest rfl
    by_cases heard : c.Heard (bigEndian 4 (covered.length + 4) ++ covered ++ sum)
    case neg =>
      simp only [Heard, not_forall, Bool.not_eq_true] at heard
      obtain ⟨raw, rawCb, refused⟩ := heard
      have body : (covered ++ sum).length = covered.length + 4 := by
        rw [List.length_append, four]
      have range : c.InRange (covered ++ sum).length := by
        rw [body]
        exact inRange
      have refused : raw (bigEndian 4 (covered ++ sum).length ++ (covered ++ sum)) = false := by
        rw [body, ← List.append_assoc]
        exact refused
      have skipped := Parses.skipped range rawCb refused further
      rw [body, ← List.append_assoc] at skipped
      exact ⟨events, left, skipped⟩
    by_cases right : sum = bigEndian 4 (c.adler32 covered).toNat
    case neg => exact ⟨_, _, .refuses (.checkSum inRange heard four right)⟩
    subst right
    by_cases tagged : c.tag_ <+: covered
    case neg => exact ⟨_, _, .refuses (.unknownMessageType inRange heard tagged)⟩
    obtain ⟨payload, rfl⟩ := tagged
    have whole : bigEndian 4 ((c.tag_ ++ payload).length + 4) ++ (c.tag_ ++ payload) ++
        bigEndian 4 (c.adler32 (c.tag_ ++ payload)).toNat = c.frame payload := by
      simp only [frame, List.length_append, List.append_assoc]
    rw [List.length_append, Int.natCast_add] at inRange
    rw [whole] at heard ⊢
    cases parsed : c.parseFromArray payload with
    | none => exact ⟨_, _, .refuses (.parseError inRange heard parsed)⟩
    | some m => exact ⟨_, _, .message inRange heard parsed further⟩

end ProtobufCodecLite
end Muduo
