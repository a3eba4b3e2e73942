import Muduo.Net.ProtobufCodecLiteDecode

/-!
fillEmptyBuffer writes the wire format, and onMessage reads back what it wrote as
long as no frame is larger than kMaxMessageLen. The encoder has no such limit; its
first frame beyond it stops the reader.
-/
namespace Muduo
open Lib
namespace ProtobufCodecLite
variable {M : Type} {c : ProtobufCodecLite M} {m : M} {payload r : List UInt8} {b : Buffer}
  {ms : List M}

def size (c : ProtobufCodecLite M) (m : M) : Nat :=
  c.tag_.length + (c.serialize m).length + kChecksumLen

def encode (c : ProtobufCodecLite M) (m : M) : Checked (List UInt8) := do
  let buf ← Buffer.new Buffer.kInitialSize
  let buf ← c.fillEmptyBuffer buf m
  pure buf.readable

theorem serializeToBuffer_spec (valid : b.Valid) :
    ∃ b', c.serializeToBuffer m b = .ok (b', (c.serialize m).length) ∧ b'.Valid ∧
      b'.readable = b.readable ++ c.serialize m ∧
      (b'.readerIndex_ = b.readerIndex_ ∨ b'.readerIndex_ = Buffer.kCheapPrepend) := by
  obtain ⟨grown, ran, valid₁, same, room⟩ :=
    Buffer.ensureWritableBytes_spec valid ((c.serialize m).length + kChecksumLen)
  obtain ⟨b', wrote, valid₂, text⟩ :=
    Buffer.hasWritten_spec valid₁ (Nat.le_trans (Nat.le_add_right _ _) room)
  refine ⟨b', ?_, valid₂, by rw [text, same], ?_⟩
  · simp [serializeToBuffer, ran, wrote]
  · have reader := Buffer.ensureWritableBytes_reader ran
    rw [Buffer.hasWritten_reader wrote]
    exact reader

theorem checksum_whole {content : List UInt8} {len : Int} (whole : len = content.length) :
    (c.checksum content 0 len).1 = c.adler32 content := by
  simp [checksum, bytesAt, whole]

theorem toInt_small {n : Nat} (small : n < 2147483648) : (BitVec.ofNat 32 n).toInt = n := by
  rw [BitVec.toInt_eq_toNat_cond, BitVec.toNat_ofNat, Nat.mod_eq_of_lt (by omega)]
  split
  · rfl
  · omega

theorem fillEmptyBuffer_runs (valid : b.Valid) (empty : b.readable = [])
    (cheap : Buffer.kCheapPrepend ≤ b.prependableBytes) :
    ∃ b', c.fillEmptyBuffer b m = .ok b' ∧ b'.readable =
      bigEndian 4 (BitVec.ofNat 32 (c.size m)).toNat ++ (c.tag_ ++ c.serialize m ++
        bigEndian 4 (c.checksum (c.tag_ ++ c.serialize m) 0
          (BitVec.ofNat 32 (c.tag_.length + (c.serialize m).length)).toInt).1.toNat) := by
  have nothing : b.readableBytes = 0 := by
    rw [← Buffer.readable_length valid, empty]
    rfl
  obtain ⟨b₁, ran₁, valid₁, text₁⟩ := Buffer.append_spec valid c.tag_
  obtain ⟨b₂, ran₂, valid₂, text₂, reader₂⟩ := serializeToBuffer_spec (c := c) (m := m) valid₁
  have body : b₂.readable = c.tag_ ++ c.serialize m := by
    rw [text₂, text₁, empty, List.nil_append]
  have length₂ : b₂.readableBytes = c.tag_.length + (c.serialize m).length := by
    rw [← Buffer.readable_length valid₂, body, List.length_append]
  obtain ⟨b₃, ran₃, valid₃, text₃⟩ := Buffer.appendInt_spec (n := 4) valid₂
    (c.checksum (c.tag_ ++ c.serialize m) 0
      (BitVec.ofNat 32 (c.tag_.length + (c.serialize m).length)).toInt).1
  have length₃ : b₃.readableBytes = c.size m := by
    rw [← Buffer.readable_length valid₃, text₃, body, List.length_append, List.length_append,
      length_bigEndian]
    rfl
  have fits : (bigEndian 4 (BitVec.ofNat 32 b₃.readableBytes).toNat).length ≤
      b₃.prependableBytes := by
    have first := Buffer.append_reader ran₁
    have third := Buffer.append_reader ran₃
    rw [length_bigEndian]
    simp only [Buffer.prependableBytes, Buffer.kCheapPrepend] at *
    omega
  obtain ⟨b₄, ran₄, -, text₄⟩ := Buffer.prepend_spec valid₃ fits
  refine ⟨b₄, ?_, ?_⟩
  · have ran₃ : b₂.appendInt32 (c.checksum b₂.readable 0
        (BitVec.ofNat 32 b₂.readableBytes).toInt).1 = .ok b₃ := by
      rw [body, length₂]
      exact ran₃
    simp only [fillEmptyBuffer, nothing, assertThat_of_true, ok_bind, ran₁, ran₂, ran₃]
    rw [assertThat_of_true (by rw [length₃]; rfl), ok_bind]
    exact ran₄
  · rw [text₄, text₃, body, length₃]

theorem fillEmptyBuffer_spec (valid : b.Valid) (empty : b.readable = [])
    (cheap : b.prependableBytes = Buffer.kCheapPrepend) (small : c.size m < 2147483648) :
    ∃ b', c.fillEmptyBuffer b m = .ok b' ∧ b'.readable = c.frame (c.serialize m) := by
  obtain ⟨b', ran, text⟩ :=
    fillEmptyBuffer_runs (c := c) (m := m) valid empty (Nat.le_of_eq cheap.symm)
  refine ⟨b', ran, ?_⟩
  simp only [size, kChecksumLen] at small
  have sum : (c.checksum (c.tag_ ++ c.serialize m) 0
      (BitVec.ofNat 32 (c.tag_.length + (c.serialize m).length)).toInt).1 =
      c.adler32 (c.tag_ ++ c.serialize m) := by
    rw [toInt_small (by omega)]
    exact checksum_whole (by rw [List.length_append])
  have number : (BitVec.ofNat 32 (c.size m)).toNat =
      c.tag_.length + (c.serialize m).length + 4 := by
    rw [BitVec.toNat_ofNat, size, kChecksumLen]
    omega
  rw [text, sum, number]
  simp only [frame, List.append_assoc]

theorem encode_spec (small : c.size m < 2147483648) :
    c.encode m = .ok (c.frame (c.serialize m)) := by
  obtain ⟨b, ran, valid, empty, -, cheap⟩ := Buffer.new_spec Buffer.kInitialSize
  obtain ⟨b', filled, text⟩ := fillEmptyBuffer_spec valid empty cheap small
  simp [encode, ran, filled, text]

theorem encode_all (small : ∀ m ∈ ms, c.size m < 2147483648) :
    ms.mapM c.encode = .ok (ms.map fun m => c.frame (c.serialize m)) := by
  induction ms with
  | nil => rfl
  | cons m ms ih =>
    have first := encode_spec (small m List.mem_cons_self)
    have rest := ih fun m member => small m (List.mem_cons_of_mem _ member)
    simp [List.mapM_cons, first, rest]

theorem inRange_size (fits : c.size m ≤ kMaxMessageLen) :
    c.InRange (c.tag_.length + (c.serialize m).length + 4) := by
  simp only [size, kChecksumLen] at fits
  simp only [InRange, kMinMessageLen, kChecksumLen]
  omega

theorem parses_frames {tail left : List UInt8} {events : List (Event M)} (noRaw : c.rawCb_ = none)
    (inverts : ∀ m, c.parseFromArray (c.serialize m) = some m)
    (fits : ∀ m ∈ ms, c.size m ≤ kMaxMessageLen) (further : Parses c tail events left) :
    Parses c ((ms.map fun m => c.frame (c.serialize m)).flatten ++ tail)
      (ms.map .message ++ events) left := by
  induction ms with
  | nil => exact further
  | cons m ms ih =>
    have rest := ih fun m member => fits m (List.mem_cons_of_mem _ member)
    have heard : c.Heard (c.frame (c.serialize m)) := by
      intro raw rawCb
      rw [noRaw] at rawCb
      cases rawCb
    rw [List.map_cons, List.flatten_cons, List.append_assoc]
    exact .message (inRange_size (fits m List.mem_cons_self)) heard (inverts m) rest

theorem waits_of_prefix (inRange : c.InRange (c.tag_.length + payload.length + 4))
    (part : r <+: c.frame payload) (proper : r ≠ c.frame payload) : c.Waits r := by
  by_cases few : r.length < c.kMinMessageLen + 4
  · exact .short few
  · obtain ⟨tail, whole⟩ := part
    obtain ⟨-, high, -⟩ := small_of_inRange inRange
    have four : 4 ≤ r.length := by omega
    have size : announced r = c.tag_.length + payload.length + 4 := by
      have same : announced r = announced (c.frame payload) := by
        rw [← whole, announced, announced, List.take_append_of_le_length four]
      rw [same, frame, List.append_assoc, List.append_assoc, announced_header (by omega)]
      omega
    have shorter : r.length < (c.frame payload).length := by
      rw [← whole, List.length_append]
      cases tail with
      | nil => exact absurd (by simpa using whole) proper
      | cons byte tail =>
        rw [List.length_cons]
        omega
    rw [length_frame] at shorter
    refine .incomplete (size ▸ inRange) ?_
    rw [size]
    omega

theorem refuses_oversized (rest : List UInt8) (small : c.size m < 2147483648)
    (large : ¬c.size m ≤ kMaxMessageLen) :
    c.Refuses (c.frame (c.serialize m) ++ rest) .kInvalidLength := by
  simp only [size, kChecksumLen] at small large
  have announces : announced (c.frame (c.serialize m) ++ rest) =
      c.tag_.length + (c.serialize m).length + 4 := by
    simp only [frame, List.append_assoc]
    rw [announced_header (by omega)]
    omega
  refine .invalidLength ?_ ?_
  · rw [List.length_append, length_frame]
    simp only [kMinMessageLen, kChecksumLen]
    omega
  · rw [announces]
    rintro ⟨-, high⟩
    omega

theorem first_oversized (not_all : ¬∀ m ∈ ms, c.size m ≤ kMaxMessageLen) :
    ∃ good bad rest, ms = good ++ bad :: rest ∧ (∀ m ∈ good, c.size m ≤ kMaxMessageLen) ∧
      ¬c.size bad ≤ kMaxMessageLen := by
  induction ms with
  | nil => simp at not_all
  | cons m ms ih =>
    by_cases fits : c.size m ≤ kMaxMessageLen
    · have later : ¬∀ m ∈ ms, c.size m ≤ kMaxMessageLen := by
        intro all
        apply not_all
        intro x member
        rcases List.mem_cons.mp member with rfl | old
        · exact fits
        · exact all x old
      obtain ⟨good, bad, rest, rfl, all, large⟩ := ih later
      refine ⟨m :: good, bad, rest, rfl, ?_, large⟩
      intro x member
      rcases List.mem_cons.mp member with rfl | old
      · exact fits
      · exact all x old
    · exact ⟨[], m, ms, rfl, by simp, fits⟩

theorem parses_oversized {good rest : List M} {bad : M} (noRaw : c.rawCb_ = none)
    (inverts : ∀ m, c.parseFromArray (c.serialize m) = some m) (small : c.size bad < 2147483648)
    (fits : ∀ m ∈ good, c.size m ≤ kMaxMessageLen) (large : ¬c.size bad ≤ kMaxMessageLen) :
    Parses c (((good ++ bad :: rest).map fun m => c.frame (c.serialize m)).flatten ++ r)
      (good.map .message ++ [.error .kInvalidLength])
      ((((good ++ bad :: rest).map fun m => c.frame (c.serialize m)).drop good.length).flatten ++ r) := by
  have behind : ((good ++ bad :: rest).map fun m => c.frame (c.serialize m)).drop good.length =
      (bad :: rest).map fun m => c.frame (c.serialize m) := by
    rw [List.map_append]
    exact List.drop_left' (List.length_map _)
  have refuses : c.Refuses (((bad :: rest).map fun m => c.frame (c.serialize m)).flatten ++ r)
      .kInvalidLength := by
    rw [List.map_cons, List.flatten_cons, List.append_assoc]
    exact refuses_oversized _ small large
  rw [behind, List.map_append, List.flatten_append, List.append_assoc]
  exact parses_frames noRaw inverts fits (.refuses refuses)

/-- The frames of any messages, followed by a part of a further frame within the limit,
    come back as the messages, with that part left, exactly when every frame is within
    kMaxMessageLen; otherwise the messages before the first larger frame come back, then
    kInvalidLength, and that frame and all behind it stay. -/
theorem encode_decode (c : ProtobufCodecLite M) (noRaw : c.rawCb_ = none)
    (inverts : ∀ m, c.parseFromArray (c.serialize m) = some m) (ms : List M)
    (small : ∀ m ∈ ms, c.size m < 2147483648) (next : M) (within : c.size next ≤ kMaxMessageLen) :
    ∃ frames last, ms.mapM c.encode = .ok frames ∧ c.encode next = .ok last ∧
      ∀ r, r <+: last → r ≠ last → ∀ b : Buffer, b.Valid → b.readable = frames.flatten ++ r →
        ∃ t, c.onMessage b = .ok (some t) ∧
          (t.events = ms.map .message ∧ t.buf.readable = r ↔
            ∀ m ∈ ms, c.size m ≤ kMaxMessageLen) ∧
          ∀ good bad rest, ms = good ++ bad :: rest → (∀ m ∈ good, c.size m ≤ kMaxMessageLen) →
            ¬c.size bad ≤ kMaxMessageLen →
            t.events = good.map .message ++ [.error .kInvalidLength] ∧
              t.buf.readable = (frames.drop good.length).flatten ++ r := by
  have nextSmall : c.size next < 2147483648 := by
    simp only [kMaxMessageLen] at within
    omega
  refine ⟨_, _, encode_all small, encode_spec nextSmall, ?_⟩
  intro r part proper b valid content
  obtain ⟨events, left, parses⟩ := parses_total c b.readable
  obtain ⟨t, ran, did⟩ := onMessage_parses valid parses
  have happened : t.events = events := did.events
  rw [content] at parses
  have stops : ∀ good bad rest, ms = good ++ bad :: rest →
      (∀ m ∈ good, c.size m ≤ kMaxMessageLen) → ¬c.size bad ≤ kMaxMessageLen →
      t.events = good.map .message ++ [.error .kInvalidLength] ∧
        t.buf.readable =
          ((ms.map fun m => c.frame (c.serialize m)).drop good.length).flatten ++ r := by
    rintro good bad rest rfl fits large
    rw [happened, did.readable]
    exact parses_unique parses (parses_oversized noRaw inverts (small bad (by simp)) fits large)
  refine ⟨t, ran, ⟨?_, ?_⟩, stops⟩
  · rintro ⟨delivered, -⟩
    by_contra not_all
    obtain ⟨good, bad, rest, split, fits, large⟩ := first_oversized not_all
    have last : Event.error .kInvalidLength ∈ t.events := by
      rw [(stops good bad rest split fits large).1]
      simp
    rw [delivered] at last
    simp at last
  · intro fits
    have waits := waits_of_prefix (inRange_size within) part proper
    have reads := parses_frames noRaw inverts fits (.waits waits)
    rw [List.append_nil] at reads
    rw [happened, did.readable]
    exact parses_unique parses reads

/-- Two messages and the first ten bytes of a third frame. -/
theorem encode_decode_of_rpc :
    ∃ frames last b t, [[1], [2, 3]].mapM rpc.encode = .ok frames ∧
      rpc.encode [4, 5] = .ok last ∧ b.Valid ∧ b.readable = frames.flatten ++ last.take 10 ∧
      rpc.onMessage b = .ok (some t) ∧ t.events = [.message [1], .message [2, 3]] ∧
      t.buf.readable = last.take 10 := by
  have inverts : ∀ m, rpc.parseFromArray (rpc.serialize m) = some m := fun _ => rfl
  have sizes : ∀ m ∈ [[1], [2, 3]], rpc.size m < 2147483648 ∧ rpc.size m ≤ kMaxMessageLen := by
    decide
  obtain ⟨frames, last, encoded, encoded', decodes⟩ :=
    encode_decode rpc rfl inverts [[1], [2, 3]] (fun m member => (sizes m member).1) [4, 5]
      (by decide)
  have length : last.length = 14 := by
    rw [encode_spec (by decide)] at encoded'
    cases encoded'
    rfl
  obtain ⟨b, valid, readable⟩ := Buffer.exists_readable (frames.flatten ++ last.take 10)
  have proper : last.take 10 ≠ last := by
    intro same
    have shorter := congrArg List.length same
    rw [List.length_take, length] at shorter
    omega
  obtain ⟨t, ran, exact_, -⟩ :=
    decodes (last.take 10) (List.take_prefix 10 last) proper b valid readable
  obtain ⟨events, left⟩ := exact_.mpr fun m member => (sizes m member).2
  exact ⟨frames, last, b, t, encoded, encoded', valid, readable, ran, events, left⟩

end ProtobufCodecLite
end Muduo
