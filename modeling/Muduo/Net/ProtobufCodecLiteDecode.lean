import Muduo.Net.ProtobufCodecLiteFormat

/-!
onMessage reads the wire format: it follows every derivation of `Parses`, and hands
on only bytes of the frame that it is looking at.
-/
namespace Muduo
open Lib
namespace ProtobufCodecLite
variable {M : Type} {c : ProtobufCodecLite M} {s t : Session M}
  {bytes covered sum rest left payload : List UInt8} {events : List (Event M)} {spans : List Span}
  {e : ErrorCode} {raw : List UInt8 → Bool}

/-- The bytes lie in the frame, the frame lies in the buffer, the length is one. -/
def Inside (p : Passed) : Prop :=
  0 ≤ p.span.start ∧ 0 ≤ p.span.length ∧ p.span.start + p.span.length ≤ p.frame ∧
    p.frame ≤ p.present

structure Did (s : Session M) (events : List (Event M)) (left : List UInt8) (t : Session M) :
    Prop where
  valid : t.buf.Valid
  readable : t.buf.readable = left
  events : t.events = s.events ++ events
  passed : ∃ more, t.passed = s.passed ++ more ∧ ∀ p ∈ more, Inside p

theorem did_trans {u : Session M} {events' : List (Event M)} (first : Did s events rest t)
    (second : Did t events' left u) : Did s (events ++ events') left u := by
  obtain ⟨more, passed, inside⟩ := first.passed
  obtain ⟨more', passed', inside'⟩ := second.passed
  refine ⟨second.valid, second.readable, ?_, more ++ more', ?_, ?_⟩
  · rw [second.events, first.events, List.append_assoc]
  · rw [passed', passed, List.append_assoc]
  · intro p member
    rcases List.mem_append.mp member with early | late
    · exact inside p early
    · exact inside' p late

theorem bytesAt_middle {xs ys zs : List UInt8} {span : Span} (start : span.start = xs.length)
    (length : span.length = ys.length) : bytesAt (xs ++ (ys ++ zs)) span = ys := by
  simp [bytesAt, start, length]

structure Complete (c : ProtobufCodecLite M) (bytes covered sum rest : List UInt8) : Prop where
  split : bytes = bigEndian 4 (covered.length + 4) ++ covered ++ sum ++ rest
  four : sum.length = 4
  inRange : c.InRange (covered.length + 4)

theorem complete_frame (inRange : c.InRange (c.tag_.length + payload.length + 4)) :
    Complete c (c.frame payload ++ rest) (c.tag_ ++ payload)
      (bigEndian 4 (c.adler32 (c.tag_ ++ payload)).toNat) rest := by
  refine ⟨?_, length_bigEndian _ _, ?_⟩
  · simp only [frame, List.length_append, List.append_assoc]
  · rw [List.length_append, Int.natCast_add]
    exact inRange

theorem validateChecksum_spec (complete : Complete c bytes covered sum rest) :
    c.validateChecksum bytes kHeaderLen (covered.length + 4) =
      (decide (sum = bigEndian 4 (c.adler32 covered).toNat),
        [⟨4 + covered.length, 4⟩, ⟨4, covered.length⟩]) := by
  obtain ⟨split, four, -⟩ := complete
  have last : bytesAt bytes ⟨(kHeaderLen : Int) + (covered.length + 4) - kChecksumLen, 4⟩ = sum := by
    rw [split, List.append_assoc]
    refine bytesAt_middle ?_ (by rw [four]; rfl)
    simp [kHeaderLen, kChecksumLen]
    omega
  have body : bytesAt bytes ⟨kHeaderLen, (covered.length : Int) + 4 - kChecksumLen⟩ = covered := by
    rw [split, List.append_assoc, List.append_assoc]
    refine bytesAt_middle ?_ ?_
    · simp [kHeaderLen]
    · simp [kChecksumLen]
  have same : (c.adler32 covered == int32 sum) =
      decide (sum = bigEndian 4 (c.adler32 covered).toNat) := by
    rw [beq_eq_decide]
    apply decide_eq_decide.mpr
    constructor
    · intro equal
      rw [equal, bigEndian_int32 four]
    · intro equal
      rw [equal, int32_bigEndian]
  have start : (kHeaderLen : Int) + (covered.length + 4) - kChecksumLen = 4 + covered.length := by
    simp only [kHeaderLen, kChecksumLen]
    omega
  have length : (covered.length : Int) + 4 - kChecksumLen = covered.length := by
    simp only [kChecksumLen]
    omega
  simp only [validateChecksum, asInt32, checksum, last, body, same]
  simp only [start, length, List.cons_append, List.nil_append]
  rfl

theorem parse_wrong (complete : Complete c bytes covered sum rest)
    (wrong : sum ≠ bigEndian 4 (c.adler32 covered).toNat) :
    c.parse bytes kHeaderLen (covered.length + 4) =
      (.error .kCheckSumError, [⟨4 + covered.length, 4⟩, ⟨4, covered.length⟩]) := by
  simp only [parse, validateChecksum_spec complete, decide_eq_true_eq, if_neg wrong]

theorem tag_bytes (complete : Complete c bytes covered sum rest) :
    bytesAt bytes ⟨kHeaderLen, c.tag_.length⟩ = covered.take c.tag_.length := by
  obtain ⟨split, -, inRange⟩ := complete
  obtain ⟨-, -, low⟩ := small_of_inRange inRange
  have cut : covered.take c.tag_.length ++ (covered.drop c.tag_.length ++ (sum ++ rest)) =
      covered ++ (sum ++ rest) := by
    rw [← List.append_assoc, List.take_append_drop]
  rw [split, List.append_assoc, List.append_assoc, ← cut]
  refine bytesAt_middle ?_ ?_
  · simp [kHeaderLen]
  · rw [List.length_take]
    simp only
    omega

theorem parse_untagged (complete : Complete c bytes covered sum rest)
    (right : sum = bigEndian 4 (c.adler32 covered).toNat) (other : ¬c.tag_ <+: covered) :
    c.parse bytes kHeaderLen (covered.length + 4) =
      (.error .kUnknownMessageType,
        [⟨4 + covered.length, 4⟩, ⟨4, covered.length⟩, ⟨4, c.tag_.length⟩]) := by
  have differs : bytesAt bytes ⟨kHeaderLen, c.tag_.length⟩ ≠ c.tag_ := by
    rw [tag_bytes complete]
    intro same
    exact other (List.prefix_iff_eq_take.mpr same.symm)
  simp only [parse, validateChecksum_spec complete, decide_eq_true_eq, if_pos right,
    if_neg differs]
  rfl

theorem parse_tagged (complete : Complete c bytes (c.tag_ ++ payload) sum rest)
    (right : sum = bigEndian 4 (c.adler32 (c.tag_ ++ payload)).toNat) :
    c.parse bytes kHeaderLen ((c.tag_ ++ payload).length + 4) =
      ((c.parseFromArray payload).elim (.error .kParseError) .ok,
        [⟨4 + (c.tag_ ++ payload).length, 4⟩, ⟨4, (c.tag_ ++ payload).length⟩,
          ⟨4, c.tag_.length⟩, ⟨4 + c.tag_.length, payload.length⟩]) := by
  have same : bytesAt bytes ⟨kHeaderLen, c.tag_.length⟩ = c.tag_ := by
    rw [tag_bytes complete, List.take_append_of_le_length (Nat.le_refl _), List.take_length]
  have length : ((c.tag_ ++ payload).length : Int) + 4 - kChecksumLen - c.tag_.length =
      payload.length := by
    simp only [kChecksumLen, List.length_append]
    omega
  have data : bytesAt bytes ⟨(kHeaderLen : Int) + c.tag_.length, payload.length⟩ = payload := by
    have cut : bytes = bigEndian 4 ((c.tag_ ++ payload).length + 4) ++ c.tag_ ++
        (payload ++ (sum ++ rest)) := by
      rw [complete.split]
      simp only [List.append_assoc]
    rw [cut]
    refine bytesAt_middle ?_ rfl
    simp [kHeaderLen]
  simp only [parse, validateChecksum_spec complete, decide_eq_true_eq, if_pos right, same,
    if_true, length, data]
  cases c.parseFromArray payload with
  | none => rfl
  | some m => rfl

theorem raw_bytes (complete : Complete c bytes covered sum rest) :
    bytesAt bytes ⟨0, kHeaderLen + (covered.length + 4)⟩ =
      bigEndian 4 (covered.length + 4) ++ covered ++ sum := by
  rw [complete.split]
  have whole : bytesAt ([] ++ (bigEndian 4 (covered.length + 4) ++ covered ++ sum ++ rest))
      ⟨0, kHeaderLen + (covered.length + 4)⟩ =
      bigEndian 4 (covered.length + 4) ++ covered ++ sum := by
    refine bytesAt_middle rfl ?_
    simp only [List.length_append, length_bigEndian, complete.four, kHeaderLen]
    omega
  exact whole

theorem length_complete (complete : Complete c bytes covered sum rest) :
    bytes.length = 8 + covered.length + rest.length := by
  rw [complete.split]
  simp only [List.length_append, length_bigEndian, complete.four]
  omega

theorem retrieve_complete (valid : s.buf.Valid)
    (complete : Complete c s.buf.readable covered sum rest) :
    ∃ buf, s.buf.retrieve ((kHeaderLen : Int) + (covered.length + 4)).toNat = .ok buf ∧
      buf.Valid ∧ buf.readable = rest := by
  have size : ((kHeaderLen : Int) + (covered.length + 4)).toNat = 8 + covered.length := by
    simp only [kHeaderLen]
    omega
  have enough : 8 + covered.length ≤ s.buf.readableBytes := by
    rw [← Buffer.readable_length valid, length_complete complete]
    omega
  obtain ⟨buf, ran, valid', left⟩ := Buffer.retrieve_spec valid enough
  refine ⟨buf, by rw [size]; exact ran, valid', ?_⟩
  rw [left, complete.split]
  apply List.drop_left'
  simp only [List.length_append, length_bigEndian, complete.four]
  omega

theorem inside_frame {present : Nat} {frame : Int} (fits : frame ≤ present)
    (inside : ∀ span ∈ spans, 0 ≤ span.start ∧ 0 ≤ span.length ∧ span.start + span.length ≤ frame) :
    ∀ p ∈ spans.map (fun span => (⟨present, frame, span⟩ : Passed)), Inside p := by
  intro p member
  obtain ⟨span, listed, rfl⟩ := List.mem_map.mp member
  obtain ⟨start, length, stop⟩ := inside span listed
  exact ⟨start, length, stop, fits⟩

theorem raw_refuses (complete : Complete c bytes covered sum rest) (rawCb : raw ∈ c.rawCb_)
    (refused : raw (bigEndian 4 (covered.length + 4) ++ covered ++ sum) = false) :
    c.rawCb_.any (fun raw => !raw (bytesAt bytes ⟨0, kHeaderLen + (covered.length + 4)⟩)) = true := by
  have rawCb : c.rawCb_ = some raw := rawCb
  rw [rawCb, raw_bytes complete, Option.any_some, refused]
  rfl

theorem raw_hears (complete : Complete c bytes covered sum rest)
    (heard : c.Heard (bigEndian 4 (covered.length + 4) ++ covered ++ sum)) :
    ¬c.rawCb_.any (fun raw => !raw (bytesAt bytes ⟨0, kHeaderLen + (covered.length + 4)⟩)) = true := by
  rw [raw_bytes complete]
  cases rawCb : c.rawCb_ with
  | none => simp
  | some raw =>
    rw [Option.any_some, heard raw rawCb]
    simp

theorem frame_fits (valid : s.buf.Valid) (complete : Complete c s.buf.readable covered sum rest) :
    (kHeaderLen : Int) + (covered.length + 4) ≤ s.buf.readableBytes := by
  rw [← Buffer.readable_length valid, length_complete complete]
  simp only [kHeaderLen]
  omega

def shown (c : ProtobufCodecLite M) (s : Session M) (len : Int) : Session M :=
  s.pass (kHeaderLen + len) (c.rawCb_.toList.map fun _ => ⟨0, kHeaderLen + len⟩)

theorem inside_shown (valid : s.buf.Valid) (complete : Complete c s.buf.readable covered sum rest) :
    ∃ more, (c.shown s (covered.length + 4)).passed = s.passed ++ more ∧ ∀ p ∈ more, Inside p := by
  refine ⟨_, rfl, inside_frame (frame_fits valid complete) ?_⟩
  intro span member
  obtain ⟨raw, -, rfl⟩ := List.mem_map.mp member
  simp only
  omega

theorem onFrame_skipped (valid : s.buf.Valid)
    (complete : Complete c s.buf.readable covered sum rest) (rawCb : raw ∈ c.rawCb_)
    (refused : raw (bigEndian 4 (covered.length + 4) ++ covered ++ sum) = false) :
    ∃ t, c.onFrame s (covered.length + 4) = .ok (t, true) ∧ Did s [] rest t := by
  obtain ⟨buf, ran, valid', left⟩ := retrieve_complete valid complete
  refine ⟨{ c.shown s (covered.length + 4) with buf := buf }, ?_, valid', left,
    (List.append_nil _).symm, inside_shown valid complete⟩
  have refuses := raw_refuses complete rawCb refused
  simp only [onFrame, Session.pass, refuses, if_true, ran, ok_bind, pure_eq_ok]
  rfl

theorem inside_parsed (valid : s.buf.Valid) (complete : Complete c s.buf.readable covered sum rest)
    (within : ∀ span ∈ spans, 0 ≤ span.start ∧ 0 ≤ span.length ∧
      span.start + span.length ≤ kHeaderLen + (covered.length + 4)) :
    ∃ more, ((c.shown s (covered.length + 4)).pass (kHeaderLen + (covered.length + 4)) spans).passed =
      s.passed ++ more ∧ ∀ p ∈ more, Inside p := by
  obtain ⟨more, passed, inside⟩ := inside_shown valid complete
  have fits := inside_frame (frame_fits valid complete) within
  refine ⟨more ++ spans.map (fun span =>
    ⟨s.buf.readableBytes, kHeaderLen + (covered.length + 4), span⟩), ?_, ?_⟩
  · rw [← List.append_assoc, ← passed]
    rfl
  · intro p member
    rcases List.mem_append.mp member with early | late
    · exact inside p early
    · exact fits p late

theorem onFrame_message {m : M} (valid : s.buf.Valid)
    (complete : Complete c s.buf.readable covered sum rest)
    (heard : c.Heard (bigEndian 4 (covered.length + 4) ++ covered ++ sum))
    (parsed : c.parse s.buf.readable kHeaderLen (covered.length + 4) = (.ok m, spans))
    (within : ∀ span ∈ spans, 0 ≤ span.start ∧ 0 ≤ span.length ∧
      span.start + span.length ≤ kHeaderLen + (covered.length + 4)) :
    ∃ t, c.onFrame s (covered.length + 4) = .ok (t, true) ∧ Did s [.message m] rest t := by
  obtain ⟨buf, ran, valid', left⟩ := retrieve_complete valid complete
  refine ⟨{ (c.shown s (covered.length + 4)).pass (kHeaderLen + (covered.length + 4)) spans with
    buf := buf, events := s.events ++ [.message m] }, ?_, valid', left, rfl,
    inside_parsed valid complete within⟩
  have hears := raw_hears complete heard
  simp only [onFrame, Session.pass, if_neg hears, parsed, ran, ok_bind, pure_eq_ok]
  rfl

theorem onFrame_error (valid : s.buf.Valid) (complete : Complete c s.buf.readable covered sum rest)
    (heard : c.Heard (bigEndian 4 (covered.length + 4) ++ covered ++ sum))
    (parsed : c.parse s.buf.readable kHeaderLen (covered.length + 4) = (.error e, spans))
    (within : ∀ span ∈ spans, 0 ≤ span.start ∧ 0 ≤ span.length ∧
      span.start + span.length ≤ kHeaderLen + (covered.length + 4)) :
    ∃ t, c.onFrame s (covered.length + 4) = .ok (t, false) ∧
      Did s [.error e] s.buf.readable t := by
  refine ⟨{ (c.shown s (covered.length + 4)).pass (kHeaderLen + (covered.length + 4)) spans with
    events := s.events ++ [.error e] }, ?_, valid, rfl, rfl, inside_parsed valid complete within⟩
  have hears := raw_hears complete heard
  simp only [onFrame, Session.pass, if_neg hears, parsed, pure_eq_ok]
  rfl

theorem peek_announced (valid : s.buf.Valid) (enough : 4 ≤ s.buf.readableBytes) :
    ∃ len, s.buf.peekInt32 = .ok len ∧ len.toInt = announced s.buf.readable :=
  ⟨_, Buffer.peekInt_spec valid enough, rfl⟩

theorem turn_waits (valid : s.buf.Valid) (waits : c.Waits s.buf.readable) :
    c.turn s = .ok (s, false) := by
  have length := Buffer.readable_length valid
  by_cases few : s.buf.readable.length < c.kMinMessageLen + 4
  · have short : ¬c.kMinMessageLen + kHeaderLen ≤ s.buf.readableBytes := by
      simp only [kHeaderLen]
      omega
    simp only [turn, if_neg short, pure_eq_ok]
  · cases waits with
    | short short => exact absurd short few
    | incomplete inRange more =>
      obtain ⟨low, high⟩ := inRange
      have enough : c.kMinMessageLen + kHeaderLen ≤ s.buf.readableBytes := by
        simp only [kHeaderLen]
        omega
      obtain ⟨len, peeked, same⟩ := peek_announced valid (by simp only [kHeaderLen] at enough; omega)
      have accepted : ¬((kMaxMessageLen : Int) < len.toInt ∨ len.toInt < c.kMinMessageLen) := by
        rw [same]
        omega
      have absent : ¬((kHeaderLen : Int) + len.toInt).toNat ≤ s.buf.readableBytes := by
        rw [same]
        simp only [kHeaderLen]
        omega
      simp only [turn, if_pos enough, peeked, ok_bind, if_neg accepted, if_neg absent, pure_eq_ok]

theorem turn_complete (valid : s.buf.Valid)
    (complete : Complete c s.buf.readable covered sum rest) :
    c.turn s = c.onFrame s (covered.length + 4) := by
  obtain ⟨low, high, tagged⟩ := small_of_inRange complete.inRange
  have fits := frame_fits valid complete
  have size : announced s.buf.readable = (covered.length : Int) + 4 := by
    rw [complete.split, List.append_assoc, List.append_assoc, announced_header (by omega)]
    rfl
  have enough : c.kMinMessageLen + kHeaderLen ≤ s.buf.readableBytes := by
    simp only [kHeaderLen, kMinMessageLen, kChecksumLen] at fits ⊢
    omega
  obtain ⟨len, peeked, same⟩ := peek_announced valid (by simp only [kHeaderLen] at enough; omega)
  have accepted : ¬((kMaxMessageLen : Int) < (covered.length : Int) + 4 ∨
      (covered.length : Int) + 4 < c.kMinMessageLen) := by
    obtain ⟨low, high⟩ := complete.inRange
    omega
  have present : ((kHeaderLen : Int) + (covered.length + 4)).toNat ≤ s.buf.readableBytes := by
    omega
  simp only [turn, if_pos enough, peeked, ok_bind, same, size, if_neg accepted, if_pos present]

theorem turn_refuses (valid : s.buf.Valid) (readable : s.buf.readable = bytes)
    (refuses : c.Refuses bytes e) :
    ∃ t, c.turn s = .ok (t, false) ∧ Did s [.error e] bytes t := by
  cases refuses with
  | invalidLength enough outside =>
    subst readable
    have length := Buffer.readable_length valid
    have enough : c.kMinMessageLen + kHeaderLen ≤ s.buf.readableBytes := by
      simp only [kHeaderLen]
      omega
    obtain ⟨len, peeked, same⟩ := peek_announced valid (by simp only [kHeaderLen] at enough; omega)
    have refused : (kMaxMessageLen : Int) < len.toInt ∨ len.toInt < c.kMinMessageLen := by
      rw [same]
      simp only [InRange, not_and] at outside
      omega
    refine ⟨{ s with events := s.events ++ [.error .kInvalidLength] }, ?_, valid, rfl, rfl, [],
      (List.append_nil _).symm, by simp⟩
    simp only [turn, if_pos enough, peeked, ok_bind, if_pos refused, pure_eq_ok]
  | checkSum inRange heard four wrong =>
    have complete : Complete c s.buf.readable _ _ _ := ⟨readable, four, inRange⟩
    rw [turn_complete valid complete, ← readable]
    refine onFrame_error valid complete heard (parse_wrong complete wrong) ?_
    simp only [List.mem_cons, List.not_mem_nil, or_false, forall_eq_or_imp, forall_eq, kHeaderLen]
    omega
  | unknownMessageType inRange heard other =>
    have complete : Complete c s.buf.readable _ _ _ := ⟨readable, length_bigEndian _ _, inRange⟩
    rw [turn_complete valid complete, ← readable]
    refine onFrame_error valid complete heard (parse_untagged complete rfl other) ?_
    obtain ⟨-, -, tagged⟩ := small_of_inRange inRange
    simp only [List.mem_cons, List.not_mem_nil, or_false, forall_eq_or_imp, forall_eq, kHeaderLen]
    omega
  | @parseError payload rest inRange heard unparsable =>
    have complete : Complete c s.buf.readable _ _ _ := readable ▸ complete_frame inRange
    have parsed := parse_tagged complete rfl
    rw [unparsable] at parsed
    rw [turn_complete valid complete, ← readable]
    refine onFrame_error valid complete ?_ parsed ?_
    · simpa only [frame, List.length_append, List.append_assoc] using heard
    · simp only [List.mem_cons, List.not_mem_nil, or_false, forall_eq_or_imp, forall_eq, kHeaderLen,
        List.length_append]
      omega

theorem turn_message {m : M} (valid : s.buf.Valid)
    (readable : s.buf.readable = c.frame payload ++ rest)
    (inRange : c.InRange (c.tag_.length + payload.length + 4)) (heard : c.Heard (c.frame payload))
    (parsed : c.parseFromArray payload = some m) :
    ∃ t, c.turn s = .ok (t, true) ∧ Did s [.message m] rest t := by
  have complete : Complete c s.buf.readable _ _ _ := readable ▸ complete_frame inRange
  have verdict := parse_tagged complete rfl
  rw [parsed] at verdict
  rw [turn_complete valid complete]
  refine onFrame_message valid complete ?_ verdict ?_
  · simpa only [frame, List.length_append, List.append_assoc] using heard
  · simp only [List.mem_cons, List.not_mem_nil, or_false, forall_eq_or_imp, forall_eq, kHeaderLen,
      List.length_append]
    omega

theorem turn_skipped {body : List UInt8} (valid : s.buf.Valid)
    (readable : s.buf.readable = bigEndian 4 body.length ++ body ++ rest)
    (inRange : c.InRange body.length) (rawCb : raw ∈ c.rawCb_)
    (refused : raw (bigEndian 4 body.length ++ body) = false) :
    ∃ t, c.turn s = .ok (t, true) ∧ Did s [] rest t := by
  obtain ⟨low, -, -⟩ := small_of_inRange inRange
  have length : (body.take (body.length - 4)).length + 4 = body.length := by
    rw [List.length_take]
    omega
  have cut : body.take (body.length - 4) ++ body.drop (body.length - 4) = body :=
    List.take_append_drop _ _
  have complete : Complete c s.buf.readable (body.take (body.length - 4))
      (body.drop (body.length - 4)) rest := by
    refine ⟨?_, ?_, ?_⟩
    · rw [readable, length, List.append_assoc (bigEndian 4 body.length) (body.take _), cut]
    · rw [List.length_drop]
      omega
    · have same : ((body.take (body.length - 4)).length : Int) + 4 = body.length := by omega
      rw [same]
      exact inRange
  rw [turn_complete valid complete]
  refine onFrame_skipped valid complete rawCb ?_
  rw [length, List.append_assoc, cut]
  exact refused

theorem whileLoop_parses {fuel : Nat} (parses : Parses c bytes events left) (valid : s.buf.Valid)
    (readable : s.buf.readable = bytes) (enough : bytes.length < fuel) :
    ∃ t, whileLoop c.turn fuel s = .ok (some t) ∧ Did s events left t := by
  have positive : 0 < fuel := by omega
  induction parses generalizing s fuel with
  | waits waits =>
    have stop := turn_waits valid (readable ▸ waits)
    exact ⟨s, whileLoop_stop positive stop, valid, readable, (List.append_nil _).symm, [],
      (List.append_nil _).symm, by simp⟩
  | refuses refuses =>
    obtain ⟨t, stop, did⟩ := turn_refuses valid readable refuses
    exact ⟨t, whileLoop_stop positive stop, did⟩
  | @message payload rest left m events inRange heard parsed further ih =>
    obtain ⟨t, again, did⟩ := turn_message valid readable inRange heard parsed
    rw [List.length_append, length_frame] at enough
    have fewer : rest.length < fuel - 1 := by omega
    obtain ⟨u, ran, did'⟩ := ih did.valid did.readable fewer (by omega)
    exact ⟨u, (whileLoop_again positive again).trans ran, did_trans did did'⟩
  | @skipped body rest left events raw inRange rawCb refused further ih =>
    obtain ⟨t, again, did⟩ := turn_skipped valid readable inRange rawCb refused
    simp only [List.length_append, length_bigEndian] at enough
    have fewer : rest.length < fuel - 1 := by omega
    obtain ⟨u, ran, did'⟩ := ih did.valid did.readable fewer (by omega)
    exact ⟨u, (whileLoop_again positive again).trans ran, did_trans did did'⟩

theorem onMessage_parses {b : Buffer} (valid : b.Valid) (parses : Parses c b.readable events left) :
    ∃ t, c.onMessage b = .ok (some t) ∧ Did ⟨b, [], []⟩ events left t := by
  refine whileLoop_parses parses valid rfl ?_
  rw [Buffer.readable_length valid]
  exact Nat.lt_succ_self _

theorem parses_unique {events' : List (Event M)} {left' : List UInt8}
    (first : Parses c bytes events left) (second : Parses c bytes events' left') :
    events = events' ∧ left = left' := by
  obtain ⟨b, valid, readable⟩ := Buffer.exists_readable bytes
  obtain ⟨t, ran, did⟩ := onMessage_parses valid (readable ▸ first)
  obtain ⟨u, ran', did'⟩ := onMessage_parses valid (readable ▸ second)
  rw [ran] at ran'
  cases ran'
  exact ⟨did.events.symm.trans did'.events, did.readable.symm.trans did'.readable⟩

theorem parses_ends (parses : Parses c bytes events left) :
    (c.Waits left ∧ ∀ e, .error e ∉ events) ∨
      ∃ e ms, c.Refuses left e ∧ events = ms ++ [.error e] ∧ ∀ e, .error e ∉ ms := by
  induction parses with
  | waits waits => exact Or.inl ⟨waits, by simp⟩
  | @refuses bytes e refuses => exact Or.inr ⟨e, [], refuses, rfl, by simp⟩
  | @message payload rest left m events inRange heard parsed further ih =>
    rcases ih with ⟨waits, clean⟩ | ⟨e, ms, refuses, rfl, clean⟩
    · exact Or.inl ⟨waits, by simpa using clean⟩
    · exact Or.inr ⟨e, .message m :: ms, refuses, rfl, by simpa using clean⟩
  | skipped inRange rawCb refused further ih => exact ih

theorem not_refuses_of_waits (waits : c.Waits bytes) : ¬c.Refuses bytes e := by
  intro refuses
  have same := parses_unique (.waits waits) (.refuses refuses)
  cases same.1

/-- On every content of the buffer onMessage ends, whatever fuel beyond the number of
    bytes it is given. It does what a reader of the format does and nothing else: it
    stops without an error exactly when it has to wait, and with an error in front of
    the frame at fault. The bytes and lengths that it hands on lie in the frame. -/
theorem onMessage_reads_format (c : ProtobufCodecLite M) {b : Buffer} (valid : b.Valid) :
    ∃ t, (∀ fuel, b.readableBytes < fuel → whileLoop c.turn fuel ⟨b, [], []⟩ = .ok (some t)) ∧
      c.onMessage b = .ok (some t) ∧
      (∀ events left, Parses c b.readable events left ↔
        events = t.events ∧ left = t.buf.readable) ∧
      ((∀ e, .error e ∉ t.events) ↔ c.Waits t.buf.readable) ∧
      (∀ e, .error e ∈ t.events → c.Refuses t.buf.readable e) ∧
      ∀ p ∈ t.passed, Inside p := by
  obtain ⟨events, left, parses⟩ := parses_total c b.readable
  obtain ⟨t, ran, did⟩ := onMessage_parses valid parses
  have happened : t.events = events := did.events
  have remains : t.buf.readable = left := did.readable
  obtain ⟨more, passed, inside⟩ := did.passed
  have passed : t.passed = more := passed
  refine ⟨t, fun fuel enough => whileLoop_more ran enough, ran, ?_⟩
  rw [happened, remains, passed]
  refine ⟨?_, ?_, ?_, inside⟩
  · intro events' left'
    constructor
    · intro parses'
      exact parses_unique parses' parses
    · rintro ⟨rfl, rfl⟩
      exact parses
  · rcases parses_ends parses with ⟨waits, clean⟩ | ⟨e, ms, refuses, rfl, -⟩
    · exact ⟨fun _ => waits, fun _ => clean⟩
    · constructor
      · intro clean
        exact absurd (by simp) (clean e)
      · intro waits
        exact absurd refuses (not_refuses_of_waits waits)
  · intro e member
    rcases parses_ends parses with ⟨-, clean⟩ | ⟨e', ms, refuses, rfl, clean⟩
    · exact absurd member (clean e)
    · rcases List.mem_append.mp member with early | last
      · exact absurd early (clean e)
      · cases List.mem_singleton.mp last
        exact refuses

def adler (bytes : List UInt8) : BitVec 32 :=
  let (a, b) := bytes.foldl (fun (a, b) byte =>
    ((a + byte.toNat) % 65521, (b + (a + byte.toNat) % 65521) % 65521)) (1, 0)
  BitVec.ofNat 32 (b * 65536 + a)

def rpc : ProtobufCodecLite (List UInt8) := ⟨[82, 80, 67, 48], none, some, id, adler⟩

theorem onMessage_reads_format_of_rpc :
    ∃ b t, b.Valid ∧ b.readable = rpc.frame [1, 2] ++ [0, 0, 0] ∧ rpc.onMessage b = .ok (some t) ∧
      t.events = [.message [1, 2]] ∧ t.buf.readable = [0, 0, 0] ∧ ∀ p ∈ t.passed, Inside p := by
  obtain ⟨b, valid, readable⟩ := Buffer.exists_readable (rpc.frame [1, 2] ++ [0, 0, 0])
  have parses : Parses rpc (rpc.frame [1, 2] ++ [0, 0, 0]) [.message [1, 2]] [0, 0, 0] := by
    refine .message ⟨by decide, by decide⟩ ?_ rfl (.waits (.short (by decide)))
    intro raw none
    cases none
  obtain ⟨t, -, ran, format, -, -, inside⟩ := onMessage_reads_format rpc valid
  obtain ⟨events, left⟩ := (format _ _).mp (readable ▸ parses)
  exact ⟨b, t, valid, readable, ran, events.symm, left.symm, inside⟩

end ProtobufCodecLite
end Muduo
