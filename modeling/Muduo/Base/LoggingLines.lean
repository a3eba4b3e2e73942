import Muduo.Base.LoggingTime

/-!
The record that ~Logger hands to g_output. A stream leaves out each piece that it has no room for,
and the place in the source is five pieces. The number of the line needs the room of any number,
so all five are kept exactly if there is room for the name of the file and 52 more; otherwise
some or all of them are missing, and so may be the end of the line.
-/
namespace Muduo
open Lib Lib.Signed
namespace LogStream

/-! ### What a stream keeps -/

def texts (pieces : List Piece) : List Char := (pieces.map Piece.text).flatten

def Whole (avail : Int) : List Piece → Prop
  | [] => True
  | p :: ps => (p.fits avail = true ∨ p.text = []) ∧ Whole (avail - p.text.length) ps

theorem fits_of_size {p : Piece} {n : Nat} (size : p.size = some n) (avail : Int) :
    p.fits avail = true ↔ n < avail := by
  rw [Piece.fits, size]
  exact decide_eq_true_iff

theorem fits_of_numeric {p : Piece} (size : p.size = none) (avail : Int) :
    p.fits avail = true ↔ 48 ≤ avail := by
  rw [Piece.fits, size]
  exact decide_eq_true_iff

theorem texts_cons (p : Piece) (ps : List Piece) : texts (p :: ps) = p.text ++ texts ps := by
  simp only [texts, List.map_cons, List.flatten_cons]

theorem length_kept_le (avail : Int) (pieces : List Piece) :
    (kept avail pieces).length ≤ (texts pieces).length := by
  induction pieces generalizing avail with
  | nil => exact Nat.le_refl _
  | cons p ps ih =>
    rw [texts_cons, kept, List.length_append]
    split
    · have rest := ih (avail - p.text.length)
      rw [List.length_append]
      omega
    · have rest := ih avail
      omega

theorem kept_eq_texts_iff (avail : Int) (pieces : List Piece) :
    kept avail pieces = texts pieces ↔ Whole avail pieces := by
  induction pieces generalizing avail with
  | nil => exact iff_of_true rfl trivial
  | cons p ps ih =>
    rw [texts_cons, kept, Whole]
    by_cases room : p.fits avail = true
    · rw [if_pos room, List.append_cancel_left_eq, ih]
      exact ⟨fun rest => ⟨Or.inl room, rest⟩, fun whole => whole.2⟩
    · rw [if_neg room]
      by_cases empty : p.text = []
      · rw [empty, List.nil_append, ih]
        simp
      · -- a text is missing, so the texts that are kept are too short
        have short := length_kept_le avail ps
        have positive := List.length_pos_iff.mpr empty
        constructor
        · intro same
          have lengths := congrArg List.length same
          rw [List.length_append] at lengths
          omega
        · intro whole
          rcases whole.1 with fits | none_
          · exact absurd fits room
          · exact absurd none_ empty

theorem Buffer.Sound.shlAll {b b' : Buffer} (sound : b.Sound) {pieces : List Piece}
    (ran : b.shlAll pieces = .ok b') : b'.Sound := by
  obtain ⟨b₁, ran₁, sound₁, -⟩ := Buffer.shlAll_kept sound pieces
  rw [ran] at ran₁
  cases ran₁
  exact sound₁

end LogStream

namespace Logger
open LogStream

/-! ### The end of a record -/

def place (file : SourceFile) (line : Integer true 32) : List Char :=
  " - ".toList ++ file.data_ ++ ':' :: integerText line.value ++ ['\n']

section
variable {text : List Char} (short : text.length ≤ 2147483647)

theorem piece_text : (piece text short).text = text := by
  have whole : text.take (text.length : Int).toNat = text := by
    rw [Int.toNat_natCast, List.take_length]
  exact whole

theorem piece_size : (piece text short).size = some text.length := by
  have same := toUnsigned_of_lt (w := 64) (Int.natCast_nonneg text.length) (by norm_num; omega)
  have size : toUnsigned 64 (text.length : Int) = text.length := by omega
  exact congrArg some size

end

theorem literal_dash :
    (literal " - ".toList).text = " - ".toList ∧ (literal " - ".toList).size = some 3 := by
  decide +kernel

theorem char_text (c : Char) : (Piece.char c).text = [c] := rfl

theorem int_text (v : Integer true 32) : (Piece.int v).text = integerText v.value := rfl

theorem texts_finishPieces (file : SourceFile) (line : Integer true 32) :
    texts (finishPieces file line) = place file line := by
  simp only [finishPieces, place, texts, List.map_cons, List.map_nil, List.flatten_cons,
    List.flatten_nil, literal_dash.1, piece_text, char_text, int_text, List.append_assoc,
    List.cons_append, List.nil_append]

theorem integerText_ne_nil (value : Int) : integerText value ≠ [] := by
  unfold integerText
  split
  · exact List.cons_ne_nil _ _
  · exact Nat.toDigits_ne_nil

theorem whole_finishPieces_iff (file : SourceFile) (line : Integer true 32) (avail : Int) :
    Whole avail (finishPieces file line) ↔ file.data_.length + 52 ≤ avail := by
  have digits := length_integerText (line.natAbs_lt (by decide))
  have dash : (" - ".toList).length = 3 := by decide
  simp only [finishPieces, Whole, fits_of_size literal_dash.2, literal_dash.1,
    fits_of_size (piece_size file.short), piece_text, fits_of_size (p := .char ':') rfl,
    fits_of_size (p := .char '\n') rfl, fits_of_numeric (p := .int line) rfl, char_text, int_text,
    integerText_ne_nil, List.cons_ne_nil, or_false, and_true, List.length_singleton, dash]
  have nonempty : " - ".toList ≠ [] := by decide
  simp only [nonempty, or_false]
  omega

theorem take_length_content {b : LogStream.Buffer} (sound : b.Sound) :
    b.data_.take b.length.toNat = b.content := by
  rw [Buffer.length_eq (Nat.le_of_lt sound.room), Int.toNat_natCast]
  rfl

theorem destroy_spec {impl : Impl} (sound : impl.stream_.Sound) :
    destroy impl = .ok (impl.stream_.content ++
      kept impl.stream_.avail (finishPieces impl.basename_ impl.line_),
      decide (impl.level_ = .FATAL)) := by
  obtain ⟨stream, ran, sound', content⟩ := Buffer.shlAll_kept sound
    (finishPieces impl.basename_ impl.line_)
  rw [destroy, Impl.finish, ran, ok_bind, pure_eq_ok, ok_bind, pure_eq_ok, ← content]
  dsimp only
  rw [take_length_content sound']

/-! ### Every Logger -/

def Arguments.file : Arguments → SourceFile
  | .plain file _ | .leveled file _ _ | .func file _ _ _ | .sys file _ _ _ => file

def Arguments.line : Arguments → Integer true 32
  | .plain _ line | .leveled _ line _ | .func _ line _ _ | .sys _ line _ _ => line

structure Impl.Of (file : SourceFile) (line : Integer true 32) (impl : Impl) : Prop where
  sound : impl.stream_.Sound
  file_eq : impl.basename_ = file
  line_eq : impl.line_ = line

section
variable {gmtime_r : Int → TimeZone.Tm} {strerror_r : Integer true 32 → CString} {at_ : Place}
  {file : SourceFile} {line : Integer true 32} {impl : Impl} {thread : Thread}

theorem stream_spec (of : impl.Of file line) (values : List Piece) :
    ∃ impl', impl.stream values = .ok impl' ∧ impl'.Of file line ∧ impl'.level_ = impl.level_ ∧
      impl'.stream_.content = impl.stream_.content ++ kept impl.stream_.avail values := by
  obtain ⟨stream, ran, sound, content⟩ := Buffer.shlAll_kept of.sound values
  refine ⟨{ impl with stream_ := stream }, ?_, ⟨sound, of.file_eq, of.line_eq⟩, rfl, content⟩
  rw [Impl.stream, ran, ok_bind, pure_eq_ok]

theorem impl_new_of {level : LogLevel} {savedErrno : Integer true 32}
    (made : Impl.new gmtime_r strerror_r at_ level savedErrno file line = .ok (thread, impl)) :
    impl.Of file line := by
  obtain ⟨⟨thread', text⟩, -, made⟩ := bind_eq_ok.mp made
  obtain ⟨stream, ran, made⟩ := bind_eq_ok.mp made
  cases made
  have start : Buffer.Sound ⟨at_.data, 0⟩ := ⟨at_.size, (by decide : 0 < kSmallBuffer)⟩
  exact ⟨start.shlAll ran, rfl, rfl⟩

theorem new_of {args : Arguments}
    (made : new gmtime_r strerror_r at_ args = .ok (thread, impl)) :
    impl.Of args.file args.line := by
  cases args with
  | plain file line => exact impl_new_of made
  | leveled file line level => exact impl_new_of made
  | sys file line toAbort errno => exact impl_new_of made
  | func file line level func =>
    obtain ⟨⟨thread', impl'⟩, made', made⟩ := bind_eq_ok.mp made
    obtain ⟨stream, ran, made⟩ := bind_eq_ok.mp made
    have of := impl_new_of made'
    cases made
    exact ⟨of.sound.shlAll ran, of.file_eq, of.line_eq⟩

end

/-- For every Logger and whatever is streamed into it, the destructor hands out what the stream
    holds, and behind it the place in the source exactly if the stream has room for the name of
    the file and 52 more characters. -/
theorem record_ends_with_place (gmtime_r : Int → TimeZone.Tm)
    (strerror_r : Integer true 32 → CString) (at_ : Place) (args : Arguments) (thread : Thread)
    (made : Impl) (constructed : new gmtime_r strerror_r at_ args = .ok (thread, made))
    (values : List Piece) :
    ∃ impl out, made.stream values = .ok impl ∧
      destroy impl = .ok (out, decide (made.level_ = .FATAL)) ∧
      (out = impl.stream_.content ++ place args.file args.line ↔
        args.file.data_.length + 52 ≤ impl.stream_.avail) ∧
      (args.file.data_.length + 52 ≤ impl.stream_.avail → place args.file args.line <:+ out) := by
  obtain ⟨impl, streamed, of, level, -⟩ := stream_spec (new_of constructed) values
  have destroyed := destroy_spec of.sound
  rw [of.file_eq, of.line_eq, level] at destroyed
  have exact_ : impl.stream_.content ++
      kept impl.stream_.avail (finishPieces args.file args.line) =
        impl.stream_.content ++ place args.file args.line ↔
      args.file.data_.length + 52 ≤ impl.stream_.avail := by
    rw [List.append_cancel_left_eq, ← texts_finishPieces, kept_eq_texts_iff, whole_finishPieces_iff]
  refine ⟨impl, _, streamed, destroyed, exact_, ?_⟩
  intro room
  rw [exact_.mpr room]
  exact List.suffix_append _ _

def mainThread : Place where
  zone := ⟨none⟩
  thread := {}
  time := 1500000
  tid := ⟨77, by decide⟩
  data := List.replicate 4000 'z'
  size := List.length_replicate

def logInfo : Arguments := .plain (.new "net/Poller.cc".toList (by decide)) ⟨12, by decide⟩

def noMessage (_ : Integer true 32) : CString := ⟨[nul], by decide⟩

def header : List Char := "19700101 00:00:01.500000Z    77 INFO  ".toList

theorem logInfo_header : ∃ thread made, new civilTm noMessage mainThread logInfo =
    .ok (thread, made) ∧ made.level_ = .INFO ∧ made.stream_.content = header := by
  have computed : (new civilTm noMessage mainThread logInfo).toOption.map
      (fun r => (r.2.level_, r.2.stream_.content)) = some (.INFO, header) := by decide +kernel
  cases ran : new civilTm noMessage mainThread logInfo with
  | error e =>
    rw [ran] at computed
    cases computed
  | ok r =>
    rw [ran] at computed
    have same := Option.some.inj computed
    exact ⟨r.1, r.2, rfl, congrArg Prod.fst same, congrArg Prod.snd same⟩

theorem logInfo_string (message : List Char) (room : message.length < 3962) {made : Impl}
    (of : made.Of logInfo.file logInfo.line) (content : made.stream_.content = header) :
    ∃ impl, made.stream [.string message] = .ok impl ∧ impl.Of logInfo.file logInfo.line ∧
      impl.level_ = made.level_ ∧ impl.stream_.content = header ++ message ∧
      impl.stream_.avail = 3962 - message.length := by
  have length : header.length = 38 := by decide +kernel
  obtain ⟨impl, streamed, of', level, content'⟩ := stream_spec of [.string message]
  have avail := of.sound.avail_content
  rw [content, length] at avail
  have fits : (Piece.string message).fits made.stream_.avail = true := by
    rw [fits_of_size rfl, avail]
    omega
  have whole : impl.stream_.content = header ++ message := by
    rw [content', content, kept, if_pos fits, kept, List.append_nil]
    rfl
  refine ⟨impl, streamed, of', level, whole, ?_⟩
  rw [of'.sound.avail_content, whole, List.length_append, length]
  omega

theorem record_ends_with_place_of_short : ∃ thread made impl out,
    new civilTm noMessage mainThread logInfo = .ok (thread, made) ∧
      made.stream [.string "hello".toList] = .ok impl ∧ destroy impl = .ok (out, false) ∧
      " - Poller.cc:12\n".toList <:+ out := by
  obtain ⟨thread, made, ran, level, content⟩ := logInfo_header
  obtain ⟨impl, out, streamed, destroyed, -, suffix⟩ := record_ends_with_place civilTm noMessage
    mainThread logInfo thread made ran [.string "hello".toList]
  obtain ⟨impl', streamed', -, -, -, avail⟩ :=
    logInfo_string "hello".toList (by decide) (new_of ran) content
  obtain rfl : impl = impl' := Except.ok.inj (streamed.symm.trans streamed')
  have file : logInfo.file.data_.length = 9 := by decide +kernel
  have hello : "hello".toList.length = 5 := by decide
  have text : place logInfo.file logInfo.line = " - Poller.cc:12\n".toList := by decide +kernel
  rw [file, avail, hello, text] at suffix
  refine ⟨thread, made, impl, out, ran, streamed, ?_, suffix (by decide)⟩
  rw [destroyed, level]
  rfl

/-- A string of 3961 characters fills the stream; nothing of the place in the source is kept, and
    the next record is on the same line. -/
theorem record_without_newline : ∃ thread made impl out,
    new civilTm noMessage mainThread logInfo = .ok (thread, made) ∧
      made.stream [.string (List.replicate 3961 'y')] = .ok impl ∧
      destroy impl = .ok (out, false) ∧ out = header ++ List.replicate 3961 'y' ∧ '\n' ∉ out := by
  obtain ⟨thread, made, ran, level, content⟩ := logInfo_header
  have length : (List.replicate 3961 'y').length = 3961 := List.length_replicate
  obtain ⟨impl, streamed, of, level', whole, avail⟩ :=
    logInfo_string (List.replicate 3961 'y') (by rw [length]; decide) (new_of ran)
      content
  have nothing : kept 1 (finishPieces logInfo.file logInfo.line) = [] := by decide +kernel
  have destroyed := destroy_spec of.sound
  have one : (3962 : Int) - (3961 : Nat) = 1 := by decide
  rw [of.file_eq, of.line_eq, avail, length, one, nothing, List.append_nil, whole, level', level]
    at destroyed
  refine ⟨thread, made, impl, _, ran, streamed, destroyed, rfl, ?_⟩
  intro newline
  rcases List.mem_append.mp newline with before | after
  · exact absurd before (by decide +kernel)
  · exact absurd (List.eq_of_mem_replicate after) (by decide)

end Logger
end Muduo
